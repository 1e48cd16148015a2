import TpmFuzzer.Harness.CommandGrammar
import TpmFuzzer.Harness.Drivers

/-!
# From a message to the request

What the session layer sends in place of a command is the same command under the layout, with at
most another nonce and HMAC in its only authorization (`patch_reads`).  So everything that
`proto-fuzzer.cc` sends for an input is laid out as the messages of the input say (`fuzzed_reads`).
-/

namespace Harness

open Bytes Tpm Session Proto Reading Runs

/-! ## The session layer -/

/-- The same command, up to the values of its only authorization. -/
structure SameCommand (w w' : WireCommand) : Prop where
  tag : w'.tag = w.tag
  commandCode : w'.commandCode = w.commandCode
  handles : w'.handles = w.handles
  params : w'.params = w.params
  sessions : w'.sessions = w.sessions ∨ ∃ entry nonce hmac, w.sessions = some [entry] ∧
    nonce.bytes = nonceCaller ∧
    hmac.size = 32 ∧ w'.sessions = some [{ entry with nonce := nonce, hmac := hmac }]

/-- Two messages that come apart as the same command, or neither of them does. -/
def ReadsAlike (m m' : Bytes) : Prop :=
  Option.Rel (fun w w' => SameCommand w w' ∧ w'.commandSize = UInt32.ofNat m'.length)
    (whole readCommand m) (whole readCommand m')

/-- The two tables of the numbers of handles agree. -/
theorem handleCount_eq {code : UInt32} {attr : CommandAttrEntry} {n : Nat} {shapes : List Shape}
    (hattr : lookupCommandAttr code = some attr)
    (htable : commandTable.lookup code = some (n, shapes)) :
    attr.handleCount = n := by
  have hall : ∀ e ∈ kTable, ((commandTable.lookup e.commandCode).map Prod.fst).getD e.handleCount =
      e.handleCount := by
    decide
  have h := hall attr (List.mem_of_find?_eq_some hattr)
  rw [lookupCommandAttr_code hattr, htable] at h
  exact h.symm

theorem reads_entryArea (entry : AuthEntry) :
    Reads (readSessions TPM2_ST_SESSIONS)
      (write32 (UInt32.ofNat entry.encode.length) ++ entry.encode)
      (some [entry]) := by
  have hnonce := entry.nonce.length_lt
  have hhmac := entry.hmac.length_lt
  have hlen : entry.encode.length = 9 + entry.nonce.bytes.length + entry.hmac.bytes.length :=
    entry.length_encode
  have hsize : (UInt32.ofNat entry.encode.length).toNat = entry.encode.length :=
    UInt32.toNat_ofNat_of_lt' (show entry.encode.length < 2 ^ 32 by omega)
  have hall : readAll AuthEntry.read entry.encode = some [entry] := by
    have hone : ∀ e ∈ [entry], Reads AuthEntry.read e.encode (id e) ∧ e.encode ≠ [] := by
      intro e he
      obtain rfl := List.mem_singleton.mp he
      exact ⟨reads_authEntry e, List.ne_nil_of_length_pos (by omega)⟩
    have h := readAll_flatMap hone
    rwa [List.flatMap_singleton] at h
  have htake : Reads (takeN (UInt32.ofNat entry.encode.length).toNat)
      entry.encode entry.encode := by
    rw [hsize]
    exact Reads.takeN _
  have harea : Reads readArea (write32 (UInt32.ofNat entry.encode.length) ++ entry.encode)
      [entry] := by
    refine (reads_word32 _).bind (htake.bind_nil ?_)
    rw [hall]
    exact Reads.pure _
  exact harea.bind_nil (Reads.pure _)

/-- A session-tagged command with one authorization, taken apart. -/
theorem whole_entryCommand {code : UInt32} {handles : List UInt32} {shapes : List Shape}
    (htable : commandTable.lookup code = some (handles.length, shapes)) (entry : AuthEntry)
    (params : Bytes) {m : Bytes}
    (hm : m = message TPM2_ST_SESSIONS code (handleBytes handles ++
      (write32 (UInt32.ofNat entry.encode.length) ++ (entry.encode ++ params)))) :
    whole readCommand m = (whole (readParams shapes) params).map fun ws =>
      ⟨TPM2_ST_SESSIONS, UInt32.ofNat m.length, code, handles, some [entry], ws⟩ := by
  rw [← List.append_assoc (write32 _)] at hm
  rw [hm]
  exact whole_readCommand htable (reads_entryArea entry) params

variable (C : Crypto)

theorem authorised_reads {names : ObjectNames} {s : ArmedSession} {code : UInt32}
    {handles : List UInt32}
    (hcount : ∀ n shapes, commandTable.lookup code = some (n, shapes) → handles.length = n)
    (entry : AuthEntry) (params : Bytes) {m : Bytes}
    (hm : m = message TPM2_ST_SESSIONS code (handleBytes handles ++
      (write32 (UInt32.ofNat entry.encode.length) ++ (entry.encode ++ params)))) :
    ReadsAlike m (Layer.authorised C names s code handles entry params) := by
  generalize hmac : C.hmacSha256 s.sessionKey
    (C.sha256 (write32 code ++ (handles.flatMap names.nameOf ++ params)) ++
    (nonceCaller ++ (s.nonceTpm ++ [entry.attrs]))) = mac
  have hlen : mac.length = 32 := by rw [← hmac, C.length_hmacSha256]
  let fresh : AuthEntry := ⟨entry.handle, ⟨nonceCaller, by decide⟩, entry.attrs, ⟨mac, by omega⟩⟩
  have hsize : fresh.encode.length = 57 := by
    rw [AuthEntry.length_encode]
    show 9 + nonceCaller.length + mac.length = 57
    rw [hlen]
    rfl
  have hsent : Layer.authorised C names s code handles entry params = message TPM2_ST_SESSIONS code
      (handleBytes handles ++ (write32 (UInt32.ofNat fresh.encode.length) ++
        (fresh.encode ++ params))) := by
    rw [hsize]
    unfold Layer.authorised
    dsimp only
    rw [hmac]
    simp only [fresh, AuthEntry.encode, TPM2B.encode, List.append_assoc, List.cons_append]
    rfl
  unfold ReadsAlike
  cases htable : commandTable.lookup code with
  | none =>
    rw [hm, hsent, whole_readCommand_unknown htable, whole_readCommand_unknown htable]
    exact .none
  | some row =>
    obtain ⟨n, shapes⟩ := row
    have htable' : commandTable.lookup code = some (handles.length, shapes) := by
      rw [hcount n shapes htable]
      exact htable
    rw [whole_entryCommand htable' entry params hm, whole_entryCommand htable' fresh params hsent]
    cases whole (readParams shapes) params with
    | none => exact .none
    | some ws =>
      exact .some
        ⟨⟨rfl, rfl, rfl, rfl, Or.inr ⟨entry, fresh.nonce, fresh.hmac, rfl, rfl, hlen, rfl⟩⟩, rfl⟩

theorem rewrite_reads {names : ObjectNames} {s : ArmedSession} {m : Bytes} (hmsg : IsMessage m)
    (htag : Tpm.read16 m 0 = TPM2_ST_SESSIONS) (room : Nat) :
    Layer.rewrite C names s m room = m ∨ ReadsAlike m (Layer.rewrite C names s m room) := by
  unfold Layer.rewrite
  dsimp only
  cases hattr : lookupCommandAttr (Tpm.read32 m 6) with
  | none => exact Or.inl rfl
  | some attr =>
    dsimp only
    cases hread : (readTagged attr).run (m.drop 10) with
    | none => exact Or.inl rfl
    | some res =>
      obtain ⟨⟨handles, entry, params⟩, rest⟩ := res
      obtain ⟨c, rfl, rfl, rfl, hmore, rfl, hencode⟩ := exists_taggedCommand hmsg htag hattr hread
      dsimp only
      split
      · right
        have hm : m = message TPM2_ST_SESSIONS (Tpm.read32 m 6) (handleBytes c.handles ++
            (write32 (UInt32.ofNat c.entry.encode.length) ++ (c.entry.encode ++ c.params))) := by
          rw [← lookupCommandAttr_code hattr]
          conv_lhs => rw [← hencode]
          simp only [TaggedCommand.encode, TaggedCommand.body, TaggedCommand.authSize, hmore,
            List.length_nil, Nat.add_zero, List.nil_append]
        refine authorised_reads C (fun n shapes htable => ?_) c.entry c.params hm
        rw [c.handles_length]
        exact handleCount_eq hattr htable
      · exact Or.inl rfl

/-- Whatever the layer knows, what it sends comes apart as the command that it was given does, or
has no layout as that has none. -/
theorem patch_reads (l : Layer) (m : Bytes) (room : Nat) :
    (l.patch C m room).2 = m ∨ ReadsAlike m (l.patch C m room).2 := by
  unfold Layer.patch
  split
  · next hmsg =>
    dsimp only
    split
    · exact Or.inl rfl
    · cases l.session with
      | none => exact Or.inl rfl
      | some s =>
        dsimp only
        split
        · next hpath => exact rewrite_reads C hmsg hpath.2 room
        · exact Or.inl rfl
  · exact Or.inl rfl

/-! ## The fuzzer -/

/-- What stands in a request of the fuzzer. -/
structure CommandSent (privateSize : Nat) (p : CommandParts) (length : Nat) (w : WireCommand) :
    Prop where
  tag : w.tag = p.header.tag.toUInt16
  commandSize : w.commandSize.toNat = length
  commandCode : w.commandCode = p.header.commandCode
  handles : w.handles = p.handles
  params : List.Forall₂ (Field.Says privateSize) p.params w.params
  sessions : w.sessions = p.sessions.map (List.map TPMSession.authEntry) ∨
    ∃ s nonce hmac, p.sessions = some [s] ∧
    nonce.bytes = nonceCaller ∧ hmac.size = 32 ∧
    w.sessions = some [⟨s.sessionHandle, nonce, s.sessionAttributes.toUInt8, hmac⟩]

/-- The request for a command of the input. -/
def Reaches (mu : Tss2Mu) (c : TPMCommand) (request : Bytes) : Prop :=
  ∃ p, (postProcess c).parts = some p ∧
    ((∀ f ∈ p.params, f.Known) → ∃ w, whole readCommand request = some w ∧
      CommandSent mu.privateSize p request.length w) ∧
    (¬ (∀ f ∈ p.params, f.Known) → whole readCommand request = none)

theorem patch_length_le (l : Layer) (m : Bytes) :
    (l.patch C m (m.length + 48)).2.length ≤ m.length + 48 := by
  unfold Layer.patch
  split
  · dsimp only
    split
    · exact Nat.le_add_right _ _
    · cases l.session with
      | none => exact Nat.le_add_right _ _
      | some s =>
        dsimp only
        split
        · unfold Layer.rewrite
          dsimp only
          split
          · exact Nat.le_add_right _ _
          · split
            · exact Nat.le_add_right _ _
            · split
              · next hfits => exact hfits.2.2
              · exact Nat.le_add_right _ _
        · exact Nat.le_add_right _ _
  · exact Nat.le_add_right _ _

/-- The same command says the same, but for the nonce and the HMAC of the session layer. -/
theorem CommandSent.of_same {privateSize length length' : Nat} {p : CommandParts}
    {w w' : WireCommand} (h : CommandSays privateSize p length w) (hsame : SameCommand w w')
    (hsize : w'.commandSize.toNat = length') : CommandSent privateSize p length' w' where
  tag := hsame.tag.trans h.tag
  commandSize := hsize
  commandCode := hsame.commandCode.trans h.commandCode
  handles := hsame.handles.trans h.handles
  params := by
    rw [hsame.params]
    exact h.params
  sessions := by
    rw [← h.sessions]
    rcases hsame.sessions with hsessions | ⟨entry, nonce, hmac, hone, hnonce, hhmac, hsessions⟩
    · exact Or.inl hsessions
    · obtain ⟨ss, hss, hmap⟩ := Option.map_eq_some_iff.mp (h.sessions.symm.trans hone)
      obtain ⟨s, rfl, rfl⟩ := List.map_eq_singleton_iff.mp hmap
      exact Or.inr ⟨s, nonce, hmac, hss, hnonce, hhmac, hsessions⟩

theorem reaches_patch {mu : Tss2Mu} {c : TPMCommand} {m : Bytes}
    (h : marshalCommand mu (postProcess c) = some m) (l : Layer) :
    Reaches mu c (l.patch C m (m.length + 48)).2 := by
  obtain ⟨p, -, -, hp, -, -, -, hle, -⟩ := marshalCommand_whole h
  have hk : kMaxBuffer = 1048576 := rfl
  have hlength := patch_length_le C l m
  have hpatch := patch_reads C l m (m.length + 48)
  generalize (l.patch C m (m.length + 48)).2 = request at hlength hpatch
  refine ⟨p, hp, fun hknown => ?_, fun hunknown => ?_⟩
  · obtain ⟨w, hw, hsays⟩ := marshalCommand_known h hp hknown
    rcases hpatch with rfl | hrel
    · exact ⟨w, hw, .of_same hsays ⟨rfl, rfl, rfl, rfl, Or.inl rfl⟩ hsays.commandSize⟩
    · unfold ReadsAlike at hrel
      rw [hw] at hrel
      generalize whole readCommand request = read at hrel
      cases hrel with
      | some hrel =>
        obtain ⟨hsame, hsize⟩ := hrel
        refine ⟨_, rfl, .of_same hsays hsame ?_⟩
        rw [hsize]
        exact UInt32.toNat_ofNat_of_lt' (show request.length < 2 ^ 32 by omega)
  · have hnone := marshalCommand_unknown h hp hunknown
    rcases hpatch with rfl | hrel
    · exact hnone
    · unfold ReadsAlike at hrel
      rw [hnone] at hrel
      generalize whole readCommand request = read at hrel
      cases hrel
      rfl

section

variable {P : Type} (pl : Platform P) (mu : Tss2Mu)

/-- The loop over a sequence. -/
theorem run_reaches (sequence : TPMCommandSequence) (s : Bench P × Layer) :
    ∃ new, (run (layerExchange pl C) s (marshalled mu (sequence.map postProcess))).1.exchanges =
        s.1.exchanges ++ new ∧
      List.Forall₂ (Reaches mu) (sequence.filter fun c =>
        (marshalCommand mu (postProcess c)).isSome)
        (new.map Prod.fst) := by
  induction sequence generalizing s with
  | nil => exact ⟨[], (List.append_nil _).symm, .nil⟩
  | cons c sequence ih =>
    cases hm : marshalCommand mu (postProcess c) with
    | none =>
      obtain ⟨new, hnew, hreach⟩ := ih s
      refine ⟨new, ?_, ?_⟩
      · rw [List.map_cons, marshalled, List.filterMap_cons_none hm]
        exact hnew
      · rw [List.filter_cons_of_neg (by rw [hm]; exact Bool.false_ne_true)]
        exact hreach
    | some m =>
      obtain ⟨new, hnew, hreach⟩ := ih (layerExchange pl C s m)
      obtain ⟨e, hexchange, hrequest⟩ : ∃ e, (layerExchange pl C s m).1.exchanges =
        s.1.exchanges ++ [e] ∧
          e.1 = (s.2.patch C m (m.length + 48)).2 := ⟨_, rfl, rfl⟩
      refine ⟨e :: new, ?_, ?_⟩
      · rw [List.map_cons, marshalled, List.filterMap_cons_some hm]
        show (run (layerExchange pl C) (layerExchange pl C s m)
          (marshalled mu (sequence.map postProcess))).1.exchanges = _
        rw [hnew, hexchange, List.append_assoc]
        rfl
      · rw [List.filter_cons_of_pos (by rw [hm]; rfl)]
        exact .cons (hrequest ▸ reaches_patch C hm s.2) hreach

/-- For every input, what the fuzzer sends are the commands that can be marshalled, in order, each
laid out as its message says: the layer has given a command no other meaning. -/
theorem fuzzed_reads (sequence : TPMCommandSequence) (b : ProtoBench P) :
    ∃ new, (defineProtoFuzzer pl C mu (sequence.map postProcess) b).exchanges = b.exchanges ++ new ∧
      List.Forall₂ (Reaches mu) (sequence.filter fun c =>
        (marshalCommand mu (postProcess c)).isSome)
        (new.map Prod.fst) := by
  have h := defineProtoFuzzer_eq pl C mu (sequence.map postProcess) b
  obtain ⟨new, hnew, hreach⟩ := run_reaches C pl mu sequence
    (⟨bringUp pl b.tpm, b.exchanges⟩, Layer.empty)
  refine ⟨new, ?_, hreach⟩
  show (defineProtoFuzzer pl C mu (sequence.map postProcess) b).toBench.exchanges = _
  rw [h]
  exact hnew

end

end Harness
