import TpmFuzzer.Session.Peer

/-!
# The layer and the TPM agree

A run is a list of turns, each with the TPM's state after it.  As long as the TPM `Serves` every
exchange, no exchange changes the armed session or a named object behind the layer's back
(`Undisturbed`), and no response gives the layer another session's nonce (`OwnNonce`), the layer's
nonce is the TPM's nonceTPM of the armed session and its Names are the TPM's (`Agree`).  So whatever
the layer rewrites, the TPM accepts:

    sent ≠ command  →  sent = c.encode with Peer.Accepts p c                           (run_accepts)

The layer is followed as a `Layer`; `Implements` carries the result over to the code.
-/

namespace Session

open Bytes Tpm Runs Reading

variable (C : Crypto)

/-! ## Turns of a layer -/

/-- The command of a turn and its response, as the layer sees them. -/
def Layer.turn (l : Layer) (t : Turn) : Layer :=
  (l.patch C t.exchange.command (t.exchange.command ++ t.commandSlack).length).1.process
    t.exchange.response

theorem implements_turn {st : SessionState} {l : Layer} (h : Implements st l) (t : Turn) :
    Implements (turn C st t) (l.turn C t) := by
  have hcommand : t.exchange.command.length ≤
    (t.exchange.command ++ t.commandSlack).length := by simp
  have hresponse : t.exchange.response.length ≤
    (t.exchange.response ++ t.responseSlack).length := by simp
  have hpatch := (implements_patch C h _ hcommand (Nat.le_refl _)).1
  have hprocess := implements_process hpatch _ hresponse
  rw [List.take_left, List.take_left] at hprocess
  exact hprocess

/-- What a command does to the layer before its response comes. -/
theorem Layer.patch_fst (l : Layer) (m : Bytes) (room : Nat) : (l.patch C m room).1 =
    if IsMessage m then
      if Tpm.read32 m 6 = TPM2_CC_StartAuthSession then
        { l with lastCommandCode := Tpm.read32 m 6, start := some (Layer.compatible m) }
      else { l with lastCommandCode := Tpm.read32 m 6 }
    else l := by
  unfold Layer.patch
  split
  · dsimp only
    split
    · rfl
    · cases l.session with
      | none => rfl
      | some s =>
        dsimp only
        split <;> rfl
  · rfl

theorem isMessage_message {tag : UInt16} {code : UInt32} {body : Bytes}
    (h : (message tag code body).length < 2 ^ 32) : IsMessage (message tag code body) := by
  have hlen := length_message tag code body
  have hsize := read32_message_size tag code body [] (by omega)
  rw [List.append_nil] at hsize
  exact ⟨by omega, by rw [hsize, hlen]⟩

theorem fields_message (tag : UInt16) (code : UInt32) (body : Bytes) :
    Tpm.read16 (message tag code body) 0 = tag ∧ Tpm.read32 (message tag code body) 6 = code ∧
      (message tag code body).drop 10 = body := by
  have htag := read16_message tag code body []
  have hcode := read32_message_code tag code body []
  have hbody := drop_message tag code body []
  rw [List.append_nil] at htag hcode hbody
  rw [List.append_nil] at hbody
  exact ⟨htag, hcode, hbody⟩

theorem GoodHeader.isMessage {b : Bytes} (h : GoodHeader b b.length b.length) : IsMessage b :=
  ⟨h.1, h.3⟩

theorem GoodResponse.isMessage {b : Bytes} (h : GoodResponse b b.length) : IsMessage b := ⟨h.1, h.2⟩

/-- A failure leaves the session and the Names alone. -/
theorem Layer.process_failed (l : Layer) {m : Bytes} (hmsg : IsMessage m)
    (hrc : Tpm.read32 m 6 ≠ TPM2_RC_SUCCESS) : l.process m = { l with start := none } := by
  have hstarted : Layer.started m = none := if_neg fun h => hrc h.2
  obtain ⟨session, names, start, code⟩ := l
  unfold Layer.process
  rw [if_pos hmsg]
  cases start with
  | some compatible =>
    cases compatible with
    | true =>
      simp only [hstarted]
      rfl
    | false => rfl
  | none =>
    cases session with
    | none => rfl
    | some s => exact if_neg fun h => hrc h.2

theorem compatible_encode {s : StartAuthSession} (hs : s.authArea = none) :
    Layer.compatible s.encode = decide s.Compatible := by
  obtain ⟨authHash, hwindow, -⟩ := capture_window SessionState.zero s.encode
    (Nat.le_refl s.encode.length)
  have hval := val_captureStartAuthSessionCommand SessionState.zero hs []
  rw [List.append_nil] at hval
  rw [hval, List.take_length] at hwindow
  exact (congrArg SessionState.startAuthSessionCompatible hwindow).symm

/-- A StartAuthSession waits for its response. -/
theorem Layer.patch_start (l : Layer) {s : StartAuthSession} (hlt : s.encode.length < 2 ^ 32)
    (room : Nat) :
    (l.patch C s.encode room).1 =
      { l with lastCommandCode := TPM2_CC_StartAuthSession, start := some (Layer.compatible
        s.encode) } := by
  have hcode : Tpm.read32 s.encode 6 = TPM2_CC_StartAuthSession := (fields_message _ _ _).2.1
  have hmsg : IsMessage s.encode := isMessage_message hlt
  rw [Layer.patch_fst, if_pos hmsg, if_pos hcode, hcode]

theorem Layer.started_encode {s : StartAuthSession} (hs : s.authArea = none) (r : StartReply) :
    Layer.started (r.encode s) =
      some ⟨some ⟨r.handle, TPM2_ALG_SHA256, r.nonceTpm.bytes.take SESSION_AUTH_MAX_DIGEST, []⟩, ∅,
        none, 0⟩ := by
  obtain ⟨htag, hrc, hbody⟩ := fields_message s.tag TPM2_RC_SUCCESS (r.body s)
  rw [← StartReply.encode] at htag hrc hbody
  have hread : Reads readStartReply (write32 r.handle ++ tpm2b r.nonceTpm.bytes)
      (r.handle, r.nonceTpm.bytes) :=
    (reads_word32 _).bind ((reads_sized r.nonceTpm.length_lt).bind_nil (Reads.pure _))
  have hrun := hread []
  have hfields : r.body s = write32 r.handle ++ tpm2b
    r.nonceTpm.bytes := by rw [StartReply.body, hs]; rfl
  rw [List.append_nil, ← hfields] at hrun
  unfold Layer.started
  rw [htag, hrc, hbody, if_pos ⟨s.tag_eq_noSessions_iff.mpr hs, rfl⟩, hrun]
  rfl

/-- A StartAuthSession that the layer arms on replaces everything it knows. -/
theorem Layer.turn_armable (l : Layer) {t : Turn} {s : StartAuthSession} {r : StartReply}
    (ht : t.exchange = .started s r) (hs : s.Armable) : l.turn C t =
      ⟨some ⟨r.handle, TPM2_ALG_SHA256, r.nonceTpm.bytes.take SESSION_AUTH_MAX_DIGEST, []⟩, ∅,
        none, 0⟩ := by
  have hwf := t.wellFormed
  rw [ht] at hwf
  have hmsg : IsMessage (r.encode s) := isMessage_message hwf.2
  rw [Layer.turn, ht]
  simp only [Exchange.command, Exchange.response]
  rw [Layer.patch_start C l hwf.1, compatible_encode hs.1, decide_eq_true hs.2,
    Layer.process, if_pos hmsg]
  simp only [Layer.started_encode hs.1, Option.getD_some]

/-- Any other one is forgotten with its response. -/
theorem Layer.turn_not_armable (l : Layer) {t : Turn} {s : StartAuthSession} {r : StartReply}
    (ht : t.exchange = .started s r) (hs : ¬ s.Armable) :
    l.turn C t = { l with lastCommandCode := TPM2_CC_StartAuthSession, start := none } := by
  have hwf := t.wellFormed
  rw [ht] at hwf
  have hmsg : IsMessage (r.encode s) := isMessage_message hwf.2
  rw [Layer.turn, ht]
  simp only [Exchange.command, Exchange.response]
  rw [Layer.patch_start C l hwf.1, Layer.process, if_pos hmsg]
  cases hc : Layer.compatible s.encode with
  | false => rfl
  | true =>
    -- a compatible start that is not armed on carries the session tag, and so does its response
    have harea : s.authArea ≠ none := by
      intro harea
      rw [compatible_encode harea] at hc
      exact hs ⟨harea, of_decide_eq_true hc⟩
    have hstarted : Layer.started (r.encode s) = none := by
      have htag : Tpm.read16 (r.encode s) 0 = s.tag := (fields_message _ _ _).1
      unfold Layer.started
      rw [htag, if_neg fun h => harea (s.tag_eq_noSessions_iff.mp h.1)]
    simp only [hstarted, Option.getD_none]

section

variable {l : Layer} (hl : l.start = none) {t : Turn}

include hl

theorem Layer.turn_failed {command response : Bytes} (ht : t.exchange = .failed command response) :
    ∃ code, l.turn C t = { l with lastCommandCode := code } := by
  have hwf := t.wellFormed
  rw [ht] at hwf
  have hself : ∀ code, ({ l with lastCommandCode := code, start := none } : Layer) =
      { l with lastCommandCode := code } := by
    intro code
    rw [← hl]
  rw [Layer.turn, ht]
  simp only [Exchange.command, Exchange.response]
  rw [Layer.process_failed _ hwf.1.isMessage hwf.2, Layer.patch_fst]
  split
  · split
    · exact ⟨_, hself _⟩
    · exact ⟨_, hself _⟩
  · exact ⟨_, hself l.lastCommandCode⟩

theorem Layer.turn_other {command response : Bytes} (ht : t.exchange = .other command response) :
    ∃ code, l.turn C t = { l with lastCommandCode := code } := by
  have hwf := t.wellFormed
  rw [ht] at hwf
  obtain ⟨hgood, hcode, hresponse, hquiet⟩ := hwf
  refine ⟨Tpm.read32 command 6, ?_⟩
  rw [Layer.turn, ht]
  simp only [Exchange.command, Exchange.response]
  rw [Layer.patch_fst, if_pos hgood.isMessage, if_neg hcode, Layer.process,
    if_pos hresponse.isMessage]
  simp only [hl]
  cases l.session with
  | none => rfl
  | some s =>
    dsimp only
    split
    · next hok =>
      -- a tagged response belongs to a command that is not in the table
      have hnone : lookupCommandAttr (Tpm.read32 command 6) = none := by
        rcases hquiet with htag | hnone
        · rw [htag] at hok
          exact absurd hok.1 (by decide)
        · exact hnone
      simp only [Layer.learn, hnone]
    · rfl

end

/-! ## A session-tagged command -/

/-- The reply up to its first nonce, by the grammar of its layout. -/
theorem TaggedReply.run_readTaggedReply {r : TaggedReply} {attr : CommandAttrEntry}
    (hout : r.outHandles.length = attr.outHandleCount) (hlt : r.encode.length < 2 ^ 32) :
    ∃ rest, (readTaggedReply attr).run r.body =
      some ((r.outHandles, r.params.encode, r.nonce.bytes), rest) := by
  have hsize : (UInt32.ofNat r.params.encode.length).toNat = r.params.encode.length := by
    rw [TaggedReply.encode, length_message, TaggedReply.body] at hlt
    simp only [List.length_append] at hlt
    have hparams : r.params.encode.length < 2 ^ 32 := by omega
    exact UInt32.toNat_ofNat_of_lt' hparams
  have hhandles : Reads (times readWord32 attr.outHandleCount)
      (handleBytes r.outHandles) r.outHandles := by
    have hword : ∀ h ∈ r.outHandles, Reads readWord32 (write32 h) (id h) :=
      fun h _ => reads_word32 h
    have htimes := Reads.times hword
    rw [List.map_id, hout] at htimes
    exact htimes
  have hparams : Reads (takeN (UInt32.ofNat r.params.encode.length).toNat)
      r.params.encode r.params.encode := by
    rw [hsize]
    exact Reads.takeN _
  have hread : Reads (readTaggedReply attr) (handleBytes r.outHandles ++
      (write32 (UInt32.ofNat r.params.encode.length) ++ (r.params.encode ++ r.nonce.encode)))
      (r.outHandles, r.params.encode, r.nonce.bytes) :=
    hhandles.bind ((reads_word32 _).bind
      (hparams.bind ((reads_sized r.nonce.length_lt).bind_nil (Reads.pure _))))
  refine ⟨r.attrs :: (r.hmac.encode ++ r.moreEntries), ?_⟩
  rw [TaggedReply.body]
  simpa only [List.append_assoc] using hread (r.attrs :: (r.hmac.encode ++ r.moreEntries))

/-- The Name is where the two commands that make an object put it. -/
theorem objectName_encode {code : UInt32} {params : ReplyParams} (h : params.Answers code) :
    objectName code params.encode = params.name?.map TPM2B.bytes := by
  unfold objectName
  cases params with
  | createPrimary outPublic creationData creationHash ticketTag hierarchy digest name =>
    have hprimary : code = TPM2_CC_CreatePrimary := h
    have hticket : Reads (takeN 6) (write16 ticketTag ++ write32 hierarchy)
        (write16 ticketTag ++ write32 hierarchy) :=
      Reads.takeN (write16 ticketTag ++ write32 hierarchy)
    have hread : Reads readPrimaryName (outPublic.encode ++
      (creationData.encode ++ (creationHash.encode ++
        ((write16 ticketTag ++ write32 hierarchy) ++ (digest.encode ++ name.encode)))))
          name.bytes :=
      (reads_sized outPublic.length_lt).bind ((reads_sized creationData.length_lt).bind
        ((reads_sized creationHash.length_lt).bind
          (hticket.bind ((reads_sized digest.length_lt).bind
            (reads_sized name.length_lt)))))
    have hrun := hread []
    rw [List.append_nil, List.append_assoc (write16 ticketTag)] at hrun
    rw [if_pos hprimary, ReplyParams.encode, hrun]
    rfl
  | load name =>
    have hload : code = TPM2_CC_Load := h
    have hrun := reads_sized name.length_lt []
    rw [List.append_nil] at hrun
    rw [if_neg (by rw [hload]; decide), if_pos hload, ReplyParams.encode, TPM2B.encode, hrun]
    rfl
  | other params =>
    rw [if_neg h.1, if_neg h.2]
    rfl

section

variable {l : Layer} (hl : l.start = none) {t : Turn} {c : TaggedCommand} {r : TaggedReply}
  (ht : t.exchange = .executed c r)

include hl ht

theorem Layer.turn_executed : l.turn C t = { l with
    lastCommandCode := c.attr.commandCode
    session := l.session.map fun a => a.refresh r.nonce.bytes
    names := if l.session = none then l.names else match r.object? with
      | some (h, name) => l.names.record h name.bytes
      | none => l.names } := by
  have hwf := t.wellFormed
  rw [ht] at hwf
  obtain ⟨hcc, hlt, hout, hans, hrlt⟩ := hwf
  have hlenc : c.encode.length < 2 ^ 32 := by rwa [TaggedCommand.length_encode]
  have hmsg : IsMessage c.encode := isMessage_message hlenc
  have hreply : IsMessage r.encode := isMessage_message hrlt
  have hcode : Tpm.read32 c.encode 6 = c.attr.commandCode := (fields_message _ _ _).2.1
  obtain ⟨htag, hrc, hbody⟩ := fields_message TPM2_ST_SESSIONS TPM2_RC_SUCCESS r.body
  rw [← TaggedReply.encode] at htag hrc hbody
  obtain ⟨rest, hrun⟩ := TaggedReply.run_readTaggedReply hout hrlt
  obtain ⟨session, names, start, code⟩ := l
  cases hl
  rw [Layer.turn, ht]
  simp only [Exchange.command, Exchange.response]
  rw [Layer.patch_fst, if_pos hmsg, hcode, if_neg hcc, Layer.process, if_pos hreply]
  cases session with
  | none => rfl
  | some a =>
    simp only [htag, hrc, Layer.learn, lookupCommandAttr_of_mem c.attr_mem, hbody, hrun,
      objectName_encode hans, and_self, if_true, Option.map_some, reduceCtorEq, if_false,
      TaggedReply.object?]
    cases r.outHandles with
    | nil => rfl
    | cons h hs => cases r.params.name? <;> rfl

end

/-! ## Names -/

theorem ObjectNames.nameOf_raw (names : ObjectNames) {h : UInt32} (hraw : IsRaw h) :
    names.nameOf h = write32 h := by
  have hobj : ¬ ((h >>> 24).toUInt8 = 0x80 ∨ (h >>> 24).toUInt8 = 0x81) := by
    rcases hraw with hh | hh | hh | hh <;> rw [hh] <;> decide
  unfold IsRaw at hraw
  simp only [ObjectNames.nameOf]
  rw [if_neg hobj, if_pos hraw]

theorem ObjectNames.nameOf_object (names : ObjectNames) {h : UInt32} (hraw : ¬ IsRaw h) :
    names.nameOf h =
      if (h >>> 24).toUInt8 = 0x80 ∨ (h >>> 24).toUInt8 = 0x81 then
        (names.lookup h).getD [] else [] := by
  simp only [ObjectNames.nameOf]
  rw [if_neg (show ¬ ((h >>> 24).toUInt8 = 0x40 ∨ _) from hraw)]

theorem ObjectNames.nameOf_empty {h : UInt32} (hraw : ¬ IsRaw h) : ObjectNames.nameOf ∅ h = [] := by
  rw [ObjectNames.nameOf_object _ hraw]
  split <;> rfl

theorem ObjectNames.nameOf_record_ne (names : ObjectNames) {h k : UInt32} (name : Bytes)
    (hne : h ≠ k) :
    (names.record k name).nameOf h = names.nameOf h := by
  unfold ObjectNames.record
  split
  · simp only [ObjectNames.nameOf, AList.lookup_insert_ne hne]
  · rfl

/-- Without room for the Name the handle has none. -/
theorem ObjectNames.nameOf_record_self (names : ObjectNames) {k : UInt32} {name : Bytes}
    (hraw : ¬ IsRaw k) (hname : (names.record k name).nameOf k ≠ []) :
    (names.record k name).nameOf k = name.take kMaxNameSize := by
  rw [ObjectNames.nameOf_object _ hraw] at hname ⊢
  unfold ObjectNames.record at hname ⊢
  by_cases hobj : (k >>> 24).toUInt8 = 0x80 ∨ (k >>> 24).toUInt8 = 0x81
  · rw [if_pos hobj] at hname ⊢
    by_cases hroom : k ∈ names ∨ names.keys.length < kMaxNames
    · rw [if_pos hroom, AList.lookup_insert]
      rfl
    · have hnone : names.lookup k = none := AList.lookup_eq_none.mpr fun hm => hroom (Or.inl hm)
      rw [if_neg hroom, hnone] at hname
      exact absurd rfl hname
  · rw [if_neg hobj] at hname
    exact absurd rfl hname

theorem outHandleCount_le {attr : CommandAttrEntry} (h : attr ∈ kTable) :
    attr.outHandleCount ≤ 1 := by
  have hall : ∀ e ∈ kTable, e.outHandleCount ≤ 1 := by decide
  exact hall attr h

/-! ## Agreement -/

/-- What the layer keeps is what the TPM keeps. -/
structure Agree (l : Layer) (p : Peer) : Prop where
  start : l.start = none
  session : ∀ a ∈ l.session, a.hashAlg = TPM2_ALG_SHA256 ∧ a.sessionKey = [] ∧
    ∀ n, p.nonceTpm a.handle = some n → n = a.nonceTpm
  names : ∀ h, ¬ IsRaw h → l.names.nameOf h ≠ [] → ∀ n, p.nameOf h = some n → n = l.names.nameOf h
  unarmed : l.session = none → l.names = ∅

theorem agree_empty (p : Peer) : Agree Layer.empty p where
  start := rfl
  session := nofun
  names := fun _ hraw hne => absurd (ObjectNames.nameOf_empty hraw) hne
  unarmed := fun _ => rfl

/-- The Name of every handle, also of those whose Name is the handle. -/
theorem Agree.nameOf {l : Layer} {p : Peer} (hagree : Agree l p) {h : UInt32}
    (hne : l.names.nameOf h ≠ []) {n : Bytes} (hn : p.nameOf h = some n) :
    n = l.names.nameOf h := by
  by_cases hraw : IsRaw h
  · rw [p.nameOf_raw h hraw] at hn
    rw [l.names.nameOf_raw hraw]
    exact (Option.some.inj hn).symm
  · exact hagree.names h hraw hne n hn

/-- What the layer keeps is there afterwards only if it was there before. -/
def KeptFor (l : Layer) (p p' : Peer) : Prop :=
  (∀ a ∈ l.session, ∀ n, p'.nonceTpm a.handle = some n → p.nonceTpm a.handle = some n) ∧
    ∀ h, ¬ IsRaw h → l.names.nameOf h ≠ [] → ∀ n, p'.nameOf h = some n → p.nameOf h = some n

/-- An exchange does not change what the layer keeps behind its back: no other session comes under
the armed handle, the armed session is the first of a command that it authorises, and handles
without a Name in the response are not those of named objects. -/
def Undisturbed (l : Layer) (p : Peer) (x : Exchange) (p' : Peer) : Prop :=
  match x with
  | .started s r => s.Armable ∨ ∀ a ∈ l.session, a.handle ≠ r.handle ∧ a.handle ∉ s.sessions
  | .executed c r => ∀ a ∈ l.session,
    (c.entry.handle = a.handle ∨ a.handle ∉ areaSessions c.moreEntries ∧ a.handle ∉ r.outHandles) ∧
    (r.object? = none → ∀ h ∈ r.outHandles, IsRaw h ∨ l.names.nameOf h = [])
  | .other _ _ => KeptFor l p p'
  | .failed _ _ => True

/-- The layer takes the first nonce of any response for one of its session: it is, or it is the one
that the layer has. -/
def OwnNonce (l : Layer) (x : Exchange) : Prop :=
  match x with
  | .executed c r => ∀ a ∈ l.session, Fits r.nonce →
    c.entry.handle = a.handle ∨ r.nonce.bytes = a.nonceTpm
  | _ => True

theorem Agree.keep {l : Layer} {p p' : Peer} (h : Agree l p) (hkept : KeptFor l p p')
    (code : UInt32) :
    Agree { l with lastCommandCode := code } p' where
  start := h.start
  session := fun a ha =>
    ⟨(h.session a ha).1, (h.session a ha).2.1, fun n hn =>
      (h.session a ha).2.2 n (hkept.1 a ha n hn)⟩
  names := fun k hraw hne n hn => h.names k hraw hne n (hkept.2 k hraw hne n hn)
  unarmed := h.unarmed

theorem keptFor_refl (l : Layer) (p : Peer) : KeptFor l p p :=
  ⟨fun _ _ _ h => h, fun _ _ _ _ h => h⟩

theorem ArmedSession.refresh_fits (a : ArmedSession) {nonce : TPM2B} (h : Fits nonce) :
    a.refresh nonce.bytes = { a with nonceTpm := nonce.bytes } := if_pos h

theorem ArmedSession.refresh_not_fits (a : ArmedSession) {nonce : TPM2B} (h : ¬ Fits nonce) :
    a.refresh nonce.bytes = a := if_neg h

theorem ArmedSession.refresh_frame (a : ArmedSession) (nonce : Bytes) :
    (a.refresh nonce).handle = a.handle ∧
    (a.refresh nonce).hashAlg = a.hashAlg ∧ (a.refresh nonce).sessionKey = a.sessionKey := by
  unfold ArmedSession.refresh
  split <;> exact ⟨rfl, rfl, rfl⟩

/-! ## One exchange -/

section

variable {l : Layer} {p p' : Peer} {t : Turn} (h : Agree l p)

/-- The session that is armed has the nonce of its response. -/
theorem agree_armed {r : StartReply} (hnonce : p'.nonceTpm r.handle = some r.nonceTpm.bytes) :
    Agree ⟨some ⟨r.handle, TPM2_ALG_SHA256, r.nonceTpm.bytes.take SESSION_AUTH_MAX_DIGEST, []⟩, ∅,
      none, 0⟩
      p' where
  start := rfl
  session := by
    rintro a ⟨⟩
    refine ⟨rfl, rfl, fun n hn => ?_⟩
    rw [hnonce] at hn
    cases hn
    exact (List.take_of_length_le (p'.nonceTpm_fits _ _ hnonce).2).symm
  names := fun _ hraw hne => absurd (ObjectNames.nameOf_empty hraw) hne
  unarmed := nofun

include h

theorem agree_started {s : StartAuthSession} {r : StartReply} (ht : t.exchange = .started s r)
    (hserves : Serves p (.started s r) p') (hu : Undisturbed l p (.started s r) p') :
    Agree (l.turn C t) p' := by
  obtain ⟨hnonce, hkept, hnames⟩ := hserves
  by_cases hs : s.Armable
  · rw [if_pos hs.2] at hnonce
    rw [Layer.turn_armable C l ht hs]
    exact agree_armed hnonce
  · have hrest : ({ l with lastCommandCode := TPM2_CC_StartAuthSession, start := none } : Layer) =
        { l with lastCommandCode := TPM2_CC_StartAuthSession } := by
      rw [← h.start]
    rw [Layer.turn_not_armable C l ht hs, hrest]
    refine h.keep ⟨fun a ha n hn => hkept a.handle ?_ n hn,
      fun k _ _ n hn => hnames k (by simp) n hn⟩ _
    obtain ⟨hhandle, hsessions⟩ := hu.resolve_left hs a ha
    simp [hhandle, hsessions]

section

variable {c : TaggedCommand} {r : TaggedReply} (hserves : Serves p (.executed c r) p')
  (hu : Undisturbed l p (.executed c r) p')

include hserves hu

/-- The nonce is that of the session's own response, or the session was not in the auth area. -/
theorem agree_executed_nonce (hown : OwnNonce l (.executed c r)) {a : ArmedSession}
    (ha : a ∈ l.session) {n : Bytes} (hn : p'.nonceTpm a.handle = some n) :
    n = (a.refresh r.nonce.bytes).nonceTpm := by
  obtain ⟨hnonce, hkept, -⟩ := hserves
  by_cases hfirst : c.entry.handle = a.handle
  · have hn' : n = r.nonce.bytes := hnonce n (by rw [hfirst]; exact hn)
    have hfits : Fits r.nonce := by
      have := p'.nonceTpm_fits _ _ hn
      rwa [hn'] at this
    rw [ArmedSession.refresh_fits a hfits]
    exact hn'
  · obtain ⟨hmore, houts⟩ := (hu a ha).1.resolve_left hfirst
    have hnot : a.handle ∉ c.sessions ++ r.outHandles := by
      simp [TaggedCommand.sessions, Ne.symm hfirst, hmore, houts]
    have hold : n = a.nonceTpm := (h.session a ha).2.2 n (hkept a.handle hnot n hn)
    by_cases hfits : Fits r.nonce
    · rw [ArmedSession.refresh_fits a hfits, (hown a ha hfits).resolve_left hfirst]
      exact hold
    · rw [ArmedSession.refresh_not_fits a hfits]
      exact hold

/-- The only handle of the response is the one that is named. -/
theorem agree_executed_name {a : ArmedSession} (ha : a ∈ l.session) (hout : r.outHandles.length ≤ 1)
    {names : ObjectNames} (hnames : names = match r.object? with
      | some (h, name) => l.names.record h name.bytes
      | none => l.names)
    {k : UInt32} (hraw : ¬ IsRaw k) (hne : names.nameOf k ≠ []) {n : Bytes}
    (hn : p'.nameOf k = some n) :
    n = names.nameOf k := by
  obtain ⟨-, -, hkept, hobject⟩ := hserves
  cases hobj : r.object? with
  | none =>
    simp only [hobj] at hnames
    subst hnames
    have hnot : k ∉ r.outHandles := fun hm => ((hu a ha).2 hobj k hm).elim hraw hne
    exact h.names k hraw hne n (hkept k hnot n hn)
  | some o =>
    obtain ⟨k', name⟩ := o
    simp only [hobj] at hnames
    subst hnames
    by_cases hk : k = k'
    · subst hk
      have hn' : n = name.bytes := hobject k name hobj n hn
      have hle := p'.nameOf_le _ _ hn
      rw [hn'] at hle
      rw [hn', l.names.nameOf_record_self hraw hne, List.take_of_length_le hle]
    · rw [l.names.nameOf_record_ne _ hk] at hne ⊢
      have hnot : k ∉ r.outHandles := by
        unfold TaggedReply.object? at hobj
        split at hobj
        · next k'' hs name' houts hname =>
          cases hobj
          rw [houts] at hout
          have hs_nil : hs = [] := List.length_eq_zero_iff.mp (by simpa using hout)
          rw [houts, hs_nil, List.mem_singleton]
          exact hk
        · cases hobj
      exact h.names k hraw hne n (hkept k hnot n hn)

theorem agree_executed (hown : OwnNonce l (.executed c r)) (ht : t.exchange = .executed c r) :
    Agree (l.turn C t) p' := by
  have hout : r.outHandles.length ≤ 1 := by
    have hwf := t.wellFormed
    rw [ht] at hwf
    exact Nat.le_trans (Nat.le_of_eq hwf.2.2.1) (outHandleCount_le c.attr_mem)
  rw [Layer.turn_executed C h.start ht]
  refine ⟨h.start, fun b hb => ?_, fun k hraw hne n hn => ?_, fun hnone => ?_⟩
  · obtain ⟨a, ha, rfl⟩ := Option.mem_map.mp hb
    obtain ⟨halg, hkey, -⟩ := h.session a ha
    obtain ⟨hhandle, halg', hkey'⟩ := a.refresh_frame r.nonce.bytes
    refine ⟨halg'.trans halg, hkey'.trans hkey, fun n hn => ?_⟩
    rw [hhandle] at hn
    exact agree_executed_nonce h hserves hu hown ha hn
  · cases hsession : l.session with
    | none =>
      simp only [hsession, h.unarmed hsession, if_true] at hne
      exact absurd (ObjectNames.nameOf_empty hraw) hne
    | some a =>
      simp only [hsession, reduceCtorEq, if_false] at hne ⊢
      exact agree_executed_name h hserves hu hsession hout rfl hraw hne hn
  · have hsession : l.session = none := Option.map_eq_none_iff.mp hnone
    simp only [hsession, if_true]
    exact h.unarmed hsession

end

theorem agree_turn (hserves : Serves p t.exchange p') (hu : Undisturbed l p t.exchange p')
    (hown : OwnNonce l t.exchange) : Agree (l.turn C t) p' := by
  cases hx : t.exchange with
  | started s r =>
    rw [hx] at hserves hu
    exact agree_started C h hx hserves hu
  | executed c r =>
    rw [hx] at hserves hu hown
    exact agree_executed C h hserves hu hown hx
  | other command response =>
    rw [hx] at hu
    obtain ⟨code, hturn⟩ := Layer.turn_other C h.start hx
    rw [hturn]
    exact h.keep hu code
  | failed command response =>
    rw [hx] at hserves
    obtain ⟨code, hturn⟩ := Layer.turn_failed C h.start hx
    rw [hturn, show p' = p from hserves]
    exact h.keep (keptFor_refl l p) code

end

/-! ## Runs -/

/-- The layer takes its turn, the TPM is found in its state after the exchange. -/
def exchangeStep (s : Layer × Peer) (x : Turn × Peer) : Layer × Peer := (s.1.turn C x.1, x.2)

/-- The TPM serves the exchange, which does not disturb the layer and gives it no other session's
nonce. -/
def FairExchange (s : Layer × Peer) (x : Turn × Peer) : Prop :=
  Serves s.2 x.1.exchange x.2 ∧ Undisturbed s.1 s.2 x.1.exchange x.2 ∧ OwnNonce s.1 x.1.exchange

theorem run_agree {p₀ : Peer} {xs : List (Turn × Peer)}
    (hfair : Always (exchangeStep C) (Layer.empty, p₀) FairExchange xs) :
    Agree (run (exchangeStep C) (Layer.empty, p₀) xs).1
      (run (exchangeStep C) (Layer.empty, p₀) xs).2 :=
  run_invariant (I := fun s => Agree s.1 s.2) (agree_empty p₀)
    (fun _ _ hagree hx => agree_turn C hagree hx.1 hx.2.1 hx.2.2) xs hfair

/-- The code beside the layer that agrees with the TPM. -/
theorem run_turn_implements (p₀ : Peer) (xs : List (Turn × Peer)) :
    Implements (run (turn C) SessionState.zero (xs.map Prod.fst))
      (run (exchangeStep C) (Layer.empty, p₀) xs).1 := by
  have hcode : run (turn C) SessionState.zero (xs.map Prod.fst) =
      run (fun st (x : Turn × Peer) => turn C st x.1) SessionState.zero xs := List.foldl_map
  rw [hcode]
  have hstep : ∀ x ∈ xs, ∀ (st : SessionState) (s : Layer × Peer), Implements st s.1 →
      Implements (turn C st x.1) (exchangeStep C s x).1 :=
    fun x _ st s himpl => implements_turn C himpl x.1
  exact run_related (R := fun st (s : Layer × Peer) => Implements st s.1) hstep implements_zero

/-! ## What is sent -/

/-- A command that is sent in another form is one of the layer's session. -/
theorem Layer.patch_snd (l : Layer) (m : Bytes) (room : Nat) : (l.patch C m room).2 = m ∨
    ∃ s ∈ l.session, ∃ c : TaggedCommand, c.encode = m ∧ c.moreEntries = [] ∧
      c.entry.handle = s.handle ∧
      l.names.Knows c.handles ∧ (l.patch C m room).2 =
        Layer.authorised C l.names s c.attr.commandCode c.handles c.entry c.params := by
  obtain ⟨session, names, start, code⟩ := l
  unfold Layer.patch
  by_cases hmsg : IsMessage m
  swap
  · rw [if_neg hmsg]
    exact Or.inl rfl
  rw [if_pos hmsg]
  by_cases hstart : Tpm.read32 m 6 = TPM2_CC_StartAuthSession
  · rw [if_pos hstart]
    exact Or.inl rfl
  rw [if_neg hstart]
  cases session with
  | none => exact Or.inl rfl
  | some s =>
    dsimp only
    by_cases hpath : s.hashAlg = TPM2_ALG_SHA256 ∧ Tpm.read16 m 0 = TPM2_ST_SESSIONS
    swap
    · rw [if_neg hpath]
      exact Or.inl rfl
    rw [if_pos hpath]
    unfold Layer.rewrite
    dsimp only
    cases hattr : lookupCommandAttr (Tpm.read32 m 6) with
    | none => exact Or.inl rfl
    | some attr =>
      dsimp only
      cases hread : (readTagged attr).run (m.drop 10) with
      | none => exact Or.inl rfl
      | some res =>
        obtain ⟨⟨handles, entry, params⟩, rest⟩ := res
        dsimp only
        split
        · next hyes =>
          obtain ⟨c, rfl, rfl, rfl, hm, rfl, henc⟩ := exists_taggedCommand hmsg hpath.2 hattr hread
          refine Or.inr ⟨s, rfl, c, henc, hm, hyes.1, hyes.2.1, ?_⟩
          rw [lookupCommandAttr_code hattr]
        · exact Or.inl rfl

theorem flatten_of_mapM {f : UInt32 → Option Bytes} {g : UInt32 → Bytes} {handles : List UInt32}
    {names : List Bytes} (hnames : handles.mapM f = some names)
    (hg : ∀ h ∈ handles, ∀ n, f h = some n → n = g h) :
    names.flatten = handles.flatMap g := by
  induction handles generalizing names with
  | nil =>
    cases hnames
    rfl
  | cons h hs ih =>
    rw [List.mapM_cons] at hnames
    obtain ⟨n, hn, hnames⟩ := Option.bind_eq_some_iff.mp hnames
    obtain ⟨ns, hns, hnames⟩ := Option.bind_eq_some_iff.mp hnames
    cases hnames
    rw [List.flatten_cons, List.flatMap_cons, hg h List.mem_cons_self n hn,
      ih hns fun k hk => hg k (List.mem_cons_of_mem _ hk)]

theorem Implements.eq_of_mem {st : SessionState} {l : Layer} (h : Implements st l)
    {s : ArmedSession} (hs : s ∈ l.session) : s = ⟨st.handle, st.hashAlg, st.nonce, st.key⟩ := by
  have hsession := h.session
  rw [show l.session = some s from hs] at hsession
  split at hsession
  · exact Option.some.inj hsession
  · cases hsession

/-- The TPM computes the HMAC from the same key, Names and nonce. -/
theorem Agree.accepts {st : SessionState} {l : Layer} {p : Peer} (hagree : Agree l p)
    (himpl : Implements st l) {s : ArmedSession} (hs : s ∈ l.session) {c : TaggedCommand}
    (hhandle : c.entry.handle = s.handle) (hnames : l.names.Knows c.handles)
    (hkey : p.authKey c = []) :
    p.Accepts C (c.authorise C st) := by
  intro n names hn hmap
  obtain ⟨-, hskey, hnonce⟩ := hagree.session s hs
  have hst := himpl.eq_of_mem hs
  have hauthKey : p.authKey c = st.key := by rw [hkey, ← hskey, hst]
  have hstnonce : n = st.nonce := by
    rw [show (c.authorise C st).entry.handle = s.handle from hhandle] at hn
    rw [hnonce n hn, hst]
  have hflat : names.flatten = namesOf st c.handles := by
    simp only [namesOf, himpl.names.handleName]
    exact flatten_of_mapM hmap fun k hk m hm => hagree.nameOf (hnames k hk) hm
  have hexpected : p.expectedMac C (c.authorise C st) n names =
      C.hmacSha256 (p.authKey c) (C.sha256
        (write32 c.attr.commandCode ++ (names.flatten ++ c.params)) ++
        (nonceCaller ++ (n ++ [c.entry.attrs]))) := rfl
  rw [hexpected, hauthKey, hflat, hstnonce]
  rfl

/-- What the code keeps of a session and of Names is what the TPM keeps, of those it still has. -/
theorem Agree.implements {st : SessionState} {l : Layer} {p : Peer} (hagree : Agree l p)
    (himpl : Implements st l) :
    (st.initialized = true → ∀ n, p.nonceTpm st.handle = some n → n = st.nonce) ∧
      ∀ h, (handleName st.names h kMaxNameSize).val ≠ [] → ∀ n, p.nameOf h = some n →
        n = (handleName st.names h kMaxNameSize).val := by
  refine ⟨fun hinit n hn => ?_, fun h hne n hn => ?_⟩
  · have hsession := himpl.session
    rw [if_pos hinit] at hsession
    exact (hagree.session _ hsession).2.2 n hn
  · rw [himpl.names.handleName] at hne ⊢
    exact hagree.nameOf hne hn

/-- The nonce and the Names stay those of the TPM.  So whatever is sent in another form than it was
given is the same command with the nonce and HMAC of the layer, and the TPM accepts it if the entity
it authorises has an empty authValue. -/
theorem run_accepts {p₀ : Peer} {xs : List (Turn × Peer)}
    (hfair : Always (exchangeStep C) (Layer.empty, p₀) FairExchange xs) :
    let st := run (turn C) SessionState.zero (xs.map Prod.fst)
    let p := (run (exchangeStep C) (Layer.empty, p₀) xs).2
    (st.initialized = true → ∀ n, p.nonceTpm st.handle = some n → n = st.nonce) ∧
    (∀ h, (handleName st.names h kMaxNameSize).val ≠ [] → ∀ n, p.nameOf h = some n →
      n = (handleName st.names h kMaxNameSize).val) ∧
    ∀ buf size cap, size ≤ cap → cap ≤ buf.length →
      let r := (sessionAuthPatchCommand C st (some buf) size cap).val
      ∃ b, r.buf = some b ∧ (b.take r.size = buf.take size ∨
        ∃ c : TaggedCommand, c.encode = buf.take size ∧ c.entry.handle = st.handle ∧
          b.take r.size = (c.authorise C st).encode ∧
          (p.authKey c = [] → p.Accepts C (c.authorise C st))) := by
  intro st p
  have himpl : Implements st _ := run_turn_implements C p₀ xs
  have hagree : Agree _ p := run_agree C hfair
  generalize (run (exchangeStep C) (Layer.empty, p₀) xs).1 = l at himpl hagree
  obtain ⟨hnonce, hnamesOf⟩ := hagree.implements himpl
  refine ⟨hnonce, hnamesOf, fun buf size cap hsize hcap => ?_⟩
  intro r
  obtain ⟨b, hb, htake, -⟩ := (implements_patch C himpl buf hsize hcap).2
  refine ⟨b, hb, ?_⟩
  rw [htake]
  rcases l.patch_snd C (buf.take size) cap with hsame | ⟨s, hs, c, henc, hm, hhandle, hnames, hsent⟩
  · exact Or.inl hsame
  · have hst := himpl.eq_of_mem hs
    refine Or.inr ⟨c, henc, ?_, ?_, hagree.accepts C himpl hs hhandle hnames⟩
    · rw [hhandle, hst]
    · rw [hsent, hst]
      exact authorised_eq C himpl.names c hm

/-- A TPM with one session, 0x02000000, and empty authValues. -/
def oneSession (nonce : Bytes) (h : 0 < nonce.length ∧ nonce.length ≤ SESSION_AUTH_MAX_DIGEST) :
    Peer where
  nonceTpm := fun handle => if handle = 0x02000000 then some nonce else none
  nonceTpm_fits := by
    intro handle n hn
    split at hn
    · cases hn
      exact h
    · cases hn
  nameOf := fun handle => if IsRaw handle then some (write32 handle) else none
  nameOf_raw := fun _ hraw => if_pos hraw
  nameOf_le := by
    intro handle n hn
    split at hn
    · cases hn
      exact (by decide : 4 ≤ kMaxNameSize)
    · cases hn
  authValue := fun _ => []

theorem oneSession_kept {n n' : Bytes} (h : 0 < n.length ∧ n.length ≤ SESSION_AUTH_MAX_DIGEST)
    (h' : 0 < n'.length ∧ n'.length ≤ SESSION_AUTH_MAX_DIGEST) {handles : List UInt32}
    (hm : 0x02000000 ∈ handles) :
    Kept (oneSession n h).nonceTpm (oneSession n' h').nonceTpm handles := by
  intro k hk v hv
  have hne : k ≠ 0x02000000 := fun heq => hk (heq ▸ hm)
  rw [show (oneSession n' h').nonceTpm k = none from if_neg hne] at hv
  cases hv

theorem authKey_oneSession {n : Bytes} (h : 0 < n.length ∧ n.length ≤ SESSION_AUTH_MAX_DIGEST)
    (c : TaggedCommand) : (oneSession n h).authKey c = [] := by
  unfold Peer.authKey
  split
  · rfl
  · cases c.handles.head? <;> rfl

/-- A session is started and clears the TPM; the next Clear is accepted under the nonce of the
first. -/
theorem cleared_accepts :
    let p := oneSession (List.replicate 16 0x77) (by decide)
    let st := run (turn clearDigests) SessionState.zero [hmacStarted, cleared 0x02000000]
    let buf := (clearCommand 0x02000000 []).encode ++ List.replicate 64 0
    let r := (sessionAuthPatchCommand clearDigests st (some buf) 27 91).val
    st.nonce = List.replicate 16 0x77 ∧
      ∃ b, r.buf = some b ∧ ∃ c : TaggedCommand, c.encode = buf.take 27 ∧
        b.take r.size = (c.authorise clearDigests st).encode ∧
        p.Accepts clearDigests (c.authorise clearDigests st) := by
  intro p st buf r
  let p₁ := oneSession (List.replicate 16 0x55) (by decide)
  have hstarted : FairExchange (Layer.empty, p₁) (hmacStarted, p₁) := by
    refine ⟨⟨?_, oneSession_kept (by decide) (by decide) List.mem_cons_self, Kept.refl _ _⟩,
      Or.inl (by decide), trivial⟩
    decide
  have hlayer : Layer.empty.turn clearDigests hmacStarted = _ :=
    Layer.turn_armable clearDigests Layer.empty rfl (by decide)
  have hcleared : FairExchange (exchangeStep clearDigests (Layer.empty, p₁) (hmacStarted, p₁))
      (cleared 0x02000000, p) := by
    refine ⟨⟨?_, oneSession_kept (by decide) (by decide) List.mem_cons_self, Kept.refl _ _, ?_⟩,
      ?_, ?_⟩
    · rintro n hn
      exact (Option.some.inj hn).symm
    · intro h name hobj
      cases hobj
    · intro a ha
      rw [exchangeStep, hlayer] at ha
      cases ha
      exact ⟨Or.inl rfl, fun _ h hm => by cases hm⟩
    · intro a ha _
      rw [exchangeStep, hlayer] at ha
      cases ha
      exact Or.inl rfl
  have hfair : Always (exchangeStep clearDigests) (Layer.empty, p₁) FairExchange
      ([] ++ [(hmacStarted, p₁)] ++ [(cleared 0x02000000, p)]) :=
    (Always.nil.snoc hstarted).snoc hcleared
  obtain ⟨hnonce, -, hpatch⟩ := run_accepts clearDigests hfair
  obtain ⟨b, hb, hsent⟩ := hpatch buf 27 91 (by decide) (by decide)
  refine ⟨(hnonce (by decide +kernel) (List.replicate 16 0x77) (by decide +kernel)).symm, b, hb, ?_⟩
  rcases hsent with hsame | ⟨c, henc, -, hsent, haccepts⟩
  · -- 75 bytes are sent in place of 27
    have hlen : (r.buf.map fun b => (b.take r.size).length) = some 75 := by decide +kernel
    have hb' : r.buf = some b := hb
    rw [hb', Option.map_some] at hlen
    have hlen' := Option.some.inj hlen
    rw [show b.take r.size = buf.take 27 from hsame] at hlen'
    exact absurd hlen' (by decide)
  · exact ⟨c, henc, hsent, haccepts (authKey_oneSession (by decide) c)⟩

end Session
