import TpmFuzzer.Session.Layer
import TpmFuzzer.Session.Rewrite
import TpmFuzzer.Session.Sessions

/-!
# The code does what the layer is for

`Implements st l` relates the bytes of `g_session` to a `Layer`.  Each entry point keeps it, on
arbitrary argument bytes, and `SessionAuthPatchCommand` leaves the message of `Layer.patch` at the
front of the buffer:

    Implements st l  →  Implements (stepCall C st c) (l.step C c)              (implements_call)

so after any sequence of calls the offset arithmetic has computed what the grammar says
(`run_implements`).
-/

namespace Session

open Bytes Tpm Traced Runs Reading

/-! ## Names -/

/-- The table holds the Names of the map. -/
structure NamesAgree (t : NameTable) (names : ObjectNames) : Prop where
  lookup : ∀ h, names.lookup h = if h ∈ t.handles then some (t.nameOf h) else none
  count : names.keys.length = t.count

theorem NamesAgree.mem_iff {t : NameTable} {names : ObjectNames} (h : NamesAgree t names)
    (k : UInt32) :
    k ∈ names ↔ k ∈ t.handles := by
  rw [← AList.lookup_isSome, h.lookup]
  by_cases hk : k ∈ t.handles
  · simp [hk]
  · simp [hk]

theorem NameTable.nameOf_of_not_mem {t : NameTable} {h : UInt32} (hm : h ∉ t.handles) :
    t.nameOf h = [] :=
  NameTable.lookupLoop_eq_nil_of_not_mem h _ _ 0 hm

theorem NamesAgree.handleName {t : NameTable} {names : ObjectNames} (h : NamesAgree t names)
    (k : UInt32) :
    (handleName t k kMaxNameSize).val = names.nameOf k := by
  have hlookup : (names.lookup k).getD [] = t.nameOf k := by
    rw [h.lookup]
    by_cases hk : k ∈ t.handles
    · rw [if_pos hk]
      rfl
    · rw [if_neg hk, NameTable.nameOf_of_not_mem hk]
      rfl
  simp only [Session.handleName, ObjectNames.nameOf]
  by_cases hobj : (k >>> 24).toUInt8 = 0x80 ∨ (k >>> 24).toUInt8 = 0x81
  · rw [if_pos hobj, if_pos hobj, hlookup]
    rfl
  rw [if_neg hobj, if_neg hobj]
  by_cases hperm : (k >>> 24).toUInt8 = 0x40
  · rw [if_pos hperm, if_pos (Or.inl hperm)]
    rfl
  rw [if_neg hperm]
  by_cases hraw : (k >>> 24).toUInt8 = 0x00 ∨ (k >>> 24).toUInt8 = 0x02 ∨ (k >>> 24).toUInt8 = 0x03
  · rw [if_pos hraw, if_pos (Or.inr hraw)]
    rfl
  · rw [if_neg hraw, if_neg (by rw [not_or]; exact ⟨hperm, hraw⟩)]
    rfl

/-- `Add` records the bytes it is given. -/
theorem NamesAgree.add {t : NameTable} {names : ObjectNames} (h : NamesAgree t names) (k : UInt32)
    (r : Region) {src : Bytes} {off n : Nat} (hsrc : off + n ≤ src.length) :
    NamesAgree (t.add k r src off n).val (names.record k (slice src off n)) := by
  have hmin : off + min n kMaxNameSize ≤ src.length := by omega
  have hcut : (slice src off n).take kMaxNameSize = slice src off (min n kMaxNameSize) := by
    rw [slice, slice, List.take_take, Nat.min_comm]
  have hroom : (k ∈ names ∨ names.keys.length < kMaxNames) ↔
      (k ∈ t.handles ∨ t.count < kMaxNames) := by
    rw [h.mem_iff, h.count]
  unfold ObjectNames.record
  rw [hcut]
  by_cases hr : k ∈ t.handles ∨ t.count < kMaxNames
  · rw [if_pos (hroom.mpr hr)]
    have hhandles : (t.add k r src off n).val.handles =
        if k ∈ t.handles then t.handles else t.handles ++ [k] := by
      by_cases hm : k ∈ t.handles
      · rw [if_pos hm, NameTable.handles_add_of_mem _ _ _ _ _ _ hm]
      · rw [if_neg hm, NameTable.handles_add_of_not_mem _ _ _ _ _ _ hm, if_pos (hr.resolve_left hm)]
    have hmem : ∀ k', k' ∈ (t.add k r src off n).val.handles ↔ k' = k ∨ k' ∈ t.handles := by
      intro k'
      rw [hhandles]
      by_cases hm : k ∈ t.handles
      · rw [if_pos hm]
        exact ⟨Or.inr, fun h' => h'.elim (fun he => he ▸ hm) id⟩
      · rw [if_neg hm, List.mem_append, List.mem_singleton, or_comm]
    refine ⟨fun k' => ?_, ?_⟩
    · by_cases hk : k' = k
      · subst hk
        rw [AList.lookup_insert, if_pos ((hmem k').mpr (Or.inl rfl)),
          NameTable.nameOf_add_self t k' r src off n hr hmin]
      · rw [AList.lookup_insert_ne hk, h.lookup, NameTable.nameOf_add_of_ne t k r src off n hk hmin]
        simp only [hmem, hk, false_or]
    · rw [← NameTable.length_handles, hhandles, AList.keys_insert, List.length_cons]
      have hlen : names.keys.length = t.handles.length := by rw [h.count, NameTable.length_handles]
      by_cases hm : k ∈ t.handles
      · have hkeys : k ∈ names.keys := AList.mem_keys.mp ((h.mem_iff k).mpr hm)
        have hpos := List.length_pos_of_mem hkeys
        rw [if_pos hm, List.length_erase_of_mem hkeys]
        omega
      · have hkeys : k ∉ names.keys := fun hc => hm ((h.mem_iff k).mp (AList.mem_keys.mpr hc))
        rw [if_neg hm, List.erase_of_not_mem hkeys, List.length_append, List.length_singleton, hlen]
  · have hm : k ∉ t.handles := fun hm => hr (Or.inl hm)
    have hsame : (t.add k r src off n).val = t := by
      have hfull : ¬ t.count < kMaxNames := fun hc => hr (Or.inr hc)
      rw [NameTable.val_add, (NameTable.addLoop_eq_none_iff r src off _ k _ 0).mpr hm]
      simp only [if_neg hfull]
    rw [if_neg fun hc => hr (hroom.mp hc), hsame]
    exact h

/-! ## Names from responses -/

section

variable {buf : Bytes} {off e : Nat} (hoff : off ≤ e) (he : e ≤ buf.length)

include hoff he

/-- `SkipTPM2B` takes what the grammar takes, and its error value is no offset. -/
theorem skipTPM2B_window (r : Region) :
    (readSized.run (window buf off e) = none ∧ (skipTPM2B r buf off e).val = 0) ∨
      ∃ off', off' = off + 2 + (Tpm.read16 buf off).toNat ∧ off' ≤ e ∧
        (skipTPM2B r buf off e).val = off' ∧
        readSized.run (window buf off e) =
          some (slice buf (off + 2) (Tpm.read16 buf off).toNat, window buf off' e) := by
  have hval : (skipTPM2B r buf off e).val =
      if off + 2 > e then 0
      else if off + 2 + (Tpm.read16 buf off).toNat ≤ e then
        off + 2 + (Tpm.read16 buf off).toNat else 0 := by
    simp only [skipTPM2B, val_bind, val_ite, val_pure, Mem.val_sum, Mem.val_read16]
  rw [run_sized_window hoff he, hval]
  by_cases hfit : off + 2 ≤ e ∧ off + 2 + (Tpm.read16 buf off).toNat ≤ e
  · right
    refine ⟨_, rfl, hfit.2, ?_, if_pos hfit⟩
    rw [if_neg (by omega), if_pos hfit.2]
  · left
    refine ⟨if_neg hfit, ?_⟩
    by_cases h2 : off + 2 > e
    · exact if_pos h2
    · rw [if_neg h2, if_neg fun hc => hfit ⟨by omega, hc⟩]

/-- What a Name field in front of the end of the parameters does to the table. -/
theorem NamesAgree.extractLoadName {t : NameTable} {names : ObjectNames} (h : NamesAgree t names)
    (k : UInt32) :
    NamesAgree (extractLoadName t buf off e k).val
      (match (readSized.run (window buf off e)).map Prod.fst with
        | some name => names.record k name
        | none => names) := by
  have hval : (Session.extractLoadName t buf off e k).val =
      if off + 2 > e then t
      else if off + 2 + (Tpm.read16 buf off).toNat > e then t
      else (t.add k .response buf (off + 2) (Tpm.read16 buf off).toNat).val := by
    simp only [Session.extractLoadName, val_bind, val_ite, val_pure, Mem.val_sum, Mem.val_read16]
  rw [run_sized_window hoff he, hval]
  by_cases hfit : off + 2 ≤ e ∧ off + 2 + (Tpm.read16 buf off).toNat ≤ e
  · rw [if_neg (by omega), if_neg (by omega), if_pos hfit]
    exact h.add k .response (by omega)
  · rw [if_neg hfit]
    by_cases h2 : off + 2 > e
    · rw [if_pos h2]
      exact h
    · rw [if_neg h2, if_pos (by omega)]
      exact h

end

/-- Field after field, the parameters of a CreatePrimary response. -/
theorem NamesAgree.extractCreatePrimaryName {t : NameTable} {names : ObjectNames}
    (h : NamesAgree t names) (k : UInt32) {buf : Bytes} {p e : Nat} (hp : p ≤ e)
    (he : e ≤ buf.length) :
    NamesAgree (extractCreatePrimaryName t buf p e k).val
      (match (readPrimaryName.run (window buf p e)).map Prod.fst with
        | some name => names.record k name
        | none => names) := by
  simp only [Session.extractCreatePrimaryName, val_bind, val_ite, val_pure, Mem.val_sum]
  rcases skipTPM2B_window hp he .response with ⟨hread, hskip⟩ | ⟨p₁, hge₁, hp₁, hskip, hread⟩
  · rw [if_pos hskip, readPrimaryName, run_bind_of_none hread]
    exact h
  rw [hskip, if_neg (by omega), readPrimaryName, run_bind_of_some hread]
  rcases skipTPM2B_window hp₁ he .response with ⟨hread, hskip⟩ | ⟨p₂, hge₂, hp₂, hskip, hread⟩
  · rw [if_pos hskip, run_bind_of_none hread]
    exact h
  rw [hskip, if_neg (by omega), run_bind_of_some hread]
  rcases skipTPM2B_window hp₂ he .response with ⟨hread, hskip⟩ | ⟨p₃, hge₃, hp₃, hskip, hread⟩
  · rw [if_pos hskip, run_bind_of_none hread]
    exact h
  rw [hskip, if_neg (by omega), run_bind_of_some hread]
  -- creationTicket: six bytes and a digest
  have hticket := run_takeN_window 6 hp₃ he
  by_cases hsix : p₃ + 6 ≤ e
  · rw [if_pos hsix] at hticket
    rw [if_neg (by omega), run_bind_of_some hticket]
    rcases skipTPM2B_window hsix he .response with ⟨hread, hskip⟩ | ⟨p₄, hge₄, hp₄, hskip, hread⟩
    · rw [if_pos hskip, run_bind_of_none hread]
      exact h
    rw [hskip, if_neg (by omega), run_bind_of_some hread]
    have hname := h.extractLoadName hp₄ he k
    simp only [Session.extractLoadName, val_bind, val_ite, val_pure, Mem.val_sum] at hname
    exact hname
  · rw [if_neg hsix] at hticket
    rw [if_pos (by omega), run_bind_of_none hticket]
    exact h

/-- The dispatch over the two commands that make an object. -/
theorem NamesAgree.populate {t : NameTable} {names : ObjectNames} (h : NamesAgree t names)
    (k code : UInt32) {buf : Bytes} {p e : Nat} (hp : p ≤ e) (he : e ≤ buf.length) :
    NamesAgree (populateNameFromResponse t code buf p e k).val
      (match objectName code (window buf p e) with
        | some name => names.record k name
        | none => names) := by
  unfold populateNameFromResponse objectName
  by_cases hprimary : code = TPM2_CC_CreatePrimary
  · rw [if_pos hprimary, if_pos hprimary]
    exact h.extractCreatePrimaryName k hp he
  rw [if_neg hprimary, if_neg hprimary]
  by_cases hload : code = TPM2_CC_Load
  · rw [if_pos hload, if_pos hload]
    exact h.extractLoadName hp he k
  · rw [if_neg hload, if_neg hload]
    exact h

/-! ## The simulation relation -/

structure Implements (st : SessionState) (l : Layer) : Prop where
  session : l.session =
    if st.initialized then some ⟨st.handle, st.hashAlg, st.nonce, st.key⟩ else none
  digestSize : st.digestSize = digestSizeFor st.hashAlg
  names : NamesAgree st.names l.names
  start : l.start = if st.pendingStartAuthSession then some st.startAuthSessionCompatible else none
  authHash : st.startAuthSessionCompatible = true → st.startAuthSessionAuthHash = TPM2_ALG_SHA256
  lastCommandCode : l.lastCommandCode = st.lastCommandCode
  bounded : Bounded st

theorem namesAgree_empty : NamesAgree ⟨[]⟩ ∅ := ⟨fun _ => rfl, rfl⟩

theorem implements_zero : Implements SessionState.zero Layer.empty where
  session := rfl
  digestSize := rfl
  names := namesAgree_empty
  start := rfl
  authHash h := by cases h
  lastCommandCode := rfl
  bounded := bounded_zero

theorem read16_take {b : Bytes} (off : Nat) {n : Nat} (h : off + 2 ≤ n) (hn : n ≤ b.length) :
    Tpm.read16 (b.take n) off = Tpm.read16 b off := by
  have hlen : (b.take n).length = n := by rw [List.length_take]; omega
  have happ : Tpm.read16 (b.take n ++ b.drop n) off = Tpm.read16 (b.take n) off :=
    read16_append_left (by omega)
  rw [List.take_append_drop] at happ
  exact happ.symm

theorem read32_take {b : Bytes} (off : Nat) {n : Nat} (h : off + 4 ≤ n) (hn : n ≤ b.length) :
    Tpm.read32 (b.take n) off = Tpm.read32 b off := by
  have hlen : (b.take n).length = n := by rw [List.length_take]; omega
  have happ : Tpm.read32 (b.take n ++ b.drop n) off = Tpm.read32 (b.take n) off :=
    read32_append_left (by omega)
  rw [List.take_append_drop] at happ
  exact happ.symm

/-- The header check looks at the message. -/
theorem isMessage_take {buf : Bytes} {size : Nat} (hsize : size ≤ buf.length) :
    IsMessage (buf.take size) ↔ 10 ≤ size ∧ (Tpm.read32 buf 2).toNat = size := by
  have hlen : (buf.take size).length = size := by rw [List.length_take]; omega
  unfold IsMessage
  rw [hlen]
  refine and_congr_right fun h10 => ?_
  rw [read32_take 2 (by omega) hsize]

/-! ## Responses -/

section

variable {buf : Bytes} {size : Nat} (hsize : size ≤ buf.length) (h10 : 10 ≤ size)

include hsize h10

theorem run_startReply_window : readStartReply.run (window buf 10 size) =
    if 16 ≤ size ∧ 16 + (Tpm.read16 buf 14).toNat ≤ size then
      some ((Tpm.read32 buf 10, slice buf 16 (Tpm.read16 buf 14).toNat),
        window buf (16 + (Tpm.read16 buf 14).toNat) size)
    else none := by
  have hword := run_word32_window h10 hsize
  unfold readStartReply
  by_cases h14 : 14 ≤ size
  · have hnonce := run_sized_window h14 hsize
    rw [if_pos h14] at hword
    rw [run_bind_of_some hword]
    by_cases hfit : 14 + 2 ≤ size ∧ 14 + 2 + (Tpm.read16 buf 14).toNat ≤ size
    · rw [if_pos hfit] at hnonce
      rw [run_bind_of_some hnonce, if_pos hfit]
      rfl
    · rw [if_neg hfit] at hnonce
      rw [run_bind_of_none hnonce, if_neg hfit]
  · rw [if_neg h14] at hword
    rw [run_bind_of_none hword, if_neg (by omega)]

/-- The guards of the pending branch are the grammar of the response. -/
theorem pendingArmArgs_window (st : SessionState) :
    (pendingArmArgs st buf size (Tpm.read16 buf 0) (Tpm.read32 buf 6)).val =
      if st.startAuthSessionCompatible = true ∧ Tpm.read16 buf 0 = TPM2_ST_NO_SESSIONS ∧
          Tpm.read32 buf 6 = TPM2_RC_SUCCESS ∧
          (readStartReply.run (window buf 10 size)).isSome = true then
        some ⟨Tpm.read32 buf 10, (Tpm.read16 buf 14).toNat, st.startAuthSessionAuthHash⟩
      else none := by
  have hreply : (readStartReply.run (window buf 10 size)).isSome = true ↔
      16 ≤ size ∧ 16 + (Tpm.read16 buf 14).toNat ≤ size := by
    rw [run_startReply_window hsize h10]
    split
    · next hfit => exact iff_of_true rfl hfit
    · next hfit => exact iff_of_false (by simp) hfit
  simp only [pendingArmArgs, val_bind, val_ite, val_pure, Mem.val_sum, Mem.val_read32,
    Mem.val_read16, hreply]
  by_cases htag : Tpm.read16 buf 0 = TPM2_ST_NO_SESSIONS ∧ Tpm.read32 buf 6 = TPM2_RC_SUCCESS
  · rw [if_neg (by rw [not_or, not_not, not_not]; exact htag)]
    by_cases hcompat : st.startAuthSessionCompatible = true
    · by_cases h16 : size < 16
      · rw [if_pos (Or.inr h16), if_neg (by omega)]
      · rw [if_neg (by rw [not_or, Bool.not_eq_false]; exact ⟨hcompat, h16⟩)]
        by_cases hend : 16 + (Tpm.read16 buf 14).toNat > size
        · rw [if_pos hend, if_neg (by omega)]
        · rw [if_neg hend, if_pos ⟨hcompat, htag.1, htag.2, by omega, by omega⟩]
    · rw [if_pos (Or.inl (by simpa using hcompat)), if_neg fun h => hcompat h.1]
  · rw [if_pos (by rw [← not_and_or]; exact htag), if_neg fun h => htag ⟨h.2.1, h.2.2.1⟩]

/-- So are the bounds checks on a session-tagged response. -/
theorem findResponseFields_window (attr : CommandAttrEntry) :
    ((readTaggedReply attr).run (window buf 10 size) = none ∧
      (findResponseFields buf size attr).val = none) ∨
      ∃ f rest, (findResponseFields buf size attr).val = some f ∧ f.paramsOff ≤ f.authAreaOff ∧
        f.authAreaOff + 2 + f.nonceSize ≤ size ∧
        (readTaggedReply attr).run (window buf 10 size) = some ((words buf 10 attr.outHandleCount,
          window buf f.paramsOff f.authAreaOff, slice buf (f.authAreaOff + 2) f.nonceSize),
          rest) := by
  have hhandles := run_words_window hsize attr.outHandleCount 10 h10
  simp only [findResponseFields, val_bind, val_ite, val_pure, Mem.val_sum,
    Mem.val_read32, Mem.val_read16]
  unfold readTaggedReply
  by_cases hh : 10 + 4 * attr.outHandleCount ≤ size
  · rw [if_pos hh] at hhandles
    have hword := run_word32_window hh hsize
    rw [run_bind_of_some hhandles]
    by_cases hw : 10 + 4 * attr.outHandleCount + 4 ≤ size
    · rw [if_pos hw] at hword
      have hparams :=
        run_takeN_window (Tpm.read32 buf (10 + 4 * attr.outHandleCount)).toNat hw hsize
      rw [run_bind_of_some hword, if_neg (by omega)]
      generalize hn : (Tpm.read32 buf (10 + 4 * attr.outHandleCount)).toNat = n at hparams ⊢
      by_cases hp : 10 + 4 * attr.outHandleCount + 4 + n ≤ size
      · rw [if_pos hp] at hparams
        have hnonce := run_sized_window hp hsize
        rw [run_bind_of_some hparams, if_neg (by omega)]
        by_cases hfit : 10 + 4 * attr.outHandleCount + 4 + n + 2 ≤ size ∧
            10 + 4 * attr.outHandleCount + 4 + n + 2 +
              (Tpm.read16 buf (10 + 4 * attr.outHandleCount + 4 + n)).toNat ≤ size
        · rw [if_pos hfit] at hnonce
          rw [run_bind_of_some hnonce, if_neg (by omega), if_neg (by omega)]
          exact Or.inr ⟨_, _, rfl, Nat.le_add_right _ _, hfit.2, rfl⟩
        · rw [if_neg hfit] at hnonce
          rw [run_bind_of_none hnonce]
          refine Or.inl ⟨rfl, ?_⟩
          split
          · rfl
          · rw [if_pos (by omega)]
      · rw [if_neg hp] at hparams
        rw [run_bind_of_none hparams, if_pos (by omega)]
        exact Or.inl ⟨rfl, rfl⟩
    · rw [if_neg hw] at hword
      rw [run_bind_of_none hword, if_pos (by omega)]
      exact Or.inl ⟨rfl, rfl⟩
  · rw [if_neg hh] at hhandles
    rw [run_bind_of_none hhandles, if_pos (by omega)]
    exact Or.inl ⟨rfl, rfl⟩

end

/-- The handler with a nonce and the parameters in hand. -/
theorem implements_learn {st : SessionState} {l : Layer} (h : Implements st l)
    (hinit : st.initialized = true) {buf : Bytes} {size : Nat} (hsize : size ≤ buf.length)
    (h10 : 10 ≤ size) :
    Implements (processSessionResponse st buf size).val
      (l.learn ⟨st.handle, st.hashAlg, st.nonce, st.key⟩ (buf.take size)) := by
  have hbounded : Bounded (processSessionResponse st buf size).val :=
    processSessionResponse_bounded h.bounded buf size
  have hdrop : (buf.take size).drop 10 = window buf 10 size := rfl
  unfold Layer.learn
  rw [h.lastCommandCode, hdrop]
  cases ha : lookupCommandAttr st.lastCommandCode with
  | none =>
    simp only [processSessionResponse, ha]
    exact h
  | some attr =>
    rcases findResponseFields_window hsize h10 attr with ⟨hread, hf⟩ |
      ⟨f, rest, hf, hparams, hnonce, hread⟩
    · simp only [processSessionResponse, ha, val_bind, hf, hread]
      exact h
    · rw [processSessionResponse_some st ha hf] at hbounded ⊢
      simp only [hread]
      -- the nonce
      have hlen := length_slice (b := buf) (i := f.authAreaOff + 2) (n := f.nonceSize) (by omega)
      have hsession : some ((⟨st.handle, st.hashAlg, st.nonce, st.key⟩ : ArmedSession).refresh
            (slice buf (f.authAreaOff + 2) f.nonceSize)) =
          let st' := (refreshNonce st buf (f.authAreaOff + 2) f.nonceSize).val
          if st'.initialized then some ⟨st'.handle, st'.hashAlg, st'.nonce, st'.key⟩ else none := by
        simp only [refreshNonce, ArmedSession.refresh, val_ite, val_bind,
          val_pure, Mem.val_bytes, hlen]
        by_cases hfits : 0 < f.nonceSize ∧ f.nonceSize ≤ SESSION_AUTH_MAX_DIGEST
        · have hblit := Fixed.first_blit st.nonceTpm
            (slice buf (f.authAreaOff + 2) f.nonceSize) (by omega)
          rw [hlen] at hblit
          simp only [gt_iff_lt, hfits, and_self, if_true, hinit, SessionState.nonce, hblit]
          rfl
        · simp only [gt_iff_lt, hfits, if_false, hinit, if_true]
      obtain ⟨nonceTpm, nonceTpmSize, hrefresh⟩ :=
        refreshNonce_frame st buf (f.authAreaOff + 2) f.nonceSize
      rw [hrefresh] at hsession hbounded ⊢
      -- the Name
      have hnames := h.names.populate (Tpm.read32 buf 10) st.lastCommandCode hparams
        (show f.authAreaOff ≤ buf.length by omega)
      cases hcount : attr.outHandleCount with
      | zero =>
        simp only [hcount, if_true, words] at hbounded ⊢
        exact ⟨hsession, h.digestSize, h.names, h.start, h.authHash, rfl, hbounded⟩
      | succ k =>
        simp only [hcount, Nat.add_eq_zero_iff, Nat.one_ne_zero, and_false,
          if_false, words] at hbounded ⊢
        refine ⟨hsession, h.digestSize, ?_, h.start, h.authHash, rfl, hbounded⟩
        cases hname : objectName st.lastCommandCode (window buf f.paramsOff f.authAreaOff) with
        | none =>
          rw [hname] at hnames
          exact hnames
        | some name =>
          rw [hname] at hnames
          exact hnames

/-- The answer to a StartAuthSession. -/
theorem implements_start {st : SessionState} {l : Layer} (h : Implements st l)
    {buf : Bytes} {size : Nat}
    (hsize : size ≤ buf.length) (h10 : 10 ≤ size)
    (hbounded : Bounded (processStartResponse st buf size (Tpm.read16 buf 0)
      (Tpm.read32 buf 6)).val) :
    Implements (processStartResponse st buf size (Tpm.read16 buf 0) (Tpm.read32 buf 6)).val
      (if st.startAuthSessionCompatible then
        (Layer.started (buf.take size)).getD { l with start := none }
        else { l with start := none }) := by
  have htag := read16_take 0 (show 0 + 2 ≤ size by omega) hsize
  have hrc := read32_take 6 (show 6 + 4 ≤ size by omega) hsize
  have hdrop : (buf.take size).drop 10 = window buf 10 size := rfl
  rw [processStartResponse_eq, pendingArmArgs_window hsize h10] at hbounded ⊢
  -- a start that does not arm leaves the session alone
  have hclear :
    Implements { st with pendingStartAuthSession := false, startAuthSessionCompatible := false }
      { l with start := none } :=
    ⟨h.session, h.digestSize, h.names, rfl, (fun hc => by cases hc), h.lastCommandCode,
      ⟨h.bounded.1, h.bounded.2, h.bounded.3, h.bounded.4⟩⟩
  cases hcompat : st.startAuthSessionCompatible with
  | false =>
    simp only [Bool.false_eq_true, false_and, if_false]
    exact hclear
  | true =>
    rw [hcompat] at hbounded
    simp only [true_and, Layer.started, htag, hrc, hdrop] at hbounded ⊢
    by_cases hok : Tpm.read16 buf 0 = TPM2_ST_NO_SESSIONS ∧ Tpm.read32 buf 6 = TPM2_RC_SUCCESS
    · cases hread : readStartReply.run (window buf 10 size) with
      | none =>
        rw [if_neg (by simp)]
        simp only [hok, and_self, if_true]
        exact hclear
      | some r =>
        rw [hread, if_pos ⟨hok.1, hok.2, rfl⟩] at hbounded
        rw [if_pos ⟨hok.1, hok.2, rfl⟩]
        rw [run_startReply_window hsize h10] at hread
        split at hread
        · next hfit =>
          cases hread
          simp only [hok, and_self, if_true, Option.map_some, Option.getD_some] at hbounded ⊢
          obtain ⟨hnonce, hst⟩ := sessionAuthInit_response buf
            (n := (Tpm.read16 buf 14).toNat) (by omega)
            (Tpm.read32 buf 10) st.startAuthSessionAuthHash
          rw [h.authHash hcompat] at hbounded hnonce hst ⊢
          generalize (sessionAuthInit (Tpm.read32 buf 10) .response (some buf) 16
            (Tpm.read16 buf 14).toNat none 0
            TPM2_ALG_SHA256).val = st' at hbounded hnonce hst ⊢
          rw [← hnonce]
          rw [hst] at hbounded ⊢
          exact ⟨rfl, rfl, namesAgree_empty, rfl, (fun hc => by cases hc), rfl, hbounded⟩
        · cases hread
    · rw [if_neg hok, if_neg fun hc => hok ⟨hc.1, hc.2.1⟩]
      exact hclear

theorem implements_process {st : SessionState} {l : Layer} (h : Implements st l) (buf : Bytes)
    {size : Nat} (hsize : size ≤ buf.length) :
    Implements (sessionAuthProcessResponse st (some buf) size).val (l.process (buf.take size)) := by
  unfold Layer.process
  by_cases hmsg : IsMessage (buf.take size)
  · obtain ⟨h10, hheader⟩ := (isMessage_take hsize).mp hmsg
    have hbounded := sessionAuthProcessResponse_bounded h.bounded (some buf) size
    rw [if_pos hmsg, h.start]
    rw [sessionAuthProcessResponse_good st ⟨h10, hheader⟩] at hbounded ⊢
    have htag := read16_take 0 (show 0 + 2 ≤ size by omega) hsize
    have hrc := read32_take 6 (show 6 + 4 ≤ size by omega) hsize
    by_cases hp : st.pendingStartAuthSession = true
    · rw [if_pos hp] at hbounded ⊢
      rw [if_pos hp]
      have hstart := implements_start h hsize h10 hbounded
      cases hcompat : st.startAuthSessionCompatible with
      | true =>
        rw [hcompat] at hstart
        exact hstart
      | false =>
        rw [hcompat] at hstart
        exact hstart
    · rw [if_neg hp] at hbounded ⊢
      rw [if_neg hp, h.session]
      by_cases hinit : st.initialized = true
      · have hinit' : ¬ st.initialized = false := by rw [hinit]; decide
        rw [if_neg hinit'] at hbounded ⊢
        simp only [if_pos hinit, htag, hrc]
        by_cases hok : Tpm.read16 buf 0 = TPM2_ST_SESSIONS ∧ Tpm.read32 buf 6 = TPM2_RC_SUCCESS
        · rw [if_pos hok, if_neg (by rw [not_or, not_not, not_not]; exact hok)]
          exact implements_learn h hinit hsize h10
        · rw [if_neg hok, if_pos (by rw [← not_and_or]; exact hok)]
          exact h
      · rw [if_pos (by simpa using hinit)]
        simp only [hinit]
        exact h
  · rw [if_neg hmsg, sessionAuthProcessResponse_bad st fun hg =>
      hmsg ((isMessage_take hsize).mpr ⟨hg.1, hg.2⟩)]
    exact h

/-! ## Commands -/

/-- What is kept of a StartAuthSession. -/
theorem capture_window (st : SessionState) (buf : Bytes) {size : Nat} (hsize : size ≤ buf.length) :
    ∃ authHash, (captureStartAuthSessionCommand st buf size).val =
      { st with
        pendingStartAuthSession := true
        startAuthSessionCompatible := Layer.compatible (buf.take size)
        startAuthSessionAuthHash := authHash } ∧
      (Layer.compatible (buf.take size) = true → authHash = TPM2_ALG_SHA256) := by
  have hlen : (buf.take size).length = size := by rw [List.length_take]; omega
  have hdrop : (buf.take size).drop 10 = window buf 10 size := rfl
  have hsame : ∀ c : Bool, c = false → ∃ authHash,
      ({ st with pendingStartAuthSession := true, startAuthSessionCompatible := false } :
        SessionState) =
        { st with
          pendingStartAuthSession := true
          startAuthSessionCompatible := c
          startAuthSessionAuthHash := authHash } ∧ (c = true → authHash = TPM2_ALG_SHA256) := by
    intro c hc
    subst hc
    exact ⟨_, rfl, fun hc => by cases hc⟩
  simp only [captureStartAuthSessionCommand, val_bind, val_ite, val_pure, Mem.val_read32,
    Mem.val_read16, Mem.val_read8, Mem.val_sum, Mem.val_diff]
  unfold Layer.compatible
  rw [hlen, hdrop]
  by_cases h27 : size < 27
  · rw [if_pos h27, if_pos h27]
    exact hsame false rfl
  rw [if_neg h27, if_neg h27]
  have hkey := run_word32_window (b := buf) (i := 10) (e := size) (by omega) hsize
  have hbind := run_word32_window (b := buf) (i := 14) (e := size) (by omega) hsize
  rw [if_pos (by omega)] at hkey hbind
  unfold readStart
  rw [run_bind_of_some hkey, run_bind_of_some hbind]
  rcases skipTPM2B_window (show 18 ≤ size by omega) hsize .command with
    ⟨hread, hskip⟩ | ⟨p₁, hge₁, hp₁, hskip, hread⟩
  · rw [if_pos hskip, run_bind_of_none hread]
    exact hsame _ rfl
  rw [hskip, if_neg (by omega), run_bind_of_some hread]
  rcases skipTPM2B_window hp₁ hsize .command with ⟨hread, hskip⟩ | ⟨p₂, hge₂, hp₂, hskip, hread⟩
  · rw [if_pos hskip, run_bind_of_none hread]
    exact hsame _ rfl
  rw [hskip, if_neg (by omega), run_bind_of_some hread]
  have htype := run_byte_window hp₂ hsize
  by_cases h1 : p₂ + 1 ≤ size
  · rw [if_pos h1] at htype
    rw [if_neg (by omega), run_bind_of_some htype]
    have hsalt : Tpm.read16 buf p₁ = 0 ↔ slice buf (p₁ + 2) (Tpm.read16 buf p₁).toNat = [] := by
      rw [← List.length_eq_zero_iff, length_slice (by omega), ← UInt16.toNat_inj]
      rfl
    have hhash : Tpm.read16 (buf.take size) (size - 2) = Tpm.read16 buf (size - 2) :=
      read16_take _ (by omega) hsize
    have hoff : ((size : Int) - 2).toNat = size - 2 := by omega
    have hdecide : decide (Tpm.read32 buf 10 = TPM2_RH_NULL ∧ Tpm.read32 buf 14 = TPM2_RH_NULL ∧
          Tpm.read16 buf p₁ = 0 ∧ byteAt buf p₂ = TPM2_SE_HMAC ∧
          digestSizeFor (Tpm.read16 buf ((size : Int) - 2).toNat) ≠ 0) =
        decide (Tpm.read32 buf 10 = TPM2_RH_NULL ∧ Tpm.read32 buf 14 = TPM2_RH_NULL ∧
          slice buf (p₁ + 2) (Tpm.read16 buf p₁).toNat = [] ∧ byteAt buf p₂ = TPM2_SE_HMAC ∧
          Tpm.read16 (buf.take size) (size - 2) = TPM2_ALG_SHA256) := by
      rw [hoff, hhash]
      exact decide_eq_decide.mpr (by rw [hsalt, digestSizeFor_ne_zero])
    rw [hdecide]
    refine ⟨_, rfl, fun hc => ?_⟩
    have hcompat := of_decide_eq_true hc
    rw [hoff, ← hhash]
    exact hcompat.2.2.2.2
  · rw [if_neg h1] at htype
    rw [if_pos (by omega), run_bind_of_none htype]
    exact hsame _ rfl

/-! ### The command that is rewritten -/

theorem spells_authEntry : Spells AuthEntry.read AuthEntry.encode := by
  intro l entry rest h
  obtain ⟨handle, l₁, hhandle, h⟩ := run_bind_eq_some.mp h
  obtain ⟨nonce, l₂, hnonce, h⟩ := run_bind_eq_some.mp h
  obtain ⟨attrs, l₃, hattrs, h⟩ := run_bind_eq_some.mp h
  obtain ⟨hmac, l₄, hhmac, h⟩ := run_bind_eq_some.mp h
  obtain ⟨rfl, rfl⟩ := run_pure_eq_some.mp h
  rw [spells_word32 l handle l₁ hhandle, spells_tpm2b l₁ nonce l₂ hnonce,
    spells_byte l₂ attrs l₃ hattrs, spells_tpm2b l₃ hmac l₄ hhmac]
  simp [AuthEntry.encode]

/-- A message is its header and what is behind it. -/
theorem eq_message {m : Bytes} (hmsg : IsMessage m) :
    m = message (Tpm.read16 m 0) (Tpm.read32 m 6) (m.drop 10) := by
  obtain ⟨h10, hsize⟩ := hmsg
  have hwhole : ∀ i, window m i m.length = m.drop i := fun i => by rw [window, List.take_length]
  have htag := run_word16_window (b := m) (i := 0) (e := m.length) (by omega) (Nat.le_refl _)
  have hlen := run_word32_window (b := m) (i := 2) (e := m.length) (by omega) (Nat.le_refl _)
  have hcode := run_word32_window (b := m) (i := 6) (e := m.length) (by omega) (Nat.le_refl _)
  rw [if_pos (by omega), hwhole, hwhole] at htag hlen hcode
  have hrest : 10 + (m.drop 10).length = m.length := by rw [List.length_drop]; omega
  calc m = write16 (Tpm.read16 m 0) ++ m.drop 2 := spells_word16 _ _ _ htag
    _ = write16 (Tpm.read16 m 0) ++ (write32 (Tpm.read32 m 2) ++ m.drop 6) := by
        rw [spells_word32 _ _ _ hlen]
    _ = write16 (Tpm.read16 m 0) ++ (write32 (Tpm.read32 m 2) ++
          (write32 (Tpm.read32 m 6) ++ m.drop 10)) := by rw [spells_word32 _ _ _ hcode]
    _ = message (Tpm.read16 m 0) (Tpm.read32 m 6) (m.drop 10) := by
        rw [message, hrest, ← hsize, UInt32.ofNat_toNat]

/-- What the grammar reads as a session-tagged command is the encoding of one. -/
theorem exists_taggedCommand {m : Bytes} (hmsg : IsMessage m)
    (htag : Tpm.read16 m 0 = TPM2_ST_SESSIONS) {attr : CommandAttrEntry}
    (hattr : lookupCommandAttr (Tpm.read32 m 6) = some attr) {handles : List UInt32}
    {entry : AuthEntry} {params rest : Bytes}
    (hread : (readTagged attr).run (m.drop 10) = some ((handles, entry, params), rest)) :
    ∃ c : TaggedCommand, c.attr = attr ∧ c.handles = handles ∧
      c.entry = entry ∧ c.moreEntries = [] ∧
      c.params = params ∧ c.encode = m := by
  obtain ⟨hs, l₁, hhs, h⟩ := run_bind_eq_some.mp hread
  obtain ⟨authSize, l₂, hsize, h⟩ := run_bind_eq_some.mp h
  obtain ⟨e, l₃, hentry, h⟩ := run_bind_eq_some.mp h
  obtain ⟨p, l₄, hparams, h⟩ := run_bind_eq_some.mp h
  obtain ⟨heq, rfl⟩ := run_pure_eq_some.mp h
  cases heq
  cases hparams
  obtain ⟨hbody, hcount⟩ := spells_times spells_word32 _ _ _ _ hhs
  obtain ⟨hl₂, hauth⟩ := spells_within spells_authEntry hentry
  refine ⟨⟨attr, List.mem_of_find?_eq_some hattr, handles, hcount, entry, [], params⟩, rfl,
    rfl, rfl, rfl, rfl, ?_⟩
  have hm := eq_message hmsg
  rw [htag, hbody, spells_word32 l₁ authSize l₂ hsize, hl₂] at hm
  have hsize' : UInt32.ofNat (entry.encode.length + 0) = authSize := by
    rw [Nat.add_zero, hauth, UInt32.ofNat_toNat]
  refine Eq.trans ?_ hm.symm
  simp only [TaggedCommand.encode, TaggedCommand.body, TaggedCommand.authSize, List.length_nil,
    hsize', lookupCommandAttr_code hattr, handleBytes, List.nil_append]

/-- An entry whose parts add up to its end. -/
theorem whole_authEntry {buf : Bytes} {a e n h : Nat} (he : e ≤ buf.length)
    (hn : (Tpm.read16 buf (a + 4)).toNat = n)
    (hh : (Tpm.read16 buf (a + 4 + (2 + n) + 1)).toNat = h)
    (hsum : a + 4 + (2 + n) + 1 + (2 + h) = e) :
    ∃ entry, whole AuthEntry.read (window buf a e) = some entry := by
  have hhandle := run_word32_window (b := buf) (i := a) (e := e) (by omega) he
  have hnonce := run_tpm2b_window (b := buf) (i := a + 4) (e := e) (by omega) he
  have hattrs := run_byte_window (b := buf) (i := a + 4 + 2 + n) (e := e) (by omega) he
  have hhmac := run_tpm2b_window (b := buf) (i := a + 4 + 2 + n + 1) (e := e) (by omega) he
  rw [show a + 4 + (2 + n) + 1 = a + 4 + 2 + n + 1 by omega] at hh
  simp only [hn] at hnonce
  simp only [hh] at hhmac
  rw [if_pos (by omega)] at hhandle hnonce hattrs hhmac
  rw [show a + 4 + 2 + n + 1 + 2 + h = e by omega, window_self] at hhmac
  exact ⟨_, whole_eq_some_iff.mpr (run_bind_eq_some.mpr ⟨_, _, hhandle, run_bind_eq_some.mpr
    ⟨_, _, hnonce, run_bind_eq_some.mpr ⟨_, _, hattrs, run_bind_eq_some.mpr ⟨_, _, hhmac, rfl⟩⟩⟩⟩)⟩

/-- The bounds checks on the auth area are those of the grammar. -/
theorem readTagged_of_parse {buf : Bytes} {size : Nat} (hsize : size ≤ buf.length) (handle : UInt32)
    {attr : CommandAttrEntry} {area : AuthArea} {entry : AuthEntryFields}
    (ha : (findAuthArea buf size attr).val = some area)
    (he : (parseAuthEntry handle buf area).val = some entry) :
    ∃ r, (readTagged attr).run (window buf 10 size) = some r := by
  obtain ⟨rfl, hend⟩ := findAuthArea_eq_some ha
  simp only at hend
  generalize ho : 10 + 4 * attr.handleCount = o at hend he
  have hsizes : (Tpm.read16 buf (o + 4 + 4)).toNat = entry.origNonceSize ∧
      (Tpm.read16 buf (o + 4 + 4 + (2 + entry.origNonceSize) + 1)).toNat = entry.origHmacSize := by
    simp only [parseAuthEntry, val_bind, val_ite, val_pure, Mem.val_sum, Mem.val_read32,
      Mem.val_read16, Mem.val_read8] at he
    repeat' (split at he; cases he)
    cases he
    exact ⟨rfl, rfl⟩
  obtain ⟨-, hoff, hsum, -, -⟩ := parseAuthEntry_eq_some he
  simp only at hoff hsum
  rw [hoff] at hsum
  obtain ⟨entry', hentry⟩ := whole_authEntry (Nat.le_trans hend hsize) hsizes.1 hsizes.2 hsum
  have hhandles := run_words_window hsize attr.handleCount 10 (by omega)
  have hword := run_word32_window (b := buf) (i := o) (by omega) hsize
  have hwithin := run_within_window AuthEntry.read (Tpm.read32 buf o).toNat
    (b := buf) (i := o + 4) (by omega) hsize
  rw [ho, if_pos (by omega)] at hhandles
  rw [if_pos (by omega)] at hword
  rw [if_pos hend, hentry] at hwithin
  exact ⟨_, run_bind_eq_some.mpr ⟨_, _, hhandles, run_bind_eq_some.mpr ⟨_, _, hword,
    run_bind_eq_some.mpr ⟨_, _, hwithin, rfl⟩⟩⟩⟩

variable (C : Crypto)

theorem hashHandleNames_unnamed (names : NameTable) {buf rest : Bytes} :
    ∀ (handles : List UInt32) (i : Nat) (ctx : Bytes),
      buf.drop (10 + 4 * i) = handleBytes handles ++ rest →
      (∃ h ∈ handles, (handleName names h kMaxNameSize).val = []) →
      (hashHandleNames names buf handles.length i ctx).val = none := by
  intro handles
  induction handles with
  | nil =>
    rintro i ctx - ⟨h, hm, -⟩
    cases hm
  | cons h hs ih =>
    intro i ctx hd hnone
    rw [handleBytes, List.flatMap_cons, List.append_assoc, ← handleBytes] at hd
    simp only [List.length_cons, hashHandleNames, val_bind, val_ite, Mem.val_read32,
      read32_of_drop hd, val_pure]
    by_cases hname : (handleName names h kMaxNameSize).val.length = 0
    · rw [if_pos hname]
    · rw [if_neg hname]
      refine ih (i + 1) _ (drop_of_drop hd (by simp; omega)) ?_
      obtain ⟨h', hm, hnil⟩ := hnone
      rcases List.mem_cons.mp hm with rfl | hm
      · exact absurd (by rw [hnil]; rfl) hname
      · exact ⟨h', hm, hnil⟩

/-- A command of a single entry is passed on when the entry is another session's, a handle has no
Name, or the authorised command does not fit. -/
theorem patchSessionCommand_declines (st : SessionState) {c : TaggedCommand}
    (slack : Bytes) (cap : Nat)
    (hm : c.moreEntries = []) (hlt : c.size < 2 ^ 32)
    (hno : ¬ (c.entry.handle = st.handle ∧
      (∀ h ∈ c.handles, (handleName st.names h kMaxNameSize).val ≠ []) ∧
      (c.authorise C st).size ≤ cap)) :
    (patchSessionCommand C st (c.encode ++ slack) c.size cap c.attr.commandCode).val =
      (c.encode ++ slack, c.size) := by
  by_cases hH : c.entry.handle = st.handle
  · have hoff : 10 + 4 * c.attr.handleCount + 4 + c.authSize =
        14 + 4 * c.attr.handleCount + c.authSize := by
      omega
    have hcp : ((c.size : Int) - (14 + 4 * c.attr.handleCount + c.authSize : Nat)).toNat =
        c.params.length := by
      simp only [TaggedCommand.size]
      omega
    by_cases hnames : ∀ h ∈ c.handles, (handleName st.names h kMaxNameSize).val ≠ []
    · -- the only thing left is the room
      have hcap : ¬ (c.authorise C st).size ≤ cap := fun hcap => hno ⟨hH, hnames, hcap⟩
      have hadd := TaggedCommand.size_authorise_add C st c
      have hnew : ((c.size : Int) + (((2 + nonceCaller.length + (2 + 32) : Nat) : Int) -
          (2 + c.entry.nonce.size + (2 + c.entry.hmac.size) : Nat))).toNat =
          (c.authorise C st).size := by
        have hcaller : nonceCaller.length = 16 := rfl
        omega
      simp only [patchSessionCommand, lookupCommandAttr_of_mem c.attr_mem, val_bind,
        TaggedCommand.val_findAuthArea slack hlt, ← hH, TaggedCommand.val_parseAuthEntry slack hm,
        Mem.val_sum, Mem.val_diff, hoff, hcp, val_computeCpHash C st slack hnames, val_computeHmac,
        patchAuthArea, val_ite, val_pure, hnew]
      rw [if_pos (by omega)]
    · have hunnamed : ∃ h ∈ c.handles, (handleName st.names h kMaxNameSize).val = [] := by
        simpa using hnames
      have hhash := hashHandleNames_unnamed st.names c.handles 0 (write32 c.attr.commandCode)
        (c.drop_handles slack) hunnamed
      rw [c.handles_length] at hhash
      simp only [patchSessionCommand, lookupCommandAttr_of_mem c.attr_mem, val_bind,
        TaggedCommand.val_findAuthArea slack hlt, ← hH, TaggedCommand.val_parseAuthEntry slack hm,
        Mem.val_sum, Mem.val_diff, computeCpHash, hhash, val_pure]
  · rcases patchSessionCommand_cases C st (c.encode ++ slack) c.size cap c.attr.commandCode with
      hr | ⟨attr, hattr, hfirst⟩
    · exact hr
    · rw [lookupCommandAttr_of_mem c.attr_mem] at hattr
      cases hattr
      rw [c.firstAuthHandle_encode] at hfirst
      exact absurd hfirst hH

theorem authorised_eq {st : SessionState} {names : ObjectNames} (h : NamesAgree st.names names)
    (c : TaggedCommand) (hm : c.moreEntries = []) :
    Layer.authorised C names ⟨st.handle, st.hashAlg, st.nonce, st.key⟩
      c.attr.commandCode c.handles c.entry
      c.params = (c.authorise C st).encode := by
  have hauth := TaggedCommand.authSize_authorise C st c
  rw [hm, List.length_nil] at hauth
  have hnames : namesOf st c.handles = c.handles.flatMap names.nameOf := by
    simp only [namesOf, h.handleName]
  rw [TaggedCommand.encode, TaggedCommand.body, hauth]
  simp only [Layer.authorised, TaggedCommand.authorise, TaggedCommand.withAuth, commandMac, hnames,
    AuthEntry.encode, TPM2B.encode, hm, List.nil_append, List.append_assoc, List.cons_append]
  rfl

/-- The HMAC path, on any message. -/
theorem patchSessionCommand_rewrite (st : SessionState) {names : ObjectNames}
    (h : NamesAgree st.names names) {buf : Bytes} {size cap : Nat} (hsize : size ≤ cap)
    (hcap : cap ≤ buf.length) (hmsg : IsMessage (buf.take size))
    (htag : Tpm.read16 buf 0 = TPM2_ST_SESSIONS) :
    let r := (patchSessionCommand C st buf size cap (Tpm.read32 buf 6)).val
    let sent := Layer.rewrite C names ⟨st.handle, st.hashAlg, st.nonce, st.key⟩ (buf.take size) cap
    r.1.take r.2 = sent ∧ r.2 = sent.length := by
  have hlen : (buf.take size).length = size := by rw [List.length_take]; omega
  have hdrop : (buf.take size).drop 10 = window buf 10 size := rfl
  obtain ⟨h10, -⟩ := (isMessage_take (by omega)).mp hmsg
  have htag' := read16_take 0 (show 0 + 2 ≤ size by omega) (Nat.le_trans hsize hcap)
  have hcode := read32_take 6 (show 6 + 4 ≤ size by omega) (Nat.le_trans hsize hcap)
  have hsame : (buf, size).1.take (buf, size).2 = buf.take size ∧
      (buf, size).2 = (buf.take size).length :=
    ⟨rfl, hlen.symm⟩
  intro r sent
  have hsent : sent = Layer.rewrite C names _ (buf.take size) cap := rfl
  unfold Layer.rewrite at hsent
  rw [hcode] at hsent
  cases hattr : lookupCommandAttr (Tpm.read32 buf 6) with
  | none =>
    have hr : r = (buf, size) := by
      simp only [r, patchSessionCommand, hattr, val_pure]
    simp only [hattr] at hsent
    rw [hsent, hr]
    exact hsame
  | some attr =>
    simp only [hattr, hdrop] at hsent
    cases hread : (readTagged attr).run (window buf 10 size) with
    | none =>
      have hr : r = (buf, size) := by
        simp only [r, patchSessionCommand, hattr, val_bind]
        cases ha : (findAuthArea buf size attr).val with
        | none => rfl
        | some area =>
          simp only [val_bind]
          cases he : (parseAuthEntry st.handle buf area).val with
          | none => rfl
          | some entry =>
            obtain ⟨r', hr'⟩ := readTagged_of_parse (Nat.le_trans hsize hcap) st.handle ha he
            rw [hread] at hr'
            cases hr'
      simp only [hread] at hsent
      rw [hsent, hr]
      exact hsame
    | some res =>
      obtain ⟨⟨handles, entry, params⟩, rest⟩ := res
      simp only [hread] at hsent
      obtain ⟨c, rfl, rfl, rfl, hm, rfl, henc⟩ := exists_taggedCommand hmsg (htag'.trans htag)
        (by rw [hcode]; exact hattr) (by rw [hdrop]; exact hread)
      have hc : c.size = size := by rw [← TaggedCommand.length_encode, henc, hlen]
      have hbuf : buf = c.encode ++ buf.drop size := by rw [henc, List.take_append_drop]
      have hlt : c.size < 2 ^ 32 := by
        have := (Tpm.read32 (buf.take size) 2).toNat_lt
        rw [hmsg.2, hlen] at this
        omega
      rw [← lookupCommandAttr_code hattr, authorised_eq C h c hm,
        TaggedCommand.length_encode] at hsent
      have hr : r = (patchSessionCommand C st (c.encode ++ buf.drop size) c.size cap
          c.attr.commandCode).val := by
        rw [← hbuf, hc, lookupCommandAttr_code hattr]
      by_cases hyes : c.entry.handle = st.handle ∧ names.Knows c.handles ∧
        (c.authorise C st).size ≤ cap
      · rw [if_pos hyes] at hsent
        obtain ⟨hH, hnames, hroom⟩ := hyes
        obtain ⟨rest', hval⟩ := val_patchSessionCommand C st (buf.drop size) hm hH
          (fun k hk => by rw [h.handleName]; exact hnames k hk) hlt hroom
            (by rw [← hbuf]; exact hcap)
        rw [hr, hval, hsent, ← TaggedCommand.length_encode]
        exact ⟨List.take_left, rfl⟩
      · rw [if_neg hyes] at hsent
        have hdecl := patchSessionCommand_declines C st (buf.drop size) cap hm hlt (by
          simpa only [h.handleName, ObjectNames.Knows] using hyes)
        rw [hr, hdecl, hsent, ← hbuf, hc]
        exact hsame

theorem implements_patch {st : SessionState} {l : Layer} (h : Implements st l) (buf : Bytes)
    {size cap : Nat} (hsize : size ≤ cap) (hcap : cap ≤ buf.length) :
    let r := (sessionAuthPatchCommand C st (some buf) size cap).val
    let p := l.patch C (buf.take size) cap
    Implements r.state p.1 ∧ ∃ b, r.buf = some b ∧ b.take r.size = p.2 ∧ r.size = p.2.length := by
  have hlen : (buf.take size).length = size := by rw [List.length_take]; omega
  have hsame : ∃ b, some buf = some b ∧ b.take size = buf.take size ∧
      size = (buf.take size).length :=
    ⟨buf, rfl, rfl, hlen.symm⟩
  intro r p
  have hp : p = l.patch C (buf.take size) cap := rfl
  have hbounded : Bounded r.state := sessionAuthPatchCommand_bounded C h.bounded _ _ _
  unfold Layer.patch at hp
  by_cases hmsg : IsMessage (buf.take size)
  · obtain ⟨h10, hheader⟩ := (isMessage_take (Nat.le_trans hsize hcap)).mp hmsg
    have hcode := read32_take 6 (show 6 + 4 ≤ size by omega) (Nat.le_trans hsize hcap)
    have htag := read16_take 0 (show 0 + 2 ≤ size by omega) (Nat.le_trans hsize hcap)
    have hr : r = _ := sessionAuthPatchCommand_good C st ⟨h10, hsize, hheader⟩
    -- the command is recorded, whatever becomes of it
    have hrecord : Implements { st with lastCommandCode := Tpm.read32 buf 6 }
        { l with lastCommandCode := Tpm.read32 buf 6 } :=
      ⟨h.session, h.digestSize, h.names, h.start, h.authHash, rfl,
        ⟨h.bounded.1, h.bounded.2, h.bounded.3, h.bounded.4⟩⟩
    simp only [if_pos hmsg, hcode, htag] at hp
    simp only at hr
    by_cases hstart : Tpm.read32 buf 6 = TPM2_CC_StartAuthSession
    · rw [if_pos hstart] at hp hr
      obtain ⟨authHash, hcap', hhash⟩ := capture_window { st with
        lastCommandCode := Tpm.read32 buf 6 } buf
        (Nat.le_trans hsize hcap)
      rw [hcap'] at hr
      rw [hr] at hbounded
      rw [hp, hr]
      exact ⟨⟨h.session, h.digestSize, h.names, rfl, hhash, rfl, hbounded⟩, hsame⟩
    rw [if_neg hstart, h.session] at hp
    rw [if_neg hstart] at hr
    by_cases hinit : st.initialized = true
    · simp only [if_pos hinit] at hp
      by_cases hpath : st.hashAlg = TPM2_ALG_SHA256 ∧ Tpm.read16 buf 0 = TPM2_ST_SESSIONS
      · have hdigest : ¬ (st.initialized = false ∨ st.digestSize = 0) := by
          rw [h.digestSize, hinit, hpath.1]
          decide
        obtain ⟨htake, hsize'⟩ := patchSessionCommand_rewrite C
          { st with lastCommandCode := Tpm.read32 buf 6 }
          h.names hsize hcap hmsg hpath.2
        rw [if_neg hdigest, if_neg (not_not.mpr hpath.2)] at hr
        rw [if_pos hpath] at hp
        rw [hp, hr]
        exact ⟨⟨(if_pos hinit).symm, h.digestSize, h.names, h.start, h.authHash, rfl,
          hrecord.bounded⟩, _, rfl, htake, hsize'⟩
      · rw [if_neg hpath] at hp
        have hskip : (st.initialized = false ∨ st.digestSize = 0) ∨
            Tpm.read16 buf 0 ≠ TPM2_ST_SESSIONS := by
          by_cases hhash : st.hashAlg = TPM2_ALG_SHA256
          · exact Or.inr fun htag' => hpath ⟨hhash, htag'⟩
          · left; right
            rw [h.digestSize, digestSizeFor, if_neg hhash]
        have hr' : r = ⟨{ st with lastCommandCode := Tpm.read32 buf 6 }, some buf, size⟩ := by
          rw [hr]
          rcases hskip with hskip | hskip
          · rw [if_pos hskip]
          · rw [if_pos hskip]
            split <;> rfl
        rw [hp, hr']
        exact ⟨⟨(if_pos hinit).symm, h.digestSize, h.names, h.start, h.authHash, rfl,
          hrecord.bounded⟩, hsame⟩
    · simp only [hinit] at hp
      rw [if_pos (Or.inl (by simpa using hinit))] at hr
      rw [hp, hr]
      exact ⟨⟨(if_neg hinit).symm, h.digestSize, h.names, h.start, h.authHash, rfl,
        hrecord.bounded⟩, hsame⟩
  · have hr : r = _ := sessionAuthPatchCommand_bad C st fun hg =>
      hmsg ((isMessage_take (Nat.le_trans hsize hcap)).mpr ⟨hg.1, hg.3⟩)
    rw [if_neg hmsg] at hp
    rw [hp, hr]
    exact ⟨h, hsame⟩

/-! ## Runs -/

/-- Every pointer is valid for the length passed with it. -/
def Call.Valid : Call → Prop
  | .initialise _ nonce nonceSize key keySize _ =>
    (∀ b ∈ nonce, nonceSize ≤ b.length) ∧ ∀ b ∈ key, keySize ≤ b.length
  | .reset => True
  | .patchCommand buf _ cap => ∀ b ∈ buf, cap ≤ b.length
  | .processResponse buf size => ∀ b ∈ buf, size ≤ b.length

theorem first_copyIn (src dst : Region) {ptr : Option Bytes} {size : Nat}
    (h : ∀ b ∈ ptr, size ≤ b.length) :
    (copyIn src ptr 0 (min size SESSION_AUTH_MAX_DIGEST) dst (Fixed.zeros _)).val.first
      (min size SESSION_AUTH_MAX_DIGEST) = Layer.argument ptr size := by
  have hmin : min size SESSION_AUTH_MAX_DIGEST ≤ SESSION_AUTH_MAX_DIGEST := Nat.min_le_right _ _
  cases ptr with
  | none =>
    show (List.replicate SESSION_AUTH_MAX_DIGEST 0).take _ = _
    rw [List.take_replicate, Nat.min_eq_left hmin]
    rfl
  | some b =>
    have hb : size ≤ b.length := h b rfl
    simp only [copyIn]
    by_cases h0 : min size SESSION_AUTH_MAX_DIGEST ≠ 0
    · rw [if_pos h0]
      have hlen := length_slice (b := b) (i := 0) (n := min size SESSION_AUTH_MAX_DIGEST) (by omega)
      have hblit := Fixed.first_blit (Fixed.zeros SESSION_AUTH_MAX_DIGEST)
        (slice b 0 (min size SESSION_AUTH_MAX_DIGEST)) (by omega)
      rw [hlen] at hblit
      exact hblit
    · rw [if_neg h0, not_not.mp h0]
      simp only [Layer.argument, not_not.mp h0]
      rfl

theorem implements_initialise (handle : UInt32) {nonce key : Option Bytes} {nonceSize keySize : Nat}
    (alg : UInt16) (hnonce : ∀ b ∈ nonce, nonceSize ≤ b.length)
    (hkey : ∀ b ∈ key, keySize ≤ b.length) :
    Implements (sessionAuthInit handle .initNonce nonce 0 nonceSize key keySize alg).val
      ⟨some ⟨handle, alg, Layer.argument nonce nonceSize, Layer.argument key keySize⟩, ∅,
        none, 0⟩ := by
  have hmin : ∀ n, (if n > SESSION_AUTH_MAX_DIGEST then SESSION_AUTH_MAX_DIGEST else n) =
      min n SESSION_AUTH_MAX_DIGEST := by
    intro n
    split <;> omega
  have hbounded := sessionAuthInit_bounded handle .initNonce nonce 0 nonceSize key keySize alg
  simp only [sessionAuthInit, val_bind, val_pure, hmin] at hbounded ⊢
  refine ⟨?_, rfl, namesAgree_empty, rfl, (fun hc => by cases hc), rfl, hbounded⟩
  rw [if_pos rfl, ← first_copyIn .initNonce .nonceTpm hnonce,
    ← first_copyIn .initKey .sessionKey hkey]
  rfl

theorem implements_call {st : SessionState} {l : Layer} (h : Implements st l) {c : Call}
    (hc : c.Valid) :
    Implements (stepCall C st c) (l.step C c) := by
  cases c with
  | initialise handle nonce nonceSize key keySize alg =>
    exact implements_initialise handle alg hc.1 hc.2
  | reset => exact implements_zero
  | patchCommand buf size cap =>
    cases buf with
    | none => exact h
    | some buf =>
      have hcap : cap ≤ buf.length := hc buf rfl
      simp only [Layer.step]
      by_cases hsize : size ≤ cap
      · rw [if_pos hsize]
        exact (implements_patch C h buf hsize hcap).1
      · rw [if_neg hsize]
        have hr := sessionAuthPatchCommand_bad C st
          (show ¬ GoodHeader buf size cap from fun hg => hsize hg.2)
        show Implements (sessionAuthPatchCommand C st (some buf) size cap).val.state l
        rw [hr]
        exact h
  | processResponse buf size =>
    cases buf with
    | none => exact h
    | some buf => exact implements_process h buf (hc buf rfl)

/-- After any sequence of calls the layer holds what the messages said, and the next command is sent
as the messages ask for. -/
theorem run_implements {cs : List Call} (hcs : ∀ c ∈ cs, c.Valid) :
    let st := run (stepCall C) SessionState.zero cs
    let l := run (Layer.step C) Layer.empty cs
    Implements st l ∧ sessionAuthGetSessionHandle st = (l.session.map ArmedSession.handle).getD 0 ∧
      ∀ buf size cap, size ≤ cap → cap ≤ buf.length →
        let r := (sessionAuthPatchCommand C st (some buf) size cap).val
        let sent := (l.patch C (buf.take size) cap).2
        ∃ b, r.buf = some b ∧ b.take r.size = sent ∧ r.size = sent.length := by
  intro st l
  have hstep : ∀ c ∈ cs, ∀ st l, Implements st l →
      Implements (stepCall C st c) (Layer.step C l c) :=
    fun c hc st l h => implements_call C h (hcs c hc)
  have himpl : Implements st l := run_related hstep implements_zero
  refine ⟨himpl, ?_, fun buf size cap hsize hcap => (implements_patch C himpl buf hsize hcap).2⟩
  rw [himpl.session]
  unfold sessionAuthGetSessionHandle
  cases st.initialized <;> rfl

/-- The calls for the start of an HMAC session under 0x02000000. -/
def startCalls : List Call :=
  let start := hmacSessionStart.encode
  let reply := (startReply 0x02000000).encode hmacSessionStart
  [.patchCommand (some start) start.length start.length, .processResponse (some reply) reply.length]

/-- A Clear behind them is authorised, in 75 bytes. -/
theorem startCalls_implement :
    let st := run (stepCall clearDigests) SessionState.zero startCalls
    let l := run (Layer.step clearDigests) Layer.empty startCalls
    let buf := (clearCommand 0x02000000 []).encode ++ List.replicate 64 0
    let r := (sessionAuthPatchCommand clearDigests st (some buf) 27 91).val
    let sent := (l.patch clearDigests (buf.take 27) 91).2
    Implements st l ∧ l.session.map ArmedSession.handle = some 0x02000000 ∧ sent.length = 75 ∧
      ∃ b, r.buf = some b ∧ b.take r.size = sent ∧ r.size = sent.length := by
  have hvalid : ∀ c ∈ startCalls, c.Valid := by
    intro c hc
    rcases List.mem_cons.mp hc with rfl | hc
    · rintro b ⟨⟩
      exact Nat.le_refl _
    · rw [List.mem_singleton.mp hc]
      rintro b ⟨⟩
      exact Nat.le_refl _
  obtain ⟨himpl, -, hpatch⟩ := run_implements clearDigests hvalid
  exact ⟨himpl, by decide +kernel, by decide +kernel, hpatch _ 27 91 (by decide) (by decide)⟩

end Session
