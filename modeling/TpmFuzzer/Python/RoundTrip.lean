import Mathlib.Data.List.Forall2
import TpmFuzzer.Proto.Encoding
import TpmFuzzer.Python.Classes

/-!
# The parsers undo the encoders

What `to_bytes` accepts, written out (`sized_eq_ok`, `AuthCommand.toBytes_eq_ok`, ..), and what the
parsers of `TPMCommand` make of it:

    AuthArea.toBytes ⟨cmds⟩ = .ok x         →  protoSessions x = .ok (cmds.map session)
                                                                  (protoSessions_toBytes)
    PcrSelectionList.toBytes l = .ok x      →  protoPcrSelection x = .ok l.message
                                                                  (protoPcrSelection_toBytes)
    Tpm2bSensitiveCreate.toBytes s = .ok x  →  protoSensitiveCreate x = .ok ..
                                                                  (protoSensitiveCreate_toBytes)

The messages encode to the bytes they were parsed from (`authArea_sessions`, `encode_message`).
-/

namespace Python

open Py Bytes Tpm

/-! ## Numbers -/

theorem fromBytes_of_drop {b rest : Bytes} {i j n k : Nat} (h : b.drop i = be n k ++ rest)
    (hj : j = i + n) (hk : k < 256 ^ n) : fromBytes (Py.slice b i j) = k := by
  rw [Py.slice_of_drop h (by rw [length_be]; exact hj), fromBytes_be hk]

theorem pbUint32_nat {k : Nat} (h : k < 2 ^ 32) : pbUint32 k = .ok (UInt32.ofNat k) := by
  unfold pbUint32
  rw [if_pos ⟨by omega, by omega⟩, Int.toNat_natCast]

theorem pbEnum_nat {k : Nat} (h : k < 2 ^ 31) : pbEnum k = .ok (UInt32.ofNat k) := by
  unfold pbEnum
  rw [if_pos ⟨by omega, by omega⟩, Int.emod_eq_of_lt (by omega) (by omega), Int.toNat_natCast]

theorem pbEnum_nat_eq_ok {k : Nat} {v : UInt32} (h : pbEnum k = .ok v) :
    k < 2 ^ 31 ∧ v = UInt32.ofNat k := by
  have hk : k < 2 ^ 31 := by
    unfold pbEnum at h
    split at h
    · omega
    · cases h
  rw [pbEnum_nat hk] at h
  cases h
  exact ⟨hk, rfl⟩

theorem pbName_eq_ok {numbers : List UInt32} {x : Nat} {v : UInt32} (h : pbName numbers x = .ok v) :
    v ∈ numbers ∧ v = UInt32.ofNat x := by
  unfold pbName at h
  split at h
  · next n hn =>
    cases h
    have hx : v.toNat = x := by simpa using List.find?_some hn
    rw [← hx, UInt32.ofNat_toNat]
    exact ⟨List.mem_of_find?_eq_some hn, rfl⟩
  · cases h

theorem toUInt16_ofNat (n : Nat) : (UInt32.ofNat n).toUInt16 = UInt16.ofNat n := by
  apply UInt16.toNat_inj.mp
  simp

theorem write16_alg {n : Nat} (h : n < 2 ^ 16) : write16 (UInt32.ofNat n).toUInt16 = be 2 n := by
  rw [toUInt16_ofNat, write16_ofNat h]

theorem be_one {k : Nat} (h : k < 256) : be 1 k = [UInt8.ofNat k] := by
  rw [be, be, Nat.mod_eq_of_lt h, List.nil_append]

/-! ## Sized buffers -/

theorem sized_eq_ok {b x : Bytes} :
    sized b = .ok x ↔ b.length < 2 ^ 16 ∧ x = be 2 b.length ++ b := by
  unfold sized
  constructor
  · intro h
    simp only [bind_eq_ok, toBytes_eq_ok, pure_eq_ok, Except.ok.injEq] at h
    obtain ⟨_, ⟨k, hk, hlt, rfl⟩, rfl⟩ := h
    have hkl : k = b.length := by omega
    subst hkl
    exact ⟨hlt, rfl⟩
  · rintro ⟨hlt, rfl⟩
    rw [toBytes_nat hlt]
    rfl

theorem protoSized_eq_ok {b : Bytes} (h : b.length < 2 ^ 32) :
    protoSized b = .ok { size := UInt32.ofNat b.length, buffer := b } := by
  rw [protoSized, pbUint32_nat h]
  rfl

/-- What the size at `offset` announces is cut out, as far as there is any. -/
theorem parseTpm2b_eq {buffer w : Bytes} {offset n : Nat} (hn : n < 2 ^ 16)
    (h : buffer.drop offset = be 2 n ++ w) :
    parseTpm2b buffer offset = (be 2 n ++ w.take n, offset + 2 + n) := by
  have hsize : fromBytes (Py.slice buffer offset (offset + 2)) = n := fromBytes_of_drop h rfl hn
  have htake : (be 2 n ++ w).take (2 + n) = be 2 n ++ w.take n := by
    rw [List.take_append, length_be, Nat.add_sub_cancel_left, List.take_of_length_le]
    rw [length_be]
    omega
  unfold parseTpm2b
  rw [hsize]
  dsimp only
  rw [Py.slice_eq_take h (Nat.add_assoc offset 2 n), htake]

/-- A TPM2B at `offset` is cut out whole. -/
theorem parseTpm2b_of_drop {buffer x rest : Bytes} {offset : Nat} (hx : x.length < 2 ^ 16)
    (h : buffer.drop offset = (be 2 x.length ++ x) ++ rest) :
    parseTpm2b buffer offset = (be 2 x.length ++ x, offset + 2 + x.length) := by
  rw [List.append_assoc] at h
  rw [parseTpm2b_eq hx h, List.take_left]

/-! ## Symmetric definitions -/

/-- The NULL algorithm has neither key size nor mode. -/
theorem SymDefObject.toBytes_eq_ok {s : SymDefObject} {x : Bytes} (h : s.toBytes = .ok x) :
    (algToInt s.algorithm = 0x10 ∧ x = be 2 0x10) ∨
      ∃ alg bits mode : Nat, alg ≠ 0x10 ∧ algToInt s.algorithm = alg ∧ alg < 2 ^ 16 ∧
        s.keyBits = bits ∧ bits < 2 ^ 16 ∧ algToInt s.mode = mode ∧ mode < 2 ^ 16 ∧
        x = be 2 alg ++ (be 2 bits ++ be 2 mode) := by
  simp only [SymDefObject.toBytes, bind_eq_ok, Py.toBytes_eq_ok] at h
  obtain ⟨_, ⟨alg, halg, haltlt, rfl⟩, h⟩ := h
  split at h
  · next hnull =>
    cases h
    have h16 : alg = 0x10 := Int.ofNat_inj.mp (halg.symm.trans hnull)
    exact Or.inl ⟨hnull, by rw [h16]⟩
  · next hnull =>
    simp only [bind_eq_ok, Py.toBytes_eq_ok, pure_eq_ok, Except.ok.injEq] at h
    obtain ⟨_, ⟨bits, hbits, hbitslt, rfl⟩, _, ⟨mode, hmode, hmodelt, rfl⟩, rfl⟩ := h
    refine Or.inr ⟨alg, bits, mode, ?_, halg, haltlt, hbits, hbitslt, hmode, hmodelt, ?_⟩
    · rintro rfl
      exact hnull halg
    · rw [List.append_assoc]

/-! ## Authorization areas -/

theorem joinBytes_cons_eq_ok {α : Type} {f : α → Result Bytes} {a : α} {as : List α} {x : Bytes}
    (h : joinBytes f (a :: as) = .ok x) :
    ∃ y rest, f a = .ok y ∧ joinBytes f as = .ok rest ∧ x = y ++ rest := by
  simp only [joinBytes, bind_eq_ok, pure_eq_ok, Except.ok.injEq] at h
  obtain ⟨y, hy, rest, hrest, rfl⟩ := h
  exact ⟨y, rest, hy, hrest, rfl⟩

/-- What holds of every element that is encoded holds of the list. -/
theorem forall₂_of_joinBytes {α β : Type} {f : α → Result Bytes} {g : α → β} {R : α → β → Prop}
    (hR : ∀ a x, f a = .ok x → R a (g a)) {as : List α} {x : Bytes} (h : joinBytes f as = .ok x) :
    List.Forall₂ R as (as.map g) := by
  induction as generalizing x with
  | nil => exact List.Forall₂.nil
  | cons a as ih =>
    obtain ⟨y, rest, hy, hrest, -⟩ := joinBytes_cons_eq_ok h
    exact List.Forall₂.cons (hR a y hy) (ih hrest)

/-- What is encoded element by element is the encoding of the elements' messages. -/
theorem flatMap_of_joinBytes {α β : Type} {f : α → Result Bytes} {g : α → β} {encode : β → Bytes}
    {as : List α} {x : Bytes} (hencode : ∀ a ∈ as, ∀ y, f a = .ok y → encode (g a) = y)
    (h : joinBytes f as = .ok x) : (as.map g).flatMap encode = x := by
  induction as generalizing x with
  | nil =>
    cases h
    rfl
  | cons a as ih =>
    obtain ⟨y, rest, hy, hrest, rfl⟩ := joinBytes_cons_eq_ok h
    rw [List.map_cons, List.flatMap_cons, hencode a List.mem_cons_self y hy,
      ih (fun b hb => hencode b (List.mem_cons_of_mem _ hb)) hrest]

namespace AuthCommand

/-- What `to_bytes` accepts and writes. -/
theorem toBytes_eq_ok {a : AuthCommand} {x : Bytes} (h : a.toBytes = .ok x) :
    ∃ handle attrs : Nat, a.sessionHandle = handle ∧ handle < 2 ^ 32 ∧ a.nonce.length < 2 ^ 16 ∧
      a.sessionAttributes = attrs ∧ attrs < 256 ∧ a.hmac.length < 2 ^ 16 ∧
      x = be 4 handle ++ (be 2 a.nonce.length ++ (a.nonce ++ (UInt8.ofNat attrs ::
        (be 2 a.hmac.length ++ a.hmac)))) := by
  simp only [AuthCommand.toBytes, bind_eq_ok, Py.toBytes_eq_ok, sized_eq_ok, pure_eq_ok,
    Except.ok.injEq] at h
  obtain ⟨_, ⟨handle, hh, hlt, rfl⟩, _, ⟨hn, rfl⟩, _, ⟨attrs, ha, halt, rfl⟩, _, ⟨hm, rfl⟩, rfl⟩ :=
    h
  refine ⟨handle, attrs, hh, hlt, hn, ha, halt, hm, ?_⟩
  rw [be_one halt]
  simp

/-- The protobuf session with the same members. -/
def session (a : AuthCommand) : Proto.TPMSession where
  sessionHandle := UInt32.ofNat a.sessionHandle.toNat
  nonceSize := UInt32.ofNat a.nonce.length
  nonce := a.nonce
  sessionAttributes := UInt32.ofNat a.sessionAttributes.toNat
  hmacSize := UInt32.ofNat a.hmac.length
  hmac := a.hmac

theorem encode_session {a : AuthCommand} {x : Bytes} (h : a.toBytes = .ok x) :
    a.session.encode = x := by
  obtain ⟨handle, attrs, hh, hlt, hn, ha, halt, hm, rfl⟩ := toBytes_eq_ok h
  unfold Proto.TPMSession.encode session
  dsimp only
  rw [hh, ha, Int.toNat_natCast, Int.toNat_natCast, write32_ofNat hlt, write16_ofNat hn,
    write16_ofNat hm, UInt16.toNat_ofNat_of_lt' hn, UInt16.toNat_ofNat_of_lt' hm, List.take_length,
    List.take_length]
  have hattrs : (UInt32.ofNat attrs).toUInt8 = UInt8.ofNat attrs := by
    apply UInt8.toNat_inj.mp
    simp
  rw [hattrs]
  rfl

end AuthCommand

/-- The loop reads the entries that stand at its offset. The induction is on the entries, each of
which one round consumes. -/
theorem protoSessionsLoop_of_drop {cmds : List AuthCommand} :
    ∀ {x : Bytes}, joinBytes AuthCommand.toBytes cmds = .ok x → ∀ {b : Bytes} {offset : Nat},
      b.drop offset = x → protoSessionsLoop b offset = .ok (cmds.map AuthCommand.session) := by
  induction cmds with
  | nil =>
    intro x h b offset hd
    cases h
    have hend : ¬ offset < b.length := by
      have := congrArg List.length hd
      rw [List.length_drop, List.length_nil] at this
      omega
    rw [protoSessionsLoop, if_neg hend]
    rfl
  | cons a cmds ih =>
    intro x h b offset hd
    obtain ⟨y, rest, hy, hrest, rfl⟩ := joinBytes_cons_eq_ok h
    obtain ⟨handle, attrs, hh, hlt, hn, ha, halt, hm, rfl⟩ := AuthCommand.toBytes_eq_ok hy
    simp only [List.append_assoc, List.cons_append] at hd
    have hin : offset < b.length := by
      have := congrArg List.length hd
      rw [List.length_drop, List.length_append, length_be] at this
      omega
    -- the five members, one behind the other
    have hnonceSize := drop_of_drop (j := offset + 4) hd (by rw [length_be])
    have hnonce := drop_of_drop (j := offset + 6) hnonceSize (by rw [length_be])
    have hattrs := drop_of_drop (j := offset + 6 + a.nonce.length) hnonce rfl
    have hhmacSize := drop_succ_of_drop hattrs
    have hhmac := drop_of_drop (j := offset + 6 + a.nonce.length + 3) hhmacSize (by rw [length_be])
    have hnext := drop_of_drop (j := offset + 6 + a.nonce.length + 3 + a.hmac.length) hhmac rfl
    rw [protoSessionsLoop, if_pos hin]
    dsimp only
    rw [fromBytes_of_drop hd rfl hlt, fromBytes_of_drop hnonceSize rfl hn,
      Py.slice_of_drop hnonce rfl, index_of_drop hattrs, fromBytes_of_drop hhmacSize rfl hm,
      Py.slice_of_drop hhmac rfl, ih hrest hnext, UInt8.toNat_ofNat_of_lt' halt, ok_bind,
      pbUint32_nat hlt, pbUint32_nat (by omega), pbUint32_nat (by omega), pbUint32_nat (by omega)]
    simp only [ok_bind, List.map_cons, AuthCommand.session, hh, ha, Int.toNat_natCast]
    rfl

theorem AuthArea.toBytes_eq_ok {area : AuthArea} {x : Bytes} (h : area.toBytes = .ok x) :
    ∃ body, joinBytes AuthCommand.toBytes area.commands = .ok body ∧ body.length < 2 ^ 32 ∧
      x = be 4 body.length ++ body := by
  simp only [AuthArea.toBytes, bind_eq_ok, Py.toBytes_eq_ok, pure_eq_ok, Except.ok.injEq] at h
  obtain ⟨body, hbody, _, ⟨k, hk, hlt, rfl⟩, rfl⟩ := h
  have hkl : k = body.length := by omega
  subst hkl
  exact ⟨body, hbody, hlt, rfl⟩

theorem protoSessions_toBytes {area : AuthArea} {x : Bytes} (h : area.toBytes = .ok x) :
    protoSessions x = .ok (area.commands.map AuthCommand.session) := by
  obtain ⟨body, hbody, -, rfl⟩ := AuthArea.toBytes_eq_ok h
  exact protoSessionsLoop_of_drop hbody (List.drop_left' (length_be 4 _))

/-- A command with sessions has its area cut out at `offset`. -/
theorem parseSessions_of_drop {c : TPMCommand} {area : AuthArea} {x rest : Bytes} {offset : Nat}
    (htag : c.tag ≠ TPM_ST_NO_SESSIONS) (h : area.toBytes = .ok x)
    (hd : c.params.drop offset = x ++ rest) :
    parseSessions c offset = .ok (area.commands.map AuthCommand.session, offset + x.length) := by
  obtain ⟨body, -, hlt, hx⟩ := AuthArea.toBytes_eq_ok h
  have hsize : fromBytes (Py.slice c.params offset (offset + 4)) = body.length := by
    rw [hx, List.append_assoc] at hd
    exact fromBytes_of_drop hd rfl hlt
  have hlen : offset + 4 + body.length = offset + x.length := by
    rw [hx, List.length_append, length_be, Nat.add_assoc]
  unfold parseSessions
  rw [if_pos htag, hsize]
  dsimp only
  rw [hlen, Py.slice_of_drop hd rfl, protoSessions_toBytes h]
  rfl

theorem flatMap_encode_session {cmds : List AuthCommand} {x : Bytes}
    (h : joinBytes AuthCommand.toBytes cmds = .ok x) :
    (cmds.map AuthCommand.session).flatMap Proto.TPMSession.encode = x :=
  flatMap_of_joinBytes (fun _ _ _ => AuthCommand.encode_session) h

/-- The marshaller writes the area the sessions came from. -/
theorem authArea_sessions {area : AuthArea} {x : Bytes} (h : area.toBytes = .ok x) :
    Proto.authArea (area.commands.map AuthCommand.session) = x := by
  obtain ⟨body, hbody, hlt, rfl⟩ := AuthArea.toBytes_eq_ok h
  rw [Proto.authArea, flatMap_encode_session hbody, write32_ofNat hlt]

/-! ## PCR selections -/

namespace PcrSelection

theorem toBytes_eq_ok {s : PcrSelection} {x : Bytes} (h : s.toBytes = .ok x) :
    ∃ hash : Nat, algToInt s.hash = hash ∧ hash < 2 ^ 16 ∧ s.pcrSelect.length < 256 ∧
      x = be 2 hash ++ (UInt8.ofNat s.pcrSelect.length :: s.pcrSelect) := by
  simp only [PcrSelection.toBytes, bind_eq_ok, Py.toBytes_eq_ok, pure_eq_ok, Except.ok.injEq] at h
  obtain ⟨_, ⟨hash, hh, hlt, rfl⟩, _, ⟨k, hk, hklt, rfl⟩, rfl⟩ := h
  have hkl : k = s.pcrSelect.length := by omega
  subst hkl
  refine ⟨hash, hh, hlt, hklt, ?_⟩
  rw [be_one hklt]
  simp

/-- The protobuf selection with the same members. -/
def message (s : PcrSelection) : Proto.TPMSPCRSelection where
  hash := UInt32.ofNat (algToInt s.hash).toNat
  sizeofSelect := UInt32.ofNat s.pcrSelect.length
  pcrSelect := s.pcrSelect

theorem encode_message {s : PcrSelection} {x : Bytes} (h : s.toBytes = .ok x)
    (h4 : s.pcrSelect.length ≤ 4) : (Proto.pcrSelectionOf s.message).encode = x := by
  obtain ⟨hash, hh, hlt, -, rfl⟩ := toBytes_eq_ok h
  have hsize : (UInt32.ofNat s.pcrSelect.length).toNat = s.pcrSelect.length :=
    UInt32.toNat_ofNat_of_lt' (show _ < 2 ^ 32 by omega)
  have hmin : min (UInt32.ofNat s.pcrSelect.length).toNat TPM2_PCR_SELECT_MAX =
      s.pcrSelect.length := by
    rw [hsize]
    exact Nat.min_eq_left h4
  have hhash : (UInt32.ofNat hash).toUInt16 = UInt16.ofNat hash := by
    apply UInt16.toNat_inj.mp
    simp
  unfold TPMS_PCR_SELECTION.encode Proto.pcrSelectionOf message
  dsimp only
  rw [hh, Int.toNat_natCast, hmin, hhash, write16_ofNat hlt, List.take_length,
    UInt8.toNat_ofNat_of_lt' (show _ < 2 ^ 8 by omega),
    Fixed.first_blit (Fixed.zeros TPM2_PCR_SELECT_MAX) _ h4]

end PcrSelection

/-- The `count` selections at the offset are read in order. -/
theorem protoPcrSelections_of_drop {sels : List PcrSelection} :
    ∀ {x : Bytes}, joinBytes PcrSelection.toBytes sels = .ok x → ∀ {b rest : Bytes} {offset : Nat},
      b.drop offset = x ++ rest →
      protoPcrSelections b sels.length offset = .ok (sels.map PcrSelection.message) := by
  induction sels with
  | nil => exact fun _ _ _ _ _ => rfl
  | cons s sels ih =>
    intro x h b rest offset hd
    obtain ⟨y, tail, hy, htail, rfl⟩ := joinBytes_cons_eq_ok h
    obtain ⟨hash, hh, hlt, h256, rfl⟩ := PcrSelection.toBytes_eq_ok hy
    simp only [List.append_assoc, List.cons_append] at hd
    have hsize := drop_of_drop (j := offset + 2) hd (by rw [length_be])
    have hselect := drop_succ_of_drop hsize
    have hnext := drop_of_drop (j := offset + 2 + 1 + s.pcrSelect.length) hselect rfl
    have hbyte : (UInt8.ofNat s.pcrSelect.length).toNat = s.pcrSelect.length :=
      UInt8.toNat_ofNat_of_lt' h256
    rw [List.length_cons, protoPcrSelections, fromBytes_of_drop hd rfl hlt,
      index_of_drop hsize, hbyte, ok_bind]
    dsimp only
    rw [Py.slice_of_drop hselect rfl, ih htail hnext, pbEnum_nat (by omega),
      pbUint32_nat (by omega)]
    simp only [ok_bind, List.map_cons, PcrSelection.message, hh, Int.toNat_natCast]
    rfl

namespace PcrSelectionList

theorem toBytes_eq_ok {l : PcrSelectionList} {x : Bytes} (h : l.toBytes = .ok x) :
    ∃ body, joinBytes PcrSelection.toBytes l.selections = .ok body ∧ l.selections.length < 2 ^ 32 ∧
      x = be 4 l.selections.length ++ body := by
  simp only [PcrSelectionList.toBytes, bind_eq_ok, Py.toBytes_eq_ok,
    pure_eq_ok, Except.ok.injEq] at h
  obtain ⟨_, ⟨k, hk, hlt, rfl⟩, body, hbody, rfl⟩ := h
  have hkl : k = l.selections.length := by omega
  subst hkl
  exact ⟨body, hbody, hlt, rfl⟩

def message (l : PcrSelectionList) : Proto.TPMLPCRSelection where
  count := UInt32.ofNat l.selections.length
  pcrSelections := l.selections.map PcrSelection.message

/-- At most 16 selections of at most 4 bytes: what the wire structures hold. -/
structure Fits (l : PcrSelectionList) : Prop where
  length_le : l.selections.length ≤ 16
  select_le : ∀ s ∈ l.selections, s.pcrSelect.length ≤ 4

theorem flatMap_encode_message {sels : List PcrSelection} {x : Bytes}
    (h : joinBytes PcrSelection.toBytes sels = .ok x) (h4 : ∀ s ∈ sels, s.pcrSelect.length ≤ 4) :
    ((sels.map PcrSelection.message).map Proto.pcrSelectionOf).flatMap
      TPMS_PCR_SELECTION.encode = x := by
  rw [List.map_map]
  exact flatMap_of_joinBytes (fun s hs _ hx => PcrSelection.encode_message hx (h4 s hs)) h

/-- The marshaller writes the list the message was made from. -/
theorem encode_message {l : PcrSelectionList} {x : Bytes} (h : l.toBytes = .ok x) (hl : l.Fits) :
    (Proto.pcrSelectionsOf l.message).encode = x := by
  obtain ⟨body, hbody, hlt, rfl⟩ := toBytes_eq_ok h
  have htake : (l.selections.map PcrSelection.message).take TPM2_NUM_PCR_BANKS =
      l.selections.map PcrSelection.message :=
    List.take_of_length_le (by rw [List.length_map]; exact hl.length_le)
  unfold TPML_PCR_SELECTION.encode Proto.pcrSelectionsOf message
  dsimp only
  rw [htake, List.length_map, write32_ofNat hlt, flatMap_encode_message hbody hl.select_le]

theorem length_selections_le {sels : List PcrSelection} {x : Bytes}
    (h : joinBytes PcrSelection.toBytes sels = .ok x) (h4 : ∀ s ∈ sels, s.pcrSelect.length ≤ 4) :
    x.length ≤ 7 * sels.length := by
  induction sels generalizing x with
  | nil =>
    cases h
    exact Nat.zero_le _
  | cons s sels ih =>
    obtain ⟨y, rest, hy, hrest, rfl⟩ := joinBytes_cons_eq_ok h
    obtain ⟨hash, -, -, -, rfl⟩ := PcrSelection.toBytes_eq_ok hy
    have hs := h4 s List.mem_cons_self
    have hr := ih hrest fun s hs => h4 s (List.mem_cons_of_mem _ hs)
    simp only [List.length_append, length_be, List.length_cons]
    omega

theorem length_toBytes_le {l : PcrSelectionList} {x : Bytes} (h : l.toBytes = .ok x) (hl : l.Fits) :
    x.length ≤ 116 := by
  obtain ⟨body, hbody, -, rfl⟩ := toBytes_eq_ok h
  have hb := length_selections_le hbody hl.select_le
  have hlen := hl.length_le
  rw [List.length_append, length_be]
  omega

end PcrSelectionList

theorem protoPcrSelection_toBytes {l : PcrSelectionList} {x : Bytes} (rest : Bytes)
    (h : l.toBytes = .ok x) :
    protoPcrSelection (x ++ rest) = .ok l.message := by
  obtain ⟨body, hbody, hlt, rfl⟩ := PcrSelectionList.toBytes_eq_ok h
  have hd : (be 4 l.selections.length ++ body ++ rest).drop 0 =
      be 4 l.selections.length ++ (body ++ rest) := by simp
  have hcount := fromBytes_of_drop (j := 4) hd rfl hlt
  have hbody' := drop_of_drop (j := 4) hd (by rw [length_be])
  rw [protoPcrSelection, hcount, protoPcrSelections_of_drop hbody hbody', pbUint32_nat hlt]
  rfl

theorem protoSelections_eq_ok {sels : List PcrSelection} {x : Bytes}
    (h : joinBytes PcrSelection.toBytes sels = .ok x) :
    protoSelections sels = .ok (sels.map PcrSelection.message) := by
  induction sels generalizing x with
  | nil => rfl
  | cons s sels ih =>
    obtain ⟨y, rest, hy, hrest, rfl⟩ := joinBytes_cons_eq_ok h
    obtain ⟨hash, hh, hlt, h256, rfl⟩ := PcrSelection.toBytes_eq_ok hy
    rw [protoSelections, hh, pbEnum_nat (by omega), pbUint32_nat (by omega), ih hrest]
    simp only [ok_bind, List.map_cons, PcrSelection.message, hh, Int.toNat_natCast]
    rfl

/-! ## Sensitive areas -/

/-- The protobuf message with the same members. -/
def Tpm2bSensitiveCreate.message (s : Tpm2bSensitiveCreate) : Proto.TPM2BSensitiveCreate where
  size := UInt32.ofNat (4 + s.sensitive.userAuth.length + s.sensitive.data.length)
  sensitive := some {
    userAuth := some
      { size := UInt32.ofNat s.sensitive.userAuth.length, buffer := s.sensitive.userAuth }
    data := some { size := UInt32.ofNat s.sensitive.data.length, buffer := s.sensitive.data } }

theorem Tpm2bSensitiveCreate.toBytes_eq_ok {s : Tpm2bSensitiveCreate} {x : Bytes}
    (h : s.toBytes = .ok x) :
    s.sensitive.userAuth.length < 2 ^ 16 ∧ s.sensitive.data.length < 2 ^ 16 ∧
      4 + s.sensitive.userAuth.length + s.sensitive.data.length < 2 ^ 16 ∧
      x = be 2 (4 + s.sensitive.userAuth.length + s.sensitive.data.length) ++
        ((be 2 s.sensitive.userAuth.length ++ s.sensitive.userAuth) ++
          (be 2 s.sensitive.data.length ++ s.sensitive.data)) := by
  simp only [Tpm2bSensitiveCreate.toBytes, SensitiveCreate.toBytes, bind_eq_ok, sized_eq_ok,
    pure_eq_ok, Except.ok.injEq] at h
  obtain ⟨_, ⟨_, ⟨hu, rfl⟩, _, ⟨hd, rfl⟩, rfl⟩, hlt, rfl⟩ := h
  have hlen : (be 2 s.sensitive.userAuth.length ++ s.sensitive.userAuth ++
      (be 2 s.sensitive.data.length ++ s.sensitive.data)).length =
      4 + s.sensitive.userAuth.length + s.sensitive.data.length := by
    simp only [List.length_append, length_be]
    omega
  rw [hlen] at hlt ⊢
  exact ⟨hu, hd, hlt, rfl⟩

theorem protoSensitiveCreate_toBytes {s : Tpm2bSensitiveCreate} {x : Bytes}
    (h : s.toBytes = .ok x) :
    protoSensitiveCreate x = .ok s.message := by
  obtain ⟨hu, hd, hlt, rfl⟩ := Tpm2bSensitiveCreate.toBytes_eq_ok h
  generalize hua : s.sensitive.userAuth = ua at *
  generalize hda : s.sensitive.data = da at *
  -- the whole payload, then the inner structure
  have hp : ((be 2 (4 + ua.length + da.length)) ++ ((be 2 ua.length ++ ua) ++
      (be 2 da.length ++ da))).drop 0 = be 2 (4 + ua.length + da.length) ++
        (((be 2 ua.length ++ ua) ++ (be 2 da.length ++ da)) ++ []) := by simp
  have hinner := drop_of_drop (j := 2) hp (by rw [length_be])
  have hslice := Py.slice_of_drop (j := 2 + (4 + ua.length + da.length)) hinner
    (by simp only [List.length_append, length_be]; omega)
  have hi : ((be 2 ua.length ++ ua) ++ (be 2 da.length ++ da)).drop 0 =
      be 2 ua.length ++ (ua ++ (be 2 da.length ++ da)) := by simp
  have hauth := drop_of_drop (j := 2) hi (by rw [length_be])
  have hdata := drop_of_drop (j := 2 + ua.length) hauth rfl
  have hdatab : ((be 2 ua.length ++ ua) ++ (be 2 da.length ++ da)).drop (2 + ua.length + 2) =
      da ++ [] := by
    rw [drop_of_drop (j := 2 + ua.length + 2) hdata (by rw [length_be]), List.append_nil]
  unfold protoSensitiveCreate
  rw [fromBytes_of_drop (j := 2) hp rfl hlt]
  dsimp only
  rw [hslice, fromBytes_of_drop (j := 2) hi rfl hu, Py.slice_of_drop hauth rfl,
    fromBytes_of_drop hdata rfl hd, Py.slice_of_drop hdatab rfl, pbUint32_nat (by omega),
    pbUint32_nat (by omega), pbUint32_nat (by omega)]
  simp only [ok_bind, Tpm2bSensitiveCreate.message, hua, hda]
  rfl

/-! ## Public areas of indices -/

theorem NvPublic.toBytes_eq_ok {p : NvPublic} {x : Bytes} (h : p.toBytes = .ok x) :
    ∃ index name attrs size : Nat, index < 2 ^ 32 ∧ name < 2 ^ 16 ∧ attrs < 2 ^ 32 ∧
      p.authPolicy.length < 2 ^ 16 ∧ size < 2 ^ 16 ∧
      x = be 4 index ++ (be 2 name ++ (be 4 attrs ++ (be 2 p.authPolicy.length ++ (p.authPolicy ++
        be 2 size)))) := by
  simp only [NvPublic.toBytes, bind_eq_ok, Py.toBytes_eq_ok, sized_eq_ok,
    pure_eq_ok, Except.ok.injEq] at h
  obtain ⟨_, ⟨index, -, hindex, rfl⟩, _, ⟨name, -, hname, rfl⟩, _, ⟨attrs, -, hattrs, rfl⟩, _,
    ⟨hp, rfl⟩, _, ⟨size, -, hsize, rfl⟩, rfl⟩ := h
  exact ⟨index, name, attrs, size, hindex, hname, hattrs, hp, hsize, by simp⟩

/-- The marshaller writes the public area the message was parsed from. -/
theorem nvPublicOf_toBytes {p : NvPublic} {x : Bytes} {m : Proto.TPMNvPublic}
    (h : p.toBytes = .ok x) (hm : TPMNVDefineSpace.protoNvPublic x = .ok m)
    (hpolicy : p.authPolicy.length ≤ 64) :
    (Proto.nvPublicOf m).encode = x := by
  obtain ⟨index, name, attrs, size, hindex, hname, hattrs, hp, hsize, rfl⟩ :=
    NvPublic.toBytes_eq_ok h
  generalize p.authPolicy = policy at *
  generalize hx : be 4 index ++ (be 2 name ++ (be 4 attrs ++ (be 2 policy.length ++ (policy ++
    be 2 size)))) = x at *
  have h0 : x.drop 0 = be 4 index ++ (be 2 name ++ (be 4 attrs ++ (be 2 policy.length ++ (policy ++
      (be 2 size ++ []))))) := by
    rw [← hx]
    simp
  have h4 := drop_of_drop (j := 4) h0 (by rw [length_be])
  have h6 := drop_of_drop (j := 6) h4 (by rw [length_be])
  have h10 := drop_of_drop (j := 10) h6 (by rw [length_be])
  have h12 := drop_of_drop (j := 12) h10 (by rw [length_be])
  have hend := drop_of_drop (j := 12 + policy.length) h12 rfl
  simp only [TPMNVDefineSpace.protoNvPublic] at hm
  rw [fromBytes_of_drop h0 rfl hindex, fromBytes_of_drop h4 rfl hname,
    fromBytes_of_drop h6 rfl hattrs, fromBytes_of_drop h10 rfl hp, Py.slice_of_drop h12 rfl,
    fromBytes_of_drop hend rfl hsize, pbUint32_nat hindex, pbUint32_nat hattrs,
    pbUint32_nat (by omega)] at hm
  simp only [ok_bind, bind_eq_ok, pure_eq_ok, Except.ok.injEq] at hm
  obtain ⟨_, hn, rfl⟩ := hm
  rw [(pbName_eq_ok hn).2]
  unfold TPMS_NV_PUBLIC.encode Proto.nvPublicOf
  dsimp only
  rw [Proto.encode_fillTpm2b hpolicy (by decide), write32_ofNat hindex, write16_alg hname,
    write32_ofNat hattrs, write16_alg hsize, ← hx]
  simp

/-! ## What an encoder takes, its parser gives back -/

/-- `_parse_tpm2b`, again and again: what the calls return. -/
def parseTpm2bs (buffer : Bytes) : Nat → Nat → List (Bytes × Nat)
  | 0, _ => []
  | count + 1, offset =>
    let (piece, stop) := parseTpm2b buffer offset
    (piece, stop) :: parseTpm2bs buffer count stop

/-- Each piece, and the offset behind it. -/
def withEnds : Nat → List Bytes → List (Bytes × Nat)
  | _, [] => []
  | offset, piece :: pieces =>
    (piece, offset + piece.length) :: withEnds (offset + piece.length) pieces

/-- The induction is on the buffers: each call consumes the encoding of one. -/
theorem parseTpm2bs_of_drop {bs encodings : List Bytes}
    (h : List.Forall₂ (fun b x => sized b = .ok x) bs encodings) {buffer tail : Bytes} :
    ∀ {offset : Nat}, buffer.drop offset = encodings.flatten ++ tail →
      parseTpm2bs buffer encodings.length offset = withEnds offset encodings := by
  induction h with
  | nil => exact fun _ => rfl
  | @cons b x bs encodings hx _ ih =>
    intro offset hd
    obtain ⟨hlt, rfl⟩ := sized_eq_ok.mp hx
    rw [List.flatten_cons, List.append_assoc] at hd
    have hend : offset + (be 2 b.length ++ b).length = offset + 2 + b.length := by
      rw [List.length_append, length_be, Nat.add_assoc]
    have hnext := drop_of_drop (j := offset + 2 + b.length) hd hend.symm
    rw [List.length_cons, parseTpm2bs, withEnds, parseTpm2b_of_drop hlt hd, hend]
    dsimp only
    rw [ih hnext]

structure SameAuth (a : AuthCommand) (m : Proto.TPMSession) : Prop where
  handle : (m.sessionHandle.toNat : Int) = a.sessionHandle
  nonce : m.nonce = a.nonce
  attributes : (m.sessionAttributes.toNat : Int) = a.sessionAttributes
  hmac : m.hmac = a.hmac

structure SameSelection (s : PcrSelection) (m : Proto.TPMSPCRSelection) : Prop where
  hash : (m.hash.toNat : Int) = algToInt s.hash
  sizeofSelect : m.sizeofSelect.toNat = s.pcrSelect.length
  select : m.pcrSelect = s.pcrSelect

theorem AuthCommand.same_session {a : AuthCommand} {x : Bytes} (h : a.toBytes = .ok x) :
    SameAuth a a.session := by
  obtain ⟨handle, attrs, hh, hlt, -, ha, halt, -, -⟩ := toBytes_eq_ok h
  refine ⟨?_, rfl, ?_, rfl⟩
  · rw [session, hh, Int.toNat_natCast, UInt32.toNat_ofNat_of_lt' hlt]
  · rw [session, ha, Int.toNat_natCast, UInt32.toNat_ofNat_of_lt' (show _ < 2 ^ 32 by omega)]

theorem PcrSelection.same_message {s : PcrSelection} {x : Bytes} (h : s.toBytes = .ok x) :
    SameSelection s s.message := by
  obtain ⟨hash, hh, hlt, h256, -⟩ := toBytes_eq_ok h
  refine ⟨?_, ?_, rfl⟩
  · rw [message, hh, Int.toNat_natCast, UInt32.toNat_ofNat_of_lt' (show _ < 2 ^ 32 by omega)]
  · exact UInt32.toNat_ofNat_of_lt' (show _ < 2 ^ 32 by omega)

theorem parsers_undo_encoders :
    (∀ (cmds : List AuthCommand) (x : Bytes), AuthArea.toBytes ⟨cmds⟩ = .ok x →
      ∃ sessions, protoSessions x = .ok sessions ∧ List.Forall₂ SameAuth cmds sessions) ∧
    (∀ (l : PcrSelectionList) (x : Bytes), l.toBytes = .ok x →
      ∃ m, protoPcrSelection x = .ok m ∧ m.count.toNat = l.selections.length ∧
        List.Forall₂ SameSelection l.selections m.pcrSelections) ∧
    (∀ (s : Tpm2bSensitiveCreate) (x : Bytes), s.toBytes = .ok x →
      ∃ m sensitive userAuth data, protoSensitiveCreate x = .ok m ∧ m.sensitive = some sensitive ∧
        sensitive.userAuth = some userAuth ∧ sensitive.data = some data ∧
        userAuth.buffer = s.sensitive.userAuth ∧ data.buffer = s.sensitive.data) ∧
    (∀ (bs encodings : List Bytes), List.Forall₂ (fun b x => sized b = .ok x) bs encodings →
      ∀ tail, parseTpm2bs (encodings.flatten ++ tail) encodings.length 0 =
        withEnds 0 encodings) := by
  refine ⟨fun cmds x h => ?_, fun l x h => ?_, fun s x h => ?_, fun bs encodings h tail => ?_⟩
  · obtain ⟨body, hbody, -, -⟩ := AuthArea.toBytes_eq_ok h
    exact ⟨_, protoSessions_toBytes h, forall₂_of_joinBytes
      (fun _ _ => AuthCommand.same_session) hbody⟩
  · obtain ⟨body, hbody, hlt, -⟩ := PcrSelectionList.toBytes_eq_ok h
    have hparse := protoPcrSelection_toBytes [] h
    rw [List.append_nil] at hparse
    exact ⟨l.message, hparse, UInt32.toNat_ofNat_of_lt' hlt,
      forall₂_of_joinBytes (fun _ _ => PcrSelection.same_message) hbody⟩
  · exact ⟨s.message, _, _, _, protoSensitiveCreate_toBytes h, rfl, rfl, rfl, rfl, rfl⟩
  · exact parseTpm2bs_of_drop h rfl

/-- An HMAC session in front of a password session, PCR 7 and 16 of two banks, a sensitive area with
both its buffers, and two buffers before a tail. -/
theorem parsers_undo_encoders_two :
    (∃ sessions,
      protoSessions (be 4 23 ++ ([2, 0, 0, 1, 0, 2, 0xA1, 0xA2, 1, 0, 3, 0xB1, 0xB2, 0xB3] ++
        [0x40, 0, 0, 9, 0, 0, 0, 0, 0])) = .ok sessions ∧
      List.Forall₂ SameAuth
        [{ sessionHandle := 0x02000001, nonce := [0xA1, 0xA2], sessionAttributes := 1
           hmac := [0xB1, 0xB2, 0xB3] },
         { sessionHandle := 0x40000009 }] sessions) ∧
    (∃ m, protoPcrSelection [0, 0, 0, 2, 0, 4, 3, 0x80, 0, 1, 0, 11, 1, 0x80] = .ok m ∧
      m.count.toNat = 2 ∧
      List.Forall₂ SameSelection [⟨.enum .SHA1, [0x80, 0, 1]⟩, ⟨.enum .SHA256, [0x80]⟩]
        m.pcrSelections) ∧
    (∃ m sensitive userAuth data, protoSensitiveCreate
      [0, 7, 0, 2, 0xC1, 0xC2, 0, 1, 0xD1] = .ok m ∧
      m.sensitive = some sensitive ∧ sensitive.userAuth = some userAuth ∧
      sensitive.data = some data ∧ userAuth.buffer = [0xC1, 0xC2] ∧ data.buffer = [0xD1]) ∧
    parseTpm2bs ([[0, 1, 0xAA], [0, 2, 0xBB, 0xCC]].flatten ++ [0xFF]) 2 0 =
      [([0, 1, 0xAA], 3), ([0, 2, 0xBB, 0xCC], 7)] := by
  obtain ⟨hsessions, hpcrs, hsensitive, htpm2b⟩ := parsers_undo_encoders
  refine ⟨hsessions _ _ (by decide), ?_, ?_, ?_⟩
  · exact hpcrs ⟨[⟨.enum .SHA1, [0x80, 0, 1]⟩, ⟨.enum .SHA256, [0x80]⟩]⟩ _ (by decide)
  · exact hsensitive ⟨⟨[0xC1, 0xC2], [0xD1]⟩⟩ _ (by decide)
  · exact htpm2b [[0xAA], [0xBB, 0xCC]] _ (.cons (by decide) (.cons (by decide) .nil)) [0xFF]

end Python
