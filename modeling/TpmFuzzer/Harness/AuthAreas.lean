import Mathlib.Data.List.Forall2
import TpmFuzzer.Harness.Layout
import TpmFuzzer.Session.Layer

/-!
# Authorization areas that can be read back

The digest marshaller refuses a buffer that its 16-bit size field cannot count.  The session
marshaller casts the length to 16 bits and sends that many bytes, so that a longer nonce or HMAC
arrives cut short:

    whatever is written for l is Faithful  ↔
      every nonce and HMAC of l is shorter than 2^16 bytes, or nothing is written
                                                             (marshalRepeatedField_faithful_iff)
-/

namespace Proto

open Bytes Tpm Writer Session Reading

/-- An entry, `handle | TPM2B nonce | attributes | TPM2B hmac`, is read as it was sent. -/
theorem reads_authEntry (e : AuthEntry) : Reads AuthEntry.read e.encode e :=
  (reads_word32 _).bind ((reads_tpm2b _).bind
    ((reads_byte _).bind ((reads_tpm2b _).bind_nil (Reads.pure e))))

/-- Reading to the end finds every session, with nonce and HMAC as they were sent. -/
theorem readAll_sessions (l : List TPMSession) :
    readAll AuthEntry.read (l.flatMap TPMSession.encode) = some (l.map TPMSession.authEntry) := by
  refine readAll_flatMap fun s _ => ⟨?_, ?_⟩
  · rw [← encode_authEntry]
    exact reads_authEntry s.authEntry
  · intro hnil
    have hlen := length_session s
    rw [hnil, List.length_nil] at hlen
    omega

/-! ## What is written for a list of sessions -/

def SameEntry (s : TPMSession) (e : AuthEntry) : Prop :=
  e.handle = s.sessionHandle ∧ e.nonce.bytes = s.nonce ∧ e.attrs = s.sessionAttributes.toUInt8 ∧
    e.hmac.bytes = s.hmac

/-- `out` is kept; behind it stand a size that counts what follows, and the sessions in order. -/
structure Faithful (l : List TPMSession) (out out' : Bytes) : Prop where
  kept : out'.take out.length = out
  room : out.length + 4 ≤ out'.length
  size : (read32 out' out.length).toNat = out'.length - (out.length + 4)
  entries : ∃ es, readAll AuthEntry.read (out'.drop (out.length + 4)) = some es ∧
    List.Forall₂ SameEntry l es

/-- The bytes of the sessions, with what the 16-bit sizes count of each nonce and HMAC. -/
def sentLength (l : List TPMSession) : Nat :=
  (l.map fun s => 9 + s.nonce.length % 2 ^ 16 + s.hmac.length % 2 ^ 16).sum

def TPMSession.Short (s : TPMSession) : Prop := s.nonce.length < 2 ^ 16 ∧ s.hmac.length < 2 ^ 16

theorem areaSize_eq (l : List TPMSession) : areaSize l = sentLength l := by
  unfold areaSize sentLength
  induction l with
  | nil => rfl
  | cons s l ih =>
    rw [List.flatMap_cons, List.length_append, ih, List.map_cons, List.sum_cons, ← encode_authEntry,
      AuthEntry.length_encode]
    show 9 + (cut s.nonce).size + (cut s.hmac).size + _ = _
    rw [size_cut, size_cut, UInt16.toNat_ofNat', UInt16.toNat_ofNat']

theorem cut_eq_iff (b : Bytes) : (cut b).bytes = b ↔ b.length < 2 ^ 16 := by
  constructor
  · intro h
    rw [← h]
    exact (cut b).length_lt
  · intro h
    show b.take (UInt16.ofNat b.length).toNat = b
    rw [UInt16.toNat_ofNat_of_lt' h, List.take_length]

theorem sameEntry_iff (s : TPMSession) : SameEntry s s.authEntry ↔ s.Short := by
  unfold SameEntry TPMSession.Short
  rw [← cut_eq_iff s.nonce, ← cut_eq_iff s.hmac]
  constructor
  · rintro ⟨-, hnonce, -, hhmac⟩
    exact ⟨hnonce, hhmac⟩
  · rintro ⟨hnonce, hhmac⟩
    exact ⟨rfl, hnonce, rfl, hhmac⟩

/-- A whole area behind `out`. -/
theorem faithful_iff (l : List TPMSession) (out : Bytes) :
    Faithful l out (out ++ authArea l) ↔ (∀ s ∈ l, s.Short) ∧ sentLength l < 2 ^ 32 := by
  have harea : out ++ authArea l =
      out ++ (write32 (UInt32.ofNat (areaSize l)) ++ l.flatMap TPMSession.encode) := rfl
  have hlen : (out ++ authArea l).length = out.length + 4 + areaSize l := by
    rw [List.length_append, length_authArea]
    omega
  have hread : (read32 (out ++ authArea l) out.length).toNat = areaSize l % 2 ^ 32 := by
    rw [harea, read32_write32 rfl, UInt32.toNat_ofNat']
  have hdrop : (out ++ authArea l).drop (out.length + 4) = l.flatMap TPMSession.encode := by
    rw [harea, ← List.append_assoc]
    exact List.drop_left' (by rw [List.length_append, length_write32])
  have hall : List.Forall₂ SameEntry l (l.map TPMSession.authEntry) ↔ ∀ s ∈ l, s.Short := by
    rw [List.forall₂_map_right_iff, List.forall₂_same]
    exact forall₂_congr fun s _ => sameEntry_iff s
  rw [← areaSize_eq]
  constructor
  · rintro ⟨-, -, hsize, es, hes, hsame⟩
    rw [hdrop, readAll_sessions] at hes
    cases hes
    rw [hread, hlen] at hsize
    refine ⟨hall.mp hsame, ?_⟩
    have hmod := Nat.mod_lt (areaSize l) (show 0 < 2 ^ 32 by decide)
    omega
  · rintro ⟨hshort, hlt⟩
    refine ⟨List.take_left, by omega, ?_, _, ?_, hall.mpr hshort⟩
    · rw [hread, hlen, Nat.mod_eq_of_lt hlt]
      omega
    · rw [hdrop, readAll_sessions]

theorem marshalRepeatedField_sessions (mu : Tss2Mu) {size : Nat} (l : List TPMSession) {out : Bytes}
    (hout : out.length ≤ size) :
    marshalRepeatedField mu size (.sessions l) out = emit size (authArea l) out :=
  marshalRepeatedField_writes mu size (.sessions l) out hout

/-- `MarshalRepeatedField` writes a faithful area or nothing, exactly as long as no nonce or HMAC is
cut. -/
theorem marshalRepeatedField_faithful_iff (mu : Tss2Mu) {size : Nat} (l : List TPMSession)
    {out : Bytes} (hout : out.length ≤ size) :
    (∀ out', marshalRepeatedField mu size (.sessions l) out = some out' → Faithful l out out') ↔
      (∀ s ∈ l, s.Short) ∧ sentLength l < 2 ^ 32 ∨ size < out.length + 4 + sentLength l := by
  have hlen : (authArea l).length = 4 + sentLength l := by rw [length_authArea, areaSize_eq]
  rw [marshalRepeatedField_sessions mu l hout]
  by_cases hroom : out.length + (authArea l).length ≤ size
  · rw [emit, if_pos hroom]
    constructor
    · intro h
      exact Or.inl ((faithful_iff l out).mp (h _ rfl))
    · rintro (h | h)
      · intro out' hout'
        cases hout'
        exact (faithful_iff l out).mpr h
      · omega
  · rw [emit, if_neg hroom]
    refine iff_of_true (fun out' h => ?_) (Or.inr (by omega))
    cases h

/-- The session of a command without one has no nonce and no HMAC. -/
theorem passwordSession_faithful :
    ∃ out', marshalRepeatedField Tss2Mu.standard kMaxBuffer
      (.sessions [passwordSession]) [] = some out' ∧
      Faithful [passwordSession] [] out' := by
  have hwrite : marshalRepeatedField Tss2Mu.standard kMaxBuffer (.sessions [passwordSession]) [] =
      some [0, 0, 0, 9, 0x40, 0, 0, 0x09, 0, 0, 0, 0, 0] := by decide
  refine ⟨_, hwrite, (marshalRepeatedField_faithful_iff _ [passwordSession] (Nat.zero_le _)).mpr
    (Or.inl ?_) _ hwrite⟩
  refine ⟨fun s hs => ?_, ?_⟩
  · obtain rfl := List.mem_singleton.mp hs
    exact ⟨by decide, by decide⟩
  · decide

/-- A session whose nonce has 65536 bytes. -/
def longNonce : TPMSession where
  sessionHandle := kPasswordSessionHandle
  nonce := List.replicate 65536 0xAA

/-- The length counts as 0, and the nonce is gone. -/
theorem authEntry_longNonce : longNonce.authEntry =
    ⟨kPasswordSessionHandle, .empty, 0, .empty⟩ := by
  have hsize : (UInt16.ofNat 65536).toNat = 0 := by decide
  have hcut : cut (List.replicate 65536 0xAA) = .empty := by
    simp only [cut, TPM2B.empty, List.length_replicate, hsize, List.take_zero]
  show AuthEntry.mk _ (cut (List.replicate 65536 0xAA)) _ _ = _
  rw [hcut]
  rfl

theorem length_longNonce : longNonce.nonce.length = 65536 := by
  rw [longNonce, List.length_replicate]

theorem authArea_longNonce : authArea [longNonce] =
    [0, 0, 0, 9, 0x40, 0, 0, 0x09, 0, 0, 0, 0, 0] := by
  have hentry : longNonce.encode = [0x40, 0, 0, 0x09, 0, 0, 0, 0, 0] := by
    rw [← encode_authEntry, authEntry_longNonce]
    decide
  rw [← List.append_nil (authArea _), authArea_append, areaSize]
  simp only [List.flatMap_cons, List.flatMap_nil, hentry]
  decide

theorem longNonce_not_faithful :
    ∃ out', marshalRepeatedField Tss2Mu.standard kMaxBuffer (.sessions [longNonce]) [] = some out' ∧
      out' = [0, 0, 0, 9, 0x40, 0, 0, 0x09, 0, 0, 0, 0, 0] ∧ ¬ Faithful [longNonce] [] out' := by
  have hwrite : emit kMaxBuffer (authArea [longNonce]) [] = some (authArea [longNonce]) := by
    rw [authArea_longNonce]
    decide
  refine ⟨authArea [longNonce], ?_, authArea_longNonce, fun h => ?_⟩
  · rw [marshalRepeatedField_sessions Tss2Mu.standard [longNonce] (Nat.zero_le _), hwrite]
  · rw [← List.nil_append (authArea _)] at h
    obtain ⟨hshort, -⟩ := (faithful_iff [longNonce] []).mp h
    have hlt := (hshort longNonce (List.mem_singleton_self _)).1
    rw [length_longNonce] at hlt
    omega

end Proto
