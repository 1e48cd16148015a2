import TpmFuzzer.Session.Nonces
import TpmFuzzer.Session.Objects

/-!
# Responses

A response that makes an object has five variable-length fields before its Name, and its auth area
is found through a length field of its own.  Both views agree on every combination of lengths
(`objectReply_decoded`).
-/

namespace Session

open Bytes Tpm Traced

/-! ## Objects -/

/-- The successful response to a CreatePrimary or Load: the nonce of the armed session and the Name
of the new handle come out as they were sent, when they fit, and nothing else changes. -/
theorem objectReply_decoded {st : SessionState} {r : TaggedReply} {h : UInt32} {name : TPM2B}
    (slack : Bytes) (hp : st.pendingStartAuthSession = false) (hinit : st.initialized = true)
    (hout : r.outHandles = [h]) (hans : r.params.Answers st.lastCommandCode)
    (hname : r.params.name? = some name) (hlt : r.encode.length < 2 ^ 32) :
    let st' := (sessionAuthProcessResponse st (some (r.encode ++ slack)) r.encode.length).val
    (Fits r.nonce → st'.nonce = r.nonce.bytes) ∧ (¬ Fits r.nonce → st'.nonce = st.nonce) ∧
      (NameFits name → h ∈ st.names.handles ∨ st.names.count < kMaxNames →
        st'.names.nameOf h = name.bytes) ∧
      (∀ h', h' ≠ h → st'.names.nameOf h' = st.names.nameOf h') ∧
      st'.handle = st.handle ∧ st'.hashAlg = st.hashAlg ∧ st'.digestSize = st.digestSize ∧
      st'.key = st.key := by
  have hattr : ∃ attr ∈ kTable, st.lastCommandCode = attr.commandCode ∧
      attr.outHandleCount = 1 := by
    cases hparams : r.params with
    | createPrimary =>
      rw [hparams] at hans
      exact ⟨⟨TPM2_CC_CreatePrimary, 1, 1, 1⟩, by decide, hans, rfl⟩
    | load =>
      rw [hparams] at hans
      exact ⟨⟨TPM2_CC_Load, 1, 1, 1⟩, by decide, hans, rfl⟩
    | other =>
      rw [hparams] at hname
      cases hname
  obtain ⟨attr, hmem, hcode, hcount⟩ := hattr
  obtain ⟨names', hval, hrec⟩ := val_processSessionResponse st hmem hcode slack
    (show r.outHandles.length = attr.outHandleCount by rw [hout, hcount]; rfl) (hcode ▸ hans) hlt
  have hobject : r.object? = some (h, name) := by
    simp only [TaggedReply.object?, hout, hname]
  rw [hobject] at hrec
  intro st'
  have hst' : st' = _ := process_reply st slack hlt
  rw [if_neg (by rw [hp]; decide), if_neg (by rw [hinit]; decide), hval] at hst'
  refine ⟨?_, ?_, ?_, ?_, ?_⟩
  · intro hfits
    have hfits' : 0 < r.nonce.size ∧ r.nonce.size ≤ SESSION_AUTH_MAX_DIGEST := hfits
    rw [hst', SessionState.nonce]
    simp only
    rw [if_pos hfits', if_pos hfits']
    exact nonce_blit hfits
  · intro hfits
    have hfits' : ¬ (0 < r.nonce.size ∧ r.nonce.size ≤ SESSION_AUTH_MAX_DIGEST) := hfits
    rw [hst', SessionState.nonce]
    simp only
    rw [if_neg hfits', if_neg hfits']
    rfl
  · intro hnameFits hroom
    rw [hst', hrec.nameOf_self hroom, List.take_of_length_le hnameFits.2]
  · intro h' hne
    rw [hst', hrec.nameOf_of_ne hne]
  · rw [hst']
    exact ⟨rfl, rfl, rfl, rfl⟩

/-- The response to a CreatePrimary in the armed session, which makes the object 0x80000000. -/
def primaryReply : TaggedReply where
  outHandles := [0x80000000]
  params := .createPrimary TPM2B.empty TPM2B.empty TPM2B.empty 0x8021 0x40000001 TPM2B.empty
    ⟨[0x00, 0x0B, 0xAB], Nat.le_of_ble_eq_true rfl⟩
  nonce := ⟨List.replicate 16 0x77, Nat.le_of_ble_eq_true rfl⟩
  attrs := 1
  hmac := TPM2B.empty
  moreEntries := []

/-- The armed layer after the CreatePrimary. -/
def primarySent : SessionState := { armedState with lastCommandCode := TPM2_CC_CreatePrimary }

theorem primaryReply_decoded :
    let st' := (sessionAuthProcessResponse primarySent (some (primaryReply.encode ++ []))
      primaryReply.encode.length).val
    st'.nonce = List.replicate 16 0x77 ∧ st'.names.nameOf 0x80000000 = [0x00, 0x0B, 0xAB] := by
  have hp : primarySent.pendingStartAuthSession = false := rfl
  have hinit : primarySent.initialized = true := rfl
  have hout : primaryReply.outHandles = [0x80000000] := rfl
  have hans : primaryReply.params.Answers primarySent.lastCommandCode := by decide
  have hname : primaryReply.params.name? = some ⟨[0x00, 0x0B, 0xAB], by decide⟩ := rfl
  obtain ⟨hnonce, -, hnamed, -⟩ := objectReply_decoded [] hp hinit hout hans hname (by decide)
  exact ⟨hnonce (by decide), hnamed (by decide) (Or.inr (by decide))⟩

end Session
