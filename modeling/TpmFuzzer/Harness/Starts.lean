import TpmFuzzer.Harness.Layout
import TpmFuzzer.Session.Rewrite

/-!
# Marshalled StartAuthSession commands

The marshaller cuts the nonce and the salt to their C buffers and writes a symmetric definition of 2
or 6 bytes; the session layer reads over both TPM2Bs from the front and takes authHash from the end.
What it reads is what the message says, so it arms on the messages of an unbound, unsalted HMAC
session for SHA-256 and on no others:

    m.Supported    →  ArmedWith (startTurn ..) H r
    ¬ m.Supported  →  SameSession st (startTurn ..)                             (start_arms_iff)

In the second case a session that is armed already under the same handle and nonce stays armed, for
a session of another kind.  That is the only way in which the layer ends armed for a message it does
not support: `ArmsAsAsked ↔ m.Supported ∨ ¬ ArmedWith st H r`.
-/

namespace Proto

open Bytes Tpm Writer Session

/-! ## The command -/

/-- An unbound, unsalted HMAC session for SHA-256. -/
def TPMStartAuthSession.Supported (m : TPMStartAuthSession) : Prop :=
  m.tpmKey = TPM_RH_NULL ∧ m.bind = TPM_RH_NULL ∧ (m.encryptedSalt.getD {}).buffer = [] ∧
    m.sessionType.toUInt8 = TPM2_SE_HMAC ∧ m.authHash.toUInt16 = TPM2_ALG_SHA256

instance (m : TPMStartAuthSession) : Decidable m.Supported := inferInstanceAs (Decidable (_ ∧ _))

theorem two_le_encode_symDef (sym : TPMT_SYM_DEF) : 2 ≤ sym.encode.length := by
  unfold TPMT_SYM_DEF.encode
  rw [List.length_append, length_write16]
  omega

/-- A buffer that was cut to its capacity. -/
def filled (cap : Nat) (hcap : cap < 2 ^ 16) (b : Bytes) : TPM2B where
  bytes := b.take cap
  length_lt := by
    have := List.length_take_le cap b
    omega

/-- What the marshaller writes of the message. -/
def TPMStartAuthSession.wire (m : TPMStartAuthSession) : StartAuthSession where
  tpmKey := m.tpmKey
  bind := m.bind
  authArea := none
  nonceCaller := filled 66 (by decide) (m.nonce.getD {}).buffer
  encryptedSalt := filled 66 (by decide) (m.encryptedSalt.getD {}).buffer
  sessionType := m.sessionType.toUInt8
  symmetric := ⟨(symDefOf (m.symmetric.getD {})).encode, two_le_encode_symDef _⟩
  authHash := m.authHash.toUInt16

theorem marshalCommand_start {mu : Tss2Mu} {m : TPMStartAuthSession} {out : Bytes}
    (h : marshalCommand mu (.startauthsession m) = some out) :
    out = message (m.header.getD {}).tag.toUInt16 (m.header.getD {}).commandCode m.wire.body ∧
      out.length ≤ kMaxBuffer := by
  obtain ⟨body, hbody, hout, hle⟩ := marshalCommand_message rfl h
  have hwire : some m.wire.body = some body := hbody
  cases hwire
  exact ⟨hout, hle⟩

/-- The cut does not make an empty salt of a salt that was not. -/
theorem compatible_wire (m : TPMStartAuthSession) : m.wire.Compatible ↔ m.Supported := by
  have hsalt : (m.encryptedSalt.getD {}).buffer.take 66 = [] ↔
      (m.encryptedSalt.getD {}).buffer = [] := by
    rw [List.take_eq_nil_iff]
    constructor
    · rintro (h | h)
      · cases h
      · exact h
    · exact Or.inr
  show _ ∧ _ ∧ (m.encryptedSalt.getD {}).buffer.take 66 = [] ∧ _ ∧ _ ↔ _
  rw [hsalt]
  rfl

/-! ## The command and its response -/

/-- The layer is armed with a handle and a nonce, without a key, for SHA-256. -/
structure ArmedWith (st : SessionState) (handle : UInt32) (nonce : Bytes) : Prop where
  initialized : st.initialized = true
  handle_eq : st.handle = handle
  nonce_eq : st.nonce = nonce.take 64
  key_eq : st.key = []
  hashAlg_eq : st.hashAlg = TPM2_ALG_SHA256
  digestSize_eq : st.digestSize = 32

theorem armedWith_of_same {st st' : SessionState} (h : SameSession st st') {handle : UInt32}
    {nonce : Bytes} : ArmedWith st' handle nonce ↔ ArmedWith st handle nonce := by
  obtain ⟨_, _, _, rfl⟩ := h
  exact ⟨fun h => ⟨h.1, h.2, h.3, h.4, h.5, h.6⟩, fun h => ⟨h.1, h.2, h.3, h.4, h.5, h.6⟩⟩

/-- The patched command is kept as it is, and then the response comes. -/
def startTurn (C : Crypto) (st : SessionState) (out slack : Bytes) (cap : Nat) (handle : UInt32)
    (nonce : TPM2B) (more slack' : Bytes) : SessionState :=
  (sessionAuthProcessResponse (sessionAuthPatchCommand C st
    (some (out ++ slack)) out.length cap).val.state
    (some (startResponse handle nonce more ++ slack')) (startResponse handle nonce more).length).val

/-- The state with the parameters of the message captured. -/
def captured (st : SessionState) (m : TPMStartAuthSession) : SessionState :=
  { st with
    lastCommandCode := TPM2_CC_StartAuthSession
    pendingStartAuthSession := true
    startAuthSessionCompatible := decide m.Supported
    startAuthSessionAuthHash := m.authHash.toUInt16 }

/-- The start is passed on as it is, the layer ends armed with the session that was returned exactly
if the message is one it supports, and on any other message nothing changes, unless the handle that
was returned is the armed one. -/
structure ArmsAsAsked (st : SessionState) (m : TPMStartAuthSession) (buf : Bytes) (size : Nat)
    (patched : PatchResult) (st' : SessionState) (handle : UInt32) (nonce : Bytes) : Prop where
  buf_eq : patched.buf = some buf
  size_eq : patched.size = size
  arms : ArmedWith st' handle nonce ↔ m.Supported
  others : ¬ m.Supported → (st.initialized = true → handle ≠ st.handle) → SameSession st st'

section

variable (mu : Tss2Mu) (C : Crypto) (st : SessionState) {m : TPMStartAuthSession} {out : Bytes}
  (slack : Bytes) {cap : Nat}
  (hcode : (m.header.getD {}).commandCode = TPM_CC_START_AUTH_SESSION)
  (hm : marshalCommand mu (.startauthsession m) = some out) (hcap : out.length ≤ cap)

include hcode hm hcap

/-- The buffer is not touched, and the parameters are captured. -/
theorem patch_start :
    (sessionAuthPatchCommand C st (some (out ++ slack)) out.length cap).val =
      ⟨captured st m, some (out ++ slack), out.length⟩ := by
  obtain ⟨hout, hle⟩ := marshalCommand_start hm
  replace hout : out = message (m.header.getD {}).tag.toUInt16
      TPM2_CC_StartAuthSession m.wire.body := by
    rw [hout, hcode]
    rfl
  have hk : kMaxBuffer = 1048576 := rfl
  have hread : read32 (out ++ slack) 6 = TPM2_CC_StartAuthSession := by
    rw [hout]
    exact read32_message_code _ _ _ _
  have hcapture := val_capture_message { st with lastCommandCode := TPM2_CC_StartAuthSession }
    (show m.wire.authArea = none from rfl) (m.header.getD {}).tag.toUInt16 slack
  rw [← hout] at hcapture
  rw [sessionAuthPatchCommand_good C st (goodHeader_marshalled slack hout (by omega) hcap)]
  simp only [hread, if_true, hcapture, compatible_wire]
  rfl

section

variable (handle : UInt32) (nonce : TPM2B) (more slack' : Bytes)
  (hlt : (startResponse handle nonce more).length < 2 ^ 32)

include hlt

theorem startTurn_supported (hs : m.Supported) :
    ArmedWith (startTurn C st out slack cap handle nonce more slack') handle nonce.bytes := by
  have hhash : m.authHash.toUInt16 = TPM2_ALG_SHA256 := hs.2.2.2.2
  unfold startTurn
  rw [patch_start mu C st slack hcode hm hcap]
  obtain ⟨hnonce, hinit⟩ := process_startResponse_armed
    (show (captured st m).pendingStartAuthSession = true from rfl) handle nonce more slack'
    (show (captured st m).startAuthSessionCompatible = true from decide_eq_true hs) hlt
  refine ⟨?_, ?_, hnonce, ?_, ?_, ?_⟩
  · rw [hinit]
  · rw [hinit]
  · rw [hinit]
    rfl
  · rw [hinit]
    exact hhash
  · rw [hinit]
    show digestSizeFor m.authHash.toUInt16 = 32
    rw [hhash]
    rfl

theorem startTurn_unsupported (hs : ¬ m.Supported) :
    SameSession st (startTurn C st out slack cap handle nonce more slack') := by
  have hgood : GoodResponse (startResponse handle nonce more ++ slack')
      (startResponse handle nonce more).length := goodResponse_message slack' hlt
  unfold startTurn
  rw [patch_start mu C st slack hcode hm hcap, process_startResponse_same
    (show (captured st m).pendingStartAuthSession = true from rfl)
    (show (captured st m).startAuthSessionCompatible = false from decide_eq_false hs) hgood]
  exact ⟨_, _, _, rfl⟩

/-- The layer arms on the messages it supports, and leaves the session alone on the others.  So it
ends armed just for the messages it supports, unless it was armed with this very handle and nonce
before a message it does not support. -/
theorem start_arms_iff :
    let patched := (sessionAuthPatchCommand C st (some (out ++ slack)) out.length cap).val
    let st' := startTurn C st out slack cap handle nonce more slack'
    patched.buf = some (out ++ slack) ∧ patched.size = out.length ∧
      (ArmedWith st' handle nonce.bytes ↔ m.Supported ∨ ArmedWith st handle nonce.bytes) ∧
      (¬ m.Supported → SameSession st st') ∧
      (ArmsAsAsked st m (out ++ slack) out.length patched st' handle nonce.bytes ↔
        m.Supported ∨ ¬ ArmedWith st handle nonce.bytes) := by
  intro patched st'
  have hpatched : patched = ⟨captured st m, some (out ++ slack), out.length⟩ :=
    patch_start mu C st slack hcode hm hcap
  have hbuf : patched.buf = some (out ++ slack) := by rw [hpatched]
  have hsize : patched.size = out.length := by rw [hpatched]
  have hsame := startTurn_unsupported mu C st slack hcode hm hcap handle nonce more slack' hlt
  have harmed : ArmedWith st' handle nonce.bytes ↔
      m.Supported ∨ ArmedWith st handle nonce.bytes := by
    by_cases hs : m.Supported
    · have hst' := startTurn_supported mu C st slack hcode hm hcap handle nonce more slack' hlt hs
      exact iff_of_true hst' (Or.inl hs)
    · rw [armedWith_of_same (hsame hs), or_iff_right hs]
  refine ⟨hbuf, hsize, harmed, hsame, ?_⟩
  constructor
  · intro h
    by_cases hs : m.Supported
    · exact Or.inl hs
    · exact Or.inr fun hst => hs (h.arms.mp (harmed.mpr (Or.inr hst)))
  · intro h
    exact ⟨hbuf, hsize, harmed.trans (or_iff_left_of_imp fun hst => h.resolve_right fun hn =>
      hn hst), fun hs _ => hsame hs⟩

end

end

/-- An unbound, unsalted HMAC session. -/
def hmacSession (authHash : UInt32) : TPMStartAuthSession where
  header := some { tag := TPM_ST_NO_SESSIONS, commandCode := TPM_CC_START_AUTH_SESSION }
  tpmKey := TPM_RH_NULL
  bind := TPM_RH_NULL
  authHash := authHash

/-- Sixteen bytes 0x55, as in `armedState`. -/
def tpmNonce : TPM2B := ⟨List.replicate 16 0x55, Nat.le_of_ble_eq_true rfl⟩

theorem hmacSession_arms :
    ∃ out, marshalCommand Tss2Mu.standard (.startauthsession (hmacSession TPM_ALG_SHA256)) =
        some out ∧
      ArmsAsAsked SessionState.zero (hmacSession TPM_ALG_SHA256) (out ++ []) out.length
        (sessionAuthPatchCommand clearDigests SessionState.zero (some (out ++ [])) out.length
          out.length).val
        (startTurn clearDigests SessionState.zero out [] out.length 0x02000000 tpmNonce [] [])
        0x02000000 tpmNonce.bytes ∧
      ArmedWith (startTurn clearDigests SessionState.zero out [] out.length
        0x02000000 tpmNonce [] [])
        0x02000000 tpmNonce.bytes := by
  obtain ⟨out, h⟩ := Option.isSome_iff_exists.mp (show (marshalCommand Tss2Mu.standard
    (.startauthsession (hmacSession TPM_ALG_SHA256))).isSome by decide +kernel)
  obtain ⟨-, -, harms, -, hasked⟩ := start_arms_iff Tss2Mu.standard clearDigests SessionState.zero
    [] rfl h (Nat.le_refl out.length) 0x02000000 tpmNonce [] [] (by decide)
  exact ⟨out, h, hasked.mpr (Or.inl (by decide)), harms.mpr (Or.inl (by decide))⟩

/-- A start for SHA-384 that returns the handle and the nonce of the armed session leaves the layer
armed, for a session it cannot authorise. -/
theorem sha384Session_stays_armed :
    ∃ out, marshalCommand Tss2Mu.standard
      (.startauthsession (hmacSession TPM_ALG_SHA384)) = some out ∧
      ¬ (hmacSession TPM_ALG_SHA384).Supported ∧
      ArmedWith (startTurn clearDigests armedState out [] out.length 0x02000000 tpmNonce [] [])
        0x02000000 tpmNonce.bytes ∧
      ¬ ArmsAsAsked armedState (hmacSession TPM_ALG_SHA384) (out ++ []) out.length
        (sessionAuthPatchCommand clearDigests armedState (some (out ++ []))
          out.length out.length).val
        (startTurn clearDigests armedState out [] out.length 0x02000000 tpmNonce [] [])
        0x02000000 tpmNonce.bytes := by
  obtain ⟨out, h⟩ := Option.isSome_iff_exists.mp (show (marshalCommand Tss2Mu.standard
    (.startauthsession (hmacSession TPM_ALG_SHA384))).isSome by decide +kernel)
  have hno : ¬ (hmacSession TPM_ALG_SHA384).Supported := by decide
  have harmed : ArmedWith (startTurn clearDigests armedState out [] out.length 0x02000000 tpmNonce
      [] []) 0x02000000 tpmNonce.bytes := by
    rw [armedWith_of_same (startTurn_unsupported Tss2Mu.standard clearDigests armedState [] rfl h
      (Nat.le_refl out.length) 0x02000000 tpmNonce [] [] (by decide) hno)]
    exact ⟨by decide, by decide, by decide, by decide, by decide, by decide⟩
  exact ⟨out, h, hno, harmed, fun hasked => hno (hasked.arms.mp harmed)⟩

end Proto
