import TpmFuzzer.Lib.Writer
import TpmFuzzer.Tpm.Structures

/-!
# The marshalling functions of tpm2-tss

`Tss2Mu` is what the harness uses of the library `tss2-mu`: functions `Tss2_MU_X_Marshal(src,
buffer, buffer_size, &offset)`.  The fields state its documented behaviour: the standard encoding is
stored at the offset when it fits, and nothing succeeds otherwise.  `Tss2Mu.standard` is such a
library.
-/

namespace Tpm

open Bytes Writer

/-- `Tss2_MU_X_Marshal(src, buffer, buffer_size, &offset)`.  `buffer` is given up to the last byte
written, and `none` is a return code other than `TSS2_RC_SUCCESS`. -/
abbrev MarshalFn (T : Type) := T → (size : Nat) → (buffer : Bytes) → (offset : Nat) → Option Bytes

/-- On the inputs in `P`, `f` stores the standard encoding. -/
def MarshalFn.StandardOn {T : Type} (f : MarshalFn T) (P : T → Prop) (encode : T → Bytes) : Prop :=
  ∀ x, P x → ∀ size buffer offset, offset ≤ buffer.length →
    f x size buffer offset = store size (encode x) buffer offset

/-- The standard encoding, for every structure. -/
abbrev MarshalFn.Standard {T : Type} (f : MarshalFn T) (encode : T → Bytes) : Prop :=
  f.StandardOn (fun _ => True) encode

structure Tss2Mu where
  uint16 : MarshalFn UInt16
  uint32 : MarshalFn UInt32
  /-- `sizeof(TPM2B_PRIVATE.buffer)`, which varies with the version. -/
  privateSize : Nat
  tpm2bData : MarshalFn TPM2B_DATA
  tpm2bPrivate : MarshalFn (TPM2BBuffer privateSize)
  tpm2bPublicKeyRsa : MarshalFn TPM2B_PUBLIC_KEY_RSA
  tpm2bEvent : MarshalFn TPM2B_EVENT
  tpmtSymDef : MarshalFn TPMT_SYM_DEF
  tpm2bSensitiveCreate : MarshalFn TPM2B_SENSITIVE_CREATE
  tpm2bPublic : MarshalFn TPM2B_PUBLIC
  tpmlPcrSelection : MarshalFn TPML_PCR_SELECTION
  /-- The offset `Tss2_MU_TPMS_NV_PUBLIC_Marshal` returns for a null buffer. -/
  tpmsNvPublicSize : TPMS_NV_PUBLIC → Nat
  tpm2bNvPublic : MarshalFn TPM2B_NV_PUBLIC
  privateSize_lt : privateSize < 2 ^ 16
  uint16_standard : uint16.Standard write16
  uint32_standard : uint32.Standard write32
  tpm2bData_standard : tpm2bData.Standard TPM2BBuffer.encode
  tpm2bPrivate_standard : tpm2bPrivate.Standard TPM2BBuffer.encode
  tpm2bPublicKeyRsa_standard : tpm2bPublicKeyRsa.Standard TPM2BBuffer.encode
  tpm2bEvent_standard : tpm2bEvent.Standard TPM2BBuffer.encode
  tpmtSymDef_standard : tpmtSymDef.StandardOn TPMT_SYM_DEF.Supported TPMT_SYM_DEF.encode
  tpm2bSensitiveCreate_standard :
    tpm2bSensitiveCreate.StandardOn (fun x => x.size = 0) fun x => tpm2b x.sensitive.encode
  tpm2bPublic_standard : tpm2bPublic.StandardOn
    (fun x => x.size = 0 ∧ x.publicArea.Supported) fun x => tpm2b x.publicArea.encode
  tpmlPcrSelection_standard :
    tpmlPcrSelection.StandardOn TPML_PCR_SELECTION.Supported TPML_PCR_SELECTION.encode
  tpmsNvPublicSize_eq : ∀ p, tpmsNvPublicSize p = p.encode.length
  tpm2bNvPublic_standard : tpm2bNvPublic.StandardOn
    (fun x => x.size.toNat = x.nvPublic.encode.length) fun x => tpm2b x.nvPublic.encode

/-- The library that stores the standard encoding of everything. -/
def Tss2Mu.standard : Tss2Mu where
  uint16 x size buffer offset := store size (write16 x) buffer offset
  uint32 x size buffer offset := store size (write32 x) buffer offset
  privateSize := 1550
  tpm2bData x size buffer offset := store size x.encode buffer offset
  tpm2bPrivate x size buffer offset := store size x.encode buffer offset
  tpm2bPublicKeyRsa x size buffer offset := store size x.encode buffer offset
  tpm2bEvent x size buffer offset := store size x.encode buffer offset
  tpmtSymDef x size buffer offset := store size x.encode buffer offset
  tpm2bSensitiveCreate x size buffer offset := store size (tpm2b x.sensitive.encode) buffer offset
  tpm2bPublic x size buffer offset := store size (tpm2b x.publicArea.encode) buffer offset
  tpmlPcrSelection x size buffer offset := store size x.encode buffer offset
  tpmsNvPublicSize p := p.encode.length
  tpm2bNvPublic x size buffer offset := store size (tpm2b x.nvPublic.encode) buffer offset
  privateSize_lt := by decide
  uint16_standard _ _ _ _ _ _ := rfl
  uint32_standard _ _ _ _ _ _ := rfl
  tpm2bData_standard _ _ _ _ _ _ := rfl
  tpm2bPrivate_standard _ _ _ _ _ _ := rfl
  tpm2bPublicKeyRsa_standard _ _ _ _ _ _ := rfl
  tpm2bEvent_standard _ _ _ _ _ _ := rfl
  tpmtSymDef_standard _ _ _ _ _ _ := rfl
  tpm2bSensitiveCreate_standard _ _ _ _ _ _ := rfl
  tpm2bPublic_standard _ _ _ _ _ _ := rfl
  tpmlPcrSelection_standard _ _ _ _ _ _ := rfl
  tpmsNvPublicSize_eq _ := rfl
  tpm2bNvPublic_standard _ _ _ _ _ _ := rfl

/-! ## Marshalling at the end of what is written -/

/-- `f(src, buf->data(), buf->size(), &offset)` with `offset` behind the last byte written. -/
def MarshalFn.put {T : Type} (f : MarshalFn T) (x : T) (size : Nat) (out : Bytes) : Option Bytes :=
  f x size out out.length

/-- A library function is a writer of its encoding. -/
theorem MarshalFn.StandardOn.writes {T : Type} {f : MarshalFn T} {P : T → Prop} {encode : T → Bytes}
    (h : f.StandardOn P encode) {x : T} (hx : P x) (size : Nat) :
    Writes size (f.put x size) (some (encode x)) := by
  intro out _
  rw [MarshalFn.put, h x hx size out out.length (Nat.le_refl _), store_length]
  rfl

namespace Tss2Mu

variable (mu : Tss2Mu) (size : Nat)

theorem writes_uint16 (v : UInt16) : Writes size (mu.uint16.put v size) (some (write16 v)) :=
  mu.uint16_standard.writes trivial size

theorem writes_uint32 (v : UInt32) : Writes size (mu.uint32.put v size) (some (write32 v)) :=
  mu.uint32_standard.writes trivial size

end Tss2Mu

end Tpm
