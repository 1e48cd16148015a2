import TpmFuzzer.Proto.Messages
import TpmFuzzer.Tpm.Mu

/-!
# `MarshalCommand`

`proto_conversion.cc` function by function: the fields of the selected command in declaration order,
each dispatched on its descriptor, a message on its type.  `size` is `buf->size()`; `out` is the
part of the buffer before `offset`, which is `out.length`.  Nothing reads the zeros behind it, and
`MarshalCommand` cuts them off at the end.

A marshaller that fills a C structure and hands it to tpm2-tss is split there: `publicOf`,
`symDefOf` and the others fill the structure.
-/

namespace Proto

open Bytes Tpm Writer

/-- 1 MiB, the buffer that `MarshalCommand` starts with. -/
def kMaxBuffer : Nat := 1024 * 1024

/-- `if (offset + data.size() > buf->size()) return false; memcpy(..); offset += data.size();`, left
out for empty `data`. -/
def copyIn (size : Nat) (data out : Bytes) : Option Bytes :=
  if data.isEmpty then some out else emit size data out

/-- `min(src.size(), cap)` bytes are copied into the C buffer. -/
def fillTpm2b (cap : Nat) (src : Bytes) : TPM2BBuffer cap :=
  ⟨src.take cap, List.length_take_le cap src⟩

/-- An algorithm outside the valid selectors becomes `TPM2_ALG_NULL`. -/
def orNull (valid : List UInt16) (alg : UInt16) : UInt16 :=
  if alg ∈ valid then alg else TPM2_ALG_NULL

/-! ## The C structures -/

/-- Key size and mode are filled in for AES only. -/
def symDefOf (sym : TPMTSymDef) : TPMT_SYM_DEF :=
  -- Only AES and NULL are valid TPMI_ALG_SYM selectors in our enum.
  let alg := orNull [TPM2_ALG_AES, TPM2_ALG_NULL] sym.algorithm.toUInt16
  if alg ≠ TPM2_ALG_NULL then
    { algorithm := alg, keyBits := sym.keyBits.toUInt16, mode := sym.mode.toUInt16 }
  else
    { algorithm := alg }

/-- Both members are empty when they are not set. -/
def sensitiveOf (sens : TPM2BSensitiveCreate) : TPM2B_SENSITIVE_CREATE :=
  match sens.sensitive with
  | none => {}
  | some s =>
    { sensitive :=
        { userAuth := (s.userAuth.map fun a => fillTpm2b 64 a.buffer).getD default
          data := (s.data.map fun d => fillTpm2b 256 d.buffer).getD default } }

/-- The mode of the symmetric algorithm is CFB, and no scheme has a hash. -/
def rsaDetailOf (rsa : TPMSRSAParms) : TPMS_RSA_PARMS :=
  -- Only AES and NULL are valid TPMI_ALG_SYM_OBJECT selectors in our enum.
  let symAlg := orNull [TPM2_ALG_AES, TPM2_ALG_NULL] rsa.symmetric.toUInt16
  { symmetric :=
      if symAlg ≠ TPM2_ALG_NULL then
        { algorithm := symAlg, keyBits := rsa.symmetricKeyBits.toUInt16, mode := TPM2_ALG_CFB }
      else
        { algorithm := symAlg }
    scheme := { scheme := orNull [TPM2_ALG_RSASSA, TPM2_ALG_NULL] rsa.scheme.toUInt16 }
    keyBits := rsa.keyBits.toUInt16
    exponent := rsa.exponent }

/-- A scheme without its hash. -/
def keyedHashDetailOf (kh : TPMSKeyedHashParms) : TPMT_KEYEDHASH_SCHEME :=
  -- Only HMAC, XOR, and NULL are valid TPMU_SCHEME_KEYEDHASH selectors.
  { scheme := orNull [TPM2_ALG_HMAC, TPM2_ALG_XOR, TPM2_ALG_NULL] kh.scheme.toUInt16 }

/-- `type` is derived from the parameters oneof, not from `pa.type()`. -/
def setParameters (area : TPMT_PUBLIC) : Option TPMUPublicParms → TPMT_PUBLIC
  | some (.rsa rsa) => { area with type := TPM2_ALG_RSA, rsaDetail := rsaDetailOf rsa }
  | some (.keyedhash kh) =>
    { area with type := TPM2_ALG_KEYEDHASH, keyedHashDetail := keyedHashDetailOf kh }
  | _ => { area with type := TPM2_ALG_NULL }

/-- A unique field of another type than the parameters is left out. -/
def setUnique (area : TPMT_PUBLIC) : Option TPMUPublicId → TPMT_PUBLIC
  | some (.rsa b) =>
    if area.type = TPM2_ALG_RSA then { area with uniqueRsa := fillTpm2b 512 b } else area
  | some (.keyedhash d) =>
    if area.type = TPM2_ALG_KEYEDHASH then { area with uniqueKeyedHash := fillTpm2b 64 d.buffer }
    else area
  | _ => area

/-- The size stays 0: tpm2-tss computes it. -/
def publicOf (pub : TPM2BPublic) : TPM2B_PUBLIC :=
  match pub.publicArea with
  | none => { publicArea := { type := TPM2_ALG_NULL } }
  | some pa =>
    let area : TPMT_PUBLIC :=
      { type := TPM2_ALG_NULL
        nameAlg := pa.nameAlg.toUInt16
        objectAttributes := pa.objectAttributes
        authPolicy := (pa.authPolicy.map fun p => fillTpm2b 64 p.buffer).getD default }
    { publicArea := setUnique (setParameters area pa.parameters) pa.unique }

/-- The selection is cut to the array of the C structure. -/
def pcrSelectionOf (sel : TPMSPCRSelection) : TPMS_PCR_SELECTION :=
  let sizeofSelect := min sel.sizeofSelect.toNat TPM2_PCR_SELECT_MAX
  { hash := sel.hash.toUInt16
    sizeofSelect := UInt8.ofNat sizeofSelect
    pcrSelect := (Fixed.zeros TPM2_PCR_SELECT_MAX).blit (sel.pcrSelect.take sizeofSelect) }

/-- The list is cut to the array of the C structure, and counted afterwards. -/
def pcrSelectionsOf (pcr : TPMLPCRSelection) : TPML_PCR_SELECTION :=
  let selections := pcr.pcrSelections.take TPM2_NUM_PCR_BANKS
  { count := UInt32.ofNat selections.length, pcrSelections := selections.map pcrSelectionOf }

def nvPublicOf (pub : TPMNvPublic) : TPMS_NV_PUBLIC where
  nvIndex := pub.nvIndex
  nameAlg := pub.nameAlg.toUInt16
  attributes := pub.attributes
  authPolicy := fillTpm2b 64 pub.authPolicy
  dataSize := pub.dataSize.toUInt16

/-! ## Type-specific marshalers -/

section

variable (mu : Tss2Mu) (size : Nat)

def marshalCommandHeader (header : TPMHeader) (out : Bytes) : Option Bytes := do
  let start := out.length
  let out ← mu.uint16.put header.tag.toUInt16 size out
  let out ← mu.uint32.put header.commandSize size out
  let out ← mu.uint32.put header.commandCode size out
  -- TPM Command Header is always 10 bytes
  if out.length - start = 10 then some out else none

def marshalTPM2BData (data : TPM2BData) : Bytes → Option Bytes :=
  mu.tpm2bData.put (fillTpm2b 66 data.buffer) size

/-- Written by hand, without a capacity. -/
def marshalTPM2BDigest (digest : TPM2BDigest) (out : Bytes) : Option Bytes := do
  if digest.buffer.length > 65535 then none
  else
    let out ← mu.uint16.put (UInt16.ofNat digest.buffer.length) size out
    copyIn size digest.buffer out

def marshalTPM2BPrivate (data : TPM2BPrivate) : Bytes → Option Bytes :=
  mu.tpm2bPrivate.put (fillTpm2b mu.privateSize data.buffer) size

def marshalTPMTSymDef (sym : TPMTSymDef) : Bytes → Option Bytes :=
  mu.tpmtSymDef.put (symDefOf sym) size

/-- Nonce and HMAC with sizes of 16 bits; the size fields of the message are not looked at. -/
def marshalTPMSession (session : TPMSession) (out : Bytes) : Option Bytes := do
  let out ← mu.uint32.put session.sessionHandle size out
  let nonceSize := UInt16.ofNat session.nonce.length
  let out ← mu.uint16.put nonceSize size out
  let out ← copyIn size (session.nonce.take nonceSize.toNat) out
  let out ← emit size [session.sessionAttributes.toUInt8] out
  let hmacSize := UInt16.ofNat session.hmac.length
  let out ← mu.uint16.put hmacSize size out
  copyIn size (session.hmac.take hmacSize.toNat) out

def marshalTPM2BSensitiveCreate (sens : TPM2BSensitiveCreate) : Bytes → Option Bytes :=
  mu.tpm2bSensitiveCreate.put (sensitiveOf sens) size

def marshalTPM2BPublic (pub : TPM2BPublic) : Bytes → Option Bytes :=
  mu.tpm2bPublic.put (publicOf pub) size

def marshalTPMLPCRSelection (pcr : TPMLPCRSelection) : Bytes → Option Bytes :=
  mu.tpmlPcrSelection.put (pcrSelectionsOf pcr) size

def marshalTPM2BPublicKeyRSA (rsa : TPM2BPublicKeyRSA) : Bytes → Option Bytes :=
  mu.tpm2bPublicKeyRsa.put (fillTpm2b 512 rsa.buffer) size

def marshalTPMTRSADecrypt (scheme : TPMTRSADecrypt) (out : Bytes) : Option Bytes := do
  let out ← mu.uint16.put scheme.scheme.toUInt16 size out
  -- hashAlg is only marshaled for OAEP
  if scheme.scheme.toUInt16 = TPM2_ALG_OAEP then mu.uint16.put scheme.hashAlg.toUInt16 size out
  else some out

/-- Some tss2 versions use the size field literally, so it is set to the marshaled size. -/
def marshalTPMNvPublic (pub : TPMNvPublic) : Bytes → Option Bytes :=
  let nvPublic := nvPublicOf pub
  mu.tpm2bNvPublic.put { size := UInt16.ofNat (mu.tpmsNvPublicSize nvPublic)
                         nvPublic := nvPublic } size

def marshalTPM2BEvent (data : TPM2BEvent) : Bytes → Option Bytes :=
  mu.tpm2bEvent.put (fillTpm2b 1024 data.buffer) size

/-! ## Dispatch -/

/-- On the protobuf message type name; an unknown type fails. -/
def marshalMessageField (child : Message) (out : Bytes) : Option Bytes :=
  match child with
  | .tpmHeader m => marshalCommandHeader mu size m out
  | .tpm2bData m => marshalTPM2BData mu size m out
  | .tpm2bDigest m => marshalTPM2BDigest mu size m out
  | .tpm2bPrivate m => marshalTPM2BPrivate mu size m out
  | .tpmtSymDef m => marshalTPMTSymDef mu size m out
  | .tpm2bSensitiveCreate m => marshalTPM2BSensitiveCreate mu size m out
  | .tpm2bPublic m => marshalTPM2BPublic mu size m out
  | .tpmlPcrSelection m => marshalTPMLPCRSelection mu size m out
  | .tpm2bPublicKeyRsa m => marshalTPM2BPublicKeyRSA mu size m out
  | .tpmtRsaDecrypt m => marshalTPMTRSADecrypt mu size m out
  | .tpm2bEvent m => marshalTPM2BEvent mu size m out
  | .tpmNvPublic m => marshalTPMNvPublic mu size m out
  | .tpmSession _ | .tpmiDhObject _ => none

/-- For TPMSession, an authorizationSize, then each session. -/
def marshalRepeatedField (elements : Elements) (out : Bytes) : Option Bytes :=
  match elements with
  | .sessions l => do
    let authSizePos := out.length
    let out ← mu.uint32.put 0 size out
    let authAreaStart := out.length
    let out ← each (marshalTPMSession mu size) l out
    -- Patch authorizationSize.
    let authAreaSize := UInt32.ofNat (out.length - authAreaStart)
    mu.uint32 authAreaSize size out authSizePos
  | .messages _ | .scalars _ => none

/-- On the descriptor: a repeated field, a message, an enum by its type, or a scalar. -/
def marshalCommandField (field : Field) (out : Bytes) : Option Bytes :=
  match field.value with
  | .repeated elements => marshalRepeatedField mu size elements out
  | .message child => marshalMessageField mu size child out
  | .enum type number =>
    match type with
    | .tpmse => emit size [number.toUInt8] out
    | .tpmalg => mu.uint16.put number.toUInt16 size out
    | .tpmst | .tpmcc | .tpmrh => mu.uint32.put number size out
  | .uint32 value =>
    -- bytes_requested is a UINT32 in the proto but a UINT16 in the spec
    if field.name = "bytes_requested" then
      if value.toNat > 65535 then none else mu.uint16.put value.toUInt16 size out
    else
      mu.uint32.put value size out
  | .bytes data => copyIn size data out

/-- The fields in declaration order, until one fails. -/
def marshalTPMCommand (fields : List Field) : Bytes → Option Bytes :=
  each (marshalCommandField mu size) fields

/-- The result of the marshalling function is not looked at. -/
def patchCommandSize (out : Bytes) (totalSize : Nat) : Bytes :=
  (mu.uint32 (UInt32.ofNat totalSize) size out 2).getD out

end

/-- `none` when it returns false, else what `*out` holds. -/
def marshalCommand (mu : Tss2Mu) (command : TPMCommand) : Option Bytes := do
  let fields ← command.fields
  let out ← marshalTPMCommand mu kMaxBuffer fields []
  return patchCommandSize mu kMaxBuffer out out.length

end Proto
