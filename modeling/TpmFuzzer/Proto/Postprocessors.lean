import TpmFuzzer.Proto.Normalization
import TpmFuzzer.Proto.Encoding

/-!
# `proto_postprocessors.cc`

After a mutation the post-processor that is registered for the kind of the command runs on it.  It
sets the tag and the command code, whatever they were, and fills in defaults.
-/

namespace Proto

def normalizeStartAuthSession (msg : TPMStartAuthSession) : TPMStartAuthSession :=
  let symmetric := msg.symmetric.getD {}
  let nonce := msg.nonce.getD {}
  { msg with
    header := retag msg.header TPM_ST_NO_SESSIONS TPM_CC_START_AUTH_SESSION
    tpmKey := orDefault msg.tpmKey TPM_RH_NULL
    bind := orDefault msg.bind TPM_RH_NULL
    -- set to SHA256 for an HMAC session, and then for any other
    authHash := orDefault msg.authHash TPM_ALG_SHA256
    symmetric :=
      if symmetric.algorithm = TPM_ALG_UNSPECIFIED then
        some { symmetric with algorithm := TPM_ALG_NULL }
      else msg.symmetric
    nonce := if nonce.buffer.isEmpty then some { nonce with buffer := List.replicate 16 0 }
      else msg.nonce }

/-- The two post-processors of `TPMLoad` are `NormalizeLoad` and `NormalizeInPublic`. -/
def postProcess : TPMCommand → TPMCommand
  | .notSet => .notSet
  | .clear msg => .clear (normalizeClear msg)
  | .load msg => .load (normalizeInPublic (normalizeLoad msg))
  | .pcrallocate msg =>
    .pcrallocate { msg with header := retag msg.header TPM_ST_SESSIONS TPM_CC_PCR_ALLOCATE }
  | .setprimarypolicy msg => .setprimarypolicy (normalizeSetPrimaryPolicy msg)
  | .getrandom msg =>
    .getrandom { msg with
      header :=
        some { tag := TPM_ST_NO_SESSIONS, commandCode := TPM_CC_GET_RANDOM, commandSize := 12 }
      bytesRequested := orDefault msg.bytesRequested 1 }
  | .startauthsession msg => .startauthsession (normalizeStartAuthSession msg)
  | .createprimary msg => .createprimary (normalizeCreatePrimary msg)
  | .create msg => .create (normalizeCreate msg)
  | .rsadecrypt msg => .rsadecrypt (normalizeRSADecrypt msg)
  | .rsaencrypt msg =>
    .rsaencrypt { msg with header := retag msg.header TPM_ST_NO_SESSIONS TPM_CC_RSA_ENCRYPT }
  | .pcrevent msg =>
    .pcrevent { msg with header := retag msg.header TPM_ST_SESSIONS TPM_CC_PCR_EVENT }
  | .nvdefinespace msg =>
    .nvdefinespace { msg with header := retag msg.header TPM_ST_SESSIONS TPM_CC_NV_DEFINE_SPACE }
  | .makecredential msg =>
    .makecredential
      { msg with header := retag msg.header TPM_ST_NO_SESSIONS TPM_CC_MAKE_CREDENTIAL }
  | .pcrread msg =>
    .pcrread { msg with header := retag msg.header TPM_ST_NO_SESSIONS TPM_CC_PCR_READ }
  | .pcrsetauthpolicy msg =>
    .pcrsetauthpolicy { msg with
      header := retag msg.header TPM_ST_SESSIONS TPM_CC_PCR_SET_AUTH_POLICY }

end Proto
