import TpmFuzzer.Harness.Layout
import TpmFuzzer.Python.Templates

/-!
# Authorization areas on the way through protobuf

Eleven classes write an authorization area and have a `to_proto()`.  Some build their message from
saved members, some parse it back out of their own bytes; `TPMCreate` steps over the area and
`TPMGetRandom` reads nothing but the last two bytes.

    s.seeds = .ok (c, msg)  →  c.bytes = .ok b  →
      (the sessions of msg encode to the entries in b  ↔  s.KeepsArea)       (sessions_kept_iff)
-/

namespace Python

open Py Bytes Tpm

/-! ## The area in the bytes -/

/-- The entries of the authorization area behind `n` handles. -/
def authEntries (n : Nat) (b : Bytes) : Bytes :=
  let start := 10 + 4 * n
  let authSize := fromBytes (Py.slice b start (start + 4))
  Py.slice b (start + 4) (start + 4 + authSize)

/-- The parameters of a command are `n` handles, the area and something else. -/
def CarriesArea (n : Nat) (auth : AuthArea) (c : TPMCommand) : Prop :=
  ∃ handles area rest, c.params = handles ++ (area ++ rest) ∧ handles.length = 4 * n ∧
    auth.toBytes = .ok area

theorem bytes_eq_ok {c : TPMCommand} {b : Bytes} (h : c.bytes = .ok b) :
    ∃ header, b = header ++ c.params ∧ header.length = 10 := by
  simp only [TPMCommand.bytes, bind_eq_ok, toBytes_eq_ok, pure_eq_ok, Except.ok.injEq] at h
  obtain ⟨_, ⟨tag, -, -, rfl⟩, _, ⟨size, -, -, rfl⟩, _, ⟨code, -, -, rfl⟩, rfl⟩ := h
  refine ⟨_, rfl, ?_⟩
  simp only [List.length_append, length_be]
  rfl

theorem authEntries_of_carries {n : Nat} {auth : AuthArea} {c : TPMCommand} {b : Bytes}
    (hc : CarriesArea n auth c) (hb : c.bytes = .ok b) :
    authEntries n b = (auth.commands.map AuthCommand.session).flatMap Proto.TPMSession.encode := by
  obtain ⟨handles, area, rest, hparams, hhandles, harea⟩ := hc
  obtain ⟨header, rfl, hheader⟩ := bytes_eq_ok hb
  obtain ⟨body, hbody, hlt, rfl⟩ := AuthArea.toBytes_eq_ok harea
  have h0 : (header ++ c.params).drop 10 = handles ++ (be 4 body.length ++ (body ++ rest)) := by
    rw [List.drop_left' hheader, hparams, List.append_assoc]
  have hsize := drop_of_drop (j := 10 + 4 * n) h0 (by rw [hhandles])
  have hentries := drop_of_drop (j := 10 + 4 * n + 4) hsize (by rw [length_be])
  unfold authEntries
  dsimp only
  rw [fromBytes_of_drop hsize rfl hlt, Py.slice_of_drop hentries rfl, flatMap_encode_session hbody]

/-- The sessions of a message; some kinds have none. -/
def sessionsOf (msg : Proto.TPMCommand) : List Proto.TPMSession :=
  match msg.sessionPart with
  | some part => part.sessions
  | none => []

/-- The sessions of the message are the commands of the area. -/
def Keeps (n : Nat) (auth : AuthArea) (c : TPMCommand) (msg : Proto.TPMCommand) : Prop :=
  CarriesArea n auth c ∧ sessionsOf msg = auth.commands.map AuthCommand.session

/-- The message has no sessions. -/
def Drops (n : Nat) (auth : AuthArea) (c : TPMCommand) (msg : Proto.TPMCommand) : Prop :=
  CarriesArea n auth c ∧ sessionsOf msg = []

section

variable {n : Nat} {auth : AuthArea} {c : TPMCommand} {msg : Proto.TPMCommand} {b : Bytes}

theorem Keeps.encode (h : Keeps n auth c msg) (hb : c.bytes = .ok b) :
    (sessionsOf msg).flatMap Proto.TPMSession.encode = authEntries n b := by
  rw [authEntries_of_carries h.1 hb, h.2]

/-- Every entry has at least nine bytes. -/
theorem Drops.encode_iff (h : Drops n auth c msg) (hb : c.bytes = .ok b) :
    (sessionsOf msg).flatMap Proto.TPMSession.encode = authEntries n b ↔ auth.commands = [] := by
  rw [authEntries_of_carries h.1 hb, h.2]
  cases auth.commands with
  | nil => simp
  | cons a as =>
    refine iff_of_false (fun hnil => ?_) nofun
    have hlen := congrArg List.length hnil
    have hsession := Proto.length_session a.session
    rw [List.map_cons, List.flatMap_cons, List.length_append, List.flatMap_nil,
      List.length_nil] at hlen
    omega

end

/-- One entry, for the session handle of the constructor. -/
def singleArea (sessionHandle : Int) : AuthArea :=
  { commands := [{ sessionHandle := sessionHandle }] }

theorem carriesArea_single {c : TPMCommand} (k : Nat) {sessionHandle : Int} {area : Bytes}
    (rest : Bytes) (harea : authAreaOf sessionHandle = .ok area)
    (hparams : c.params = be 4 k ++ (area ++ rest)) :
    CarriesArea 1 (singleArea sessionHandle) c :=
  ⟨be 4 k, area, rest, hparams, length_be 4 k, harea⟩

theorem protoSessionOf_eq_ok {handle : Int} {session : Proto.TPMSession}
    (h : protoSessionOf handle = .ok session) :
    [session] = (singleArea handle).commands.map AuthCommand.session := by
  simp only [protoSessionOf, bind_eq_ok, pure_eq_ok, Except.ok.injEq] at h
  obtain ⟨v, hv, rfl⟩ := h
  unfold pbUint32 at hv
  split at hv
  · cases hv
    rfl
  · cases hv

/-! ## Messages with the saved session handle -/

theorem TPMClear.keeps {authHandle : IntOr TPM_RH} {sessionHandle : IntOr TPM_RS} {c : TPMClear}
    {msg : Proto.TPMCommand} (hc : TPMClear.init authHandle sessionHandle = .ok c)
    (hm : c.toProto = .ok msg) : Keeps 1 (singleArea sessionHandle.toInt) c.toTPMCommand msg := by
  simp only [TPMClear.init, bind_eq_ok, toBytes_eq_ok, pure_eq_ok, Except.ok.injEq] at hc
  obtain ⟨_, ⟨h, -, -, rfl⟩, area, harea, rfl⟩ := hc
  simp only [TPMClear.toProto, bind_eq_ok, pure_eq_ok, Except.ok.injEq] at hm
  obtain ⟨session, hs, -, -, -, -, rfl⟩ := hm
  exact ⟨carriesArea_single h [] harea (by simp), protoSessionOf_eq_ok hs⟩

theorem TPMSetPrimaryPolicy.keeps {authHandle : IntOr TPM_RH} {authPolicy : Bytes}
    {hashAlg : IntOr TPM_ALG} {sessionHandle : IntOr TPM_RS} {c : TPMSetPrimaryPolicy}
    {msg : Proto.TPMCommand}
    (hc : TPMSetPrimaryPolicy.init authHandle authPolicy hashAlg sessionHandle = .ok c)
    (hm : c.toProto = .ok msg) : Keeps 1 (singleArea sessionHandle.toInt) c.toTPMCommand msg := by
  simp only [TPMSetPrimaryPolicy.init, bind_eq_ok, toBytes_eq_ok, pure_eq_ok, Except.ok.injEq] at hc
  obtain ⟨area, harea, policy, -, _, ⟨h, -, -, rfl⟩, _, ⟨a, -, -, rfl⟩, session, hs, _, -, _, -, _,
    -, _, -, rfl⟩ := hc
  cases hm
  exact ⟨carriesArea_single h (policy ++ be 2 a) harea (by simp), protoSessionOf_eq_ok hs⟩

theorem TPMRSADecrypt.keeps {keyHandle : Int} {cipherText label : Bytes} {inScheme : RsaDecrypt}
    {sessionHandle : IntOr TPM_RS} {c : TPMRSADecrypt} {msg : Proto.TPMCommand}
    (hc : TPMRSADecrypt.init keyHandle cipherText inScheme label sessionHandle = .ok c)
    (hm : c.toProto = .ok msg) : Keeps 1 (singleArea sessionHandle.toInt) c.toTPMCommand msg := by
  simp only [TPMRSADecrypt.init, bind_eq_ok, toBytes_eq_ok, pure_eq_ok, Except.ok.injEq] at hc
  obtain ⟨cipher, -, lab, -, _, ⟨h, -, -, rfl⟩, area, harea, scheme, -, rfl⟩ := hc
  simp only [TPMRSADecrypt.toProto, bind_eq_ok, pure_eq_ok, Except.ok.injEq] at hm
  obtain ⟨session, hs, -, -, -, -, -, -, -, -, -, -, rfl⟩ := hm
  exact ⟨carriesArea_single h (cipher ++ (scheme ++ lab)) harea (by simp), protoSessionOf_eq_ok hs⟩

theorem TPMPCRAllocate.keeps {pcrAllocation : PcrSelectionList} {authHandle : IntOr TPM_RH}
    {sessionHandle : IntOr TPM_RS} {c : TPMPCRAllocate} {msg : Proto.TPMCommand}
    (hc : TPMPCRAllocate.init pcrAllocation authHandle sessionHandle = .ok c)
    (hm : c.toProto = .ok msg) : Keeps 1 (singleArea sessionHandle.toInt) c.toTPMCommand msg := by
  simp only [TPMPCRAllocate.init, bind_eq_ok, toBytes_eq_ok, pure_eq_ok, Except.ok.injEq] at hc
  obtain ⟨_, ⟨h, -, -, rfl⟩, area, harea, pcrs, -, rfl⟩ := hc
  simp only [TPMPCRAllocate.toProto, bind_eq_ok, pure_eq_ok, Except.ok.injEq] at hm
  obtain ⟨session, hs, -, -, -, -, -, -, -, -, rfl⟩ := hm
  exact ⟨carriesArea_single h pcrs harea (by simp), protoSessionOf_eq_ok hs⟩

theorem TPMLoad.keeps {parentHandle : Int} {inPrivate inPublic : Bytes}
    {sessionHandle : IntOr TPM_RS} {c : TPMLoad} {msg : Proto.TPMCommand}
    (hc : TPMLoad.init parentHandle inPrivate inPublic sessionHandle = .ok c)
    (hm : c.toProto = .ok msg) : Keeps 1 (singleArea sessionHandle.toInt) c.toTPMCommand msg := by
  simp only [TPMLoad.init, bind_eq_ok, toBytes_eq_ok, pure_eq_ok, Except.ok.injEq] at hc
  obtain ⟨session, hs, _, ⟨h, -, -, rfl⟩, area, harea, _, -, _, -, _, -, _, -, rfl⟩ := hc
  cases hm
  exact ⟨carriesArea_single h (inPrivate ++ inPublic) harea (by simp), protoSessionOf_eq_ok hs⟩

theorem TPMPCREvent.keeps {pcrHandle sessionHandle : Int} {eventData : Bytes} {c : TPMPCREvent}
    {msg : Proto.TPMCommand} (hc : TPMPCREvent.init pcrHandle eventData sessionHandle = .ok c)
    (hm : c.toProto = .ok msg) : Keeps 1 (singleArea sessionHandle) c.toTPMCommand msg := by
  simp only [TPMPCREvent.init, bind_eq_ok, toBytes_eq_ok, pure_eq_ok, Except.ok.injEq] at hc
  obtain ⟨area, harea, session, hs, event, -, _, ⟨h, -, -, rfl⟩, _, -, _, -, _, -, rfl⟩ := hc
  cases hm
  exact ⟨carriesArea_single h event harea (by simp), protoSessionOf_eq_ok hs⟩

theorem TPMPCRSetAuthPolicy.keeps {authHandle pcrNum sessionHandle : Int} {authPolicy : Bytes}
    {hashAlg : IntOr TPM_ALG} {c : TPMPCRSetAuthPolicy} {msg : Proto.TPMCommand}
    (hc : TPMPCRSetAuthPolicy.init authHandle authPolicy hashAlg pcrNum sessionHandle = .ok c)
    (hm : c.toProto = .ok msg) : Keeps 1 (singleArea sessionHandle) c.toTPMCommand msg := by
  simp only [TPMPCRSetAuthPolicy.init, bind_eq_ok, toBytes_eq_ok, pure_eq_ok, Except.ok.injEq] at hc
  obtain ⟨area, harea, session, hs, digest, -, _, ⟨h, -, -, rfl⟩, _, ⟨a, -, -, rfl⟩, _,
    ⟨p, -, -, rfl⟩, _, -, _, -, _, -, _, -, _, -, rfl⟩ := hc
  cases hm
  exact ⟨carriesArea_single h (digest ++ (be 2 a ++ be 4 p)) harea (by simp),
    protoSessionOf_eq_ok hs⟩

/-! ## Messages parsed from the bytes -/

theorem sessions_ne_noSessions : TPM_ST_SESSIONS ≠ TPM_ST_NO_SESSIONS := by decide

theorem parseSessions_of_carries {auth : AuthArea} {c : TPMCommand} (h : CarriesArea 1 auth c)
    (htag : c.tag ≠ TPM_ST_NO_SESSIONS) :
    ∃ offset, parseSessions c 4 = .ok (auth.commands.map AuthCommand.session, offset) := by
  obtain ⟨handles, area, rest, hparams, hhandles, harea⟩ := h
  have hd : c.params.drop 4 = area ++ rest := by rw [hparams, List.drop_left' hhandles]
  exact ⟨_, parseSessions_of_drop htag harea hd⟩

theorem TPMNVDefineSpace.keeps {nvIndex sessionHandle dataSize : Int} {attributes : Flags TPMA_NV}
    {hierarchy : TPM_RH} {c : TPMNVDefineSpace} {msg : Proto.TPMCommand}
    (hc : TPMNVDefineSpace.init nvIndex attributes sessionHandle hierarchy dataSize = .ok c)
    (hm : c.toProto = .ok msg) : Keeps 1 (singleArea sessionHandle) c.toTPMCommand msg := by
  simp only [TPMNVDefineSpace.init, bind_eq_ok, toBytes_eq_ok, pure_eq_ok, Except.ok.injEq] at hc
  obtain ⟨_, ⟨h, -, -, rfl⟩, area, harea, auth, -, nv, -, rfl⟩ := hc
  have hcarry : CarriesArea 1 (singleArea sessionHandle)
      ⟨TPM_ST_SESSIONS, TPM_CC_NV_DEFINE_SPACE, be 4 h ++ area ++ auth ++ nv⟩ :=
    carriesArea_single h (auth ++ nv) harea (by simp)
  obtain ⟨offset, hparse⟩ := parseSessions_of_carries hcarry sessions_ne_noSessions
  simp only [TPMNVDefineSpace.toProto, hparse, ok_bind, bind_eq_ok, pure_eq_ok,
    Except.ok.injEq] at hm
  obtain ⟨_, -, _, -, _, -, _, -, rfl⟩ := hm
  exact ⟨hcarry, rfl⟩

theorem TPMCreatePrimary.keeps {sessionHandle : IntOr TPM_RS} {hashAlg : TPM_ALG} {keyBits : Int}
    {primaryHandle : IntOr TPM_RH} {publicTemplate : Option Tpm2bPublic} {c : TPMCreatePrimary}
    {msg : Proto.TPMCommand}
    (hc : TPMCreatePrimary.init sessionHandle hashAlg keyBits primaryHandle publicTemplate = .ok c)
    (hm : c.toProto = .ok msg) : Keeps 1 (singleArea sessionHandle.toInt) c.toTPMCommand msg := by
  simp only [TPMCreatePrimary.init, bind_eq_ok, toBytes_eq_ok, pure_eq_ok, Except.ok.injEq] at hc
  obtain ⟨_, ⟨h, -, -, rfl⟩, area, harea, sens, -, pub, -, data, -, pcrs, -, rfl⟩ := hc
  have hcarry : CarriesArea 1 (singleArea sessionHandle.toInt)
      ⟨TPM_ST_SESSIONS, TPM_CC_CREATE_PRIMARY, be 4 h ++ area ++ sens ++ pub ++ data ++ pcrs⟩ :=
    carriesArea_single h (sens ++ (pub ++ (data ++ pcrs))) harea (by simp)
  obtain ⟨offset, hparse⟩ := parseSessions_of_carries hcarry sessions_ne_noSessions
  simp only [TPMCreatePrimary.toProto, hparse, ok_bind, bind_eq_ok, pure_eq_ok,
    Except.ok.injEq] at hm
  obtain ⟨_, -, _, -, _, -, _, -, _, -, _, -, rfl⟩ := hm
  exact ⟨hcarry, rfl⟩

/-! ## Messages without sessions -/

theorem TPMCreate.drops {parentHandle keyBits : Int} {sessionHandle : IntOr TPM_RS}
    {hashAlg keyType : TPM_ALG} {objectAttributes : Option (Flags TPMA_OBJECT)}
    {rsaParameters : Option RsaParms} {keyedhashScheme : Option KeyedhashParms}
    {sensitiveData : Bytes} {c : TPMCreate} {msg : Proto.TPMCommand}
    (hc : TPMCreate.init parentHandle sessionHandle hashAlg keyType keyBits objectAttributes
      rsaParameters keyedhashScheme sensitiveData = .ok c)
    (hm : c.toProto = .ok msg) : Drops 1 (singleArea sessionHandle.toInt) c.toTPMCommand msg := by
  simp only [TPMCreate.init, bind_eq_ok, toBytes_eq_ok, pure_eq_ok, Except.ok.injEq] at hc
  obtain ⟨_, ⟨h, -, -, rfl⟩, area, harea, sens, -, pub, -, data, -, pcrs, -, rfl⟩ := hc
  simp only [TPMCreate.toProto, bind_eq_ok, pure_eq_ok, Except.ok.injEq] at hm
  obtain ⟨_, -, _, -, _, -, _, -, _, -, _, -, rfl⟩ := hm
  exact ⟨carriesArea_single h (sens ++ (pub ++ (data ++ pcrs))) harea (by simp), rfl⟩

theorem TPMGetRandom.drops {reqBytes : Int} {st : TPM_ST} {auth : AuthArea} {c : TPMGetRandom}
    {msg : Proto.TPMCommand} (hc : TPMGetRandom.init reqBytes st (some auth) = .ok c)
    (hm : c.toProto = .ok msg) : Drops 0 auth c.toTPMCommand msg := by
  simp only [TPMGetRandom.init, bind_eq_ok, pure_eq_ok, Except.ok.injEq] at hc
  obtain ⟨area, harea, req, -, rfl⟩ := hc
  simp only [TPMGetRandom.toProto, bind_eq_ok, pure_eq_ok, Except.ok.injEq] at hm
  obtain ⟨_, -, _, -, rfl⟩ := hm
  exact ⟨⟨[], area, req, rfl, rfl, harea⟩, rfl⟩

/-! ## Every class -/

/-- A constructor call of one of the eleven classes, with its arguments. -/
inductive AuthorizedCommand where
  | clear (authHandle : IntOr TPM_RH) (sessionHandle : IntOr TPM_RS)
  | setPrimaryPolicy (authHandle : IntOr TPM_RH) (authPolicy : Bytes) (hashAlg : IntOr TPM_ALG)
      (sessionHandle : IntOr TPM_RS)
  | create (parentHandle : Int) (sessionHandle : IntOr TPM_RS) (hashAlg keyType : TPM_ALG)
      (keyBits : Int) (objectAttributes : Option (Flags TPMA_OBJECT))
      (rsaParameters : Option RsaParms) (keyedhashScheme : Option KeyedhashParms)
      (sensitiveData : Bytes)
  | createPrimary (sessionHandle : IntOr TPM_RS) (hashAlg : TPM_ALG) (keyBits : Int)
      (primaryHandle : IntOr TPM_RH) (publicTemplate : Option Tpm2bPublic)
  | getRandom (reqBytes : Int) (auth : AuthArea)
  | rsaDecrypt (keyHandle : Int) (cipherText : Bytes) (inScheme : RsaDecrypt) (label : Bytes)
      (sessionHandle : IntOr TPM_RS)
  | pcrAllocate (pcrAllocation : PcrSelectionList) (authHandle : IntOr TPM_RH)
      (sessionHandle : IntOr TPM_RS)
  | nvDefineSpace (nvIndex : Int) (attributes : Flags TPMA_NV) (sessionHandle : Int)
      (hierarchy : TPM_RH) (dataSize : Int)
  | load (parentHandle : Int) (inPrivate inPublic : Bytes) (sessionHandle : IntOr TPM_RS)
  | pcrEvent (pcrHandle : Int) (eventData : Bytes) (sessionHandle : Int)
  | pcrSetAuthPolicy (authHandle : Int) (authPolicy : Bytes) (hashAlg : IntOr TPM_ALG)
      (pcrNum : Int) (sessionHandle : Int)

namespace AuthorizedCommand

open SeedCommand (both both_eq_ok)

/-- The object and its `to_proto()`. -/
def seeds : AuthorizedCommand → Result (TPMCommand × Proto.TPMCommand)
  | .clear a s => both TPMClear.toTPMCommand TPMClear.toProto (TPMClear.init a s)
  | .setPrimaryPolicy a p h s =>
    both TPMSetPrimaryPolicy.toTPMCommand TPMSetPrimaryPolicy.toProto
      (TPMSetPrimaryPolicy.init a p h s)
  | .create p s h t k a r kh d =>
    both TPMCreate.toTPMCommand TPMCreate.toProto (TPMCreate.init p s h t k a r kh d)
  | .createPrimary s h k p t =>
    both TPMCreatePrimary.toTPMCommand TPMCreatePrimary.toProto (TPMCreatePrimary.init s h k p t)
  | .getRandom n a =>
    both TPMGetRandom.toTPMCommand TPMGetRandom.toProto
      (TPMGetRandom.init n .TPM_ST_SESSIONS (some a))
  | .rsaDecrypt k t sch l s =>
    both TPMRSADecrypt.toTPMCommand TPMRSADecrypt.toProto (TPMRSADecrypt.init k t sch l s)
  | .pcrAllocate l a s =>
    both TPMPCRAllocate.toTPMCommand TPMPCRAllocate.toProto (TPMPCRAllocate.init l a s)
  | .nvDefineSpace i attrs s h d =>
    both TPMNVDefineSpace.toTPMCommand TPMNVDefineSpace.toProto
      (TPMNVDefineSpace.init i attrs s h d)
  | .load p priv pub s => both TPMLoad.toTPMCommand TPMLoad.toProto (TPMLoad.init p priv pub s)
  | .pcrEvent h d s => both TPMPCREvent.toTPMCommand TPMPCREvent.toProto (TPMPCREvent.init h d s)
  | .pcrSetAuthPolicy a p h n s =>
    both TPMPCRSetAuthPolicy.toTPMCommand TPMPCRSetAuthPolicy.toProto
      (TPMPCRSetAuthPolicy.init a p h n s)

/-- The handles in front of the area. -/
def handleCount : AuthorizedCommand → Nat
  | .getRandom .. => 0
  | _ => 1

/-- Not a Create, and not a GetRandom with entries. -/
def KeepsArea : AuthorizedCommand → Prop
  | .create .. => False
  | .getRandom _ auth => auth.commands = []
  | _ => True

end AuthorizedCommand

open AuthorizedCommand SeedCommand

/-- The message has the sessions of the byte form, except where the class has no place for them. -/
theorem sessions_kept_iff {s : AuthorizedCommand} {c : TPMCommand} {msg : Proto.TPMCommand}
    {b : Bytes} (hs : s.seeds = .ok (c, msg)) (hb : c.bytes = .ok b) :
    (sessionsOf msg).flatMap Proto.TPMSession.encode = authEntries s.handleCount b ↔
      s.KeepsArea := by
  cases s with
  | clear =>
    obtain ⟨c, hc, hm, rfl⟩ := both_eq_ok hs
    exact iff_of_true ((TPMClear.keeps hc hm).encode hb) trivial
  | setPrimaryPolicy =>
    obtain ⟨c, hc, hm, rfl⟩ := both_eq_ok hs
    exact iff_of_true ((TPMSetPrimaryPolicy.keeps hc hm).encode hb) trivial
  | create =>
    obtain ⟨c, hc, hm, rfl⟩ := both_eq_ok hs
    exact ((TPMCreate.drops hc hm).encode_iff hb).trans (iff_of_false nofun id)
  | createPrimary =>
    obtain ⟨c, hc, hm, rfl⟩ := both_eq_ok hs
    exact iff_of_true ((TPMCreatePrimary.keeps hc hm).encode hb) trivial
  | getRandom =>
    obtain ⟨c, hc, hm, rfl⟩ := both_eq_ok hs
    exact (TPMGetRandom.drops hc hm).encode_iff hb
  | rsaDecrypt =>
    obtain ⟨c, hc, hm, rfl⟩ := both_eq_ok hs
    exact iff_of_true ((TPMRSADecrypt.keeps hc hm).encode hb) trivial
  | pcrAllocate =>
    obtain ⟨c, hc, hm, rfl⟩ := both_eq_ok hs
    exact iff_of_true ((TPMPCRAllocate.keeps hc hm).encode hb) trivial
  | nvDefineSpace =>
    obtain ⟨c, hc, hm, rfl⟩ := both_eq_ok hs
    exact iff_of_true ((TPMNVDefineSpace.keeps hc hm).encode hb) trivial
  | load =>
    obtain ⟨c, hc, hm, rfl⟩ := both_eq_ok hs
    exact iff_of_true ((TPMLoad.keeps hc hm).encode hb) trivial
  | pcrEvent =>
    obtain ⟨c, hc, hm, rfl⟩ := both_eq_ok hs
    exact iff_of_true ((TPMPCREvent.keeps hc hm).encode hb) trivial
  | pcrSetAuthPolicy =>
    obtain ⟨c, hc, hm, rfl⟩ := both_eq_ok hs
    exact iff_of_true ((TPMPCRSetAuthPolicy.keeps hc hm).encode hb) trivial

/-- The Create of the Load seeds: an HMAC key with SHA256 under the storage key. -/
def hmacKeyCreate : AuthorizedCommand :=
  .create 0x80000000 (.enum .PW) .SHA256 .KEYEDHASH 2048
    (some (.flags [.FIXEDTPM, .FIXEDPARENT, .SENSITIVEDATAORIGIN, .USERWITHAUTH, .NODA,
      .SIGN_ENCRYPT, .RESTRICTED]))
    none (some { scheme := .enum .HMAC, hashAlg := some (.enum .SHA256) }) []

def hmacKeyCommand : TPMCommand where
  tag := TPM_ST_SESSIONS
  cc := TPM_CC_CREATE
  params :=
    [128, 0, 0, 0, 0, 0, 0, 9, 64, 0, 0, 9, 0, 0, 0, 0, 0, 0, 4, 0, 0, 0, 0, 0, 16, 0, 8, 0, 11, 0,
      5, 4, 114, 0, 0, 0, 5, 0, 11, 0, 0, 0, 0, 0, 0, 0, 0]

/-- What is in the seed. -/
def hmacKeyMessage : Proto.TPMCommand :=
  .create
    { header := some { tag := 0x8002, commandSize := 57, commandCode := 0x153 }
      parentHandle := 0x80000000
      inSensitive := some { size := 4, sensitive := some { userAuth := some {}, data := some {} } }
      inPublic := some (publicMessage 16 8 0xB 0x50472 []
        (.keyedhash { scheme := 5 }) (.keyedhash { size := 2, buffer := [0, 0] }))
      outsideInfo := some {}
      creationPcr := some {} }

deriving instance DecidableEq for TPMCommand

/-- The password entry is in the bytes and not in the message. -/
theorem hmacKeyCreate_drops :
    hmacKeyCreate.seeds = .ok (hmacKeyCommand, hmacKeyMessage) ∧
      hmacKeyCommand.bytes = .ok (be 2 0x8002 ++ be 4 57 ++ be 4 0x153 ++ hmacKeyCommand.params) ∧
      authEntries 1 (be 2 0x8002 ++ be 4 57 ++ be 4 0x153 ++ hmacKeyCommand.params) =
        [64, 0, 0, 9, 0, 0, 0, 0, 0] ∧
      sessionsOf hmacKeyMessage = [] ∧
      (sessionsOf hmacKeyMessage).flatMap Proto.TPMSession.encode ≠
        authEntries 1 (be 2 0x8002 ++ be 4 57 ++ be 4 0x153 ++ hmacKeyCommand.params) :=
  ⟨by decide +kernel, by decide +kernel, by decide +kernel, by decide +kernel, by decide +kernel⟩

/-- The Clear of the seeds. -/
theorem clear_keeps :
    ∃ c msg b, (AuthorizedCommand.clear (.enum .LOCKOUT) (.enum .PW)).seeds = .ok (c, msg) ∧
      c.bytes = .ok b ∧ (sessionsOf msg).flatMap Proto.TPMSession.encode = authEntries 1 b :=
  ⟨_, _, _, rfl, rfl,
    (sessions_kept_iff (s := .clear (.enum .LOCKOUT) (.enum .PW)) rfl rfl).mpr trivial⟩

end Python
