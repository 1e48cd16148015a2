import TpmFuzzer.Python.RoundTrip

/-!
# The two seeds of a command are the same command

`Agrees mu c msg`: the marshaller makes of the message `msg` exactly `bytes(c)`.  The message of
`to_proto()` has it for every command of the twelve classes whose payloads fit the wire types
(`SeedCommand.agrees`).

Each class goes the same way: what its constructor accepted, what `to_proto()` returned, and the
fields of the message encoded one behind the other as `params` (`agrees_of_encode`).
-/

namespace Python

open Py Bytes Tpm Writer
open Proto (kMaxBuffer marshalCommand Field)

def Agrees (mu : Tss2Mu) (c : TPMCommand) (msg : Proto.TPMCommand) : Prop :=
  ∃ b, c.bytes = .ok b ∧ marshalCommand mu msg = some b

variable {mu : Tss2Mu}

/-! ## The header -/

theorem protoHeader_of_lt {c : TPMCommand} (tag cc : Nat) (htag : c.tag = tag) (hcc : c.cc = cc)
    (ht : tag < 2 ^ 31) (hc : cc < 2 ^ 31) (hsize : c.commandSize < 2 ^ 32) :
    c.protoHeader = .ok { tag := UInt32.ofNat tag, commandSize := UInt32.ofNat c.commandSize
                          commandCode := UInt32.ofNat cc } := by
  rw [TPMCommand.protoHeader, htag, hcc, pbEnum_nat ht, pbUint32_nat hsize, pbEnum_nat hc]
  rfl

theorem protoHeader_eq_ok {c : TPMCommand} {header : Proto.TPMHeader} {tag cc : Nat}
    (h : c.protoHeader = .ok header) (htag : c.tag = tag) (hcc : c.cc = cc) :
    header.tag = UInt32.ofNat tag ∧ header.commandCode = UInt32.ofNat cc := by
  simp only [TPMCommand.protoHeader, htag, hcc, bind_eq_ok, pure_eq_ok, Except.ok.injEq] at h
  obtain ⟨t, ht, size, -, code, hcode, rfl⟩ := h
  exact ⟨(pbEnum_nat_eq_ok ht).2, (pbEnum_nat_eq_ok hcode).2⟩

/-- A message with the tag and the code of `c` is the command if and only if its other fields encode
to the parameters: the size it carries is put in afterwards. -/
theorem agrees_iff (tag cc : Nat) {c : TPMCommand} {msg : Proto.TPMCommand}
    {header : Proto.TPMHeader} {fs : List Field} {x : Bytes} (htag : c.tag = tag) (hcc : c.cc = cc)
    (ht : tag < 2 ^ 16) (hc : cc < 2 ^ 32) (hht : header.tag = UInt32.ofNat tag)
    (hhc : header.commandCode = UInt32.ofNat cc)
    (hfields : msg.fields = some (.header (some header) :: fs))
    (henc : joinAll (Field.encode mu.privateSize) fs = some x) (hx : x.length ≤ 1048566)
    (hfit : c.params.length ≤ 1048566) : Agrees mu c msg ↔ x = c.params := by
  have hk : kMaxBuffer = 1048576 := rfl
  have hsize : c.commandSize = 10 + c.params.length := rfl
  have hbytes :
      c.bytes = .ok (be 2 tag ++ (be 4 (10 + c.params.length) ++ (be 4 cc ++ c.params))) := by
    rw [TPMCommand.bytes, htag, hcc, show TPMCommand.ST_LEN = 2 from rfl,
      show TPMCommand.SIZE_LEN = 4 from rfl, show TPMCommand.CC_LEN = 4 from rfl, toBytes_nat ht,
      toBytes_nat (show c.commandSize < 256 ^ 4 by omega), toBytes_nat hc, hsize]
    simp
  have hmarshal : marshalCommand mu msg =
      some (be 2 tag ++ (be 4 (10 + x.length) ++ (be 4 cc ++ x))) := by
    -- the message encodes with the size the header had
    have hmsg : msg.encode mu.privateSize =
        some (be 2 tag ++ (write32 header.commandSize ++ (be 4 cc ++ x))) := by
      rw [Proto.TPMCommand.encode, hfields, Option.bind_some, joinAll, henc]
      show some (Proto.TPMHeader.encode _ ++ x) = _
      simp only [Proto.TPMHeader.encode, Option.getD_some]
      rw [hht, hhc, write16_alg ht, write32_ofNat hc]
      simp
    have hlen : (be 2 tag ++ (write32 header.commandSize ++ (be 4 cc ++ x))).length =
        10 + x.length := by
      simp only [List.length_append, length_be, length_write32]
      omega
    rw [Proto.marshalCommand_eq, hmsg, Option.bind_some, if_pos (by omega), Proto.withSize, hlen,
      write32_ofNat (by omega), poke_append (length_be 2 tag) (by simp)]
  constructor
  · rintro ⟨b, hb, hm⟩
    rw [hbytes] at hb
    rw [hmarshal] at hm
    cases hb
    have h := Option.some.inj hm
    simp only [List.append_cancel_left_eq] at h
    have h4 := List.append_inj h (by simp)
    exact List.append_cancel_left h4.2
  · rintro rfl
    exact ⟨_, hbytes, hmarshal⟩

/-- A message that starts with the header of `c` and goes on with fields that encode to its
parameters. -/
theorem agrees_of_encode (tag cc : Nat) {c : TPMCommand} {msg : Proto.TPMCommand}
    {header : Proto.TPMHeader} {fs : List Field} (htag : c.tag = tag) (hcc : c.cc = cc)
    (ht : tag < 2 ^ 16) (hc : cc < 2 ^ 32) (hheader : c.protoHeader = .ok header)
    (hfields : msg.fields = some (.header (some header) :: fs))
    (henc : joinAll (Field.encode mu.privateSize) fs = some c.params)
    (hfit : c.params.length ≤ 1048566) : Agrees mu c msg := by
  obtain ⟨hht, hhc⟩ := protoHeader_eq_ok hheader htag hcc
  exact (agrees_iff tag cc htag hcc ht hc hht hhc hfields henc hfit hfit).mpr rfl

/-! ## Sessions -/

theorem authAreaOf_eq_ok {handle : Int} {x : Bytes} (h : authAreaOf handle = .ok x) :
    ∃ k : Nat, handle = k ∧ k < 2 ^ 32 ∧ x.length = 13 := by
  obtain ⟨body, hbody, -, rfl⟩ := AuthArea.toBytes_eq_ok h
  obtain ⟨y, rest, hy, hrest, rfl⟩ := joinBytes_cons_eq_ok hbody
  cases hrest
  obtain ⟨k, attrs, hk, hlt, -, -, -, -, rfl⟩ := AuthCommand.toBytes_eq_ok hy
  exact ⟨k, hk, hlt, by simp⟩

theorem length_authAreaOf {handle : Int} {x : Bytes} (h : authAreaOf handle = .ok x) :
    x.length = 13 := by
  obtain ⟨-, -, -, hlen⟩ := authAreaOf_eq_ok h
  exact hlen

theorem encode_authAreaOf {handle : Int} {x : Bytes} (h : authAreaOf handle = .ok x) :
    Proto.authArea [AuthCommand.session { sessionHandle := handle }] = x := by
  have harea := authArea_sessions h
  exact harea

theorem protoSessionOf_area {handle : Int} {x : Bytes} {session : Proto.TPMSession}
    (h : authAreaOf handle = .ok x) (hs : protoSessionOf handle = .ok session) :
    Proto.authArea [session] = x ∧ x.length = 13 := by
  have harea := authArea_sessions h
  obtain ⟨k, rfl, hlt, hlen⟩ := authAreaOf_eq_ok h
  rw [protoSessionOf, pbUint32_nat hlt] at hs
  cases hs
  exact ⟨harea, hlen⟩

/-! ## The classes -/

theorem TPMClear.agrees {authHandle : IntOr TPM_RH} {sessionHandle : IntOr TPM_RS} {c : TPMClear}
    {msg : Proto.TPMCommand} (hc : TPMClear.init authHandle sessionHandle = .ok c)
    (hm : c.toProto = .ok msg) : Agrees mu c.toTPMCommand msg := by
  simp only [TPMClear.init, bind_eq_ok, toBytes_eq_ok, pure_eq_ok, Except.ok.injEq] at hc
  obtain ⟨_, ⟨h, hh, hlt, rfl⟩, area, harea, rfl⟩ := hc
  simp only [TPMClear.toProto, bind_eq_ok, pure_eq_ok, Except.ok.injEq] at hm
  obtain ⟨session, hs, header, hheader, ah, hah, rfl⟩ := hm
  rw [hh, pbUint32_nat hlt] at hah
  cases hah
  obtain ⟨hsession, hlen⟩ := protoSessionOf_area harea hs
  refine agrees_of_encode 0x8002 0x126 rfl rfl (by decide) (by decide) hheader rfl ?_ ?_
  · simp [joinAll, Proto.encode_word, write32_ofNat hlt, hsession]
  · simp only [List.length_append, length_be]
    omega

theorem protoSized_buffer {b : Bytes} {m : Proto.SizedBuffer} (h : protoSized b = .ok m) :
    m.buffer = b := by
  simp only [protoSized, bind_eq_ok, pure_eq_ok, Except.ok.injEq] at h
  obtain ⟨size, -, rfl⟩ := h
  rfl

theorem TPMSetPrimaryPolicy.agrees {authHandle : IntOr TPM_RH} {authPolicy : Bytes}
    {hashAlg : IntOr TPM_ALG} {sessionHandle : IntOr TPM_RS} {c : TPMSetPrimaryPolicy}
    {msg : Proto.TPMCommand}
    (hc : TPMSetPrimaryPolicy.init authHandle authPolicy hashAlg sessionHandle = .ok c)
    (hm : c.toProto = .ok msg) : Agrees mu c.toTPMCommand msg := by
  simp only [TPMSetPrimaryPolicy.init, bind_eq_ok, toBytes_eq_ok, sized_eq_ok, pure_eq_ok,
    Except.ok.injEq] at hc
  obtain ⟨area, harea, _, ⟨hpl, rfl⟩, _, ⟨h, hh, hlt, rfl⟩, _, ⟨a, ha, halt, rfl⟩, session, hs,
    header, hheader, ah, hah, policy, hpolicy, alg, halg, rfl⟩ := hc
  cases hm
  rw [hh] at hah
  rw [ha] at halg
  obtain ⟨-, rfl⟩ := pbEnum_nat_eq_ok hah
  obtain ⟨-, rfl⟩ := pbEnum_nat_eq_ok halg
  obtain ⟨hsession, hlen⟩ := protoSessionOf_area harea hs
  have hbuf := protoSized_buffer hpolicy
  refine agrees_of_encode 0x8002 0x12E rfl rfl (by decide) (by decide) hheader rfl ?_ ?_
  · rw [← hbuf] at hpl
    simp [joinAll, Proto.encode_digest _ _ (some policy) hpl, write32_ofNat hlt, hsession,
      write16_ofNat halt, hbuf, tpm2b_eq_be (hbuf ▸ hpl)]
  · simp only [List.length_append, length_be]
    omega

theorem TPMGetRandom.agrees {reqBytes : Int} {st : TPM_ST} {c : TPMGetRandom}
    {msg : Proto.TPMCommand} (hc : TPMGetRandom.init reqBytes st none = .ok c)
    (hm : c.toProto = .ok msg) :
    Agrees mu c.toTPMCommand msg := by
  simp only [TPMGetRandom.init, bind_eq_ok, toBytes_eq_ok, pure_eq_ok, Except.ok.injEq] at hc
  obtain ⟨_, ⟨n, rfl, hlt, rfl⟩, rfl⟩ := hc
  simp only [TPMGetRandom.toProto, bind_eq_ok, pure_eq_ok, Except.ok.injEq] at hm
  obtain ⟨header, hheader, req, hreq, rfl⟩ := hm
  -- the last two bytes are all the parameters there are
  have hlast : fromBytes ((be 2 n).drop ((be 2 n).length - 2)) = n := by
    rw [length_be]
    exact fromBytes_be hlt
  rw [hlast, pbUint32_nat (by omega)] at hreq
  cases hreq
  have hn : (UInt32.ofNat n).toNat = n := UInt32.toNat_ofNat_of_lt' (show n < 2 ^ 32 by omega)
  refine agrees_of_encode (PyEnum.value st) 0x17B rfl rfl (by cases st <;> decide)
    (by decide) hheader rfl ?_ (by simp)
  show joinAll _ [Field.word "bytes_requested" (UInt32.ofNat n)] = some (be 2 n)
  have henc : (Field.word "bytes_requested" (UInt32.ofNat n)).encode mu.privateSize =
      some (be 2 n) := by
    show (if (UInt32.ofNat n).toNat > 65535 then none
      else some (write16 (UInt32.ofNat n).toUInt16)) = _
    rw [hn, if_neg (by omega), write16_alg hlt]
  simp [joinAll, henc]

/-! ### RSA -/

/-- Scheme NULL, RSAES, or anything else without its hash; OAEP together with one. -/
def RsaDecrypt.Fits (s : RsaDecrypt) : Prop :=
  algToInt s.scheme = PyEnum.value TPM_ALG.OAEP → s.hashAlg.isSome

theorem protoRsaDecrypt_encode {s : RsaDecrypt} {x : Bytes} {m : Proto.TPMTRSADecrypt} (hs : s.Fits)
    (hx : s.toBytes = .ok x) (hm : protoRsaDecrypt s = .ok m) : m.encode = x ∧ x.length ≤ 4 := by
  obtain ⟨scheme, hashAlg⟩ := s
  simp only [protoRsaDecrypt, bind_eq_ok, pure_eq_ok, Except.ok.injEq] at hm
  obtain ⟨sv, hsv, hv, hhv, rfl⟩ := hm
  simp only [RsaDecrypt.toBytes, bind_eq_ok, toBytes_eq_ok] at hx
  obtain ⟨_, ⟨k, hk, hklt, rfl⟩, hx⟩ := hx
  rw [show scheme.toInt = (k : Int) from hk] at hsv
  obtain ⟨-, rfl⟩ := pbEnum_nat_eq_ok hsv
  have hoaep : (UInt32.ofNat k).toUInt16 = TPM2_ALG_OAEP ↔ k = 0x17 := by
    rw [toUInt16_ofNat, ← UInt16.toNat_inj, UInt16.toNat_ofNat_of_lt' hklt]
    rfl
  have hcond : algToInt scheme = (PyEnum.value TPM_ALG.OAEP : Nat) ↔ k = 0x17 := by
    rw [show algToInt scheme = (k : Int) from hk]
    exact Int.ofNat_inj
  unfold Proto.TPMTRSADecrypt.encode
  dsimp only
  rw [write16_alg hklt]
  by_cases h17 : k = 0x17
  · -- OAEP: both sides write the hash
    have hsome := hs (hcond.mpr h17)
    obtain ⟨h, rfl⟩ := Option.isSome_iff_exists.mp hsome
    simp only [hcond.mpr h17, if_true, bind_eq_ok, toBytes_eq_ok, pure_eq_ok, Except.ok.injEq] at hx
    obtain ⟨_, ⟨j, hj, hjlt, rfl⟩, rfl⟩ := hx
    rw [Option.map_some, Option.getD_some, show h.toInt = (j : Int) from hj] at hhv
    obtain ⟨-, rfl⟩ := pbEnum_nat_eq_ok hhv
    rw [if_pos (hoaep.mpr h17), write16_alg hjlt]
    exact ⟨rfl, by simp⟩
  · -- anything else: neither does
    rw [if_neg (mt hoaep.mp h17), List.append_nil]
    cases hashAlg with
    | none =>
      cases hx
      exact ⟨rfl, by simp⟩
    | some h =>
      simp only [mt hcond.mp h17, if_false, pure_eq_ok, Except.ok.injEq] at hx
      cases hx
      exact ⟨rfl, by simp⟩

theorem TPMRSADecrypt.agrees {keyHandle : Int} {cipherText label : Bytes} {inScheme : RsaDecrypt}
    {sessionHandle : IntOr TPM_RS} {c : TPMRSADecrypt} {msg : Proto.TPMCommand}
    (hcipher : cipherText.length ≤ 512) (hlabel : label.length ≤ 66) (hscheme : inScheme.Fits)
    (hc : TPMRSADecrypt.init keyHandle cipherText inScheme label sessionHandle = .ok c)
    (hm : c.toProto = .ok msg) : Agrees mu c.toTPMCommand msg := by
  simp only [TPMRSADecrypt.init, bind_eq_ok, toBytes_eq_ok, sized_eq_ok, pure_eq_ok,
    Except.ok.injEq] at hc
  obtain ⟨_, ⟨-, rfl⟩, _, ⟨-, rfl⟩, _, ⟨h, rfl, hlt, rfl⟩, area, harea, scheme, hsb, rfl⟩ := hc
  simp only [TPMRSADecrypt.toProto, bind_eq_ok, pure_eq_ok, Except.ok.injEq] at hm
  obtain ⟨session, hs, header, hheader, kh, hkh, ct, hct, sch, hsch, lab, hlab, rfl⟩ := hm
  rw [pbUint32_nat hlt] at hkh
  cases hkh
  obtain ⟨hsession, hlen⟩ := protoSessionOf_area harea hs
  obtain ⟨hschenc, hschlen⟩ := protoRsaDecrypt_encode hscheme hsb hsch
  refine agrees_of_encode 0x8002 0x159 rfl rfl (by decide) (by decide) hheader rfl ?_ ?_
  · simp [joinAll, Proto.encode_word, write32_ofNat hlt, hsession, hschenc, protoSized_buffer hct,
      protoSized_buffer hlab, Proto.encode_fillTpm2b hcipher, Proto.encode_fillTpm2b hlabel]
  · simp only [List.length_append, length_be]
    omega

theorem TPMRSAEncrypt.agrees {keyHandle : Int} {message label : Bytes} {inScheme : RsaDecrypt}
    {c : TPMRSAEncrypt} {msg : Proto.TPMCommand} (hmessage : message.length ≤ 512)
    (hlabel : label.length ≤ 66) (hscheme : inScheme.Fits)
    (hc : TPMRSAEncrypt.init keyHandle message inScheme label = .ok c) (hm : c.toProto = .ok msg) :
    Agrees mu c.toTPMCommand msg := by
  simp only [TPMRSAEncrypt.init, bind_eq_ok, toBytes_eq_ok, sized_eq_ok, pure_eq_ok,
    Except.ok.injEq] at hc
  obtain ⟨_, ⟨-, rfl⟩, _, ⟨-, rfl⟩, _, ⟨h, rfl, hlt, rfl⟩, scheme, hsb, rfl⟩ := hc
  simp only [TPMRSAEncrypt.toProto, bind_eq_ok, pure_eq_ok, Except.ok.injEq] at hm
  obtain ⟨header, hheader, kh, hkh, m, hmsg, sch, hsch, lab, hlab, rfl⟩ := hm
  rw [pbUint32_nat hlt] at hkh
  cases hkh
  obtain ⟨hschenc, hschlen⟩ := protoRsaDecrypt_encode hscheme hsb hsch
  refine agrees_of_encode 0x8001 0x174 rfl rfl (by decide) (by decide) hheader rfl ?_ ?_
  · simp [joinAll, Proto.encode_word, write32_ofNat hlt, hschenc, protoSized_buffer hmsg,
      protoSized_buffer hlab, Proto.encode_fillTpm2b hmessage, Proto.encode_fillTpm2b hlabel]
  · simp only [List.length_append, length_be]
    omega

/-! ### PCR selections -/

theorem TPMPCRRead.agrees {pcrSelection : PcrSelectionList} {c : TPMPCRRead}
    {msg : Proto.TPMCommand} (hl : pcrSelection.Fits) (hc : TPMPCRRead.init pcrSelection = .ok c)
    (hm : c.toProto = .ok msg) :
    Agrees mu c.toTPMCommand msg := by
  simp only [TPMPCRRead.init, bind_eq_ok, pure_eq_ok, Except.ok.injEq] at hc
  obtain ⟨params, hparams, header, hheader, count, hcount, sels, hsels, rfl⟩ := hc
  cases hm
  obtain ⟨body, hbody, hlt, -⟩ := PcrSelectionList.toBytes_eq_ok hparams
  rw [pbUint32_nat hlt] at hcount
  rw [protoSelections_eq_ok hbody] at hsels
  cases hcount
  cases hsels
  have hlen := PcrSelectionList.length_toBytes_le hparams hl
  refine agrees_of_encode 0x8001 0x17E rfl rfl (by decide) (by decide) hheader rfl ?_
    (by simp only; omega)
  simpa [joinAll, PcrSelectionList.message] using PcrSelectionList.encode_message hparams hl

theorem TPMPCRAllocate.agrees {pcrAllocation : PcrSelectionList} {authHandle : IntOr TPM_RH}
    {sessionHandle : IntOr TPM_RS} {c : TPMPCRAllocate} {msg : Proto.TPMCommand}
    (hl : pcrAllocation.Fits)
    (hc : TPMPCRAllocate.init pcrAllocation authHandle sessionHandle = .ok c)
    (hm : c.toProto = .ok msg) : Agrees mu c.toTPMCommand msg := by
  simp only [TPMPCRAllocate.init, bind_eq_ok, toBytes_eq_ok, pure_eq_ok, Except.ok.injEq] at hc
  obtain ⟨_, ⟨h, hh, hlt, rfl⟩, area, harea, pcrs, hpcrs, rfl⟩ := hc
  simp only [TPMPCRAllocate.toProto, bind_eq_ok, pure_eq_ok, Except.ok.injEq] at hm
  obtain ⟨session, hs, header, hheader, ah, hah, pcrs', hpcrs', alloc, halloc, rfl⟩ := hm
  rw [hh] at hah
  obtain ⟨-, rfl⟩ := pbEnum_nat_eq_ok hah
  rw [hpcrs] at hpcrs'
  cases hpcrs'
  have hround := protoPcrSelection_toBytes [] hpcrs
  rw [List.append_nil, halloc] at hround
  cases hround
  obtain ⟨hsession, hlen⟩ := protoSessionOf_area harea hs
  have hplen := PcrSelectionList.length_toBytes_le hpcrs hl
  refine agrees_of_encode 0x8002 0x12B rfl rfl (by decide) (by decide) hheader rfl ?_ ?_
  · simp [joinAll, write32_ofNat hlt, hsession, PcrSelectionList.encode_message hpcrs hl]
  · simp only [List.length_append, length_be]
    omega

/-! ### The remaining classes that keep their arguments -/

theorem TPMMakeCredential.agrees {handle : Int} {credential objectName : Bytes}
    {c : TPMMakeCredential} {msg : Proto.TPMCommand} (hcred : credential.length ≤ 66)
    (hname : objectName.length ≤ 66)
    (hc : TPMMakeCredential.init handle credential objectName = .ok c) (hm : c.toProto = .ok msg) :
    Agrees mu c.toTPMCommand msg := by
  simp only [TPMMakeCredential.init, bind_eq_ok, toBytes_eq_ok, sized_eq_ok, pure_eq_ok,
    Except.ok.injEq] at hc
  obtain ⟨_, ⟨h, rfl, hlt, rfl⟩, _, ⟨-, rfl⟩, _, ⟨-, rfl⟩, rfl⟩ := hc
  simp only [TPMMakeCredential.toProto, bind_eq_ok, pure_eq_ok, Except.ok.injEq] at hm
  obtain ⟨header, hheader, hv, hhv, cred, hcr, name, hn, rfl⟩ := hm
  rw [pbUint32_nat hlt] at hhv
  cases hhv
  refine agrees_of_encode 0x8001 0x168 rfl rfl (by decide) (by decide) hheader rfl ?_ ?_
  · simp [joinAll, Proto.encode_word, write32_ofNat hlt, protoSized_buffer hcr,
      protoSized_buffer hn, Proto.encode_fillTpm2b hcred, Proto.encode_fillTpm2b hname]
  · simp only [List.length_append, length_be]
    omega

theorem TPMPCREvent.agrees {pcrHandle sessionHandle : Int} {eventData : Bytes} {c : TPMPCREvent}
    {msg : Proto.TPMCommand} (hevent : eventData.length ≤ 1024)
    (hc : TPMPCREvent.init pcrHandle eventData sessionHandle = .ok c) (hm : c.toProto = .ok msg) :
    Agrees mu c.toTPMCommand msg := by
  simp only [TPMPCREvent.init, bind_eq_ok, toBytes_eq_ok, sized_eq_ok, pure_eq_ok,
    Except.ok.injEq] at hc
  obtain ⟨area, harea, session, hs, _, ⟨-, rfl⟩, _, ⟨h, rfl, hlt, rfl⟩, header, hheader, ph, hph,
    event, hev, rfl⟩ := hc
  cases hm
  rw [pbUint32_nat hlt] at hph
  cases hph
  obtain ⟨hsession, hlen⟩ := protoSessionOf_area harea hs
  refine agrees_of_encode 0x8002 0x13C rfl rfl (by decide) (by decide) hheader rfl ?_ ?_
  · have henc : Field.encode mu.privateSize ⟨"eventData", .message (.tpm2bEvent event)⟩ =
        some (be 2 eventData.length ++ eventData) := by
      show some (Proto.fillTpm2b 1024 event.buffer).encode = _
      rw [protoSized_buffer hev, Proto.encode_fillTpm2b hevent (by decide)]
    simp [joinAll, Proto.encode_word, write32_ofNat hlt, hsession, henc]
  · simp only [List.length_append, length_be]
    omega

theorem TPMPCRSetAuthPolicy.agrees {authHandle pcrNum sessionHandle : Int} {authPolicy : Bytes}
    {hashAlg : IntOr TPM_ALG} {c : TPMPCRSetAuthPolicy} {msg : Proto.TPMCommand}
    (hc : TPMPCRSetAuthPolicy.init authHandle authPolicy hashAlg pcrNum sessionHandle = .ok c)
    (hm : c.toProto = .ok msg) : Agrees mu c.toTPMCommand msg := by
  simp only [TPMPCRSetAuthPolicy.init, bind_eq_ok, toBytes_eq_ok, sized_eq_ok, pure_eq_ok,
    Except.ok.injEq] at hc
  obtain ⟨area, harea, session, hs, _, ⟨hpl, rfl⟩, _, ⟨h, rfl, hlt, rfl⟩, _, ⟨a, ha, halt, rfl⟩, _,
    ⟨p, rfl, hplt, rfl⟩, header, hheader, ah, hah, policy, hpolicy, alg, halg, num, hnum, rfl⟩ := hc
  cases hm
  rw [pbUint32_nat hlt] at hah
  rw [pbUint32_nat hplt] at hnum
  rw [ha] at halg
  cases hah
  cases hnum
  obtain ⟨-, rfl⟩ := pbEnum_nat_eq_ok halg
  obtain ⟨hsession, hlen⟩ := protoSessionOf_area harea hs
  have hbuf := protoSized_buffer hpolicy
  refine agrees_of_encode 0x8002 0x12C rfl rfl (by decide) (by decide) hheader rfl ?_ ?_
  · rw [← hbuf] at hpl
    simp [joinAll, Proto.encode_word, Proto.encode_digest _ _ (some policy) hpl, write32_ofNat hlt,
      write32_ofNat hplt, hsession, write16_ofNat halt, hbuf, tpm2b_eq_be (hbuf ▸ hpl)]
  · simp only [List.length_append, length_be]
    omega

/-! ### The classes that parse their parameters -/

/-- AES with its key size and mode, or NULL without. -/
def SymDefObject.Fits (s : SymDefObject) : Prop :=
  algToInt s.algorithm = PyEnum.value TPM_ALG.AES ∨ algToInt s.algorithm = PyEnum.value TPM_ALG.NULL

theorem symDefOf_null (keyBits mode : UInt32) :
    (Proto.symDefOf { algorithm := UInt32.ofNat 0x10, keyBits := keyBits, mode := mode }).encode =
      be 2 0x10 := by
  have halg : Proto.orNull [TPM2_ALG_AES, TPM2_ALG_NULL] (UInt32.ofNat 0x10).toUInt16 =
      TPM2_ALG_NULL := by decide
  unfold Proto.symDefOf
  dsimp only
  rw [halg, if_neg (by simp)]
  decide

theorem symDefOf_aes {bits mode : Nat} (hb : bits < 2 ^ 16) (hm : mode < 2 ^ 16) :
    (Proto.symDefOf { algorithm := UInt32.ofNat 6, keyBits := UInt32.ofNat bits
                      mode := UInt32.ofNat mode }).encode =
      be 2 6 ++ (be 2 bits ++ be 2 mode) := by
  have halg : Proto.orNull [TPM2_ALG_AES, TPM2_ALG_NULL] (UInt32.ofNat 6).toUInt16 =
      TPM2_ALG_AES := by decide
  have hne : TPM2_ALG_AES ≠ TPM2_ALG_NULL := by decide
  unfold Proto.symDefOf TPMT_SYM_DEF.encode
  dsimp only
  rw [halg, if_pos hne]
  dsimp only
  rw [if_neg hne, write16_alg hb, write16_alg hm]
  rfl

/-- What `to_proto()` reads out of the parameters: with or without key size and mode, the auth hash
is what stands behind the symmetric definition. -/
theorem TPMStartAuthSession.toProto_eq_ok {key bnd st ah : Nat} {n p sym params : Bytes}
    {symmetric : SymDefObject} {msg : Proto.TPMCommand} (hkey : key < 2 ^ 32) (hbnd : bnd < 2 ^ 32)
    (hn : n.length < 2 ^ 16) (hp : p.length < 2 ^ 16) (hst : st < 256) (hah : ah < 2 ^ 16)
    (hsym : symmetric.Fits) (hsymb : symmetric.toBytes = .ok sym)
    (h0 : params.drop 0 = be 4 key ++ (be 4 bnd ++ (be 2 n.length ++ (n ++ (be 2 p.length ++
      (p ++ (UInt8.ofNat st :: (sym ++ (be 2 ah ++ [])))))))))
    (hm : TPMStartAuthSession.toProto ⟨⟨TPM_ST_NO_SESSIONS, TPM_CC_START_AUTH_SESSION, params⟩⟩ =
      .ok msg) :
    ∃ (header : Proto.TPMHeader) (nonce salt : Proto.TPM2BData) (m : Proto.TPMTSymDef),
      TPMCommand.protoHeader ⟨TPM_ST_NO_SESSIONS, TPM_CC_START_AUTH_SESSION, params⟩ = .ok header ∧
      protoSized n = .ok nonce ∧ protoSized p = .ok salt ∧ (Proto.symDefOf m).encode = sym ∧
      msg = .startauthsession
        { header := some header, tpmKey := UInt32.ofNat key, bind := UInt32.ofNat bnd
          nonce := some nonce, encryptedSalt := some salt, sessionType := UInt32.ofNat st
          symmetric := some m, authHash := UInt32.ofNat ah } := by
  have h4 := drop_of_drop (j := 4) h0 (by rw [length_be])
  have h8 := drop_of_drop (j := 8) h4 (by rw [length_be])
  have h10 := drop_of_drop (j := 10) h8 (by rw [length_be])
  have hns := drop_of_drop (j := 10 + n.length) h10 rfl
  have hss := drop_of_drop (j := 10 + n.length + 2) hns (by rw [length_be])
  have hse := drop_of_drop (j := 10 + n.length + 2 + p.length) hss rfl
  have hsy := drop_succ_of_drop hse
  simp only [TPMStartAuthSession.toProto] at hm
  rw [fromBytes_of_drop h0 rfl hkey, fromBytes_of_drop h4 rfl hbnd, fromBytes_of_drop h8 rfl hn,
    Py.slice_of_drop h10 rfl, fromBytes_of_drop hns rfl hp, Py.slice_of_drop hss rfl,
    index_of_drop hse, ok_bind, UInt8.toNat_ofNat_of_lt' hst] at hm
  obtain ⟨-, rfl⟩ | ⟨alg, bits, mode, hne, halg, -, -, hbits, -, hmode, rfl⟩ :=
    SymDefObject.toBytes_eq_ok hsymb
  · have hend := drop_of_drop (j := 10 + n.length + 2 + p.length + 3) hsy (by rw [length_be])
    have hnull : 0x10 = PyEnum.value TPM_ALG.NULL := rfl
    rw [fromBytes_of_drop hsy rfl (by decide)] at hm
    simp only [if_pos hnull] at hm
    rw [fromBytes_of_drop hend rfl hah] at hm
    simp only [bind_eq_ok, pure_eq_ok, Except.ok.injEq] at hm
    obtain ⟨header, hheader, _, hk, _, hb, nonce, hnonce, salt, hsalt, _, hst, _, ha, _, -, _, -, _,
      hah, rfl⟩ := hm
    rw [(pbEnum_nat_eq_ok hk).2, (pbEnum_nat_eq_ok hb).2, (pbName_eq_ok hst).2, (pbName_eq_ok ha).2,
      (pbName_eq_ok hah).2]
    exact ⟨header, nonce, salt, _, hheader, hnonce, hsalt, symDefOf_null _ _, rfl⟩
  · have hsix : alg = 6 := by
      obtain h | h := hsym
      · exact Int.ofNat_inj.mp (halg.symm.trans h)
      · exact absurd (Int.ofNat_inj.mp (halg.symm.trans h)) hne
    subst hsix
    rw [List.append_assoc, List.append_assoc] at hsy
    have hbitsAt := drop_of_drop (j := 10 + n.length + 2 + p.length + 3) hsy (by rw [length_be])
    have hmodeAt := drop_of_drop (j := 10 + n.length + 2 + p.length + 5) hbitsAt (by rw [length_be])
    have hend := drop_of_drop (j := 10 + n.length + 2 + p.length + 7) hmodeAt (by rw [length_be])
    have hnull : 6 ≠ PyEnum.value TPM_ALG.NULL := by decide
    rw [fromBytes_of_drop hsy rfl (by decide)] at hm
    simp only [if_neg hnull] at hm
    rw [fromBytes_of_drop hbitsAt rfl hbits, fromBytes_of_drop hmodeAt rfl hmode,
      fromBytes_of_drop hend rfl hah] at hm
    simp only [bind_eq_ok, pure_eq_ok, Except.ok.injEq] at hm
    obtain ⟨header, hheader, _, hk, _, hb, nonce, hnonce, salt, hsalt, _, hst, _, ha, _, hbv, _,
      hmv, _, hah, rfl⟩ := hm
    rw [pbUint32_nat (by omega)] at hbv
    cases hbv
    rw [(pbEnum_nat_eq_ok hk).2, (pbEnum_nat_eq_ok hb).2, (pbName_eq_ok hst).2, (pbName_eq_ok ha).2,
      (pbName_eq_ok hmv).2, (pbName_eq_ok hah).2]
    exact ⟨header, nonce, salt, _, hheader, hnonce, hsalt, symDefOf_aes hbits hmode, rfl⟩

theorem TPMStartAuthSession.agrees {tpmKey bind : IntOr TPM_RH} {nonce salt : Option Bytes}
    {sessionType : Int} {symmetric : SymDefObject} {authHash : TPM_ALG} {c : TPMStartAuthSession}
    {msg : Proto.TPMCommand} (hnonce : (nonce.getD defaultNonce).length ≤ 66)
    (hsalt : ∃ p : Bytes, salt.getD [0, 0] = be 2 p.length ++ p ∧ p.length ≤ 66)
    (hsym : symmetric.Fits)
    (hc : TPMStartAuthSession.init tpmKey bind nonce salt sessionType symmetric authHash = .ok c)
    (hm : c.toProto = .ok msg) : Agrees mu c.toTPMCommand msg := by
  obtain ⟨p, hp, hplt⟩ := hsalt
  simp only [TPMStartAuthSession.init, bind_eq_ok, toBytes_eq_ok, sized_eq_ok, pure_eq_ok,
    Except.ok.injEq, hp] at hc
  generalize nonce.getD defaultNonce = n at *
  obtain ⟨_, ⟨key, -, hkey, rfl⟩, _, ⟨bnd, -, hbnd, rfl⟩, _, ⟨hn, rfl⟩, _, ⟨st, -, hst, rfl⟩, sym,
    hsymb, _, ⟨ah, hah, hahlt, rfl⟩, rfl⟩ := hc
  rw [be_one hst] at hm ⊢
  generalize hparams : be 4 key ++ be 4 bnd ++ (be 2 n.length ++ n) ++ (be 2 p.length ++ p) ++
    [UInt8.ofNat st] ++ sym ++ be 2 ah = params at hm ⊢
  obtain ⟨header, nonce, salt, m, hheader, hnb, hsb, henc, rfl⟩ :=
    TPMStartAuthSession.toProto_eq_ok (p := p) hkey hbnd hn (by omega) hst hahlt hsym hsymb
      (by rw [← hparams]; simp) hm
  have hsymlen : sym.length ≤ 6 := by
    rw [← henc]
    exact TPMT_SYM_DEF.length_encode_le _
  refine agrees_of_encode 0x8001 0x176 rfl rfl (by decide) (by decide) hheader rfl ?_ ?_
  · have hst8 : Field.encode mu.privateSize ⟨"session_type", .enum .tpmse (UInt32.ofNat st)⟩ =
        some [UInt8.ofNat st] := by
      show some [(UInt32.ofNat st).toUInt8] = _
      simp
    have hdef : Field.encode mu.privateSize ⟨"symmetric", .message (.tpmtSymDef m)⟩ = some sym :=
      congrArg some henc
    rw [← hparams]
    simp [joinAll, write32_ofNat hkey, write32_ofNat hbnd, protoSized_buffer hnb,
      protoSized_buffer hsb, Proto.encode_fillTpm2b hnonce, Proto.encode_fillTpm2b hplt, hst8, hdef,
      write16_ofNat hahlt]
  · rw [← hparams]
    simp only [List.length_append, length_be, List.length_cons, List.length_nil]
    omega

theorem TPMNVDefineSpace.agrees {nvIndex sessionHandle dataSize : Int} {attributes : Flags TPMA_NV}
    {hierarchy : TPM_RH} {c : TPMNVDefineSpace} {msg : Proto.TPMCommand}
    (hc : TPMNVDefineSpace.init nvIndex attributes sessionHandle hierarchy dataSize = .ok c)
    (hm : c.toProto = .ok msg) : Agrees mu c.toTPMCommand msg := by
  simp only [TPMNVDefineSpace.init, Tpm2bData.toBytes, Tpm2bNvPublic.toBytes, bind_eq_ok,
    toBytes_eq_ok, sized_eq_ok, pure_eq_ok, Except.ok.injEq] at hc
  obtain ⟨_, ⟨h, -, hlt, rfl⟩, area, harea, _, ⟨-, rfl⟩, _, ⟨inner, hinner, hinlt, rfl⟩, rfl⟩ := hc
  generalize hparams : be 4 h ++ area ++ (be 2 ([] : Bytes).length ++ []) ++
    (be 2 inner.length ++ inner) = params at hm ⊢
  have h0 : params.drop 0 = be 4 h ++ (area ++ ((be 2 ([] : Bytes).length ++ []) ++
      ((be 2 inner.length ++ inner) ++ []))) := by
    rw [← hparams]
    simp
  have h4 := drop_of_drop (j := 4) h0 (by rw [length_be])
  have hauth := drop_of_drop (j := 4 + area.length) h4 rfl
  have hnv := drop_of_drop (j := 4 + area.length + 2 + ([] : Bytes).length) hauth
    (by simp [Nat.add_assoc])
  simp only [TPMNVDefineSpace.toProto] at hm
  have htag : TPM_ST_SESSIONS ≠ TPM_ST_NO_SESSIONS := by decide
  rw [fromBytes_of_drop h0 rfl hlt, parseSessions_of_drop htag harea h4, ok_bind] at hm
  dsimp only at hm
  rw [parseTpm2b_of_drop (by simp) hauth] at hm
  dsimp only at hm
  rw [parseTpm2b_of_drop hinlt hnv, List.drop_left' (length_be 2 _),
    List.drop_left' (length_be 2 _)] at hm
  simp only [bind_eq_ok, pure_eq_ok, Except.ok.injEq] at hm
  obtain ⟨header, hheader, ah, hah, auth, hauthv, nv, hnvp, rfl⟩ := hm
  rw [pbUint32_nat hlt] at hah
  cases hah
  have hnvenc := nvPublicOf_toBytes hinner hnvp (Nat.zero_le _)
  have hsessions := authArea_sessions harea
  have hlen := length_authAreaOf harea
  have hnvlen : inner.length = 14 := by
    obtain ⟨index, name, attrs, size, -, -, -, -, -, rfl⟩ := NvPublic.toBytes_eq_ok hinner
    simp
  refine agrees_of_encode 0x8002 0x12A rfl rfl (by decide) (by decide) hheader rfl ?_ ?_
  · have hnvfield : Field.encode mu.privateSize ⟨"nv_public", .message (.tpmNvPublic nv)⟩ =
        some (be 2 inner.length ++ inner) := by
      show some (tpm2b (Proto.nvPublicOf nv).encode) = _
      rw [hnvenc, tpm2b_eq_be hinlt]
    rw [← hparams]
    simp [joinAll, Proto.encode_word, write32_ofNat hlt, protoSized_buffer hauthv,
      Proto.encode_fillTpm2b, hnvfield]
    exact hsessions
  · rw [← hparams]
    simp only [List.length_append, length_be, List.length_nil]
    omega

/-! ## Every seed -/

/-- A constructor call of one of the twelve classes, with its arguments. -/
inductive SeedCommand where
  | clear (authHandle : IntOr TPM_RH) (sessionHandle : IntOr TPM_RS)
  | setPrimaryPolicy (authHandle : IntOr TPM_RH) (authPolicy : Bytes) (hashAlg : IntOr TPM_ALG)
      (sessionHandle : IntOr TPM_RS)
  | startAuthSession (tpmKey bind : IntOr TPM_RH) (nonce salt : Option Bytes) (sessionType : Int)
      (symmetric : SymDefObject) (authHash : TPM_ALG)
  | getRandom (reqBytes : Int) (st : TPM_ST)
  | rsaDecrypt (keyHandle : Int) (cipherText : Bytes) (inScheme : RsaDecrypt) (label : Bytes)
      (sessionHandle : IntOr TPM_RS)
  | rsaEncrypt (keyHandle : Int) (message : Bytes) (inScheme : RsaDecrypt) (label : Bytes)
  | pcrRead (pcrSelection : PcrSelectionList)
  | pcrAllocate (pcrAllocation : PcrSelectionList) (authHandle : IntOr TPM_RH)
      (sessionHandle : IntOr TPM_RS)
  | nvDefineSpace (nvIndex : Int) (attributes : Flags TPMA_NV) (sessionHandle : Int)
      (hierarchy : TPM_RH) (dataSize : Int)
  | makeCredential (handle : Int) (credential objectName : Bytes)
  | pcrEvent (pcrHandle : Int) (eventData : Bytes) (sessionHandle : Int)
  | pcrSetAuthPolicy (authHandle : Int) (authPolicy : Bytes) (hashAlg : IntOr TPM_ALG)
      (pcrNum : Int) (sessionHandle : Int)

namespace SeedCommand

/-- The object that `init` makes and its `to_proto()`. -/
def both {C : Type} (toCommand : C → TPMCommand) (toProto : C → Result Proto.TPMCommand)
    (init : Result C) : Result (TPMCommand × Proto.TPMCommand) := do
  let c ← init
  let msg ← toProto c
  return (toCommand c, msg)

theorem both_eq_ok {C : Type} {toCommand : C → TPMCommand} {toProto : C → Result Proto.TPMCommand}
    {init : Result C} {command : TPMCommand} {msg : Proto.TPMCommand}
    (h : both toCommand toProto init = .ok (command, msg)) :
    ∃ c, init = .ok c ∧ toProto c = .ok msg ∧ toCommand c = command := by
  simp only [both, bind_eq_ok, pure_eq_ok, Except.ok.injEq, Prod.mk.injEq] at h
  obtain ⟨c, hc, _, hm, rfl, rfl⟩ := h
  exact ⟨c, hc, hm, rfl⟩

/-- The object, which is the bytearray seed, and its `to_proto()`, which is the proto seed. -/
def seeds : SeedCommand → Result (TPMCommand × Proto.TPMCommand)
  | .clear a s => both TPMClear.toTPMCommand TPMClear.toProto (TPMClear.init a s)
  | .setPrimaryPolicy a p h s =>
    both TPMSetPrimaryPolicy.toTPMCommand TPMSetPrimaryPolicy.toProto
      (TPMSetPrimaryPolicy.init a p h s)
  | .startAuthSession k b n s t sym h =>
    both TPMStartAuthSession.toTPMCommand TPMStartAuthSession.toProto
      (TPMStartAuthSession.init k b n s t sym h)
  | .getRandom n st => both TPMGetRandom.toTPMCommand TPMGetRandom.toProto (TPMGetRandom.init n st)
  | .rsaDecrypt k t sch l s =>
    both TPMRSADecrypt.toTPMCommand TPMRSADecrypt.toProto (TPMRSADecrypt.init k t sch l s)
  | .rsaEncrypt k m sch l =>
    both TPMRSAEncrypt.toTPMCommand TPMRSAEncrypt.toProto (TPMRSAEncrypt.init k m sch l)
  | .pcrRead l => both TPMPCRRead.toTPMCommand TPMPCRRead.toProto (TPMPCRRead.init l)
  | .pcrAllocate l a s =>
    both TPMPCRAllocate.toTPMCommand TPMPCRAllocate.toProto (TPMPCRAllocate.init l a s)
  | .nvDefineSpace i attrs s h d =>
    both TPMNVDefineSpace.toTPMCommand TPMNVDefineSpace.toProto
      (TPMNVDefineSpace.init i attrs s h d)
  | .makeCredential h cred n =>
    both TPMMakeCredential.toTPMCommand TPMMakeCredential.toProto (TPMMakeCredential.init h cred n)
  | .pcrEvent h d s => both TPMPCREvent.toTPMCommand TPMPCREvent.toProto (TPMPCREvent.init h d s)
  | .pcrSetAuthPolicy a p h n s =>
    both TPMPCRSetAuthPolicy.toTPMCommand TPMPCRSetAuthPolicy.toProto
      (TPMPCRSetAuthPolicy.init a p h n s)

/-- The payloads fit the wire types they go into.  A digest has 16 bits of length anyway. -/
def Fits : SeedCommand → Prop
  | .startAuthSession _ _ nonce salt _ symmetric _ =>
    (∀ n, nonce = some n → n.length ≤ 66) ∧
      (∀ s, salt = some s → ∃ p : Bytes, s = be 2 p.length ++ p ∧ p.length ≤ 66) ∧ symmetric.Fits
  | .rsaDecrypt _ cipherText inScheme label _ =>
    cipherText.length ≤ 512 ∧ label.length ≤ 66 ∧ inScheme.Fits
  | .rsaEncrypt _ message inScheme label => message.length ≤ 512 ∧ label.length ≤ 66 ∧ inScheme.Fits
  | .pcrRead l => l.Fits
  | .pcrAllocate l _ _ => l.Fits
  | .makeCredential _ credential objectName => credential.length ≤ 66 ∧ objectName.length ≤ 66
  | .pcrEvent _ eventData _ => eventData.length ≤ 1024
  | .clear .. | .setPrimaryPolicy .. | .getRandom .. | .nvDefineSpace .. | .pcrSetAuthPolicy .. =>
    True

end SeedCommand

/-- Marshalling the proto seed of a command gives the bytearray seed. -/
theorem seeds_agree (mu : Tss2Mu) {s : SeedCommand} {c : TPMCommand} {msg : Proto.TPMCommand}
    (hfits : s.Fits) (hs : s.seeds = .ok (c, msg)) :
    ∃ b, c.bytes = .ok b ∧ marshalCommand mu msg = some b := by
  cases s with
  | clear =>
    obtain ⟨c, hc, hm, rfl⟩ := SeedCommand.both_eq_ok hs
    exact TPMClear.agrees hc hm
  | setPrimaryPolicy =>
    obtain ⟨c, hc, hm, rfl⟩ := SeedCommand.both_eq_ok hs
    exact TPMSetPrimaryPolicy.agrees hc hm
  | startAuthSession k b nonce salt =>
    obtain ⟨c, hc, hm, rfl⟩ := SeedCommand.both_eq_ok hs
    refine TPMStartAuthSession.agrees ?_ ?_ hfits.2.2 hc hm
    · cases nonce with
      | none => decide
      | some n => exact hfits.1 n rfl
    · cases salt with
      | none => exact ⟨[], rfl, by decide⟩
      | some p => exact hfits.2.1 p rfl
  | getRandom =>
    obtain ⟨c, hc, hm, rfl⟩ := SeedCommand.both_eq_ok hs
    exact TPMGetRandom.agrees hc hm
  | rsaDecrypt =>
    obtain ⟨c, hc, hm, rfl⟩ := SeedCommand.both_eq_ok hs
    exact TPMRSADecrypt.agrees hfits.1 hfits.2.1 hfits.2.2 hc hm
  | rsaEncrypt =>
    obtain ⟨c, hc, hm, rfl⟩ := SeedCommand.both_eq_ok hs
    exact TPMRSAEncrypt.agrees hfits.1 hfits.2.1 hfits.2.2 hc hm
  | pcrRead =>
    obtain ⟨c, hc, hm, rfl⟩ := SeedCommand.both_eq_ok hs
    exact TPMPCRRead.agrees hfits hc hm
  | pcrAllocate =>
    obtain ⟨c, hc, hm, rfl⟩ := SeedCommand.both_eq_ok hs
    exact TPMPCRAllocate.agrees hfits hc hm
  | nvDefineSpace =>
    obtain ⟨c, hc, hm, rfl⟩ := SeedCommand.both_eq_ok hs
    exact TPMNVDefineSpace.agrees hc hm
  | makeCredential =>
    obtain ⟨c, hc, hm, rfl⟩ := SeedCommand.both_eq_ok hs
    exact TPMMakeCredential.agrees hfits.1 hfits.2 hc hm
  | pcrEvent =>
    obtain ⟨c, hc, hm, rfl⟩ := SeedCommand.both_eq_ok hs
    exact TPMPCREvent.agrees hfits hc hm
  | pcrSetAuthPolicy =>
    obtain ⟨c, hc, hm, rfl⟩ := SeedCommand.both_eq_ok hs
    exact TPMPCRSetAuthPolicy.agrees hc hm

set_option maxRecDepth 20000 in
/-- The default session with AES-128-CFB. -/
theorem startAuthSession_seeds :
    ∃ c msg,
      (SeedCommand.startAuthSession (.enum .NULL) (.enum .NULL) none none 0 {} .SHA256).seeds =
        .ok (c, msg) ∧ ∃ b, c.bytes = .ok b ∧ marshalCommand Tss2Mu.standard msg = some b :=
  ⟨_, _, rfl, seeds_agree Tss2Mu.standard
    (s := .startAuthSession (.enum .NULL) (.enum .NULL) none none 0 {} .SHA256)
    ⟨nofun, nofun, Or.inl rfl⟩ rfl⟩

end Python
