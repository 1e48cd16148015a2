import TpmFuzzer.Session.Safety
import TpmFuzzer.Session.Messages

/-!
# The rewritten command

`TaggedCommand.authorise C st c` is `c` with a fresh caller nonce and the HMAC a verifier computes
for it.  `SessionAuthPatchCommand` on a command whose only auth entry names the armed handle leaves
exactly that command in the buffer:

    (sessionAuthPatchCommand C st (some (c.encode ++ slack)) c.size cap).val =
      ⟨.., some ((c.authorise C st).encode ++ rest), (c.authorise C st).size⟩
                                                             (sessionAuthPatchCommand_authorise)
-/

namespace Session

open Bytes Tpm Traced

/-! ## Reading a session-tagged command -/

namespace TaggedCommand

variable (c : TaggedCommand) (slack : Bytes)

theorem drop_handles : (c.encode ++ slack).drop 10 =
    handleBytes c.handles ++ (write32 (UInt32.ofNat c.authSize) ++
      (c.entry.encode ++ (c.moreEntries ++ (c.params ++ slack)))) := by
  rw [encode, drop_message]
  simp [body]

theorem drop_authSize : (c.encode ++ slack).drop (10 + 4 * c.attr.handleCount) =
    write32 (UInt32.ofNat c.authSize) ++
      (c.entry.encode ++ (c.moreEntries ++ (c.params ++ slack))) :=
  drop_of_drop (drop_handles c slack) (by simp [c.handles_length])

theorem drop_entry : (c.encode ++ slack).drop (10 + 4 * c.attr.handleCount + 4) =
    c.entry.encode ++ (c.moreEntries ++ (c.params ++ slack)) :=
  drop_of_drop (drop_authSize c slack) rfl

theorem drop_nonce : (c.encode ++ slack).drop (10 + 4 * c.attr.handleCount + 4 + 4) =
    c.entry.nonce.encode ++ (c.entry.attrs :: (c.entry.hmac.encode ++
      (c.moreEntries ++ (c.params ++ slack)))) := by
  refine drop_of_drop (x := write32 c.entry.handle) ?_ rfl
  rw [drop_entry]
  simp [AuthEntry.encode]

theorem drop_params : (c.encode ++ slack).drop (14 + 4 * c.attr.handleCount + c.authSize) =
    c.params ++ slack := by
  have hd : (c.encode ++ slack).drop (10 + 4 * c.attr.handleCount + 4) =
      (c.entry.encode ++ c.moreEntries) ++ (c.params ++ slack) := by
    rw [drop_entry]
    simp
  refine drop_of_drop hd ?_
  simp only [authSize, List.length_append]
  omega

/-- The first auth entry is where the patcher looks for it. -/
theorem firstAuthHandle_encode : firstAuthHandle (c.encode ++ slack) c.attr = c.entry.handle := by
  have hd : (c.encode ++ slack).drop (10 + 4 * c.attr.handleCount + 4) =
      write32 c.entry.handle ++ ((c.entry.nonce.encode ++ (c.entry.attrs :: c.entry.hmac.encode)) ++
        (c.moreEntries ++ (c.params ++ slack))) := by
    rw [drop_entry]
    simp [AuthEntry.encode]
  exact read32_of_drop hd

variable {c}

theorem goodHeader (hsize : c.size < 2 ^ 32) {cap : Nat} (hcap : c.size ≤ cap) :
    GoodHeader (c.encode ++ slack) c.size cap := by
  have h := c.size_eq
  refine ⟨by omega, hcap, ?_⟩
  rw [encode, read32_message_size _ _ _ _ (by omega), h]

theorem val_findAuthArea (hsize : c.size < 2 ^ 32) :
    (findAuthArea (c.encode ++ slack) c.size c.attr).val =
      some ⟨10 + 4 * c.attr.handleCount, 10 + 4 * c.attr.handleCount + 4, c.authSize⟩ := by
  have hs : c.size = 14 + 4 * c.attr.handleCount + c.authSize + c.params.length := rfl
  have hauth : (read32 (c.encode ++ slack) (10 + 4 * c.attr.handleCount)).toNat = c.authSize := by
    rw [read32_of_drop (drop_authSize c slack), UInt32.toNat_ofNat_of_lt'
      (show c.authSize < 2 ^ 32 by omega)]
  simp only [findAuthArea, val_bind, val_ite, val_pure, Mem.val_sum, Mem.val_read32, hauth]
  rw [if_neg (by omega), if_neg (by omega)]

/-- The first entry passes every check but the last one, that it fills the area. -/
theorem val_parseAuthEntry_ite :
    (parseAuthEntry c.entry.handle (c.encode ++ slack)
        ⟨10 + 4 * c.attr.handleCount, 10 + 4 * c.attr.handleCount + 4, c.authSize⟩).val =
      if c.moreEntries = [] then
        some ⟨10 + 4 * c.attr.handleCount + 4 + 4, c.entry.nonce.size,
          c.entry.attrs, c.entry.hmac.size⟩
      else none := by
  have hsize : c.authSize = 9 + c.entry.nonce.size + c.entry.hmac.size + c.moreEntries.length := by
    rw [authSize, AuthEntry.length_encode]
  have hH : read32 (c.encode ++ slack) (10 + 4 * c.attr.handleCount + 4) = c.entry.handle :=
    firstAuthHandle_encode c slack
  have hn := TPM2B.read16_of_drop (drop_nonce c slack)
  have hattrs := drop_of_drop (j := 10 + 4 * c.attr.handleCount + 4 + 4 + (2 + c.entry.nonce.size))
    (drop_nonce c slack) (by rw [TPM2B.length_encode])
  have hh := TPM2B.read16_of_drop (drop_of_drop (x := [c.entry.attrs])
    (j := 10 + 4 * c.attr.handleCount + 4 + 4 + (2 + c.entry.nonce.size) + 1) hattrs rfl)
  simp only [parseAuthEntry, val_bind, val_ite, val_pure, Mem.val_sum, Mem.val_read32,
    Mem.val_read16, Mem.val_read8, hH, hn, byteAt_of_drop hattrs, hh, ne_eq, not_true_eq_false,
    if_false]
  rw [if_neg (by omega), if_neg (by omega), if_neg (by omega), if_neg (by omega)]
  by_cases hm : c.moreEntries = []
  · rw [if_pos hm, if_neg]
    rw [hm, List.length_nil] at hsize
    omega
  · have hpos := List.length_pos_iff.mpr hm
    rw [if_neg hm, if_pos (by omega)]

/-- A command with a single auth entry for `handle` passes every check of the entry. -/
theorem val_parseAuthEntry (hm : c.moreEntries = []) :
    (parseAuthEntry c.entry.handle (c.encode ++ slack)
        ⟨10 + 4 * c.attr.handleCount, 10 + 4 * c.attr.handleCount + 4, c.authSize⟩).val =
      some ⟨10 + 4 * c.attr.handleCount + 4 + 4, c.entry.nonce.size, c.entry.attrs,
        c.entry.hmac.size⟩ := by
  rw [val_parseAuthEntry_ite, if_pos hm]

end TaggedCommand

/-! ## The HMAC of a command -/

variable (C : Crypto)

/-- The Names of a list of handles, one after the other. -/
def namesOf (st : SessionState) (handles : List UInt32) : Bytes :=
  handles.flatMap fun h => (handleName st.names h kMaxNameSize).val

/-- HMAC(session_key, SHA256(cc | Name(h1)..Name(hn) | cp) | nonce | nonce_tpm | attrs). -/
def commandMac (st : SessionState) (c : TaggedCommand) : Bytes :=
  C.hmacSha256 st.key
    (C.sha256 (write32 c.attr.commandCode ++ (namesOf st c.handles ++ c.params)) ++
    (c.entry.nonce.bytes ++ (st.nonce ++ [c.entry.attrs])))

theorem length_commandMac (st : SessionState) (c : TaggedCommand) :
    (commandMac C st c).length = 32 := C.length_hmacSha256 _ _

namespace TaggedCommand

/-- The same command with another nonce and HMAC in its first auth entry. -/
def withAuth (c : TaggedCommand) (nonce hmac : TPM2B) : TaggedCommand :=
  { c with entry := { c.entry with nonce := nonce, hmac := hmac } }

/-- The command under the caller nonce, authorised for the armed session. -/
def authorise (st : SessionState) (c : TaggedCommand) : TaggedCommand :=
  let nonce : TPM2B := ⟨nonceCaller, by decide⟩
  c.withAuth nonce ⟨commandMac C st (c.withAuth nonce TPM2B.empty), by
    rw [length_commandMac]
    decide⟩

/-- A verifier that computes the HMAC from the rewritten command finds the one it carries. -/
theorem commandMac_authorise (st : SessionState) (c : TaggedCommand) :
    commandMac C st (c.authorise C st) = (c.authorise C st).entry.hmac.bytes := rfl

theorem authSize_authorise (st : SessionState) (c : TaggedCommand) :
    (c.authorise C st).authSize = 57 + c.moreEntries.length := by
  simp [authSize, authorise, withAuth, TPM2B.size, length_commandMac, nonceCaller, kNonceCallerSize]

/-- The entry has 57 bytes where it had 9 and its nonce and HMAC. -/
theorem size_authorise_add (st : SessionState) (c : TaggedCommand) :
    (c.authorise C st).size + (c.entry.nonce.size + c.entry.hmac.size) = c.size + 48 := by
  have hauth := authSize_authorise C st c
  have hsize : (c.authorise C st).size =
      14 + 4 * c.attr.handleCount + (c.authorise C st).authSize + c.params.length := rfl
  have hsize' : c.size = 14 + 4 * c.attr.handleCount + c.authSize + c.params.length := rfl
  have hold : c.authSize = 9 + c.entry.nonce.size + c.entry.hmac.size + c.moreEntries.length := by
    rw [authSize, AuthEntry.length_encode]
  omega

theorem size_authorise (st : SessionState) (c : TaggedCommand) :
    (c.authorise C st).size = c.size + 48 - c.entry.nonce.size - c.entry.hmac.size := by
  have h := size_authorise_add C st c
  omega

end TaggedCommand

/-- The handles' Names go into the digest in order. -/
theorem val_hashHandleNames (st : SessionState) {buf rest : Bytes} :
    ∀ (handles : List UInt32) (i : Nat) (ctx : Bytes),
      buf.drop (10 + 4 * i) = handleBytes handles ++ rest →
      (∀ h ∈ handles, (handleName st.names h kMaxNameSize).val ≠ []) →
      (hashHandleNames st.names buf handles.length i ctx).val =
        some (ctx ++ namesOf st handles) := by
  intro handles
  induction handles with
  | nil =>
    intro i ctx _ _
    simp [hashHandleNames, namesOf]
  | cons h hs ih =>
    intro i ctx hd hne
    rw [handleBytes, List.flatMap_cons, List.append_assoc, ← handleBytes] at hd
    have hlen := List.length_pos_iff.mpr (hne h List.mem_cons_self)
    have hnext := ih (i + 1) (ctx ++ (handleName st.names h kMaxNameSize).val)
      (drop_of_drop hd (by simp; omega)) fun h' hm => hne h' (List.mem_cons_of_mem _ hm)
    simp only [List.length_cons, hashHandleNames, val_bind, val_ite, Mem.val_read32,
      read32_of_drop hd, val_pure]
    rw [if_neg (by omega), hnext]
    simp [namesOf]

theorem val_computeCpHash (st : SessionState) {c : TaggedCommand} (slack : Bytes)
    (hne : ∀ h ∈ c.handles, (handleName st.names h kMaxNameSize).val ≠ []) :
    (computeCpHash C st.names (c.encode ++ slack) c.attr.commandCode c.attr.handleCount
        (14 + 4 * c.attr.handleCount + c.authSize) c.params.length).val =
      some (C.sha256 (write32 c.attr.commandCode ++ (namesOf st c.handles ++ c.params))) := by
  have hnames := val_hashHandleNames st c.handles 0 (write32 c.attr.commandCode)
    (c.drop_handles slack) hne
  rw [c.handles_length] at hnames
  simp only [computeCpHash, val_bind, hnames, val_ite, val_pure, Mem.val_bytes,
    slice_of_drop (c.drop_params slack) rfl]
  split
  · simp
  · next h =>
    have hnil : c.params = [] := List.length_eq_zero_iff.mp (not_not.mp h)
    simp [hnil]

theorem val_computeHmac (st : SessionState) (cpHash nonce : Bytes) (attrs : UInt8) :
    (computeHmac C cpHash nonce st.nonceTpm st.nonceTpmSize attrs st.sessionKey
        st.sessionKeySize).val =
      C.hmacSha256 st.key (cpHash ++ (nonce ++ (st.nonce ++ [attrs]))) := by
  simp only [computeHmac, val_bind, val_ite, val_pure]
  split
  · rfl
  · next h =>
    rw [not_not] at h
    simp [SessionState.key, SessionState.nonce, h]

/-! ## The rewrite in place -/

/-- However cpBuffer is moved, afterwards it lies at its new offset. -/
theorem val_shiftCpBuffer {buf cp slack : Bytes} {cpOff : Nat} (newCpOff : Nat)
    (hd : buf.drop cpOff = cp ++ slack) :
    ∃ rest, (shiftCpBuffer buf cpOff cp.length newCpOff).val =
      buf.take newCpOff ++ (cp ++ rest) := by
  simp only [shiftCpBuffer, val_ite, val_bind, val_pure, Mem.val_bytes, Mem.val_store,
    slice_of_drop hd rfl]
  split
  · exact ⟨_, rfl⟩
  · next h =>
    rw [not_and_or, not_not, not_not] at h
    rcases h with h | rfl
    · refine ⟨buf.drop newCpOff, ?_⟩
      rw [List.length_eq_zero_iff.mp h, List.nil_append, List.take_append_drop]
    · exact ⟨slack, by rw [← hd, List.take_append_drop]⟩

/-- What stands before the nonce of the first auth entry. -/
theorem TaggedCommand.take_nonce (c : TaggedCommand) (slack : Bytes) :
    (c.encode ++ slack).take (10 + 4 * c.attr.handleCount + 4 + 4) =
      write16 TPM2_ST_SESSIONS ++ (write32 (UInt32.ofNat c.size) ++
        ((write32 c.attr.commandCode ++ handleBytes c.handles) ++
          (write32 (UInt32.ofNat c.authSize) ++ write32 c.entry.handle))) := by
  have hsplit : c.encode ++ slack =
      (write16 TPM2_ST_SESSIONS ++ (write32 (UInt32.ofNat c.size) ++
        ((write32 c.attr.commandCode ++ handleBytes c.handles) ++
          (write32 (UInt32.ofNat c.authSize) ++ write32 c.entry.handle)))) ++
      (c.entry.nonce.encode ++ (c.entry.attrs :: c.entry.hmac.encode) ++
        (c.moreEntries ++ (c.params ++ slack))) := by
    rw [c.size_eq]
    simp [TaggedCommand.encode, message, TaggedCommand.body, AuthEntry.encode]
  rw [hsplit]
  refine List.take_left' ?_
  simp [c.handles_length]
  omega

/-- Five fields written one behind the other. -/
theorem poke_fields {b x₁ x₂ x₃ x₄ x₅ : Bytes} {w w₂ w₃ w₄ w₅ : Nat} (hw : w ≤ b.length)
    (h₂ : w₂ = w + x₁.length) (h₃ : w₃ = w₂ + x₂.length) (h₄ : w₄ = w₃ + x₃.length)
    (h₅ : w₅ = w₄ + x₄.length) :
    poke (poke (poke (poke (poke b w x₁) w₂ x₂) w₃ x₃) w₄ x₄) w₅ x₅ =
      poke b w (x₁ ++ x₂ ++ x₃ ++ x₄ ++ x₅) := by
  subst h₂ h₃ h₄ h₅
  rw [poke_poke hw rfl, poke_poke hw (by simp; omega), poke_poke hw (by simp; omega),
    poke_poke hw (by simp; omega)]

section withAuth

variable {c : TaggedCommand} {nonce mac : TPM2B} (hm : c.moreEntries = []) (hns : nonce.size = 16)
  (hmac : mac.size = 32)

include hm hns hmac

/-- Handle, 16 bytes of nonce, attributes and 32 bytes of HMAC, with the two sizes. -/
theorem TaggedCommand.authSize_withAuth : (c.withAuth nonce mac).authSize = 57 := by
  simp [TaggedCommand.authSize, TaggedCommand.withAuth, hm, hns, hmac]

theorem TaggedCommand.size_withAuth :
    (c.withAuth nonce mac).size = 14 + 4 * c.attr.handleCount + 57 + c.params.length := by
  rw [TaggedCommand.size, TaggedCommand.authSize_withAuth hm hns hmac]
  rfl

/-- The two size fields go over those of the old command. -/
theorem TaggedCommand.poke_sizes (rest : Bytes) :
    poke (poke ((write16 TPM2_ST_SESSIONS ++ (write32 (UInt32.ofNat c.size) ++
        ((write32 c.attr.commandCode ++ handleBytes c.handles) ++
          (write32 (UInt32.ofNat c.authSize) ++ write32 c.entry.handle)))) ++
        ((nonce.encode ++ (c.entry.attrs :: mac.encode)) ++ (c.params ++ rest)))
      (10 + 4 * c.attr.handleCount) (write32 (UInt32.ofNat 57))) 2
      (write32 (UInt32.ofNat (c.withAuth nonce mac).size)) =
      (c.withAuth nonce mac).encode ++ rest := by
  have hauthSize : poke ((write16 TPM2_ST_SESSIONS ++ (write32 (UInt32.ofNat c.size) ++
        (write32 c.attr.commandCode ++ handleBytes c.handles))) ++
        (write32 (UInt32.ofNat c.authSize) ++
        (write32 c.entry.handle ++ ((nonce.encode ++ (c.entry.attrs :: mac.encode)) ++
          (c.params ++ rest))))) (10 + 4 * c.attr.handleCount) (write32 (UInt32.ofNat 57)) = _ :=
    poke_append (by simp [c.handles_length]; omega) rfl
  have hcommandSize : poke (write16 TPM2_ST_SESSIONS ++ (write32 (UInt32.ofNat c.size) ++
        ((write32 c.attr.commandCode ++ handleBytes c.handles) ++ (write32 (UInt32.ofNat 57) ++
        (write32 c.entry.handle ++ ((nonce.encode ++ (c.entry.attrs :: mac.encode)) ++
          (c.params ++ rest))))))) 2 (write32 (UInt32.ofNat (c.withAuth nonce mac).size)) = _ :=
    poke_append rfl rfl
  simp only [List.append_assoc, List.cons_append] at hauthSize hcommandSize ⊢
  rw [hauthSize, hcommandSize, TaggedCommand.encode, TaggedCommand.size_eq, message,
    TaggedCommand.body, TaggedCommand.authSize_withAuth hm hns hmac]
  simp [TaggedCommand.withAuth, AuthEntry.encode, hm]

end withAuth

/-- The entry behind its handle, over what stands there. -/
theorem poke_entry {b tail : Bytes} {nonce mac : TPM2B} (attrs : UInt8) (w : Nat)
    (hnonce : nonce.bytes = nonceCaller) (hmac : mac.size = 32) (hb : b.length = w + 53) :
    poke (b ++ tail) w
      (write16 (UInt16.ofNat 16) ++ nonceCaller ++ [attrs] ++ write16 32 ++ mac.bytes) =
      b.take w ++ ((nonce.encode ++ (attrs :: mac.encode)) ++ tail) := by
  have hcaller : nonceCaller.length = 16 := rfl
  have hmacl : mac.bytes.length = 32 := hmac
  rw [poke, List.take_append_of_le_length (by omega),
    List.drop_left' (by simp [hb, hcaller, hmacl])]
  simp [TPM2B.encode, tpm2b, hnonce, hcaller, hmacl]

theorem val_patchAuthArea {c : TaggedCommand} (slack : Bytes) (hm : c.moreEntries = []) {cap : Nat}
    (nonce mac : TPM2B) (hnonce : nonce.bytes = nonceCaller) (hmac : mac.size = 32)
    (hcap : (c.withAuth nonce mac).size ≤ cap)
    (hbuf : cap ≤ (c.encode ++ slack).length) :
    ∃ rest, (patchAuthArea (c.encode ++ slack) cap c.size
        ⟨10 + 4 * c.attr.handleCount, 10 + 4 * c.attr.handleCount + 4, c.authSize⟩
        ⟨10 + 4 * c.attr.handleCount + 4 + 4, c.entry.nonce.size, c.entry.attrs,
          c.entry.hmac.size⟩ nonceCaller mac.bytes).val =
      ((c.withAuth nonce mac).encode ++ rest, (c.withAuth nonce mac).size) := by
  have hauth : c.authSize = 9 + c.entry.nonce.size + c.entry.hmac.size := by
    simp [TaggedCommand.authSize, hm]
  have hns : nonce.size = 16 := by
    rw [TPM2B.size, hnonce]
    rfl
  have hcs : c.size = 14 + 4 * c.attr.handleCount + c.authSize + c.params.length := rfl
  have hcs' := TaggedCommand.size_withAuth hm hns hmac
  have hcaller : nonceCaller.length = 16 := rfl
  have hcp := c.drop_params slack
  have hfirst := c.take_nonce slack
  have hsizes := TaggedCommand.poke_sizes hm hns hmac
  generalize hn : c.attr.handleCount = n at *
  generalize c.encode ++ slack = buf at *
  simp only [patchAuthArea, val_bind, val_ite, val_pure, Mem.val_sum, Mem.val_diff, Mem.val_diff32,
    Mem.val_store, hcaller]
  -- the sizes and offsets the code computes
  have hnewSize : ((c.size : Int) + (((2 + 16 + (2 + 32) : Nat) : Int) -
      (2 + c.entry.nonce.size + (2 + c.entry.hmac.size) : Nat))).toNat =
      (c.withAuth nonce mac).size := by
    omega
  have hnewCp : (((10 + 4 * n + 4 + c.authSize : Nat) : Int) + (((2 + 16 + (2 + 32) : Nat) : Int) -
      (2 + c.entry.nonce.size + (2 + c.entry.hmac.size) : Nat))).toNat = 10 + 4 * n + 8 + 53 := by
    omega
  have hcpSize : ((c.size : Int) - (10 + 4 * n + 4 + c.authSize : Nat)).toNat =
      c.params.length := by
    omega
  have hnewAuth : ((c.authSize : Int) + (((2 + 16 + (2 + 32) : Nat) : Int) -
      (2 + c.entry.nonce.size + (2 + c.entry.hmac.size) : Nat))).toNat = 57 := by
    omega
  rw [hnewSize, hnewCp, hcpSize, hnewAuth, if_neg (by omega)]
  obtain ⟨rest, hshift⟩ := val_shiftCpBuffer (10 + 4 * n + 8 + 53)
    (show buf.drop (10 + 4 * n + 4 + c.authSize) = c.params ++ slack by
      rw [← hcp]
      congr 1
      omega)
  have hlen : (buf.take (10 + 4 * n + 8 + 53)).length = 10 + 4 * n + 8 + 53 := by
    rw [List.length_take]
    omega
  rw [hshift, poke_fields (by rw [List.length_append, hlen]; omega) (by rfl) (by rw [hcaller])
    (by rfl) (by rfl)]
  have hpad : ∀ b,
      (padZero b (10 + 4 * n + 4 + 4 + 2 + 16 + 1 + 2 + 32) (10 + 4 * n + 8 + 53)).val = b := by
    intro b
    simp only [padZero, val_ite, val_pure]
    rw [if_pos (by omega)]
  -- the entry is written first, then the two size fields over the old ones
  rw [hpad, poke_entry c.entry.attrs (10 + 4 * n + 4 + 4) hnonce hmac (by rw [hlen]),
    List.take_take, Nat.min_eq_left (by omega), hfirst, hsizes]
  exact ⟨rest, rfl⟩

theorem val_patchSessionCommand (st : SessionState) {c : TaggedCommand} (slack : Bytes) {cap : Nat}
    (hm : c.moreEntries = []) (hH : c.entry.handle = st.handle)
    (hnames : ∀ h ∈ c.handles, (handleName st.names h kMaxNameSize).val ≠ [])
    (hlt : c.size < 2 ^ 32) (hcap : (c.authorise C st).size ≤ cap)
    (hbuf : cap ≤ (c.encode ++ slack).length) :
    ∃ rest, (patchSessionCommand C st (c.encode ++ slack) c.size cap c.attr.commandCode).val =
      ((c.authorise C st).encode ++ rest, (c.authorise C st).size) := by
  obtain ⟨rest, hpatch⟩ := val_patchAuthArea slack hm (c.authorise C st).entry.nonce
    (c.authorise C st).entry.hmac rfl (length_commandMac C st _) hcap hbuf
  refine ⟨rest, ?_⟩
  have hoff : 10 + 4 * c.attr.handleCount + 4 + c.authSize =
      14 + 4 * c.attr.handleCount + c.authSize := by omega
  have hcp : ((c.size : Int) - (14 + 4 * c.attr.handleCount + c.authSize : Nat)).toNat =
      c.params.length := by
    simp only [TaggedCommand.size]
    omega
  simp only [patchSessionCommand, lookupCommandAttr_of_mem c.attr_mem, val_bind,
    TaggedCommand.val_findAuthArea slack hlt, ← hH, TaggedCommand.val_parseAuthEntry slack hm,
    Mem.val_sum, Mem.val_diff, hoff, hcp, val_computeCpHash C st slack hnames, val_computeHmac]
  exact hpatch

/-- The rewrite of a command whose only auth entry names the armed handle. -/
theorem sessionAuthPatchCommand_authorise {st : SessionState} {c : TaggedCommand} (slack : Bytes)
    {cap : Nat} (hinit : st.initialized = true) (hdigest : st.digestSize ≠ 0)
    (hcc : c.attr.commandCode ≠ TPM2_CC_StartAuthSession) (hm : c.moreEntries = [])
    (hH : c.entry.handle = st.handle)
    (hnames : ∀ h ∈ c.handles, (handleName st.names h kMaxNameSize).val ≠ [])
    (hlt : c.size < 2 ^ 32) (hsize : c.size ≤ cap) (hcap : (c.authorise C st).size ≤ cap)
    (hbuf : cap ≤ (c.encode ++ slack).length) :
    ∃ rest, (sessionAuthPatchCommand C st (some (c.encode ++ slack)) c.size cap).val =
      ⟨{ st with lastCommandCode := c.attr.commandCode }, some ((c.authorise C st).encode ++ rest),
        (c.authorise C st).size⟩ := by
  have htag : read16 (c.encode ++ slack) 0 = TPM2_ST_SESSIONS := read16_message _ _ _ _
  have hcode : read32 (c.encode ++ slack) 6 = c.attr.commandCode := read32_message_code _ _ _ _
  obtain ⟨rest, hr⟩ := val_patchSessionCommand C { st with lastCommandCode := c.attr.commandCode }
    slack hm hH hnames hlt hcap hbuf
  refine ⟨rest, ?_⟩
  rw [sessionAuthPatchCommand_good C st (TaggedCommand.goodHeader slack hlt hsize)]
  simp only
  rw [hcode, htag, if_neg hcc, if_neg (by simp [hinit, hdigest]), if_neg (by simp), hr]
  rfl

/-! ## The rewritten bytes -/

/-- What a verifier holding `st` expects of the call on `c`: the size it returns, and the bytes it
leaves at the front of the buffer.  They are a command that carries the HMAC computed from it. -/
def RewritesCommand (st : SessionState) (c : TaggedCommand) (slack : Bytes) (cap : Nat) : Prop :=
  let r := (sessionAuthPatchCommand C st (some (c.encode ++ slack)) c.size cap).val
  let mac := C.hmacSha256 st.key
    (C.sha256 (write32 c.attr.commandCode ++ (namesOf st c.handles ++ c.params)) ++
      (List.replicate 16 0xAA ++ (st.nonce ++ [c.entry.attrs])))
  r.size = c.size + 48 - c.entry.nonce.size - c.entry.hmac.size ∧ mac.length = 32 ∧
    ∃ buf, r.buf = some buf ∧ (read32 buf 2).toNat = r.size ∧
      buf.take r.size =
        write16 TPM2_ST_SESSIONS ++ (write32 (UInt32.ofNat r.size) ++
          (write32 c.attr.commandCode ++ (handleBytes c.handles ++ (write32 57 ++
            (write32 c.entry.handle ++ (write16 16 ++ (List.replicate 16 0xAA ++
              ([c.entry.attrs] ++ (write16 32 ++ (mac ++ c.params)))))))))) ∧
      ∃ c' : TaggedCommand, buf.take r.size = c'.encode ∧
        c'.entry.hmac.bytes = commandMac C st c'

/-- A command whose only auth entry names the armed handle is rewritten in place, as long as its new
size still fits the header. -/
theorem sessionAuthPatchCommand_rewrites {st : SessionState} {c : TaggedCommand} (slack : Bytes)
    {cap : Nat} (hinit : st.initialized = true) (hdigest : st.digestSize ≠ 0)
    (hcc : c.attr.commandCode ≠ TPM2_CC_StartAuthSession) (hm : c.moreEntries = [])
    (hH : c.entry.handle = st.handle)
    (hnames : ∀ h ∈ c.handles, (handleName st.names h kMaxNameSize).val ≠ [])
    (hlt : c.size < 2 ^ 32) (hsize : c.size ≤ cap)
    (hcap : c.size + 48 - c.entry.nonce.size - c.entry.hmac.size ≤ cap)
    (hbuf : cap ≤ (c.encode ++ slack).length)
    (hnew : c.size + 48 - c.entry.nonce.size - c.entry.hmac.size < 2 ^ 32) :
    RewritesCommand C st c slack cap := by
  have hnewSize := TaggedCommand.size_authorise C st c
  rw [← hnewSize] at hcap hnew
  obtain ⟨rest, hr⟩ := sessionAuthPatchCommand_authorise C slack hinit hdigest hcc hm hH hnames hlt
    hsize hcap hbuf
  have hauth : (c.authorise C st).authSize = 57 := by
    rw [TaggedCommand.authSize_authorise, hm]
    rfl
  have hbody := (c.authorise C st).size_eq
  rw [RewritesCommand, hr]
  refine ⟨hnewSize, C.length_hmacSha256 _ _, _, rfl, ?_, ?_, c.authorise C st, ?_, ?_⟩
  · rw [TaggedCommand.encode, read32_message_size _ _ _ _ (by omega), hbody]
  · rw [← TaggedCommand.length_encode, List.take_left, TaggedCommand.length_encode, hbody,
      TaggedCommand.encode, message, TaggedCommand.body, hauth]
    simp only [TaggedCommand.authorise, TaggedCommand.withAuth, AuthEntry.encode, TPM2B.encode,
      tpm2b, length_commandMac, hm, List.append_assoc, List.nil_append]
    rfl
  · rw [← TaggedCommand.length_encode, List.take_left]
  · exact (TaggedCommand.commandMac_authorise C st c).symm

/-- The layer armed with handle 0x02000000 and a nonce of sixteen bytes 0x55. -/
def armedState : SessionState :=
  (sessionAuthInit 0x02000000 .initNonce (some (List.replicate 16 0x55)) 0 16 none 0
    TPM2_ALG_SHA256).val

/-- TPM2_Clear for the lockout authority, authorised by a session. -/
def clearCommand (session : UInt32) (params : Bytes) : TaggedCommand where
  attr := ⟨TPM2_CC_Clear, 1, 1, 0⟩
  attr_mem := by decide
  handles := [0x4000000A]
  handles_length := rfl
  entry := ⟨session, TPM2B.empty, 1, TPM2B.empty⟩
  moreEntries := []
  params := params

/-- SHA-256 of the command code and the Name of the lockout handle, and the HMAC of the command. -/
def clearDigests : Crypto := Crypto.ofDigests
  0x558EC0E8683F8AE446D7113C04F056F75CEB90123EC27ECDC04657248DC91DB2
  0x32446B3F5AB56ABBD6520DC55B7AB0259442D424680192EEAA9CAD93DA6B34E6

theorem clearCommand_named (session : UInt32) (params : Bytes) :
    ∀ h ∈ (clearCommand session params).handles,
      (handleName armedState.names h kMaxNameSize).val ≠ [] := by
  intro h hh
  rw [List.mem_singleton.mp (show h ∈ [(0x4000000A : UInt32)] from hh)]
  decide

theorem clearCommand_rewritten :
    RewritesCommand clearDigests armedState (clearCommand 0x02000000 []) (List.replicate 64 0) 91 :=
  sessionAuthPatchCommand_rewrites clearDigests (List.replicate 64 0) (by decide) (by decide)
    (by decide) rfl rfl (clearCommand_named _ _) (by decide) (by decide) (by decide) (by decide)
    (by decide)

theorem size_clearCommand (session : UInt32) (params : Bytes) :
    (clearCommand session params).size = 27 + params.length := by
  simp [TaggedCommand.size, TaggedCommand.authSize, clearCommand, TPM2B.size, TPM2B.empty]

/-- Without the bound the size field wraps: a command of 2^32 - 1 bytes that grows by 48. -/
theorem not_rewritesCommand_of_large :
    ¬ ∀ (C : Crypto) (st : SessionState) (c : TaggedCommand) (slack : Bytes) (cap : Nat),
      Reachable C st → st.initialized = true → st.digestSize ≠ 0 →
      c.attr.commandCode ≠ TPM2_CC_StartAuthSession → c.moreEntries = [] →
      c.entry.handle = st.handle →
      (∀ h ∈ c.handles, (handleName st.names h kMaxNameSize).val ≠ []) →
      c.size < 2 ^ 32 → c.size ≤ cap →
      c.size + 48 - c.entry.nonce.size - c.entry.hmac.size ≤ cap →
      cap ≤ (c.encode ++ slack).length → RewritesCommand C st c slack cap := by
  intro h
  have hlen : (List.replicate (2 ^ 32 - 28) (0 : UInt8)).length = 2 ^ 32 - 28 :=
    List.length_replicate
  generalize List.replicate (2 ^ 32 - 28) (0 : UInt8) = params at hlen
  have hsize := size_clearCommand 0x02000000 params
  have hentry : (clearCommand 0x02000000 params).entry.nonce.size = 0 ∧
      (clearCommand 0x02000000 params).entry.hmac.size = 0 := ⟨rfl, rfl⟩
  have hrun : Reachable clearDigests armedState :=
    ⟨[.initialise 0x02000000 (some (List.replicate 16 0x55)) 16 none 0 TPM2_ALG_SHA256], rfl⟩
  obtain ⟨hret, -, buf, -, hfield, -⟩ := h clearDigests armedState (clearCommand 0x02000000 params)
    (List.replicate 64 0) ((clearCommand 0x02000000 params).size + 64) hrun (by decide) (by decide)
    (show TPM2_CC_Clear ≠ TPM2_CC_StartAuthSession by decide) rfl rfl (clearCommand_named _ _)
    (by omega) (by omega) (by omega) (by simp)
  have := (read32 buf 2).toNat_lt
  rw [hret] at hfield
  omega

end Session
