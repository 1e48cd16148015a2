import TpmFuzzer.Session.Safety
import TpmFuzzer.Session.Messages

/-!
# What one turn does

`turn C st t` is one command and its response.  Between turns no start is pending; from such a state
a turn does one of three things:

* a StartAuthSession the layer arms on leaves a fresh state for the session it returned
  (`turn_armable`);
* a successful session-tagged command refreshes the nonce and may name an object (`turn_executed`);
* anything else leaves handle, nonce and Names as they were (`turn_not_armable`, `turn_other`,
  `turn_failed`).
-/

namespace Session

open Bytes Tpm Traced Runs

/-! ## Capturing a StartAuthSession -/

theorem val_skipTPM2B {r : Region} {buf rest : Bytes} {off end_ : Nat} {x : TPM2B}
    (hd : buf.drop off = x.encode ++ rest) (hend : off + 2 + x.size ≤ end_) :
    (skipTPM2B r buf off end_).val = off + 2 + x.size := by
  have hsize := TPM2B.read16_of_drop hd
  simp only [skipTPM2B, val_bind, val_ite, val_pure, Mem.val_sum, Mem.val_read16, hsize]
  rw [if_neg (by omega), if_pos hend]

theorem digestSizeFor_ne_zero (alg : UInt16) : digestSizeFor alg ≠ 0 ↔ alg = TPM2_ALG_SHA256 := by
  unfold digestSizeFor
  split
  · next h => simp [h]
  · next h => simp [h]

/-- The parameters of a StartAuthSession without an authorization area are read off the wire as they
were sent, whatever its tag. -/
theorem val_capture_message (st : SessionState) {s : StartAuthSession} (hs : s.authArea = none)
    (tag : UInt16) (slack : Bytes) :
    (captureStartAuthSessionCommand st (message tag TPM2_CC_StartAuthSession s.body ++ slack)
        (message tag TPM2_CC_StartAuthSession s.body).length).val =
      { st with
        pendingStartAuthSession := true
        startAuthSessionCompatible := decide s.Compatible
        startAuthSessionAuthHash := s.authHash } := by
  have hsym := s.symmetric.2
  have hsize : (message tag TPM2_CC_StartAuthSession s.body).length =
      25 + s.nonceCaller.size + s.encryptedSalt.size + s.symmetric.1.length := by
    simp [StartAuthSession.body, StartAuthSession.authBytes, hs]
    omega
  have h10 : (message tag TPM2_CC_StartAuthSession s.body ++ slack).drop 10 =
      write32 s.tpmKey ++ (write32 s.bind ++ (s.nonceCaller.encode ++ (s.encryptedSalt.encode ++
        ((s.sessionType :: s.symmetric.1) ++ (write16 s.authHash ++ slack))))) := by
    rw [drop_message]
    simp [StartAuthSession.body, StartAuthSession.authBytes, hs]
  generalize message tag TPM2_CC_StartAuthSession s.body = m at hsize h10
  have h14 := drop_of_drop (j := 14) h10 rfl
  have h18 := drop_of_drop (j := 18) h14 rfl
  have hsalt := drop_of_drop (j := 18 + 2 + s.nonceCaller.size) h18 (by simp; omega)
  have htype := drop_of_drop (j := 18 + 2 + s.nonceCaller.size + 2 + s.encryptedSalt.size) hsalt
    (by simp; omega)
  have hhash := drop_of_drop (j := m.length - 2) htype (by simp; omega)
  have hskip : (skipTPM2B .command (m ++ slack) 18 m.length).val = 18 + 2 + s.nonceCaller.size :=
    val_skipTPM2B h18 (by omega)
  have hskip' : (skipTPM2B .command (m ++ slack) (18 + 2 + s.nonceCaller.size) m.length).val =
      18 + 2 + s.nonceCaller.size + 2 + s.encryptedSalt.size := val_skipTPM2B hsalt (by omega)
  have hoff : ((m.length : Int) - 2).toNat = m.length - 2 := by omega
  have hzero : read16 (m ++ slack) (18 + 2 + s.nonceCaller.size) = 0 ↔
      s.encryptedSalt.bytes = [] := by
    rw [← UInt16.toNat_inj, TPM2B.read16_of_drop hsalt]
    exact List.length_eq_zero_iff
  simp only [captureStartAuthSessionCommand, val_bind, val_ite, val_pure, Mem.val_read32,
    Mem.val_read16, Mem.val_read8, Mem.val_sum, Mem.val_diff, hskip, hskip', hoff,
    read32_of_drop h10, read32_of_drop h14, byteAt_of_drop htype, read16_of_drop hhash]
  rw [if_neg (by omega), if_neg (by omega), if_neg (by omega), if_neg (by omega)]
  congr 1
  exact decide_eq_decide.mpr (by simp only [StartAuthSession.Compatible, hzero,
    digestSizeFor_ne_zero])

theorem val_captureStartAuthSessionCommand (st : SessionState) {s : StartAuthSession}
    (hs : s.authArea = none) (slack : Bytes) :
    (captureStartAuthSessionCommand st (s.encode ++ slack) s.encode.length).val =
      { st with
        pendingStartAuthSession := true
        startAuthSessionCompatible := decide s.Compatible
        startAuthSessionAuthHash := s.authHash } :=
  val_capture_message st hs s.tag slack

/-! ## The response to a StartAuthSession -/

variable (C : Crypto)

theorem goodResponse_message {tag : UInt16} {code : UInt32} {body : Bytes} (slack : Bytes)
    (h : (message tag code body).length < 2 ^ 32) :
    GoodResponse (message tag code body ++ slack) (message tag code body).length := by
  rw [length_message] at h ⊢
  exact ⟨by omega, read32_message_size _ _ _ _ h⟩

theorem goodHeader_message {tag : UInt16} {code : UInt32} {body : Bytes} (slack : Bytes)
    (h : (message tag code body).length < 2 ^ 32) :
    GoodHeader (message tag code body ++ slack) (message tag code body).length
      (message tag code body ++ slack).length := by
  have hlen := length_message tag code body
  rw [List.length_append]
  exact ⟨by omega, by omega, by rw [read32_message_size _ _ _ _ (by omega), hlen]⟩

/-- What arming leaves: the session that was returned, its nonce, no Names and nothing pending. -/
structure Armed (st : SessionState) (handle : UInt32) (nonce : Bytes) : Prop where
  initialized : st.initialized = true
  handle_eq : st.handle = handle
  nonce_eq : st.nonce = nonce.take SESSION_AUTH_MAX_DIGEST
  names_eq : st.names = ⟨[]⟩
  pending_eq : st.pendingStartAuthSession = false

/-- A state that differs from `st` in the bookkeeping of commands only, with nothing pending. -/
def SameSession (st st' : SessionState) : Prop :=
  ∃ code compatible authHash, st' = { st with
    lastCommandCode := code
    pendingStartAuthSession := false
    startAuthSessionCompatible := compatible
    startAuthSessionAuthHash := authHash }

/-- The state of the layer between the two calls of a StartAuthSession. -/
theorem patch_started (st : SessionState) {t : Turn} {s : StartAuthSession} {r : StartReply}
    (ht : t.exchange = .started s r) :
    (t.patch C st).state = (captureStartAuthSessionCommand
      { st with lastCommandCode := TPM2_CC_StartAuthSession } (s.encode ++ t.commandSlack)
      s.encode.length).val := by
  have hwf := t.wellFormed
  rw [ht] at hwf
  have hgood : GoodHeader (s.encode ++ t.commandSlack) s.encode.length
      (s.encode ++ t.commandSlack).length :=
    goodHeader_message t.commandSlack hwf.1
  have hcode : read32 (s.encode ++ t.commandSlack) 6 = TPM2_CC_StartAuthSession :=
    read32_message_code _ _ _ _
  simp only [Turn.patch, ht, Exchange.command]
  rw [sessionAuthPatchCommand_good C st hgood]
  simp only [hcode, if_true]

section

variable {st : SessionState} (hp : st.pendingStartAuthSession = true) (handle : UInt32)
    (nonce : TPM2B)
  (more slack : Bytes)

/-- A successful untagged response with a handle and a nonce, and anything behind them. -/
def startResponse : Bytes :=
  message TPM2_ST_NO_SESSIONS TPM2_RC_SUCCESS (write32 handle ++ (nonce.encode ++ more))

include hp

/-- It arms the layer on a compatible start. -/
theorem process_startResponse_armed (hcompat : st.startAuthSessionCompatible = true)
    (hlt : (startResponse handle nonce more).length < 2 ^ 32) :
    let st' := (sessionAuthProcessResponse st (some (startResponse handle nonce more ++ slack))
      (startResponse handle nonce more).length).val
    st'.nonce = nonce.bytes.take SESSION_AUTH_MAX_DIGEST ∧
      st' = { SessionState.zero with
        initialized := true
        handle := handle
        hashAlg := st.startAuthSessionAuthHash
        digestSize := digestSizeFor st.startAuthSessionAuthHash
        nonceTpm := st'.nonceTpm
        nonceTpmSize := min nonce.size SESSION_AUTH_MAX_DIGEST } := by
  have hlen : (startResponse handle nonce more).length = 16 + nonce.size + more.length := by
    simp [startResponse]
    omega
  have h10 : (startResponse handle nonce more ++ slack).drop 10 =
      write32 handle ++ (nonce.encode ++ (more ++ slack)) := by
    rw [startResponse, drop_message]
    simp
  have h14 := drop_of_drop (j := 14) h10 rfl
  have hgood := goodResponse_message slack hlt
  have htag : read16 (startResponse handle nonce more ++ slack) 0 = TPM2_ST_NO_SESSIONS :=
    read16_message _ _ _ _
  have hrc : read32 (startResponse handle nonce more ++ slack) 6 = TPM2_RC_SUCCESS :=
    read32_message_code _ _ _ _
  rw [← startResponse] at hgood
  generalize startResponse handle nonce more = m at *
  have hargs : (pendingArmArgs st (m ++ slack) m.length TPM2_ST_NO_SESSIONS TPM2_RC_SUCCESS).val =
      some ⟨handle, nonce.size, st.startAuthSessionAuthHash⟩ := by
    simp only [pendingArmArgs, val_bind, val_ite, val_pure, Mem.val_read32, Mem.val_read16,
      Mem.val_sum, read32_of_drop h10, TPM2B.read16_of_drop h14]
    rw [if_neg (by simp), if_neg (by simp [hcompat]; omega), if_neg (by omega)]
  have hst : (sessionAuthProcessResponse st (some (m ++ slack)) m.length).val =
      (sessionAuthInit handle .response (some (m ++ slack)) 16 nonce.size none 0
        st.startAuthSessionAuthHash).val := by
    rw [sessionAuthProcessResponse_good _ hgood, if_pos hp, htag, hrc,
      processStartResponse_eq, hargs]
  have h16 : slice (m ++ slack) 16 nonce.size = nonce.bytes :=
    slice_of_drop (TPM2B.drop_of_drop h14) rfl
  have hinit := sessionAuthInit_response (m ++ slack) (n := nonce.size) (by simp; omega) handle
    st.startAuthSessionAuthHash
  rw [h16] at hinit
  rw [hst]
  exact hinit

/-- It leaves the session alone on any other. -/
theorem process_startResponse_same (hcompat : st.startAuthSessionCompatible = false) {buf : Bytes}
    {size : Nat} (hgood : GoodResponse buf size) :
    (sessionAuthProcessResponse st (some buf) size).val =
      { st with pendingStartAuthSession := false, startAuthSessionCompatible := false } := by
  have hnone : ∀ tag rc, (pendingArmArgs st buf size tag rc).val = none := by
    intro tag rc
    simp only [pendingArmArgs, val_bind, val_ite, val_pure, hcompat]
    split <;> rfl
  rw [sessionAuthProcessResponse_good _ hgood, if_pos hp, processStartResponse_eq, hnone]

end

theorem turn_armable (st : SessionState) {t : Turn} {s : StartAuthSession} {r : StartReply}
    (ht : t.exchange = .started s r) (hs : s.Armable) :
    Armed (turn C st t) r.handle r.nonceTpm.bytes := by
  have hwf := t.wellFormed
  rw [ht] at hwf
  have hcap := val_captureStartAuthSessionCommand { st with
    lastCommandCode := TPM2_CC_StartAuthSession }
    hs.1 t.commandSlack
  rw [← patch_started C st ht] at hcap
  have henc : r.encode s = startResponse r.handle r.nonceTpm [] := by
    rw [StartReply.encode, s.tag_eq_noSessions_iff.mpr hs.1, StartReply.body, hs.1, startResponse,
      List.append_nil]
  have hturn : turn C st t = (sessionAuthProcessResponse (t.patch C st).state
      (some (startResponse r.handle r.nonceTpm [] ++ t.responseSlack))
      (startResponse r.handle r.nonceTpm []).length).val := by
    simp only [turn, Turn.process, ht, Exchange.response, henc]
  have hlt := hwf.2
  rw [henc] at hlt
  obtain ⟨hnonce, hst⟩ := process_startResponse_armed
    (by rw [hcap]) r.handle r.nonceTpm [] t.responseSlack
    (show (t.patch C st).state.startAuthSessionCompatible =
      true by rw [hcap]; exact decide_eq_true hs.2) hlt
  rw [← hturn] at hnonce hst
  exact ⟨by rw [hst], by rw [hst], hnonce, by rw [hst]; rfl, by rw [hst]; rfl⟩

/-! ## Turns that leave the session alone -/

theorem sameSession_self {st : SessionState} (hp : st.pendingStartAuthSession = false)
    (code : UInt32) : SameSession st { st with lastCommandCode := code } := by
  refine ⟨code, st.startAuthSessionCompatible, st.startAuthSessionAuthHash, ?_⟩
  rw [← hp]

/-- The header checks look at the message only, not at what follows it in the buffer. -/
theorem GoodHeader.append {b : Bytes} (h : GoodHeader b b.length b.length) (slack : Bytes) :
    GoodHeader (b ++ slack) b.length (b ++ slack).length := by
  refine ⟨h.ten_le, by simp, ?_⟩
  rw [read32_append_left (by have := h.ten_le; omega)]
  exact h.header

theorem GoodResponse.append {b : Bytes} (h : GoodResponse b b.length) (slack : Bytes) :
    GoodResponse (b ++ slack) b.length := by
  refine ⟨h.ten_le, ?_⟩
  rw [read32_append_left (by have := h.ten_le; omega)]
  exact h.header

/-- A failure clears a pending start and does nothing else. -/
theorem sessionAuthProcessResponse_failed (st : SessionState) {buf : Bytes} {size : Nat}
    (hgood : GoodResponse buf size) (hrc : read32 buf 6 ≠ TPM2_RC_SUCCESS) :
    SameSession st (sessionAuthProcessResponse st (some buf) size).val := by
  rcases sessionAuthProcessResponse_cases st buf size with ⟨hbad, -⟩ | ⟨-, -, -, hr⟩ |
    ⟨-, -, a, ha, -⟩ | ⟨-, hp, hr | ⟨-, -, hok, -⟩⟩
  · exact absurd hgood hbad
  · exact ⟨_, _, _, hr⟩
  · exact absurd (pendingArmArgs_eq_some st ha).2.1 hrc
  · rw [hr]
    exact sameSession_self hp st.lastCommandCode
  · exact absurd hok hrc

/-- What a command does to the state before its response comes: bookkeeping only. -/
theorem patch_frame (st : SessionState) (buf : Bytes) (size cap : Nat) :
    ∃ code p c a, (sessionAuthPatchCommand C st (some buf) size cap).val.state =
      { st with lastCommandCode := code, pendingStartAuthSession := p
                startAuthSessionCompatible := c, startAuthSessionAuthHash := a } := by
  rcases sessionAuthPatchCommand_cases C st buf size cap with ⟨-, hr⟩ | ⟨-, -, hr⟩ | ⟨-, -, hr, -⟩
  · rw [hr]
    exact ⟨_, _, _, _, rfl⟩
  · rw [hr]
    obtain ⟨c, a, hf⟩ := captureStartAuthSessionCommand_frame
      { st with lastCommandCode := read32 buf 6 } buf size
    exact ⟨_, _, _, _, hf⟩
  · rw [hr]
    exact ⟨_, _, _, _, rfl⟩

theorem turn_not_armable (st : SessionState) {t : Turn} {s : StartAuthSession} {r : StartReply}
    (ht : t.exchange = .started s r) (hs : ¬ s.Armable) : SameSession st (turn C st t) := by
  have hwf := t.wellFormed
  rw [ht] at hwf
  obtain ⟨c, a, hcap⟩ := captureStartAuthSessionCommand_frame
    { st with lastCommandCode := TPM2_CC_StartAuthSession }
      (s.encode ++ t.commandSlack) s.encode.length
  have hpatch := patch_started C st ht
  have hpend : (t.patch C st).state.pendingStartAuthSession = true := by rw [hpatch, hcap]
  have hgood : GoodResponse (r.encode s ++ t.responseSlack) (r.encode s).length :=
    goodResponse_message t.responseSlack hwf.2
  have htag : read16 (r.encode s ++ t.responseSlack) 0 = s.tag := read16_message _ _ _ _
  have hnone :
    (pendingArmArgs (t.patch C st).state (r.encode s ++ t.responseSlack) (r.encode s).length
      s.tag (read32 (r.encode s ++ t.responseSlack) 6)).val = none := by
    cases ha : (pendingArmArgs (t.patch C st).state (r.encode s ++ t.responseSlack)
      (r.encode s).length s.tag (read32 (r.encode s ++ t.responseSlack) 6)).val with
    | none => rfl
    | some args =>
      -- only an untagged start can arm, and of that the capture knows whether it is compatible
      obtain ⟨hno, -, hcompat, -, -⟩ := pendingArmArgs_eq_some _ ha
      have harea := s.tag_eq_noSessions_iff.mp hno
      rw [hpatch, val_captureStartAuthSessionCommand _ harea] at hcompat
      exact absurd ⟨harea, by simpa using hcompat⟩ hs
  simp only [turn, Turn.process, ht, Exchange.response]
  rw [sessionAuthProcessResponse_good _ hgood, htag, if_pos hpend, processStartResponse_eq, hnone,
    hpatch, hcap]
  exact ⟨_, _, _, rfl⟩

theorem turn_other (st : SessionState) (hp : st.pendingStartAuthSession = false) {t : Turn}
    {command response : Bytes} (ht : t.exchange = .other command response) :
    SameSession st (turn C st t) := by
  have hwf := t.wellFormed
  rw [ht] at hwf
  obtain ⟨hcmd, hcc, hresp, hskip⟩ := hwf
  have h10 := hcmd.ten_le
  have h10' := hresp.ten_le
  have hcode : read32 (command ++ t.commandSlack) 6 = read32 command 6 :=
    read32_append_left (by omega)
  have hpatch : (t.patch C st).state = { st with lastCommandCode := read32 command 6 } := by
    simp only [Turn.patch, ht, Exchange.command]
    rcases sessionAuthPatchCommand_cases C st (command ++ t.commandSlack) command.length
      (command ++ t.commandSlack).length with ⟨hbad, -⟩ | ⟨-, hstart, -⟩ | ⟨-, -, hr, -⟩
    · exact absurd (hcmd.append t.commandSlack) hbad
    · exact absurd (hcode ▸ hstart) hcc
    · rw [hr, hcode]
  simp only [turn, Turn.process, ht, Exchange.response, hpatch]
  rcases sessionAuthProcessResponse_cases { st with lastCommandCode := read32 command 6 }
    (response ++ t.responseSlack) response.length with ⟨hbad, -⟩ | ⟨-, hpend, -, -⟩ |
    ⟨-, hpend, -⟩ | ⟨-, -, hr | ⟨-, htag, -, hr⟩⟩
  · exact absurd (hresp.append t.responseSlack) hbad
  · exact absurd (hp.symm.trans hpend) (by decide)
  · exact absurd (hp.symm.trans hpend) (by decide)
  · rw [hr]
    exact sameSession_self hp _
  · rw [read16_append_left (by omega)] at htag
    rcases hskip with hno | hlookup
    · exact absurd (hno.symm.trans htag) (by decide)
    · rw [hr]
      simp only [processSessionResponse, hlookup]
      exact sameSession_self hp _

theorem turn_failed (st : SessionState) {t : Turn} {command response : Bytes}
    (ht : t.exchange = .failed command response) : SameSession st (turn C st t) := by
  have hwf := t.wellFormed
  rw [ht] at hwf
  obtain ⟨hresp, hrc⟩ := hwf
  have h10 := hresp.ten_le
  obtain ⟨code, p, c, a, hpatch⟩ := patch_frame C st (command ++ t.commandSlack) command.length
    (command ++ t.commandSlack).length
  have hsame := sessionAuthProcessResponse_failed
    (sessionAuthPatchCommand C st (some (command ++ t.commandSlack)) command.length
      (command ++ t.commandSlack).length).val.state
    (hresp.append t.responseSlack) (by rw [read32_append_left (by omega)]; exact hrc)
  rw [hpatch] at hsame
  simp only [turn, Turn.patch, Turn.process, ht, Exchange.command, Exchange.response, hpatch]
  exact hsame

/-! ## Successful session-tagged commands -/

/-- A session-tagged response, by the two flags. -/
theorem process_reply (st : SessionState) {r : TaggedReply} (slack : Bytes)
    (hlt : r.encode.length < 2 ^ 32) :
    (sessionAuthProcessResponse st (some (r.encode ++ slack)) r.encode.length).val =
      if st.pendingStartAuthSession = true then
        { st with pendingStartAuthSession := false, startAuthSessionCompatible := false }
      else if st.initialized = false then st
      else (processSessionResponse st (r.encode ++ slack) r.encode.length).val := by
  have hgood : GoodResponse (r.encode ++ slack) r.encode.length := goodResponse_message slack hlt
  have htag : read16 (r.encode ++ slack) 0 = TPM2_ST_SESSIONS := read16_message _ _ _ _
  have hrc : read32 (r.encode ++ slack) 6 = TPM2_RC_SUCCESS := read32_message_code _ _ _ _
  have hnone : (pendingArmArgs st (r.encode ++ slack) r.encode.length TPM2_ST_SESSIONS
      TPM2_RC_SUCCESS).val = none := by
    simp only [pendingArmArgs, val_ite, val_pure]
    rw [if_pos (by decide)]
  rw [sessionAuthProcessResponse_good _ hgood, htag, hrc, processStartResponse_eq, hnone]
  simp

section
variable {c : TaggedCommand} {r : TaggedReply} {t : Turn} (ht : t.exchange = .executed c r)

include ht

theorem patch_executed (st : SessionState) :
    (t.patch C st).state = { st with lastCommandCode := c.attr.commandCode } := by
  have hwf := t.wellFormed
  rw [ht] at hwf
  have hgood : GoodHeader (c.encode ++ t.commandSlack) c.encode.length
      (c.encode ++ t.commandSlack).length :=
    goodHeader_message t.commandSlack (by
      rw [← TaggedCommand.encode, c.length_encode]
      exact hwf.2.1)
  have hcode : read32 (c.encode ++ t.commandSlack) 6 = c.attr.commandCode :=
    read32_message_code _ _ _ _
  simp only [Turn.patch, ht, Exchange.command]
  rcases sessionAuthPatchCommand_cases C st (c.encode ++ t.commandSlack) c.encode.length
    (c.encode ++ t.commandSlack).length with ⟨hbad, -⟩ | ⟨-, hstart, -⟩ | ⟨-, -, hr, -⟩
  · exact absurd hgood hbad
  · exact absurd (hcode ▸ hstart) hwf.1
  · rw [hr, hcode]

/-- What the response handler does with the response, by the two flags. -/
theorem turn_executed_eq (st : SessionState) : turn C st t =
    if st.pendingStartAuthSession = true then
      { st with lastCommandCode := c.attr.commandCode, pendingStartAuthSession := false
                startAuthSessionCompatible := false }
    else if st.initialized = false then { st with lastCommandCode := c.attr.commandCode }
    else (processSessionResponse { st with lastCommandCode := c.attr.commandCode }
      (r.encode ++ t.responseSlack) r.encode.length).val := by
  have hwf := t.wellFormed
  rw [ht] at hwf
  simp only [turn, Turn.process, patch_executed C ht st, ht, Exchange.response]
  rw [process_reply _ t.responseSlack hwf.2.2.2.2]

end

section
variable {r : TaggedReply} {attr : CommandAttrEntry} (slack : Bytes)

theorem TaggedReply.drop_handles : (r.encode ++ slack).drop 10 = handleBytes r.outHandles ++
    (write32 (UInt32.ofNat r.params.encode.length) ++ (r.params.encode ++ (r.nonce.encode ++
      (r.attrs :: (r.hmac.encode ++ (r.moreEntries ++ slack)))))) := by
  rw [TaggedReply.encode, drop_message]
  simp [TaggedReply.body]

theorem TaggedReply.drop_params (hout : r.outHandles.length = attr.outHandleCount) :
    (r.encode ++ slack).drop (14 + 4 * attr.outHandleCount) =
      r.params.encode ++ (r.nonce.encode ++
        (r.attrs :: (r.hmac.encode ++ (r.moreEntries ++ slack)))) := by
  have hsize := drop_of_drop (j := 10 + 4 * attr.outHandleCount)
    (r.drop_handles slack) (by simp [hout])
  exact drop_of_drop hsize (by simp; omega)

theorem TaggedReply.drop_nonce (hout : r.outHandles.length = attr.outHandleCount) :
    (r.encode ++ slack).drop (14 + 4 * attr.outHandleCount + r.params.encode.length) =
      r.nonce.encode ++ (r.attrs :: (r.hmac.encode ++ (r.moreEntries ++ slack))) :=
  drop_of_drop (r.drop_params slack hout) rfl

theorem TaggedReply.val_findResponseFields (hlt : r.encode.length < 2 ^ 32)
    (hout : r.outHandles.length = attr.outHandleCount) :
    (findResponseFields (r.encode ++ slack) r.encode.length attr).val =
      some ⟨14 + 4 * attr.outHandleCount, 14 + 4 * attr.outHandleCount + r.params.encode.length,
        r.nonce.size⟩ := by
  have hlen : r.encode.length = 19 + 4 * attr.outHandleCount + r.params.encode.length +
      r.nonce.size + r.hmac.size + r.moreEntries.length := by
    simp [TaggedReply.encode, TaggedReply.body, hout]
    omega
  have hsize : (read32 (r.encode ++ slack) (10 + 4 * attr.outHandleCount)).toNat =
      r.params.encode.length := by
    rw [read32_of_drop (drop_of_drop (r.drop_handles slack) (by simp [hout])),
      UInt32.toNat_ofNat_of_lt' (show r.params.encode.length < 2 ^ 32 by omega)]
  have hoff : 10 + 4 * attr.outHandleCount + 4 = 14 + 4 * attr.outHandleCount := by omega
  have hnonce := TPM2B.read16_of_drop (r.drop_nonce slack hout)
  simp only [findResponseFields, val_bind, val_ite, val_pure, Mem.val_sum, Mem.val_read32,
    Mem.val_read16, hsize, hoff, hnonce]
  rw [if_neg (by omega), if_neg (by omega), if_neg (by omega), if_neg (by omega)]

end

/-! ## The Name in a response -/

theorem TPM2B.add_size_le {buf rest : Bytes} {x : TPM2B} {off : Nat}
    (hd : buf.drop off = x.encode ++ rest) : off + 2 + x.size ≤ buf.length := by
  have hl := congrArg List.length hd
  simp only [List.length_drop, List.length_append, TPM2B.length_encode] at hl
  omega

section
variable {buf rest : Bytes} {p e : Nat} {name : TPM2B}

/-- `names` with the Name of `h` read from a response. -/
def RecordsName (names : NameTable) (h : UInt32) (name : TPM2B) (names' : NameTable) : Prop :=
  ∃ src off, off + name.size ≤ src.length ∧ slice src off name.size = name.bytes ∧
    names' = (names.add h .response src off name.size).val

theorem val_extractLoadName (names : NameTable) (h : UInt32) (hd : buf.drop p = name.encode ++ rest)
    (he : p + 2 + name.size ≤ e) :
    RecordsName names h name (extractLoadName names buf p e h).val := by
  have hlen := TPM2B.add_size_le hd
  refine ⟨buf, p + 2, hlen, slice_of_drop (TPM2B.drop_of_drop hd) rfl, ?_⟩
  simp only [extractLoadName, val_bind, val_ite, val_pure, Mem.val_sum, Mem.val_read16,
    TPM2B.read16_of_drop hd]
  rw [if_neg (by omega), if_neg (by omega)]

theorem val_extractCreatePrimaryName (names : NameTable) (h : UInt32)
    {outPublic creationData creationHash digest : TPM2B}
    {ticketTag : UInt16} {hierarchy : UInt32}
    (hd : buf.drop p = (ReplyParams.createPrimary outPublic creationData creationHash ticketTag
      hierarchy digest name).encode ++ rest)
    (he : e = p + (ReplyParams.createPrimary outPublic creationData creationHash ticketTag
      hierarchy digest name).encode.length) :
    RecordsName names h name (extractCreatePrimaryName names buf p e h).val := by
  have h1 : buf.drop p = outPublic.encode ++ (creationData.encode ++ (creationHash.encode ++
      ((write16 ticketTag ++ write32 hierarchy) ++ (digest.encode ++ (name.encode ++ rest))))) := by
    rw [hd]
    simp [ReplyParams.encode]
  simp only [ReplyParams.encode, List.length_append, TPM2B.length_encode, length_write16,
    length_write32] at he
  have h2 := drop_of_drop (j := p + 2 + outPublic.size) h1 (by simp; omega)
  have h3 := drop_of_drop (j := p + 2 + outPublic.size + 2 + creationData.size) h2 (by simp; omega)
  have h4 := drop_of_drop (j := p + 2 + outPublic.size + 2 + creationData.size + 2 +
    creationHash.size) h3 (by simp; omega)
  have h5 := drop_of_drop (j := p + 2 + outPublic.size + 2 + creationData.size + 2 +
    creationHash.size + 6) h4 rfl
  have h6 := drop_of_drop (j := p + 2 + outPublic.size + 2 + creationData.size + 2 +
    creationHash.size + 6 + 2 + digest.size) h5 (by simp; omega)
  have hname := val_extractLoadName names h h6 (show _ ≤ e by omega)
  simp only [extractCreatePrimaryName, val_bind, val_ite, val_pure, Mem.val_sum,
    val_skipTPM2B h1 (show _ ≤ e by omega), val_skipTPM2B h2 (show _ ≤ e by omega),
    val_skipTPM2B h3 (show _ ≤ e by omega), val_skipTPM2B h5 (show _ ≤ e by omega)]
  rw [if_neg (by omega), if_neg (by omega), if_neg (by omega), if_neg (by omega), if_neg (by omega)]
  simp only [extractLoadName, val_bind, val_ite, val_pure, Mem.val_sum] at hname
  exact hname

/-- The Name of a response in the documented layout of its command is recorded. -/
theorem val_populateNameFromResponse (names : NameTable) (h : UInt32) {params : ReplyParams}
    {code : UInt32} (hans : params.Answers code) (hd : buf.drop p = params.encode ++ rest)
    (he : e = p + params.encode.length) :
    match params.name? with
    | none => (populateNameFromResponse names code buf p e h).val = names
    | some name =>
      RecordsName names h name (populateNameFromResponse names code buf p e h).val := by
  cases params with
  | createPrimary outPublic creationData creationHash ticketTag hierarchy digest name =>
    simp only [ReplyParams.name?]
    have hans' : code = TPM2_CC_CreatePrimary := hans
    rw [populateNameFromResponse, if_pos hans']
    exact val_extractCreatePrimaryName names h hd he
  | load name =>
    simp only [ReplyParams.name?, ReplyParams.encode, TPM2B.length_encode] at he hd ⊢
    have hans' : code = TPM2_CC_Load := hans
    rw [populateNameFromResponse, if_neg (by rw [hans']; decide), if_pos hans']
    exact val_extractLoadName names h hd (by omega)
  | other params =>
    simp only [ReplyParams.name?]
    rw [populateNameFromResponse, if_neg hans.1, if_neg hans.2]
    rfl

end

/-- A successful session-tagged response in an armed state: its nonce is stored when it fits, and
the object it names is recorded. -/
theorem val_processSessionResponse (st : SessionState) {attr : CommandAttrEntry}
    (hmem : attr ∈ kTable) (hcode : st.lastCommandCode = attr.commandCode) {r : TaggedReply}
    (slack : Bytes) (hout : r.outHandles.length = attr.outHandleCount)
    (hans : r.params.Answers attr.commandCode) (hlt : r.encode.length < 2 ^ 32) :
    ∃ names', (processSessionResponse st (r.encode ++ slack) r.encode.length).val = { st with
        nonceTpm := if 0 < r.nonce.size ∧ r.nonce.size ≤ SESSION_AUTH_MAX_DIGEST then
          st.nonceTpm.blit r.nonce.bytes else st.nonceTpm
        nonceTpmSize := if 0 < r.nonce.size ∧ r.nonce.size ≤ SESSION_AUTH_MAX_DIGEST then
          r.nonce.size else st.nonceTpmSize
        names := names' } ∧
      match r.object? with
      | none => names' = st.names
      | some (h, name) => RecordsName st.names h name names' := by
  have hnonce : slice (r.encode ++ slack)
      (14 + 4 * attr.outHandleCount + r.params.encode.length + 2) r.nonce.size = r.nonce.bytes :=
    slice_of_drop (TPM2B.drop_of_drop (r.drop_nonce slack hout)) rfl
  rw [processSessionResponse_some st (hcode ▸ lookupCommandAttr_of_mem hmem)
    (r.val_findResponseFields slack hlt hout)]
  have hpop := val_populateNameFromResponse st.names (read32 (r.encode ++ slack) 10)
    hans (r.drop_params slack hout) rfl
  have hrefresh : (refreshNonce st (r.encode ++ slack)
      (14 + 4 * attr.outHandleCount + r.params.encode.length + 2) r.nonce.size).val = { st with
        nonceTpm := if 0 < r.nonce.size ∧ r.nonce.size ≤ SESSION_AUTH_MAX_DIGEST then
          st.nonceTpm.blit r.nonce.bytes else st.nonceTpm
        nonceTpmSize := if 0 < r.nonce.size ∧ r.nonce.size ≤ SESSION_AUTH_MAX_DIGEST then
          r.nonce.size else st.nonceTpmSize } := by
    simp only [refreshNonce, val_bind, val_ite, val_pure, Mem.val_bytes, hnonce, gt_iff_lt]
    split
    · rfl
    · rfl
  rw [hrefresh]
  cases hr : r.outHandles with
  | nil =>
    have hcount : attr.outHandleCount = 0 := by
      rw [← hout, hr]
      rfl
    simp only
    rw [if_pos hcount]
    refine ⟨st.names, rfl, ?_⟩
    simp only [TaggedReply.object?, hr]
  | cons h hs =>
    have hcount : attr.outHandleCount ≠ 0 := by
      rw [← hout, hr]
      simp
    have hh : read32 (r.encode ++ slack) 10 = h := by
      have hd := r.drop_handles slack
      rw [hr, handleBytes, List.flatMap_cons, List.append_assoc] at hd
      exact read32_of_drop hd
    simp only
    rw [if_neg hcount]
    refine ⟨_, rfl, ?_⟩
    rw [hh] at hpop ⊢
    rw [hcode]
    simp only [TaggedReply.object?, hr]
    cases hname : r.params.name? with
    | none =>
      rw [hname] at hpop
      exact hpop
    | some name =>
      rw [hname] at hpop
      exact hpop

/-- The same for the turn of a session-tagged command. -/
theorem turn_executed {c : TaggedCommand} {r : TaggedReply} {t : Turn}
    (ht : t.exchange = .executed c r) (st : SessionState) (hp : st.pendingStartAuthSession = false)
    (hinit : st.initialized = true) :
    ∃ names', turn C st t = { st with
        lastCommandCode := c.attr.commandCode
        nonceTpm := if 0 < r.nonce.size ∧ r.nonce.size ≤ SESSION_AUTH_MAX_DIGEST then
          st.nonceTpm.blit r.nonce.bytes else st.nonceTpm
        nonceTpmSize := if 0 < r.nonce.size ∧ r.nonce.size ≤ SESSION_AUTH_MAX_DIGEST then
          r.nonce.size else st.nonceTpmSize
        names := names' } ∧
      match r.object? with
      | none => names' = st.names
      | some (h, name) => RecordsName st.names h name names' := by
  have hwf := t.wellFormed
  rw [ht] at hwf
  obtain ⟨-, -, hout, hans, hlt⟩ := hwf
  rw [turn_executed_eq C ht, if_neg (by rw [hp]; decide), if_neg (by rw [hinit]; decide)]
  exact val_processSessionResponse { st with lastCommandCode := c.attr.commandCode } c.attr_mem rfl
    t.responseSlack hout hans hlt

end Session
