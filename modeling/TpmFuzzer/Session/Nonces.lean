import TpmFuzzer.Session.Layer
import TpmFuzzer.Session.Sessions

/-!
# The nonce of the armed session

A session-tagged response carries a nonce for every session that authorised the command, in the
order of the command's auth entries; a StartAuthSession returns the first nonce of a new session.
`returned t` are the nonces of a turn with their handles, and `latest nonceNote ts h` is the last
one the TPM returned for `h` in a run.

The layer reads the first nonce of every response to a command of `kTable` and no other.

* For one pair of calls, the condition under which that is right is exact (`nonceTracked_iff`).
* In a run whose steps meet `KeepsNonce`, `nonce_tpm` is the last nonce the TPM returned for the
  armed handle (`run_holdsNonce`).
-/

namespace Session

open Bytes Tpm Traced Runs Reading

variable (C : Crypto)

/-- The nonce of a response that fits `nonce_tpm`. -/
def Fits (n : TPM2B) : Prop := 0 < n.size ∧ n.size ≤ SESSION_AUTH_MAX_DIGEST

instance (n : TPM2B) : Decidable (Fits n) := inferInstanceAs (Decidable (_ ∧ _))

/-! ## What the TPM returns -/

/-- The sessions of a command's auth area. -/
def areaSessions (area : Bytes) : List UInt32 :=
  ((readAll AuthEntry.read area).getD []).map AuthEntry.handle

/-- nonceTPM of an entry of a response's auth area, nonceTPM | attributes | hmac. -/
def readReplyEntry : Reader UInt8 TPM2B := do
  let nonce ← readTPM2B
  let _ ← readByte
  let _ ← readTPM2B
  return nonce

/-- The nonces of a response's auth area. -/
def areaNonces (area : Bytes) : List TPM2B := (readAll readReplyEntry area).getD []

/-- Each nonce belongs to the session in the same place. -/
def pairNonces (sessions : List UInt32) (nonces : List TPM2B) : List (UInt32 × Bytes) :=
  ((sessions.zip nonces).filter fun e => Fits e.2).map fun e => (e.1, e.2.bytes)

/-- The auth area of a command: handles | authorizationSize | auth area. -/
def readCommandArea (handleCount : Nat) : Reader UInt8 Bytes := do
  let _ ← times readWord32 handleCount
  let authSize ← readWord32
  takeN authSize.toNat

/-- The auth area of a response: handles | parameterSize | parameters | auth area. -/
def readReplyArea (outHandleCount : Nat) : Reader UInt8 Bytes := do
  let _ ← times readWord32 outHandleCount
  let paramSize ← readWord32
  let _ ← takeN paramSize.toNat
  remaining

section

-- how many handles a command has and how many its response, by the TPM's table of commands
variable (handleCounts : UInt32 → Nat × Nat)

/-- The nonces of a response to a command of any code. -/
def taggedNonces (command response : Bytes) : List (UInt32 × Bytes) :=
  let counts := handleCounts (Tpm.read32 command 6)
  if Tpm.read16 response 0 = TPM2_ST_SESSIONS then
    match (readCommandArea counts.1).run (command.drop 10),
        (readReplyArea counts.2).run (response.drop 10) with
    | some (sessions, _), some (nonces, _) => pairNonces (areaSessions sessions) (areaNonces nonces)
    | _, _ => []
  else []

/-- The nonces the TPM returned in a turn, each for its session. -/
def returned (t : Turn) : List (UInt32 × Bytes) :=
  match t.exchange with
  | .started s r => (r.handle, r.nonceTpm.bytes) :: match s.authArea with
    | none => []
    | some area => pairNonces (areaSessions area) (areaNonces r.authArea)
  | .executed c r =>
    pairNonces (c.entry.handle :: areaSessions c.moreEntries) (r.nonce :: areaNonces r.moreEntries)
  | .other command response => taggedNonces handleCounts command response
  | .failed _ _ => []

/-- The last nonce of a turn for a handle. -/
def nonceNote (t : Turn) (h : UInt32) : Option Bytes :=
  (((returned handleCounts t).filter fun e => e.1 = h).getLast?).map Prod.snd

/-- The steps over which the nonce of the armed handle stays right.  The nonce of a start to arm on
fits; the first nonce of a response to a command of `kTable` belongs to the armed session, or is the
one the layer has; and a nonce that the TPM returns for the armed handle anywhere else is the one
the layer has, or gets from that response. -/
def KeepsNonce (st : SessionState) (t : Turn) : Prop :=
  match t.exchange with
  | .started s r =>
    if s.Armable then r.nonceTpm.size ≤ SESSION_AUTH_MAX_DIGEST
    else st.initialized = true → ∀ n, (st.handle, n) ∈ returned handleCounts t → n = st.nonce
  | .executed c r =>
    st.initialized = true →
      (Fits r.nonce → c.entry.handle = st.handle ∨ r.nonce.bytes = st.nonce) ∧
      ∀ n, (st.handle, n) ∈ pairNonces (areaSessions c.moreEntries) (areaNonces r.moreEntries) →
        n = if Fits r.nonce then r.nonce.bytes else st.nonce
  | .other command response =>
    st.initialized = true →
      ∀ n, (st.handle, n) ∈ taggedNonces handleCounts command response → n = st.nonce
  | .failed _ _ => True

/-- Nothing is pending, and the nonce of the armed session is the last one returned for it. -/
structure HoldsNonce (ts : List Turn) (st : SessionState) : Prop where
  pending_eq : st.pendingStartAuthSession = false
  bounded : Bounded st
  nonce : st.initialized = true → latest (nonceNote handleCounts) ts st.handle = some st.nonce

end

/-- The nonces of an auth area with a first entry. -/
theorem mem_pairNonces_cons {s h : UInt32} {ss : List UInt32} {x : TPM2B} {xs : List TPM2B}
    {n : Bytes} : (h, n) ∈ pairNonces (s :: ss) (x :: xs) ↔
      (h = s ∧ Fits x ∧ n = x.bytes) ∨ (h, n) ∈ pairNonces ss xs := by
  unfold pairNonces
  rw [List.zip_cons_cons]
  by_cases hx : Fits x
  · rw [List.filter_cons_of_pos (by simpa using hx), List.map_cons, List.mem_cons, Prod.mk.injEq]
    simp [hx]
  · rw [List.filter_cons_of_neg (by simpa using hx)]
    simp [hx]

section

variable {handleCounts : UInt32 → Nat × Nat} {t : Turn} {h : UInt32} {n : Bytes}

/-- A turn without a nonce for the handle notes nothing. -/
theorem nonceNote_eq_none (hnone : ∀ m, (h, m) ∉ returned handleCounts t) :
    nonceNote handleCounts t h = none := by
  have hnil : (returned handleCounts t).filter (fun e => e.1 = h) = [] := by
    rw [List.filter_eq_nil_iff]
    rintro ⟨k, m⟩ hm hk
    obtain rfl : k = h := by simpa using hk
    exact hnone m hm
  rw [nonceNote, hnil]
  rfl

/-- A turn whose nonces for the handle are all the same notes that one. -/
theorem nonceNote_eq_some (hall : ∀ m, (h, m) ∈ returned handleCounts t → m = n)
    (hsome : ∃ m, (h, m) ∈ returned handleCounts t) : nonceNote handleCounts t h = some n := by
  obtain ⟨m, hm⟩ := hsome
  have hne : (returned handleCounts t).filter (fun e => e.1 = h) ≠ [] :=
    List.ne_nil_of_mem (List.mem_filter.mpr ⟨hm, by simp⟩)
  obtain ⟨hlast, hk⟩ := List.mem_filter.mp (List.getLast_mem hne)
  rw [nonceNote, List.getLast?_eq_some_getLast hne, Option.map_some]
  generalize List.getLast _ hne = e at hlast hk
  obtain ⟨k, m'⟩ := e
  obtain rfl : k = h := by simpa using hk
  rw [hall m' hlast]

end

/-! ## One pair of calls -/

/-- What the pair of calls of an executed command should do to the nonce: store it when the command
was authorised by the armed handle, and leave the stored one alone otherwise. -/
def NonceTracked (st : SessionState) (t : Turn) (c : TaggedCommand) (r : TaggedReply) : Prop :=
  if c.entry.handle = st.handle ∧ Fits r.nonce then (turn C st t).nonce = r.nonce.bytes
  else (turn C st t).nonceTpm = st.nonceTpm ∧ (turn C st t).nonceTpmSize = st.nonceTpmSize

theorem nonce_blit {st : SessionState} {n : TPM2B} (h : Fits n) :
    (st.nonceTpm.blit n.bytes).first n.size = n.bytes := Fixed.first_blit _ _ h.2

/-- The pair of calls tracks the nonce exactly when the response carries no other nonce that fits,
or the command names the armed handle just in case no start is pending. -/
theorem nonceTracked_iff {st : SessionState} (hst : Bounded st) (hinit : st.initialized = true)
    {t : Turn} {c : TaggedCommand} {r : TaggedReply} (ht : t.exchange = .executed c r) :
    NonceTracked C st t c r ↔
      ¬ Fits r.nonce ∨ r.nonce.bytes = st.nonce ∨
        (c.entry.handle = st.handle ↔ st.pendingStartAuthSession = false) := by
  have hsize := hst.nonceTpmSize_le
  cases hp : st.pendingStartAuthSession with
  | true =>
    -- the response is taken for the answer to the pending start and its nonce is not looked at
    have hturn := turn_executed_eq C ht st
    rw [if_pos hp] at hturn
    rw [NonceTracked, hturn]
    by_cases hfit : Fits r.nonce
    · by_cases hh : c.entry.handle = st.handle
      · simp only [hh, hfit, and_self, if_true, not_true_eq_false, false_or, true_iff,
          Bool.true_eq_false, or_false]
        exact eq_comm
      · simp [hh, hfit]
    · simp [hfit]
  | false =>
    obtain ⟨names', hturn, -⟩ := turn_executed C ht st hp hinit
    rw [NonceTracked, hturn]
    by_cases hfit : Fits r.nonce
    · have hfit' : 0 < r.nonce.size ∧ r.nonce.size ≤ SESSION_AUTH_MAX_DIGEST := hfit
      by_cases hh : c.entry.handle = st.handle
      · simp only [hh, hfit, and_self, if_true, hfit', not_true_eq_false, or_true, iff_true]
        exact nonce_blit hfit
      · simp only [hh, hfit, false_and, if_false, hfit', and_self, if_true, not_true_eq_false,
          false_or, iff_true, or_false]
        constructor
        · rintro ⟨harr, hsz⟩
          rw [SessionState.nonce, ← harr, ← hsz]
          exact (nonce_blit hfit).symm
        · intro hsame
          have hlen : r.nonce.size = st.nonceTpmSize := by
            rw [TPM2B.size, hsame]
            exact Fixed.length_first hsize
          refine ⟨?_, hlen⟩
          rw [hsame]
          exact Fixed.blit_first hsize
    · have hfit' : ¬ (0 < r.nonce.size ∧ r.nonce.size ≤ SESSION_AUTH_MAX_DIGEST) := hfit
      simp [hfit, hfit']

/-! ## Runs -/

/-- A turn keeps the sizes in `g_session` within its arrays. -/
theorem turn_bounded {st : SessionState} (h : Bounded st) (t : Turn) : Bounded (turn C st t) :=
  sessionAuthProcessResponse_bounded (sessionAuthPatchCommand_bounded C h _ _ _) _ _

section

variable {handleCounts : UInt32 → Nat × Nat} {ts : List Turn} {st st' : SessionState} {t : Turn}

/-- A turn after which the nonce is the one returned for the armed handle, if there is one, and the
old one otherwise. -/
theorem HoldsNonce.step (h : HoldsNonce handleCounts ts st) (hb : Bounded st')
    (hp : st'.pendingStartAuthSession = false) (hinit : st'.initialized = st.initialized)
    (hhandle : st'.handle = st.handle)
    (hall : st.initialized = true → ∀ m, (st.handle, m) ∈ returned handleCounts t → m = st'.nonce)
    (hold : st.initialized = true → (∀ m, (st.handle, m) ∉ returned handleCounts t) →
      st'.nonce = st.nonce) : HoldsNonce handleCounts (ts ++ [t]) st' := by
  refine ⟨hp, hb, fun hi => ?_⟩
  rw [hinit] at hi
  rw [hhandle]
  by_cases hsome : ∃ m, (st.handle, m) ∈ returned handleCounts t
  · exact latest_snoc_of_some (nonceNote_eq_some (hall hi) hsome)
  · have hnone : ∀ m, (st.handle, m) ∉ returned handleCounts t := fun m hm => hsome ⟨m, hm⟩
    rw [latest_snoc_of_none (nonceNote_eq_none hnone), hold hi hnone]
    exact h.nonce hi

/-- A turn that leaves the armed session alone. -/
theorem HoldsNonce.keep (h : HoldsNonce handleCounts ts st) (hb : Bounded st')
    (hs : SameSession st st')
    (hall : st.initialized = true → ∀ m, (st.handle, m) ∈ returned handleCounts t → m = st.nonce) :
    HoldsNonce handleCounts (ts ++ [t]) st' := by
  obtain ⟨hinit, hhandle, hnonce, -, hp⟩ := hs.frame
  refine h.step hb hp hinit hhandle ?_ fun _ _ => hnonce
  rw [hnonce]
  exact hall

/-- What an executed command leaves in `nonce_tpm`, if the first nonce is the armed session's. -/
theorem nonce_executed (h : HoldsNonce handleCounts ts st) {c : TaggedCommand} {r : TaggedReply}
    (ht : t.exchange = .executed c r) (hi : st.initialized = true)
    (hown : Fits r.nonce → c.entry.handle = st.handle ∨ r.nonce.bytes = st.nonce) :
    (turn C st t).nonce = if Fits r.nonce then r.nonce.bytes else st.nonce := by
  have htracked : NonceTracked C st t c r := by
    rw [nonceTracked_iff C h.bounded hi ht]
    by_cases hfit : Fits r.nonce
    · rcases hown hfit with hh | hsame
      · exact Or.inr (Or.inr (iff_of_true hh h.pending_eq))
      · exact Or.inr (Or.inl hsame)
    · exact Or.inl hfit
  unfold NonceTracked at htracked
  by_cases hc : c.entry.handle = st.handle ∧ Fits r.nonce
  · rw [if_pos hc] at htracked
    rw [htracked, if_pos hc.2]
  · rw [if_neg hc] at htracked
    have hkept : (turn C st t).nonce = st.nonce := by
      rw [SessionState.nonce, htracked.1, htracked.2, ← SessionState.nonce]
    rw [hkept]
    split
    · next hfit => exact ((hown hfit).resolve_left fun hh => hc ⟨hh, hfit⟩).symm
    · rfl

/-- The step lemma: by the four kinds of exchange. -/
theorem holdsNonce_turn (h : HoldsNonce handleCounts ts st)
    (hkeep : KeepsNonce handleCounts st t) :
    HoldsNonce handleCounts (ts ++ [t]) (turn C st t) := by
  have hb := turn_bounded C h.bounded t
  unfold KeepsNonce at hkeep
  cases ht : t.exchange with
  | started s r =>
    simp only [ht] at hkeep
    by_cases hs : s.Armable
    · rw [if_pos hs] at hkeep
      have harmed := turn_armable C st ht hs
      have hreturned : returned handleCounts t = [(r.handle, r.nonceTpm.bytes)] := by
        simp only [returned, ht, hs.1]
      refine ⟨harmed.pending_eq, hb, fun _ => latest_snoc_of_some ?_⟩
      rw [harmed.handle_eq, harmed.nonce_eq, List.take_of_length_le hkeep, nonceNote, hreturned]
      simp
    · rw [if_neg hs] at hkeep
      exact h.keep hb (turn_not_armable C st ht hs) hkeep
  | executed c r =>
    simp only [ht] at hkeep
    obtain ⟨hinit, hhandle, hp⟩ := turn_executed_frame C ht st h.pending_eq
    have hmem : ∀ m, (st.handle, m) ∈ returned handleCounts t ↔
        (st.handle = c.entry.handle ∧ Fits r.nonce ∧ m = r.nonce.bytes) ∨
          (st.handle, m) ∈ pairNonces (areaSessions c.moreEntries) (areaNonces r.moreEntries) := by
      intro m
      simp only [returned, ht]
      exact mem_pairNonces_cons
    refine h.step hb hp hinit hhandle (fun hi m hm => ?_) fun hi hnone => ?_
    · obtain ⟨hown, hmore⟩ := hkeep hi
      rw [nonce_executed C h ht hi hown]
      rcases (hmem m).mp hm with ⟨-, hfit, rfl⟩ | hm
      · rw [if_pos hfit]
      · exact hmore m hm
    · obtain ⟨hown, -⟩ := hkeep hi
      rw [nonce_executed C h ht hi hown]
      split
      · next hfit =>
        refine (hown hfit).resolve_left fun hh => hnone r.nonce.bytes ?_
        exact (hmem r.nonce.bytes).mpr (Or.inl ⟨hh.symm, hfit, rfl⟩)
      · rfl
  | other command response =>
    simp only [ht] at hkeep
    refine h.keep hb (turn_other C st h.pending_eq ht) ?_
    simpa only [returned, ht] using hkeep
  | failed command response =>
    refine h.keep hb (turn_failed C st ht) fun _ m hm => ?_
    simp [returned, ht] at hm

/-- The run lemma. -/
theorem run_holdsNonce
    (h : Always (turn C) SessionState.zero (KeepsNonce handleCounts) ts) :
    HoldsNonce handleCounts ts (run (turn C) SessionState.zero ts) :=
  run_history ⟨rfl, bounded_zero, fun hi => by cases hi⟩
    (fun _ _ hinv hkeep => holdsNonce_turn C hinv hkeep) ts h

end

/-- For a pair of calls, exactly when the nonce is tracked; and over a run of such pairs `nonce_tpm`
is the last nonce the TPM returned for the armed handle, whatever the numbers of handles of the
commands that `kTable` lacks. -/
theorem nonce_tracking :
    (∀ st, Reachable C st → st.initialized = true → ∀ t c r, t.exchange = .executed c r →
      (NonceTracked C st t c r ↔
        ¬ Fits r.nonce ∨ r.nonce.bytes = st.nonce ∨
          (c.entry.handle = st.handle ↔ st.pendingStartAuthSession = false))) ∧
    ∀ handleCounts ts, Always (turn C) SessionState.zero (KeepsNonce handleCounts) ts →
      let st := run (turn C) SessionState.zero ts
      st.initialized = true → latest (nonceNote handleCounts) ts st.handle = some st.nonce := by
  refine ⟨?_, ?_⟩
  · intro st hst hinit t c r ht
    exact nonceTracked_iff C (Reachable.bounded C hst) hinit ht
  · intro handleCounts ts h st hinit
    exact (run_holdsNonce C h).nonce hinit

/-- A Clear authorised by a session, and a response with a nonce of sixteen bytes 0x77. -/
def cleared (session : UInt32) : Turn :=
  ⟨.executed (clearCommand session [])
    ⟨[], .other [], ⟨List.replicate 16 0x77, by decide⟩, 1, TPM2B.empty, []⟩, by
      refine ⟨(by decide : TPM2_CC_Clear ≠ TPM2_CC_StartAuthSession), ?_, rfl,
        (by decide : TPM2_CC_Clear ≠ TPM2_CC_CreatePrimary ∧ TPM2_CC_Clear ≠ TPM2_CC_Load),
        by decide⟩
      rw [size_clearCommand]
      decide, [], []⟩

/-- A TPM2_PCR_Event, which is not in `kTable`, authorised by a session, and its response. -/
def measured (session : UInt32) (nonce : TPM2B) : Exchange :=
  .other
    (message TPM2_ST_SESSIONS 0x0000013C (write32 0 ++ (write32 9 ++
      ((⟨session, TPM2B.empty, 1, TPM2B.empty⟩ : AuthEntry).encode ++ write16 0))))
    (message TPM2_ST_SESSIONS TPM2_RC_SUCCESS (write32 4 ++ (write32 0 ++
      (nonce.encode ++ (1 :: TPM2B.empty.encode)))))

/-- TPM2_PCR_Event has one handle. -/
def eventCounts : UInt32 → Nat × Nat := fun code => if code = 0x0000013C then (1, 0) else (0, 0)

/-- Another session authorises a TPM2_PCR_Event. -/
def measuredByOther : Turn :=
  ⟨measured 0x03000000 ⟨List.replicate 16 0x99, by decide⟩, by decide +kernel, [], []⟩

theorem cleared_nonce_tracked :
    (∃ c r, (cleared 0x02000000).exchange = .executed c r ∧
      NonceTracked clearDigests armedState (cleared 0x02000000) c r) ∧
    latest (nonceNote eventCounts) [hmacStarted, cleared 0x02000000, measuredByOther] 0x02000000 =
      some (run (turn clearDigests) SessionState.zero
        [hmacStarted, cleared 0x02000000, measuredByOther]).nonce := by
  refine ⟨⟨_, _, rfl, ?_⟩, ?_⟩
  · refine ((nonce_tracking clearDigests).1 armedState ⟨[.initialise 0x02000000
      (some (List.replicate 16 0x55)) 16 none 0 TPM2_ALG_SHA256], rfl⟩ rfl
      (cleared 0x02000000) _ _ rfl).mpr ?_
    exact Or.inr (Or.inr (iff_of_true rfl rfl))
  · refine (nonce_tracking clearDigests).2 eventCounts
      [hmacStarted, cleared 0x02000000, measuredByOther] ?_ (by decide +kernel)
    refine ((Always.nil.snoc ?_).snoc ?_).snoc ?_
    · simp only [KeepsNonce, hmacStarted]
      rw [if_pos (by decide)]
      decide
    · intro _
      refine ⟨fun _ => Or.inl (by decide +kernel), fun n hn => ?_⟩
      cases hn
    · intro _ n hn
      have hnonces : returned eventCounts measuredByOther =
          [(0x03000000, List.replicate 16 0x99)] := by decide +kernel
      have hhandle : (run (turn clearDigests) SessionState.zero
          [hmacStarted, cleared 0x02000000]).handle = 0x02000000 := by decide +kernel
      have hmem : (0x02000000, n) ∈ returned eventCounts measuredByOther := hhandle ▸ hn
      rw [hnonces] at hmem
      have hfst : (0x02000000 : UInt32) = 0x03000000 :=
        congrArg Prod.fst (List.mem_singleton.mp hmem)
      exact absurd hfst (by decide)

/-- The nonce of a policy session, 0x03000000, replaces the one of the armed session. -/
theorem cleared_nonce_replaced :
    let st := run (turn clearDigests) SessionState.zero [hmacStarted, cleared 0x03000000]
    st.initialized = true ∧ st.handle = 0x02000000 ∧ st.nonce = List.replicate 16 0x77 ∧
      latest (nonceNote eventCounts) [hmacStarted, cleared 0x03000000] 0x02000000 =
        some (List.replicate 16 0x55) := by
  decide +kernel

end Session
