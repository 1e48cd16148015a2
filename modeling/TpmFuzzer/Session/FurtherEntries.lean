import TpmFuzzer.Session.Rewrite

/-!
# Commands with several auth entries

A comment in `SessionAuthPatchCommand` says that multi-session commands carry additional entries
behind the first one, which stay as they are.  The parse of the first entry ends with a check that
it fills the whole area, so a command with further entries is not rewritten at all:

    RewritesFirst C st c slack cap  ↔
      (ReachesEntry st c ∧ c.moreEntries = [] ∨ c already has the entry of the session) ∧
        the new size fits the header                                         (rewritesFirst_iff)
-/

namespace Session

open Bytes Tpm Traced

variable (C : Crypto)

/-- The first entry has a fresh nonce and the HMAC, the further entries and cpBuffer follow it
unchanged, and both size fields grow by what the entry grows. -/
def RewritesFirst (st : SessionState) (c : TaggedCommand) (slack : Bytes) (cap : Nat) : Prop :=
  let r := (sessionAuthPatchCommand C st (some (c.encode ++ slack)) c.size cap).val
  let c' := c.authorise C st
  let delta : Int := 48 - (c.entry.nonce.size + c.entry.hmac.size)
  ∃ buf, r.buf = some buf ∧ (r.size : Int) = c.size + delta ∧
    (((read32 buf 2).toNat : Nat) : Int) = c.size + delta ∧
    (((read32 buf (10 + 4 * c.attr.handleCount)).toNat : Nat) : Int) = c.authSize + delta ∧
    buf.take r.size = message TPM2_ST_SESSIONS c.attr.commandCode
      (handleBytes c.handles ++ (write32 (UInt32.ofNat c'.authSize) ++
        (c'.entry.encode ++ (c.moreEntries ++ c.params))))

/-- The layer has a digest to use, and the command is not one that is captured. -/
def ReachesEntry (st : SessionState) (c : TaggedCommand) : Prop :=
  st.digestSize ≠ 0 ∧ c.attr.commandCode ≠ TPM2_CC_StartAuthSession

/-- A command with further entries is returned as it is, like one that is not parsed at all. -/
theorem patch_unchanged {st : SessionState} {c : TaggedCommand} (slack : Bytes) {cap : Nat}
    (hno : ¬ (ReachesEntry st c ∧ c.moreEntries = [])) (hH : c.entry.handle = st.handle)
    (hlt : c.size < 2 ^ 32) (hsize : c.size ≤ cap) :
    ∃ st', (sessionAuthPatchCommand C st (some (c.encode ++ slack)) c.size cap).val =
      ⟨st', some (c.encode ++ slack), c.size⟩ := by
  have hcode : read32 (c.encode ++ slack) 6 = c.attr.commandCode := read32_message_code _ _ _ _
  rw [sessionAuthPatchCommand_good C st (TaggedCommand.goodHeader slack hlt hsize)]
  simp only
  rw [hcode]
  by_cases hcc : c.attr.commandCode = TPM2_CC_StartAuthSession
  · rw [if_pos hcc]
    exact ⟨_, rfl⟩
  · by_cases hdigest : st.initialized = false ∨ st.digestSize = 0
    · rw [if_neg hcc, if_pos hdigest]
      exact ⟨_, rfl⟩
    · have hm : c.moreEntries ≠ [] := fun hm => hno ⟨⟨fun h => hdigest (Or.inr h), hcc⟩, hm⟩
      have hpatch : (patchSessionCommand C { st with lastCommandCode := c.attr.commandCode }
          (c.encode ++ slack) c.size cap c.attr.commandCode).val = (c.encode ++ slack, c.size) := by
        simp only [patchSessionCommand, lookupCommandAttr_of_mem c.attr_mem, val_bind,
          TaggedCommand.val_findAuthArea slack hlt, ← hH,
          TaggedCommand.val_parseAuthEntry_ite, if_neg hm,
          val_pure]
      rw [if_neg hcc, if_neg hdigest, hpatch]
      split
      · exact ⟨_, rfl⟩
      · exact ⟨_, rfl⟩

/-- Both sizes of the rewritten command, from those of the command. -/
theorem sizes_authorise (st : SessionState) (c : TaggedCommand) :
    (((c.authorise C st).authSize : Nat) : Int) =
        c.authSize + (48 - (c.entry.nonce.size + c.entry.hmac.size)) ∧
      (((c.authorise C st).size : Nat) : Int) =
        c.size + (48 - (c.entry.nonce.size + c.entry.hmac.size)) := by
  have hauth := TaggedCommand.authSize_authorise C st c
  have hsize := TaggedCommand.size_authorise_add C st c
  have hold : c.authSize = 9 + c.entry.nonce.size + c.entry.hmac.size + c.moreEntries.length := by
    rw [TaggedCommand.authSize, AuthEntry.length_encode]
  constructor
  · omega
  · omega

theorem encode_authorise_eq (st : SessionState) (c : TaggedCommand) :
    (c.authorise C st).encode = message TPM2_ST_SESSIONS c.attr.commandCode
      (handleBytes c.handles ++ (write32 (UInt32.ofNat (c.authorise C st).authSize) ++
        ((c.authorise C st).entry.encode ++ (c.moreEntries ++ c.params)))) := rfl

/-- A buffer with the rewritten command in front is what is asked for, as long as its size fits the
header. -/
theorem rewritesFirst_of_buf {st : SessionState} {c : TaggedCommand}
    {slack rest : Bytes} {cap : Nat}
    {st' : SessionState}
    (hr : (sessionAuthPatchCommand C st (some (c.encode ++ slack)) c.size cap).val =
      ⟨st', some ((c.authorise C st).encode ++ rest), (c.authorise C st).size⟩) :
    RewritesFirst C st c slack cap ↔ (c.authorise C st).size < 2 ^ 32 := by
  obtain ⟨hauth, hsize⟩ := sizes_authorise C st c
  have hbody := (c.authorise C st).size_eq
  have hparts : (c.authorise C st).size =
      14 + 4 * c.attr.handleCount + (c.authorise C st).authSize + c.params.length := rfl
  unfold RewritesFirst
  rw [hr]
  constructor
  · rintro ⟨buf, hbuf, -, hheader, -⟩
    have := (read32 buf 2).toNat_lt
    omega
  · intro hlt
    refine ⟨_, rfl, hsize, ?_, ?_, ?_⟩
    · rw [TaggedCommand.encode, read32_message_size _ _ _ _ (by omega), ← hbody]
      exact hsize
    · have hd := (c.authorise C st).drop_authSize rest
      rw [show (c.authorise C st).attr.handleCount = c.attr.handleCount from rfl] at hd
      rw [read32_of_drop hd, UInt32.toNat_ofNat_of_lt'
        (show (c.authorise C st).authSize < 2 ^ 32 by omega)]
      exact hauth
    · rw [← TaggedCommand.length_encode, List.take_left, encode_authorise_eq]

/-- A command that has this entry already is its own rewriting. -/
theorem authorise_eq_self {st : SessionState} {c : TaggedCommand}
    (h : c.entry = (c.authorise C st).entry) :
    c.authorise C st = c := by
  have heta : c.authorise C st = { c with entry := (c.authorise C st).entry } := rfl
  rw [heta, ← h]

theorem entry_eq_of_encode {st : SessionState} {c : TaggedCommand}
    (h : c.encode = (c.authorise C st).encode) : c.entry = (c.authorise C st).entry := by
  rw [encode_authorise_eq] at h
  have hbody := List.append_cancel_left (message_inj _ _ h)
  obtain ⟨-, htail⟩ := List.append_inj hbody rfl
  exact AuthEntry.encode_inj (List.append_cancel_right htail)

/-- The first entry is rewritten only when there are no others, or when there is nothing to
rewrite. -/
theorem rewritesFirst_iff {st : SessionState} {c : TaggedCommand} {more : List AuthEntry}
    (slack : Bytes) {cap : Nat} (hinit : st.initialized = true)
    (hmore : c.moreEntries = more.flatMap AuthEntry.encode) (hH : c.entry.handle = st.handle)
    (hnames : ∀ h ∈ c.handles, (handleName st.names h kMaxNameSize).val ≠ [])
    (hlt : c.size < 2 ^ 32) (hsize : c.size ≤ cap)
    (hcap : c.size + 48 ≤ cap + (c.entry.nonce.size + c.entry.hmac.size))
    (hbuf : cap ≤ (c.encode ++ slack).length) :
    RewritesFirst C st c slack cap ↔
      (ReachesEntry st c ∧ more = [] ∨ c.entry = (c.authorise C st).entry) ∧
        c.size + 48 < 2 ^ 32 + (c.entry.nonce.size + c.entry.hmac.size) := by
  have hnew := TaggedCommand.size_authorise_add C st c
  have hfits : (c.authorise C st).size < 2 ^ 32 ↔
      c.size + 48 < 2 ^ 32 + (c.entry.nonce.size + c.entry.hmac.size) := by omega
  have hnil : c.moreEntries = [] ↔ more = [] := by
    rw [hmore]
    cases more with
    | nil => simp
    | cons e more => exact iff_of_false nofun nofun
  rw [← hfits, ← hnil]
  by_cases hreach : ReachesEntry st c ∧ c.moreEntries = []
  · obtain ⟨⟨hdigest, hcc⟩, hm⟩ := hreach
    obtain ⟨rest, hr⟩ := sessionAuthPatchCommand_authorise C slack hinit
      hdigest hcc hm hH hnames hlt
      hsize (by omega) hbuf
    rw [rewritesFirst_of_buf C hr]
    exact ⟨fun h => ⟨Or.inl ⟨⟨hdigest, hcc⟩, hm⟩, h⟩, fun h => h.2⟩
  · obtain ⟨st', hr⟩ := patch_unchanged C slack hreach hH hlt hsize
    constructor
    · intro hrewrites
      obtain ⟨buf, hbuf', hsize', hheader, -, htake⟩ := hrewrites
      rw [hr] at hbuf' hsize' htake
      cases hbuf'
      rw [← TaggedCommand.length_encode, List.take_left, ← encode_authorise_eq] at htake
      have hentry := entry_eq_of_encode C htake
      refine ⟨Or.inr hentry, ?_⟩
      rw [authorise_eq_self C hentry]
      exact hlt
    · rintro ⟨hrewritable | hentry, hlt'⟩
      · exact absurd hrewritable hreach
      · have hself := authorise_eq_self C hentry
        have hr' : (sessionAuthPatchCommand C st (some (c.encode ++ slack)) c.size cap).val =
            ⟨st', some ((c.authorise C st).encode ++ slack), (c.authorise C st).size⟩ := by
          rw [hself]
          exact hr
        exact (rewritesFirst_of_buf C hr').mpr hlt'

theorem clearCommand_rewritesFirst :
    RewritesFirst clearDigests armedState (clearCommand 0x02000000 []) (List.replicate 64 0) 91 :=
  (rewritesFirst_iff clearDigests (List.replicate 64 0) (by decide)
    (show (clearCommand 0x02000000 []).moreEntries = [].flatMap AuthEntry.encode from rfl) rfl
    (clearCommand_named _ _) (by decide) (by decide) (by decide) (by decide)).mpr
    ⟨Or.inl ⟨⟨by decide, by decide⟩, rfl⟩, by decide⟩

/-- An empty password. -/
def passwordEntry : AuthEntry := ⟨0x40000009, TPM2B.empty, 0, TPM2B.empty⟩

/-- TPM2_Clear with a password entry behind that of the armed session. -/
def twoEntryClear : TaggedCommand :=
  { clearCommand 0x02000000 [] with moreEntries := [passwordEntry].flatMap AuthEntry.encode }

/-- It has an empty nonce and an empty HMAC, and keeps them. -/
theorem twoEntryClear_not_rewritten :
    armedState.initialized = true ∧ armedState.hashAlg = TPM2_ALG_SHA256 ∧
    twoEntryClear.entry.handle = armedState.handle ∧ passwordEntry.handle ≠ armedState.handle ∧
    (∀ h ∈ twoEntryClear.handles, (handleName armedState.names h kMaxNameSize).val ≠ []) ∧
    ¬ RewritesFirst clearDigests armedState twoEntryClear (List.replicate 64 0) 100 := by
  refine ⟨by decide, by decide, by decide, by decide, clearCommand_named 0x02000000 [], ?_⟩
  have hsize : twoEntryClear.size = 36 := by decide
  have hmore : ¬ (ReachesEntry armedState twoEntryClear ∧
      twoEntryClear.moreEntries = []) := fun h =>
    absurd h.2 nofun
  obtain ⟨st', hr⟩ : ∃ st', (sessionAuthPatchCommand clearDigests armedState
      (some (twoEntryClear.encode ++ List.replicate 64 0)) twoEntryClear.size 100).val =
      ⟨st', _, _⟩ :=
    patch_unchanged clearDigests (List.replicate 64 0) hmore rfl (by omega) (by omega)
  rintro ⟨buf, -, hgrown, -⟩
  rw [hr] at hgrown
  have hsame : ((36 : Nat) : Int) = 36 + 48 := hgrown
  cases hsame

end Session
