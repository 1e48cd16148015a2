import TpmFuzzer.Harness.Layout

/-!
# Tags

A post-processor forces the tag of its kind, and the marshaller writes the authorization area of a
kind with sessions without looking at the tag.  Three post-processors add a password session to an
empty list of sessions.  The other seven send an area of size 0 under `TPM_ST_SESSIONS`:

    marshalCommand mu (postProcess c) = some out  →  (TagMatches (postProcess c) out  ↔  c.HasEntry)
                                                                             (tagMatches_iff)
-/

namespace Proto

open Bytes Tpm Writer Session

/-- Behind the handle stands an authorization area with an entry exactly when the tag says so, and
otherwise there is none, not even its size. -/
structure TagMatches (c : TPMCommand) (out : Bytes) : Prop where
  sessions : read16 out 0 = TPM2_ST_SESSIONS ↔
    ∃ p params, c.sessionPart = some p ∧ p.sessions ≠ [] ∧
      out.drop 14 = authArea p.sessions ++ params ∧
      9 ≤ (read32 out 14).toNat
  noSessions : read16 out 0 = TPM2_ST_NO_SESSIONS ↔
    ∀ f ∈ c.fields.getD [], ∀ l, f.value ≠ .repeated (.sessions l)

/-- A command of a kind with sessions has one, or gets one. -/
def TPMCommand.HasEntry : TPMCommand → Prop
  | .create m => m.sessions ≠ []
  | .createprimary m => m.sessions ≠ []
  | .rsadecrypt m => m.sessions ≠ []
  | .pcrevent m => m.sessions ≠ []
  | .pcrallocate m => m.sessions ≠ []
  | .nvdefinespace m => m.sessions ≠ []
  | .pcrsetauthpolicy m => m.sessions ≠ []
  | _ => True

/-- Only the post-processors that add a session put one into an empty list. -/
theorem sessions_ne_nil_iff {c : TPMCommand} {p : SessionPart}
    (h : (postProcess c).sessionPart = some p) :
    p.sessions ≠ [] ↔ c.HasEntry := by
  cases c with
  | clear m =>
    cases h
    exact iff_of_true (defaultSessions_ne_nil m.sessions) trivial
  | load m =>
    cases h
    exact iff_of_true (defaultSessions_ne_nil m.sessions) trivial
  | setprimarypolicy m =>
    cases h
    exact iff_of_true (defaultSessions_ne_nil m.sessions) trivial
  | _ =>
    cases h <;> exact Iff.rfl

/-- The tag of a kind without sessions. -/
theorem read16_noSessions {mu : Tss2Mu} {c : TPMCommand} {out : Bytes}
    (hnone : (postProcess c).sessionPart = none)
    (h : marshalCommand mu (postProcess c) = some out) :
    read16 out 0 = TPM2_ST_NO_SESSIONS := by
  have hheader : postProcess c = .notSet ∨ ∃ header fs,
      (postProcess c).fields = some (.header header :: fs) ∧
        (header.getD {}).tag = TPM_ST_NO_SESSIONS := by
    cases c with
    | notSet => exact Or.inl rfl
    | _ => first | exact Or.inr ⟨_, _, rfl, rfl⟩ | cases hnone
  rcases hheader with hnot | ⟨header, fs, hfields, htag⟩
  · rw [hnot] at h
    cases h
  · obtain ⟨body, -, rfl, -⟩ := marshalCommand_message hfields h
    rw [htag, ← List.append_nil (message _ _ _), read16_message]
    rfl

/-- The tag and the area of a kind with sessions. -/
theorem tagged_layout {mu : Tss2Mu} {c : TPMCommand} {p : SessionPart} {out : Bytes}
    (hp : (postProcess c).sessionPart = some p) (h : marshalCommand mu (postProcess c) = some out) :
    read16 out 0 = TPM2_ST_SESSIONS ∧ (∃ params, out.drop 14 = authArea p.sessions ++ params) ∧
      (read32 out 14).toNat = areaSize p.sessions := by
  obtain ⟨params, -, hout, hle⟩ := marshalCommand_layout hp h
  rw [hout, length_layout] at hle
  rw [(postProcess_header hp).1, ← List.append_nil (message _ _ _)] at hout
  have hk : kMaxBuffer = 1048576 := rfl
  rw [hout, read16_message, drop_area, read32_areaSize _ _ _ _ _ _ (by omega)]
  exact ⟨rfl, ⟨_, rfl⟩, rfl⟩

theorem tagMatches_iff (mu : Tss2Mu) (c : TPMCommand) (out : Bytes)
    (h : marshalCommand mu (postProcess c) = some out) :
    TagMatches (postProcess c) out ↔ c.HasEntry := by
  have hne : TPM2_ST_NO_SESSIONS ≠ TPM2_ST_SESSIONS := by decide
  cases hp : (postProcess c).sessionPart with
  | none =>
    have htag := read16_noSessions hp h
    have hentry : c.HasEntry := by
      cases c <;> trivial
    refine iff_of_true ⟨?_, ?_⟩ hentry
    · rw [htag]
      refine iff_of_false hne ?_
      rintro ⟨p, params, hp', -⟩
      rw [hp] at hp'
      cases hp'
    · exact iff_of_true htag ((sessionPart_eq_none_iff _).mp hp)
  | some p =>
    obtain ⟨htag, ⟨params, harea⟩, hsize⟩ := tagged_layout hp h
    rw [← sessions_ne_nil_iff hp]
    constructor
    · intro hmatch
      obtain ⟨p', params', hp', hnil, -⟩ := hmatch.sessions.mp htag
      rw [hp] at hp'
      cases hp'
      exact hnil
    · intro hnil
      refine ⟨iff_of_true htag ⟨p, params, hp, hnil, harea, ?_⟩, ?_⟩
      · rw [hsize]
        exact (areaSize_pos_iff p.sessions).mpr hnil
      · refine iff_of_false ?_ ?_
        · rw [htag]
          exact hne.symm
        · rw [← sessionPart_eq_none_iff, hp]
          exact nofun

theorem clear_tagged :
    ∃ out, marshalCommand Tss2Mu.standard (postProcess (.clear {})) = some out ∧
      TagMatches (postProcess (.clear {})) out := by
  obtain ⟨out, h⟩ := Option.isSome_iff_exists.mp
    (show (marshalCommand Tss2Mu.standard (postProcess (.clear {}))).isSome by decide +kernel)
  exact ⟨out, h, (tagMatches_iff Tss2Mu.standard (.clear {}) out h).mpr trivial⟩

/-- A CreatePrimary without sessions is tagged all the same. -/
theorem createPrimary_mistagged :
    ∃ out, marshalCommand Tss2Mu.standard (postProcess (.createprimary {})) = some out ∧
      ¬ TagMatches (postProcess (.createprimary {})) out := by
  obtain ⟨out, h⟩ := Option.isSome_iff_exists.mp
    (show (marshalCommand Tss2Mu.standard (postProcess (.createprimary {}))).isSome
      by decide +kernel)
  refine ⟨out, h, fun hmatch => ?_⟩
  obtain ⟨htag, -⟩ := tagged_layout rfl h
  obtain ⟨p, params, hp, hnil, -⟩ := hmatch.sessions.mp htag
  cases hp
  exact hnil rfl

end Proto
