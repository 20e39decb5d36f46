import SecurityAudit.Audit.Exclusion
import SecurityAudit.Proofs.Globs
import SecurityAudit.Proofs.PathParts

/-!
# What is excluded

Exclusions are for a path when one of them matches some of its last parts, joined by slashes
(`covers_texts_iff`).  The path itself is never looked at: for a path that is written plainly it is
what all its parts make, but any other path, such as one from the root of the file system, may be
matched by a glob that excludes nothing (`covers_exactly`).
-/

namespace SecurityAudit.Exclusion

variable {globs : List String} {path text : String} {names : List String}

/-- The endings of some names are what is left of them after the first ones. -/
theorem mem_endings_iff :
    text ∈ endings names ↔ ∃ i < names.length, text = Text.join "/" (names.drop i) := by
  induction names with
  | nil => simp [endings]
  | cons name names ih =>
      rw [endings, List.mem_cons, ih]
      constructor
      · rintro (rfl | ⟨i, hi, rfl⟩)
        · exact ⟨0, Nat.zero_lt_succ _, rfl⟩
        · exact ⟨i + 1, Nat.succ_lt_succ hi, rfl⟩
      · rintro ⟨i, hi, rfl⟩
        cases i with
        | zero => exact .inl rfl
        | succ i => exact .inr ⟨i, Nat.lt_of_succ_lt_succ hi, rfl⟩

/-- The endings of the last ones of some names are endings of them all. -/
theorem endings_subset_of_suffix {last : List String} (h : last <:+ names) :
    endings last ⊆ endings names := by
  obtain ⟨first, rfl⟩ := h
  induction first with
  | nil => exact List.Subset.refl _
  | cons name first ih =>
      rw [List.cons_append, endings]
      exact List.subset_cons_of_subset _ ih

/-- A glob matches some of the last parts of a path, joined by slashes. -/
def MatchesEnding (glob path : String) : Prop :=
  ∃ i < (Path.ofString path).parts.length,
    globMatches glob (Text.join "/" ((Path.ofString path).parts.drop i)) = true

theorem any_endings_iff (glob path : String) :
    (endings (Path.ofString path).parts).any (globMatches glob) = true ↔
      MatchesEnding glob path := by
  rw [List.any_eq_true]
  constructor
  · rintro ⟨text, htext, hmatch⟩
    obtain ⟨i, hi, rfl⟩ := mem_endings_iff.mp htext
    exact ⟨i, hi, hmatch⟩
  · rintro ⟨i, hi, hmatch⟩
    exact ⟨_, mem_endings_iff.mpr ⟨i, hi, rfl⟩, hmatch⟩

/-- Texts can be tried one after another. -/
theorem covers_texts (globs : List String) (path : String) :
    covers (.texts globs) path =
      .ok (globs.any fun g => (endings (Path.ofString path).parts).any (globMatches g)) := by
  have hany : ∀ ends, anyFits ends (globs.map .text) =
      .ok (globs.any fun g => ends.any (globMatches g)) := by
    intro ends
    induction globs with
    | nil => rfl
    | cons g globs ih =>
        rw [List.map_cons, anyFits, ih, List.any_cons]
        cases hfits : ends.any (globMatches g) <;>
          simp [fitsOne, hfits, bind, Except.bind, pure, Except.pure]
  exact hany _

/-- **Exclusions are for a path** when one of them matches some of its last parts. -/
theorem covers_texts_iff :
    covers (.texts globs) path = .ok true ↔ ∃ g ∈ globs, MatchesEnding g path := by
  rw [covers_texts, Except.ok.injEq, List.any_eq_true]
  simp only [any_endings_iff]

/-- A glob that matches some of the last parts of a path matches those parts of any path that ends
with them. -/
theorem MatchesEnding.of_suffix {glob p : String} (h : MatchesEnding glob p)
    (hsuffix : (Path.ofString p).parts <:+ (Path.ofString path).parts) :
    MatchesEnding glob path := by
  rw [← any_endings_iff, List.any_eq_true] at h ⊢
  obtain ⟨text, htext, hmatch⟩ := h
  exact ⟨text, endings_subset_of_suffix hsuffix htext, hmatch⟩

/-- Exclusions that are for a path are for any path that ends with its parts. -/
theorem covers_of_suffix {p : String} (h : covers (.texts globs) p = .ok true)
    (hsuffix : (Path.ofString p).parts <:+ (Path.ofString path).parts) :
    covers (.texts globs) path = .ok true := by
  obtain ⟨g, hg, hends⟩ := covers_texts_iff.mp h
  exact covers_texts_iff.mpr ⟨g, hg, hends.of_suffix hsuffix⟩

/-- What some globs exclude is excluded by more of them. -/
theorem covers_mono {more : List String} (hmore : globs ⊆ more)
    (h : covers (.texts globs) path = .ok true) : covers (.texts more) path = .ok true := by
  obtain ⟨g, hg, hends⟩ := covers_texts_iff.mp h
  exact covers_texts_iff.mpr ⟨g, hmore hg, hends⟩

/-- It does not matter in which order globs are given, and how often. -/
theorem covers_congr {others : List String} (hsame : ∀ g, g ∈ globs ↔ g ∈ others)
    (path : String) : covers (.texts globs) path = covers (.texts others) path := by
  rw [covers_texts, covers_texts, Except.ok.injEq, Bool.eq_iff_iff, List.any_eq_true,
    List.any_eq_true]
  exact exists_congr fun g => and_congr_left fun _ => hsame g

/-- The glob of the path itself excludes it only if it is written plainly. -/
theorem isPlain_of_matchesEnding_literal
    (h : MatchesEnding (String.ofList (Glob.literal path.toList)) path) : Path.IsPlain path := by
  obtain ⟨i, hi, hmatch⟩ := h
  rw [globMatches, String.toList_ofList, Glob.matchTokens_literal_iff, String.toList_inj] at hmatch
  exact Path.isPlain_of_eq_join hi hmatch.symm

/-- **What is excluded, exactly.**  Whether exclusions are for a path can always be told, and they
are when one of them matches the parts of the path from one of them on, joined by slashes.  That a
glob which matches the path itself excludes it too is true of paths that are written plainly, and of
no others: of every other path some glob matches the path itself and excludes nothing. -/
theorem covers_exactly (path : String) :
    (∀ globs, ∃ b, covers (.texts globs) path = .ok b ∧
      (b = true ↔ ∃ g ∈ globs, MatchesEnding g path)) ∧
    ((∀ globs, covers (.texts globs) path = .ok true ↔
      ∃ g ∈ globs, globMatches g path = true ∨ MatchesEnding g path) ↔ Path.IsPlain path) := by
  refine ⟨fun globs => ⟨_, covers_texts globs path, ?_⟩, ?_, ?_⟩
  · rw [← covers_texts_iff, covers_texts, Except.ok.injEq]
  · intro hitself
    have hself : globMatches (String.ofList (Glob.literal path.toList)) path = true := by
      rw [globMatches, String.toList_ofList]
      exact Glob.matchTokens_literal_iff.mpr rfl
    have hcovers := (hitself [_]).mpr ⟨_, List.mem_singleton_self _, .inl hself⟩
    obtain ⟨g, hg, hends⟩ := covers_texts_iff.mp hcovers
    rw [List.mem_singleton.mp hg] at hends
    exact isPlain_of_matchesEnding_literal hends
  · intro hplain globs
    obtain ⟨hsome, hjoin⟩ := hplain.join_parts
    rw [covers_texts_iff]
    refine exists_congr fun g => and_congr_right fun _ => ⟨.inr, ?_⟩
    rintro (hself | hends)
    · -- The path is what all its parts make.
      refine ⟨0, List.length_pos_iff.mpr hsome, ?_⟩
      rw [List.drop_zero, hjoin]
      exact hself
    · exact hends

/-- A glob for the files of a directory at the root matches such a file, and excludes nothing. -/
theorem exists_matched_not_covered :
    globMatches "/srv/*" "/srv/app.py" = true ∧
      covers (.texts ["/srv/*"]) "/srv/app.py" = .ok false ∧
      ¬ (covers (.texts ["/srv/*"]) "/srv/app.py" = .ok true ↔
        ∃ g ∈ ["/srv/*"], globMatches g "/srv/app.py" = true ∨ MatchesEnding g "/srv/app.py") := by
  have hmatch : globMatches "/srv/*" "/srv/app.py" = true := by decide +kernel
  have hcovers : covers (.texts ["/srv/*"]) "/srv/app.py" = .ok false := by
    rw [covers_texts, Except.ok.injEq]
    decide +kernel
  refine ⟨hmatch, hcovers, fun hitself => ?_⟩
  have htrue := hitself.mpr ⟨_, List.mem_singleton_self _, .inl hmatch⟩
  rw [hcovers] at htrue
  cases htrue

end SecurityAudit.Exclusion
