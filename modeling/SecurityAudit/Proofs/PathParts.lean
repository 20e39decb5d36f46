import Mathlib.Data.List.Infix
import SecurityAudit.Path
import SecurityAudit.Proofs.TextPieces

/-!
# Paths and their parts

The names of a path stand between slashes, so a path that goes on after a slash has the names before
it and the names after it (`namesOf_append_slash`).  Names that are joined by slashes are found
again (`namesOf_join`), and a path that is written is read again (`ofString_text`).

But several texts stand for one path, since empty names and single dots are dropped.  A text that is
written plainly is what its parts make when they are joined (`IsPlain.join_parts`), and no other
text is (`isPlain_of_eq_join`).
-/

namespace SecurityAudit.Path

variable {cs ds : List Char} {name s : String} {names : List String}

/-- A name that says something: it is neither empty nor a single dot, and has no slash in it. -/
structure IsName (name : String) : Prop where
  ne_empty : name ≠ ""
  ne_dot : name ≠ "."
  no_slash : '/' ∉ name.toList

/-! ## Names -/

theorem isName_of_mem_namesOf (h : name ∈ namesOf cs) : IsName name := by
  obtain ⟨piece, hpiece, hname⟩ := List.mem_filterMap.mp h
  rw [Option.ite_none_left_eq_some] at hname
  obtain ⟨hfull, hname⟩ := hname
  obtain rfl := Option.some.inj hname
  rw [Bool.or_eq_true, not_or, List.isEmpty_iff, beq_iff_eq] at hfull
  refine ⟨fun h => hfull.1 ?_, fun h => hfull.2 ?_, ?_⟩
  · simpa using congrArg String.toList h
  · simpa using congrArg String.toList h
  · rw [String.toList_ofList]
    exact Text.not_mem_of_mem_splitAt hpiece

/-- A slash divides the names of a path into those before it and those after it. -/
theorem namesOf_append_slash (cs ds : List Char) :
    namesOf (cs ++ '/' :: ds) = namesOf cs ++ namesOf ds := by
  rw [namesOf, Text.splitAt_append_cons, List.filterMap_append]
  rfl

/-- A slash in front says nothing about the names. -/
theorem namesOf_slash (ds : List Char) : namesOf ('/' :: ds) = namesOf ds :=
  namesOf_append_slash [] ds

theorem IsName.namesOf_eq (h : IsName name) : namesOf name.toList = [name] := by
  have hpieces : Text.splitAt '/' name.toList = [name.toList] := by
    have hjoined := Text.splitAt_intercalate (List.cons_ne_nil name.toList [])
      (List.forall_mem_singleton.mpr h.no_slash)
    rwa [List.intercalate_singleton] at hjoined
  have hfull : (name.toList.isEmpty || name.toList == ['.']) = false := by
    rw [Bool.or_eq_false_iff, List.isEmpty_eq_false_iff, beq_eq_false_iff_ne]
    exact ⟨fun h' => h.ne_empty (String.toList_eq_nil_iff.mp h'),
      fun h' => h.ne_dot (String.toList_inj.mp h')⟩
  rw [namesOf, hpieces, List.filterMap_cons, hfull]
  simp

/-- **Names that are joined are found again.** -/
theorem namesOf_join (h : ∀ name ∈ names, IsName name) :
    namesOf (Text.join "/" names).toList = names := by
  induction names with
  | nil => rfl
  | cons name names ih =>
      obtain ⟨hname, hnames⟩ := List.forall_mem_cons.mp h
      cases names with
      | nil =>
          rw [Text.join, String.intercalate_singleton]
          exact hname.namesOf_eq
      | cons next names =>
          have hjoin : (Text.join "/" (name :: next :: names)).toList =
              name.toList ++ '/' :: (Text.join "/" (next :: names)).toList := by
            simp only [Text.join, String.intercalate_cons_cons, String.toList_append]
            simp
          rw [hjoin, namesOf_append_slash, hname.namesOf_eq, ih hnames, List.singleton_append]

/-- Joined names do not begin with a slash. -/
theorem exists_join_eq_cons (hne : names ≠ []) (h : ∀ name ∈ names, IsName name) :
    ∃ c cs, (Text.join "/" names).toList = c :: cs ∧ c ≠ '/' := by
  obtain ⟨name, names, rfl⟩ := List.exists_cons_of_ne_nil hne
  have hname := h name List.mem_cons_self
  cases hchars : name.toList with
  | nil => exact absurd (String.toList_eq_nil_iff.mp hchars) hname.ne_empty
  | cons c cs =>
      have hslash : c ≠ '/' := by
        have hall := hname.no_slash
        rw [hchars] at hall
        exact fun hc => hall (hc ▸ List.mem_cons_self)
      obtain ⟨tail, htail⟩ := Text.exists_intercalate_cons '/' (names.map String.toList)
      refine ⟨c, cs ++ tail, ?_, hslash⟩
      rw [Text.join, String.toList_intercalate, List.map_cons]
      exact (htail name.toList).trans (by rw [hchars, List.cons_append])

/-! ## Roots -/

/-- The roots of paths. -/
def roots : List String :=
  ["", "/", "//"]

theorem rootOf_mem_roots (cs : List Char) : rootOf cs ∈ roots := by
  unfold rootOf
  split <;> decide

/-- A path has no root when it does not begin with a slash. -/
theorem rootOf_eq_empty_iff : rootOf cs = "" ↔ cs.head? ≠ some '/' := by
  cases cs with
  | nil => simp [rootOf]
  | cons c cs =>
      by_cases hc : c = '/'
      · subst hc
        unfold rootOf
        split <;> simp_all
      · simp [rootOf, hc]

/-- A root in front of what does not begin with a slash is the root of the whole. -/
theorem rootOf_append {root : String} {c : Char} (hroot : root ∈ roots) (hc : c ≠ '/') :
    rootOf (root.toList ++ c :: cs) = root := by
  simp only [roots, List.mem_cons, List.not_mem_nil, or_false] at hroot
  rcases hroot with rfl | rfl | rfl
  · exact rootOf_eq_empty_iff.mpr (by simpa using hc)
  · simp [rootOf, hc]
  · simp [rootOf, hc]

/-- A root says nothing about the names. -/
theorem namesOf_root_append {root : String} (hroot : root ∈ roots) (cs : List Char) :
    namesOf (root.toList ++ cs) = namesOf cs := by
  simp only [roots, List.mem_cons, List.not_mem_nil, or_false] at hroot
  rcases hroot with rfl | rfl | rfl
  · rfl
  · exact namesOf_slash cs
  · exact (namesOf_slash ('/' :: cs)).trans (namesOf_slash cs)

/-! ## Reading a path again -/

/-- **A path that is written is read again.** -/
theorem ofString_text {p : Path} (hroot : p.root ∈ roots) (hnames : ∀ name ∈ p.names, IsName name) :
    ofString p.text = p := by
  obtain ⟨root, names⟩ := p
  by_cases hne : names = []
  · subst hne
    simp only [roots, List.mem_cons, List.not_mem_nil, or_false] at hroot
    rcases hroot with rfl | rfl | rfl <;> rfl
  · obtain ⟨c, cs, hjoin, hc⟩ := exists_join_eq_cons hne hnames
    have hbody : (root ++ Text.join "/" names).toList = root.toList ++ c :: cs := by
      rw [String.toList_append, hjoin]
    have htext : text ⟨root, names⟩ = root ++ Text.join "/" names := by
      have hsome : (root ++ Text.join "/" names).isEmpty = false := by
        rw [Bool.eq_false_iff]
        intro hempty
        have hnil := String.toList_eq_nil_iff.mpr (String.isEmpty_iff.mp hempty)
        rw [hbody] at hnil
        simp at hnil
      rw [text, hsome]
      rfl
    rw [ofString, htext, hbody, rootOf_append hroot hc, namesOf_root_append hroot, ← hjoin,
      namesOf_join hnames]

/-! ## Parts -/

theorem parts_of_relative {p : Path} (h : p.root = "") : p.parts = p.names := by
  rw [parts, h]
  rfl

theorem parts_of_rooted {p : Path} (h : p.root ≠ "") : p.parts = p.root :: p.names := by
  rw [parts, if_neg (by simpa using h)]

/-- A path whose names end with those of a relative path has its parts for the last ones. -/
theorem parts_suffix {p q : Path} (hq : q.root = "") (h : q.names <:+ p.names) :
    q.parts <:+ p.parts := by
  rw [parts_of_relative hq]
  by_cases hp : p.root = ""
  · rwa [parts_of_relative hp]
  · rw [parts_of_rooted hp]
    exact h.trans (List.suffix_cons p.root p.names)

/-- A relative path has the last parts of a path that goes on with it after a slash. -/
theorem parts_suffix_below (d : String) (h : (ofString s).root = "") :
    (ofString s).parts <:+ (ofString (d ++ "/" ++ s)).parts := by
  have hchars : (d ++ "/" ++ s).toList = d.toList ++ '/' :: s.toList := by
    simp [String.toList_append]
  refine parts_suffix h ⟨(ofString d).names, ?_⟩
  rw [ofString, ofString, ofString, hchars, namesOf_append_slash]

/-- A relative path has the last parts of the path that is taken from it in a directory. -/
theorem parts_suffix_append (d : String) (h : (ofString s).root = "") :
    (ofString s).parts <:+ (ofString ((ofString d).append (ofString s)).text).parts := by
  have happend : (ofString d).append (ofString s) =
      { ofString d with names := (ofString d).names ++ (ofString s).names } := by
    rw [append, h]
    rfl
  have hread : ofString ((ofString d).append (ofString s)).text =
      (ofString d).append (ofString s) := by
    rw [happend]
    refine ofString_text (rootOf_mem_roots d.toList) fun name hname => ?_
    rcases List.mem_append.mp hname with hname | hname <;> exact isName_of_mem_namesOf hname
  rw [hread]
  refine parts_suffix h ⟨(ofString d).names, ?_⟩
  rw [happend]

/-! ## Paths that are written plainly -/

/-- A path is written plainly: it is a root alone, or names with one slash between each two. -/
def IsPlain (s : String) : Prop :=
  s = "/" ∨ s = "//" ∨
    ∃ names, names ≠ [] ∧ (∀ name ∈ names, IsName name) ∧ s = Text.join "/" names

/-- A path that is written plainly is what its parts make. -/
theorem IsPlain.join_parts (h : IsPlain s) :
    (ofString s).parts ≠ [] ∧ Text.join "/" (ofString s).parts = s := by
  rcases h with rfl | rfl | ⟨names, hne, hnames, rfl⟩
  · exact ⟨List.cons_ne_nil _ _, rfl⟩
  · exact ⟨List.cons_ne_nil _ _, rfl⟩
  · obtain ⟨c, cs, hjoin, hc⟩ := exists_join_eq_cons hne hnames
    have hroot : (ofString (Text.join "/" names)).root = "" :=
      rootOf_eq_empty_iff.mpr (by rw [hjoin]; simpa using hc)
    have hparts : (ofString (Text.join "/" names)).parts = names := by
      rw [parts_of_relative hroot]
      exact namesOf_join hnames
    rw [hparts]
    exact ⟨hne, rfl⟩

/-- A root that is followed by a slash and a name is the root of another path. -/
theorem rootOf_append_slash {root : String} {c : Char} (hroot : root ∈ roots) (hne : root ≠ "")
    (hc : c ≠ '/') : rootOf (root.toList ++ '/' :: c :: cs) ≠ root := by
  simp only [roots, List.mem_cons, List.not_mem_nil, or_false, hne, false_or] at hroot
  rcases hroot with rfl | rfl <;> simp [rootOf, hc]

/-- A path that some of its last parts make is written plainly. -/
theorem isPlain_of_eq_join {i : Nat} (hi : i < (ofString s).parts.length)
    (h : s = Text.join "/" ((ofString s).parts.drop i)) : IsPlain s := by
  have hnames : ∀ name ∈ (ofString s).names, IsName name := fun name => isName_of_mem_namesOf
  have hlast : ∀ k, k < (ofString s).names.length →
      s = Text.join "/" ((ofString s).names.drop k) → IsPlain s := by
    intro k hk hs
    refine .inr (.inr ⟨_, ?_, fun name hname => hnames name (List.mem_of_mem_drop hname), hs⟩)
    rw [ne_eq, List.drop_eq_nil_iff]
    omega
  by_cases hroot : (ofString s).root = ""
  · rw [parts_of_relative hroot] at hi h
    exact hlast i hi h
  · rw [parts_of_rooted hroot] at hi h
    cases i with
    | succ k => exact hlast k (Nat.lt_of_succ_lt_succ hi) h
    | zero =>
        rw [List.drop_zero] at h
        have hmem : (ofString s).root ∈ roots := rootOf_mem_roots s.toList
        by_cases hnone : (ofString s).names = []
        · rw [hnone, Text.join, String.intercalate_singleton] at h
          rw [← h] at hmem hroot
          simp only [roots, List.mem_cons, List.not_mem_nil, or_false, hroot, false_or] at hmem
          exact hmem.imp id .inl
        · -- A root that is joined to a name has one slash too many.
          obtain ⟨c, cs, hjoin, hc⟩ := exists_join_eq_cons hnone hnames
          have hchars : s.toList = (ofString s).root.toList ++ '/' :: c :: cs := by
            conv_lhs => rw [h]
            rw [Text.join, String.intercalate_cons_of_ne_nil hnone, ← Text.join,
              String.toList_append, hjoin]
            simp
          have hread : rootOf s.toList = (ofString s).root := rfl
          rw [hchars] at hread
          exact absurd hread (rootOf_append_slash hmem hroot hc)

end SecurityAudit.Path
