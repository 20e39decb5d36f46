import Mathlib.Data.List.Nodup
import SecurityAudit.Proofs.Assembly
import SecurityAudit.Proofs.Encoded
import SecurityAudit.Proofs.ExitStatus
import SecurityAudit.Proofs.PathParts
import SecurityAudit.Proofs.PolicyForms
import SecurityAudit.Proofs.Resolution

/-!
# Nothing is lost from policy files

A policy file that cannot be read is left with one warning, and any other gives its entries one
after another (`Gives`).  An entry is kept as it is, unless it is an object that does not name its
policy: then its name is set, and nothing else (`NamedAs`).  The names that are given in one file
are distinct, so that the findings about two entries are not taken for findings about one.

There are two exceptions.  A number of too many digits in a file is refused (`HasLongNumber`), and
so is a path that cannot be followed to its end; then nothing is loaded at all, from whatever file.
And a directory that cannot be listed stands for no files, as if it were empty (`StandsFor`).

A scan that reviews policies and is done in time says of every entry what has become of it: it is
counted as scanned, or there is a warning about it.
-/

namespace SecurityAudit

/-! ## Numbers of too many digits -/

namespace Json

/-- A text of ones is a number of too many digits when there are too many of them. -/
theorem parse_replicate_digit {n : Nat} (h : Text.maxDigits < n) :
    parse (String.ofList (List.replicate n '1')) = .error .tooManyDigits := by
  obtain ⟨m, rfl⟩ := Nat.exists_eq_succ_of_ne_zero (Nat.ne_of_gt (Nat.zero_lt_of_lt h))
  have hdigits : digits (List.replicate (m + 1) '1') = (List.replicate (m + 1) '1', []) := by
    have hdigit : Text.isAsciiDigit '1' = true := by decide
    simp [digits, hdigit]
  have hnumber : readNumber false (List.replicate (m + 1) '1') = .error .tooManyDigits := by
    rw [List.replicate_succ] at hdigits ⊢
    have hwhole : takeWhole ('1' :: List.replicate m '1') =
        ('1' :: List.replicate m '1', []) := hdigits
    simp [readNumber, hwhole, fraction?, exponent?, h]
  have hscalar : readScalar (List.replicate (m + 1) '1') = .error .tooManyDigits := by
    rw [List.replicate_succ] at hnumber ⊢
    simpa [readScalar, words, after?] using hnumber
  have hskip : skip (List.replicate (m + 1) '1') = List.replicate (m + 1) '1' := rfl
  rw [parse, String.toList_ofList, hskip]
  rw [List.replicate_succ] at hscalar ⊢
  simp [readValue, hscalar]

end Json

namespace Iam

variable {t : Tree} {p path : Path} {name key stem : String} {value v doc : Value} {r : Refusal}
  {paths files : List Path} {loaded : Loaded}

/-! ## The files -/

/-- The files that a path stands for: those of the entries of a directory that have the ending of
policy files, in the order of their names, or the path itself.  A directory that cannot be listed
stands for no files. -/
inductive StandsFor (t : Tree) (p : Path) : List Path → Prop
  | directory {entries : List (String × Entry)} {mode : Mode} {names : List String}
      (found : t.find p = .ok (.directory entries mode)) (listed : mode.read = true)
      (complete : names.Perm
        ((entries.map Prod.fst).filter fun name => fileEnding.toList.isSuffixOf name.toList))
      (sorted : names.Pairwise (· ≤ ·)) : StandsFor t p (names.map p.child)
  | unlisted {entries : List (String × Entry)} {mode : Mode}
      (found : t.find p = .ok (.directory entries mode)) (locked : mode.read = false) :
      StandsFor t p []
  | itself (noDirectory : t.hasDirectory p = .ok false) : StandsFor t p [p]

theorem standsFor_of_filesOf (h : filesOf t p = .ok files) : StandsFor t p files := by
  simp only [filesOf, bind_eq_ok_iff] at h
  obtain ⟨isDirectory, hp, h⟩ := h
  cases isDirectory with
  | false =>
      obtain rfl := Except.ok.inj h
      exact .itself hp
  | true =>
      obtain ⟨entries, mode, hfound⟩ := Tree.hasDirectory_eq_true_iff.mp hp
      obtain rfl := Except.ok.inj h
      have hlist : t.list p = (Entry.directory entries mode).names := by
        rw [Tree.list, hfound]
        rfl
      rw [hlist, Entry.names]
      cases hread : mode.read with
      | true =>
          refine .directory hfound hread ((List.mergeSort_perm _ _).filter _)
            (List.Pairwise.filter _ ?_)
          exact Sorting.pairwise_mergeSort_texts _
      | false => exact .unlisted hfound hread

/-- The files that paths stand for are told if each path can be followed or leads nowhere. -/
theorem exists_allFilesOf_iff :
    (∃ files, allFilesOf t paths = .ok files) ↔ ∀ p ∈ paths, ∃ b, t.hasDirectory p = .ok b := by
  have hfilesOf : ∀ p, (∃ files, filesOf t p = .ok files) ↔ ∃ b, t.hasDirectory p = .ok b := by
    intro p
    rw [filesOf, exists_bind_eq_ok_iff]
    refine exists_congr fun isDirectory => and_iff_left ?_
    cases isDirectory <;> exact ⟨_, rfl⟩
  simp only [← hfilesOf]
  constructor
  · intro h p hp
    obtain ⟨files, hfiles⟩ := h
    obtain ⟨parts, hparts, -⟩ := map_eq_ok_iff.mp hfiles
    obtain ⟨part, -, hpart⟩ := exists_of_forall₂_of_mem (mapM_eq_ok_iff.mp hparts).flip hp
    exact ⟨part, hpart⟩
  · intro h
    obtain ⟨parts, hparts⟩ := exists_mapM h
    exact ⟨parts.flatten, map_eq_ok_iff.mpr ⟨parts, hparts, rfl⟩⟩

/-- The files that paths stand for come path by path. -/
theorem exists_parts_of_allFilesOf (h : allFilesOf t paths = .ok files) :
    ∃ parts, List.Forall₂ (StandsFor t) paths parts ∧ files = parts.flatten := by
  obtain ⟨parts, hparts, rfl⟩ := map_eq_ok_iff.mp h
  exact ⟨parts, (mapM_eq_ok_iff.mp hparts).imp fun _ _ => standsFor_of_filesOf, rfl⟩

/-! ## The names of entries -/

/-- A document names its policy: a value that counts as true stands under one of the keys for
names. -/
def IsNamed (doc : Value) : Prop :=
  ∃ key ∈ nameKeys, ∃ v, doc.get? key = some v ∧ v.holds = true

theorem isSome_nameOf?_iff : (nameOf? doc).isSome = true ↔ IsNamed doc := by
  rw [nameOf?, List.isSome_findSome?, List.any_eq_true]
  simp only [IsNamed, Option.isSome_iff_exists, Option.filter_eq_some_iff]

/-- An entry of an object is the one under a key. -/
def isUnder (key : String) (e : Value × Value) : Bool :=
  e.1.text? == some key

theorem get?_mapping (entries : List (Value × Value)) (key : String) :
    (Value.mapping entries).get? key = (entries.find? (isUnder key)).map Prod.snd := rfl

theorem isFoundAs_text : v.isFoundAs (.text key) = (v.text? == some key) := by
  cases v <;> simp [Value.isFoundAs, Value.isNaN, Value.same, Value.text?, Value.number?]

/-- An entry with a value in place of its own, if it is the one under a key. -/
def rebound (key : String) (value : Value) (e : Value × Value) : Value × Value :=
  if isUnder key e then (e.1, value) else e

theorem isUnder_comp_rebound (key : String) (value : Value) :
    isUnder key ∘ rebound key value = isUnder key := by
  funext e
  simp only [Function.comp_apply, rebound]
  split <;> rfl

theorem putEntry_text (entries : List (Value × Value)) (key : String) (value : Value) :
    putEntry entries (.text key) value =
      if entries.any (isUnder key) then entries.map (rebound key value)
      else entries ++ [(.text key, value)] := by
  simp only [putEntry, isFoundAs_text]
  rfl

/-- The entries of an object after a key has been set: the key has the value, and the other entries
are what they were. -/
structure Sets (key : String) (value : Value) (before after : List (Value × Value)) : Prop where
  get?_eq : (Value.mapping after).get? key = some value
  others : after.filter (fun e => !isUnder key e) = before.filter fun e => !isUnder key e

theorem sets_putEntry (key : String) (value : Value) (entries : List (Value × Value)) :
    Sets key value entries (putEntry entries (.text key) value) := by
  rw [putEntry_text]
  split
  case isTrue hany =>
    -- The key keeps its place, and the first entry under it is found as before.
    constructor
    · obtain ⟨e, he⟩ := Option.isSome_iff_exists.mp
        (List.find?_isSome.mpr (List.any_eq_true.mp hany))
      have hunder := List.find?_some he
      rw [get?_mapping, List.find?_map, isUnder_comp_rebound, he]
      simp only [Option.map_some, rebound, if_pos hunder]
    · rw [List.filter_map]
      have hothers : (fun e => !isUnder key e) ∘ rebound key value = fun e => !isUnder key e := by
        funext e
        exact congrArg (!·) (congrFun (isUnder_comp_rebound key value) e)
      rw [hothers]
      refine (List.map_congr_left fun e he => ?_).trans (List.map_id _)
      have hunder := (List.mem_filter.mp he).2
      rw [rebound, if_neg (by simpa using hunder)]
      rfl
  case isFalse hnone =>
    have hnone : ∀ e ∈ entries, ¬ isUnder key e = true := by simpa using hnone
    have hlast : isUnder key (Value.text key, value) = true := by simp [isUnder, Value.text?]
    constructor
    · simp [get?_mapping, List.find?_append, List.find?_eq_none.mpr hnone, hlast]
    · simp [List.filter_append, hlast]

/-- What is made of an entry of a policy file: it is kept as it is, but an object that does not name
its policy has its name set. -/
inductive NamedAs (name : String) : Value → Value → Prop
  | kept {v : Value} (named : v.IsObject → IsNamed v) : NamedAs name v v
  | given {before after : List (Value × Value)} (nameless : ¬ IsNamed (.mapping before))
      (sets : Sets "name" (.text name) before after) :
      NamedAs name (.mapping before) (.mapping after)

theorem namedAs_named (name : String) (v : Value) : NamedAs name v (named name v) := by
  unfold named
  cases v with
  | mapping entries =>
      by_cases hname : IsNamed (.mapping entries)
      · simp only [isSome_nameOf?_iff.mpr hname, if_true]
        exact .kept fun _ => hname
      · simp only [isSome_nameOf?_iff.not.mpr hname]
        exact .given hname (sets_putEntry "name" (.text name) entries)
  | _ => exact .kept fun ⟨entries, hentries⟩ => by cases hentries

/-- Every object has a name in the end, if the name that is given says something. -/
theorem NamedAs.isNamed (hname : name ≠ "") (h : NamedAs name v doc) (hdoc : doc.IsObject) :
    IsNamed doc := by
  cases h with
  | kept named => exact named hdoc
  | given _ sets =>
      exact ⟨"name", by decide, .text name, sets.get?_eq, by simpa [Value.holds] using hname⟩

/-- The names for the entries of a file, one for each. -/
def givenNames (stem : String) (count : Nat) : List String :=
  (List.range count).map (givenName stem count)

theorem indexed_inj {i j : Nat} (h : indexed stem i = indexed stem j) : i = j := by
  have hchars := congrArg String.toList h
  simp only [indexed, String.toList_append, Nat.toString_eq_repr, Nat.toList_repr,
    List.append_cancel_right_eq, List.append_cancel_left_eq] at hchars
  calc
    i = Nat.ofDigitChars 10 (Nat.toDigits 10 i) 0 := Nat.ofDigitChars_ten_toDigits.symm
    _ = Nat.ofDigitChars 10 (Nat.toDigits 10 j) 0 := by rw [hchars]
    _ = j := Nat.ofDigitChars_ten_toDigits

/-- **The names that are given in one file are distinct.** -/
theorem nodup_givenNames (stem : String) (count : Nat) : (givenNames stem count).Nodup := by
  refine List.Nodup.map_on ?_ List.nodup_range
  intro i hi j hj hij
  unfold givenName at hij
  split at hij
  next hone =>
    have hone : count = 1 := eq_of_beq hone
    have hi := List.mem_range.mp hi
    have hj := List.mem_range.mp hj
    omega
  next => exact indexed_inj hij

theorem givenName_ne_empty (hstem : stem ≠ "") (count i : Nat) : givenName stem count i ≠ "" := by
  unfold givenName
  split
  · exact hstem
  · simp [indexed]

theorem namedDocuments_spec (stem : String) (v : Value) :
    List.Forall₂ (fun entry doc => NamedAs entry.2 entry.1 doc)
      ((documentsOf v).zip (givenNames stem (documentsOf v).length)) (namedDocuments stem v) := by
  simp only [namedDocuments, givenNames]
  rw [List.zip_map_right, List.zipIdx_eq_zip_range', ← List.range_eq_range',
    List.forall₂_map_left_iff, List.forall₂_map_right_iff, List.forall₂_same]
  exact fun p _ => namedAs_named (givenName stem (documentsOf v).length p.2) p.1

/-! ## Loading -/

/-- A file holds a value: it is the text of the value in JSON. -/
def Holds (t : Tree) (path : Path) (v : Value) : Prop :=
  ∃ bytes text, t.read path = .ok bytes ∧ Text.Encoding.utf8.decode? bytes = some text ∧
    Json.parse (String.ofList text) = .ok v

/-- What a policy file gives: one warning if it holds no value, or else the entries of its value,
each with its name. -/
inductive Gives (t : Tree) (path : Path) : Loaded → Prop
  | warning (unreadable : ∀ v, ¬ Holds t path v) :
      Gives t path { warnings := [⟨"policy", path.text, "cannot load policy file"⟩] }
  | documents {v : Value} {docs : List Value} (holds : Holds t path v)
      (distinct : (givenNames path.stem (documentsOf v).length).Nodup)
      (named : List.Forall₂ (fun entry doc => NamedAs entry.2 entry.1 doc)
        ((documentsOf v).zip (givenNames path.stem (documentsOf v).length)) docs) :
      Gives t path { documents := docs }

/-- What is loaded, and more after it. -/
def Loaded.append (a b : Loaded) : Loaded where
  documents := a.documents ++ b.documents
  warnings := a.warnings ++ b.warnings

/-- What is loaded from a file that is read. -/
def loadedFrom (path : Path) : Option Value → Loaded
  | some v => { documents := namedDocuments path.stem v }
  | none => { warnings := [unreadable path] }

theorem loadFiles_cons (t : Tree) (path : Path) (paths : List Path) :
    loadFiles t (path :: paths) = (do
      let v? ← readFile t path
      let others ← loadFiles t paths
      return (loadedFrom path v?).append others) := by
  refine congrArg (readFile t path >>= ·) (funext fun v? => ?_)
  cases v? <;> rfl

theorem holds_iff : Holds t path v ↔ readFile t path = .ok (some v) := by
  unfold Holds readFile
  cases t.read path with
  | error e => simp
  | ok bytes =>
      cases htext : Text.Encoding.utf8.decode? bytes with
      | none => simp [htext]
      | some text =>
          cases hparse : Json.parse (String.ofList text) with
          | ok v' => simp [htext, hparse, eq_comm]
          | error e => cases e <;> simp [htext, hparse]

theorem gives_loadedFrom {v? : Option Value} (h : readFile t path = .ok v?) :
    Gives t path (loadedFrom path v?) := by
  cases v? with
  | some v =>
      exact .documents (holds_iff.mpr h) (nodup_givenNames _ _) (namedDocuments_spec path.stem v)
  | none =>
      refine .warning fun v hv => ?_
      cases (holds_iff.mp hv).symm.trans h

/-- What is loaded is what the files give, one after another. -/
theorem exists_parts_of_loadFiles (h : loadFiles t paths = .ok loaded) :
    ∃ parts, List.Forall₂ (Gives t) paths parts ∧
      loaded.documents = parts.flatMap Loaded.documents ∧
      loaded.warnings = parts.flatMap Loaded.warnings := by
  induction paths generalizing loaded with
  | nil =>
      obtain rfl := Except.ok.inj h
      exact ⟨[], .nil, rfl, rfl⟩
  | cons path paths ih =>
      simp only [loadFiles_cons, bind_eq_ok_iff, pure_eq_ok_iff] at h
      obtain ⟨v?, hread, others, hothers, rfl⟩ := h
      obtain ⟨parts, hparts, hdocuments, hwarnings⟩ := ih hothers
      refine ⟨loadedFrom path v? :: parts, .cons (gives_loadedFrom hread) hparts, ?_, ?_⟩
      · simp only [Loaded.append, hdocuments, List.flatMap_cons]
      · simp only [Loaded.append, hwarnings, List.flatMap_cons]

theorem readFile_eq_error_iff :
    readFile t path = .error r ↔ r = .badValue ∧ HasLongNumber t path := by
  have hrefused : ∀ r, readFile t path = .error r → r = .badValue := by
    intro r h
    unfold readFile at h
    split at h
    · cases h
    · split at h
      · cases h
      · split at h <;> cases h
        rfl
  constructor
  · intro h
    refine ⟨hrefused r h, ?_⟩
    by_contra hlong
    obtain ⟨v, hv⟩ := exists_readFile_iff.mpr hlong
    cases hv.symm.trans h
  · intro h
    obtain ⟨rfl, hlong⟩ := h
    cases hread : readFile t path with
    | ok v => exact absurd hlong (exists_readFile_iff.mp ⟨v, hread⟩)
    | error r => rw [hrefused r hread]

/-- **Loading is refused for a number of too many digits**, and for nothing else. -/
theorem loadFiles_eq_error_iff :
    loadFiles t paths = .error r ↔ r = .badValue ∧ ∃ path ∈ paths, HasLongNumber t path := by
  induction paths with
  | nil => simp [loadFiles]
  | cons path paths ih =>
      have hreturn : ∀ loaded : Loaded, (pure loaded : Except Refusal Loaded) ≠ .error r := by
        intro loaded h
        cases h
      simp only [loadFiles_cons, bind_eq_error_iff, hreturn, and_false, exists_false, or_false,
        readFile_eq_error_iff, ih, List.exists_mem_cons_iff]
      by_cases hlong : HasLongNumber t path
      · simp +contextual [hlong]
      · obtain ⟨v?, hread⟩ := exists_readFile_iff.mpr hlong
        simp [hlong, hread]

/-! ## Every object has a name -/

theorem stem_ne_empty (h : path.name ≠ "") : path.stem ≠ "" := by
  simp only [Path.stem, Path.splitName]
  split
  case isTrue => exact h
  case isFalse hfull =>
    rw [Bool.or_eq_true, not_or, List.isEmpty_iff, List.isEmpty_iff] at hfull
    simpa using hfull.2

/-- The files that a path stands for have names, if there is a working directory. -/
theorem StandsFor.name_ne_empty (ht : t.HasWorkingDirectory) {given : String}
    (h : StandsFor t (Path.ofString given) files) (hpath : path ∈ files) : path.name ≠ "" := by
  cases h with
  | directory _ _ complete _ =>
      obtain ⟨name, hname, rfl⟩ := List.mem_map.mp hpath
      have hsuffix := List.isSuffixOf_iff_suffix.mp
        (List.mem_filter.mp (complete.mem_iff.mp hname)).2
      intro hempty
      have hempty : name = "" := by simpa [Path.child, Path.name] using hempty
      subst hempty
      exact absurd hsuffix (by decide)
  | unlisted => cases hpath
  | itself noDirectory =>
      obtain rfl := List.mem_singleton.mp hpath
      intro hempty
      have hnames : (Path.ofString given).names = [] := by
        by_contra hsome
        have hlast := List.getLast?_eq_some_getLast hsome
        rw [Path.name, hlast] at hempty
        exact (Path.isName_of_mem_namesOf (List.getLast_mem hsome)).ne_empty hempty
      -- It is the working directory or the root, which stand for the files in them.
      have hdirectory := Tree.hasDirectory_eq_true_iff.mpr (ht.find_of_names_eq_nil hnames)
      cases hdirectory.symm.trans noDirectory

/-- The entries that a file gives have names if there is a name for the file. -/
theorem Gives.isNamed (hname : path.name ≠ "") (h : Gives t path loaded) :
    ∀ doc ∈ loaded.documents, doc.IsObject → IsNamed doc := by
  cases h with
  | warning unreadable => exact fun _ hdoc => by cases hdoc
  | documents holds distinct named =>
      intro doc hdoc hobject
      obtain ⟨⟨entry, given⟩, hmem, hnamed⟩ := exists_of_forall₂_of_mem named hdoc
      obtain ⟨i, -, rfl⟩ := List.mem_map.mp (List.of_mem_zip hmem).2
      exact hnamed.isNamed (givenName_ne_empty (stem_ne_empty hname) _ i) hobject

/-- **Every object has a name after loading.** -/
theorem isNamed_of_load (ht : t.HasWorkingDirectory) {given : List String}
    (h : load t (given.map Path.ofString) = .ok loaded) (hdoc : doc ∈ loaded.documents)
    (hobject : doc.IsObject) : IsNamed doc := by
  obtain ⟨files, hfiles, h⟩ := bind_eq_ok_iff.mp h
  obtain ⟨parts, hparts, hdocuments, -⟩ := exists_parts_of_loadFiles h
  rw [hdocuments] at hdoc
  obtain ⟨part, hpart, hdoc⟩ := List.mem_flatMap.mp hdoc
  obtain ⟨path, hpath, hgives⟩ := exists_of_forall₂_of_mem hparts hpart
  obtain ⟨places, hplaces, rfl⟩ := exists_parts_of_allFilesOf hfiles
  obtain ⟨place, hplace, hpath⟩ := List.mem_flatten.mp hpath
  obtain ⟨p, hp, hstands⟩ := exists_of_forall₂_of_mem hplaces hplace
  obtain ⟨s, -, rfl⟩ := List.mem_map.mp hp
  exact hgives.isNamed (hstands.name_ne_empty ht hpath) doc hdoc hobject

/-- What is warned about in loading are policies. -/
theorem kind_of_load (h : load t paths = .ok loaded) :
    ∀ w ∈ loaded.warnings, w.kind = "policy" := by
  obtain ⟨files, -, h⟩ := bind_eq_ok_iff.mp h
  obtain ⟨parts, hparts, -, hwarnings⟩ := exists_parts_of_loadFiles h
  intro w hw
  rw [hwarnings] at hw
  obtain ⟨part, hpart, hw⟩ := List.mem_flatMap.mp hw
  obtain ⟨path, -, hgives⟩ := exists_of_forall₂_of_mem hparts hpart
  cases hgives with
  | warning =>
      obtain rfl := List.mem_singleton.mp hw
      rfl
  | documents => cases hw

/-- **Loading is complete**: the paths stand for the files that they should, if all of them can be
followed or lead nowhere.  Then loading is refused for a number of too many digits only, and
otherwise each file gives what it should, one after another, and every object has a name in the
end. -/
structure LoadsAll (t : Tree) (paths : List Path) : Prop where
  followed : (∃ files, allFilesOf t paths = .ok files) ↔ ∀ p ∈ paths, ∃ b, t.hasDirectory p = .ok b
  stands : ∀ files, allFilesOf t paths = .ok files →
    ∃ parts, List.Forall₂ (StandsFor t) paths parts ∧ files = parts.flatten
  unfollowed : ∀ r, allFilesOf t paths = .error r → load t paths = .error r
  refused : ∀ files, allFilesOf t paths = .ok files → ∀ r, load t paths = .error r ↔
    r = .badValue ∧ ∃ path ∈ files, HasLongNumber t path
  gives : ∀ files, allFilesOf t paths = .ok files → ∀ loaded, load t paths = .ok loaded →
    ∃ parts, List.Forall₂ (Gives t) files parts ∧
      loaded.documents = parts.flatMap Loaded.documents ∧
      loaded.warnings = parts.flatMap Loaded.warnings
  named : ∀ loaded, load t paths = .ok loaded →
    ∀ doc ∈ loaded.documents, doc.IsObject → IsNamed doc

theorem load_eq_of_allFilesOf (h : allFilesOf t paths = .ok files) :
    load t paths = loadFiles t files := by
  rw [load, h]
  rfl

theorem loadsAll (ht : t.HasWorkingDirectory) (given : List String) :
    LoadsAll t (given.map Path.ofString) where
  followed := exists_allFilesOf_iff
  stands _ h := exists_parts_of_allFilesOf h
  unfollowed r h := by
    rw [load, h]
    rfl
  refused files h r := by
    rw [load_eq_of_allFilesOf h]
    exact loadFiles_eq_error_iff
  gives files h loaded hload := by
    rw [load_eq_of_allFilesOf h] at hload
    exact exists_parts_of_loadFiles hload
  named _ h _ hdoc hobject := isNamed_of_load ht h hdoc hobject

end Iam

/-! ## What becomes of the entries in a scan -/

namespace Audit

/-- What cannot be read below a path is warned about as such. -/
theorem kind_of_divide (found : Tree.Listing) : ∀ w ∈ (divide found).warnings, w.kind = "io" := by
  induction found with
  | nil => exact List.forall_mem_nil _
  | cons entry found ih =>
      obtain ⟨names, content⟩ := entry
      cases content with
      | ok bytes => exact ih
      | error e => exact List.forall_mem_cons.mpr ⟨rfl, ih⟩

/-- No warning about a file is one about a policy. -/
theorem FileFate.kind_ne {a : Audit} {files : List (String × Content)} {fates : List Fate}
    (h : List.Forall₂ (FileFate a) files fates) :
    ∀ w ∈ fates.filterMap Fate.warning?, w.kind ≠ "policy" := by
  induction h with
  | nil => exact List.forall_mem_nil _
  | cons hfate _ ih =>
      cases hfate <;> simpa [Fate.warning?, timeoutWarning] using ih

/-- What has become of a policy that the time was not over for: it is scanned, or there is a warning
about the policy. -/
def Fate.IsSettled (fate : Fate) : Prop :=
  (∃ found, fate = .scanned found) ∨ ∃ target message, fate = .left ⟨"policy", target, message⟩

/-- Policies that the time was not over for are scanned or warned about. -/
theorem PolicyFate.isSettled {a : Audit} {policies : List (PolicySource × Nat)}
    {fates : List Fate} (h : List.Forall₂ (PolicyFate a) policies fates)
    (hdone : fates.any Fate.isTimedOut = false) : ∀ fate ∈ fates, fate.IsSettled := by
  intro fate hfate
  obtain ⟨p, -, hp⟩ := exists_of_forall₂_of_mem h hfate
  cases hp with
  | scanned => exact .inl ⟨_, rfl⟩
  | unreviewed => exact .inr ⟨_, _, rfl⟩
  | unreadable => exact .inr ⟨_, _, rfl⟩
  | timedOut => exact absurd hdone (by simpa using ⟨_, hfate, rfl⟩)

theorem kind_of_isSettled {fates : List Fate} (h : ∀ fate ∈ fates, fate.IsSettled) :
    ∀ w ∈ fates.filterMap Fate.warning?, w.kind = "policy" := by
  intro w hw
  obtain ⟨fate, hfate, hwarning⟩ := List.mem_filterMap.mp hw
  obtain ⟨found, rfl⟩ | ⟨target, message, rfl⟩ := h fate hfate
  · cases hwarning
  · obtain rfl := Option.some.inj hwarning
    rfl

theorem length_of_isSettled {fates : List Fate} (h : ∀ fate ∈ fates, fate.IsSettled) :
    fates.length = fates.countP Fate.isScanned + (fates.filterMap Fate.warning?).length := by
  induction fates with
  | nil => rfl
  | cons fate fates ih =>
      obtain ⟨hfate, hfates⟩ := List.forall_mem_cons.mp h
      have ih := ih hfates
      obtain ⟨found, rfl⟩ | ⟨target, message, rfl⟩ := hfate <;>
        simp [List.filterMap_cons, List.countP_cons, Fate.warning?, Fate.isScanned] <;> omega

end Audit

namespace Cli

open Audit

variable {w : Workplace} {o : ScanOptions} {s : Settings} {a : Audit} {request : Audit.Request}
  {report : Report} {loaded : Iam.Loaded}

/-- **All policies are settled**: each entry that has been loaded is reviewed or warned about, and
the report says so.  Its warnings about policies are those about files that hold no value and those
about entries that are no policies, and with the policies that it counts as scanned they are as many
as the entries and such files. -/
structure SettlesAll (a : Audit) (loaded : Iam.Loaded) (request : Audit.Request)
    (report : Report) (fates : List Fate) : Prop where
  reviewed : a.review ≠ none
  requested : request.policies = loaded.documents.map .document
  fates_fate : List.Forall₂ (PolicyFate a) request.policies.zipIdx fates
  settled : ∀ fate ∈ fates, fate.IsSettled
  scanned : report.totals.policies = .int (fates.countP Fate.isScanned)
  warned : (report.warnings.filter fun w => w.kind == "policy").Perm
    (loaded.warnings ++ fates.filterMap Fate.warning?)
  counted : loaded.documents.length + loaded.warnings.length =
    fates.countP Fate.isScanned + report.warnings.countP fun w => w.kind == "policy"

/-- The audit of a scan reviews policies if the settings ask for it. -/
theorem Reports.review_ne_none (h : Reports w o s a request report)
    (hiam : s.scan.enabled "iam" = true) : a.review ≠ none := by
  obtain ⟨c, hprepared, hassembled⟩ := h.prepared
  have haudit : Audit.ofSettings s c w.now = .ok a := by
    rw [Audit.ofSettings, check_of_prepareScan hprepared, hassembled]
    rfl
  obtain ⟨-, -, hreview, -⟩ := Audit.ofSettings_eq_ok_iff.mp haudit
  simp only [reviewFor, hiam, if_true, bind_eq_ok_iff, pure_eq_ok_iff] at hreview
  obtain ⟨review, -, hreview⟩ := hreview
  simp [← hreview]

/-- Of the warnings of a report, those about policies are about files that hold no value and about
entries that are no policies. -/
theorem filter_warnings {files policies : List Fate} (hrequest : requestOf w o = .ok request)
    (hload : Iam.load w.tree (o.policies.map Path.ofString) = .ok loaded)
    (haccounts : Accounts a request report files policies)
    (hsettled : ∀ fate ∈ policies, fate.IsSettled) :
    (report.warnings.filter fun w => w.kind == "policy").Perm
      (loaded.warnings ++ policies.filterMap Fate.warning?) := by
  simp only [requestOf, hload, bind_eq_ok_iff, pure_eq_ok_iff] at hrequest
  obtain ⟨collected, hcollect, _, hsame, rfl⟩ := hrequest
  obtain rfl := Except.ok.inj hsame
  have hcollected : (collected.warnings.filter fun w => w.kind == "policy") = [] := by
    obtain ⟨found, -, rfl⟩ := map_eq_ok_iff.mp hcollect
    rw [List.filter_eq_nil_iff]
    intro w hw
    simp [kind_of_divide _ w hw]
  have hfiles : ((files.filterMap Fate.warning?).filter fun w => w.kind == "policy") = [] := by
    rw [List.filter_eq_nil_iff]
    intro w hw
    simpa using FileFate.kind_ne haccounts.files_fate w hw
  have hloaded : (loaded.warnings.filter fun w => w.kind == "policy") = loaded.warnings := by
    rw [List.filter_eq_self]
    intro w hw
    simpa using Iam.kind_of_load hload w hw
  have hpolicies : ((policies.filterMap Fate.warning?).filter fun w => w.kind == "policy") =
      policies.filterMap Fate.warning? := by
    rw [List.filter_eq_self]
    intro w hw
    simpa using kind_of_isSettled hsettled w hw
  have hbudget : ((if report.totals.truncated then
      [budgetWarning (Path.ofString o.path).text a.settings.scan.maxFindings] else []).filter
        fun w => w.kind == "policy") = [] := by
    split <;> rfl
  have hwarnings := haccounts.warnings.filter fun w => w.kind == "policy"
  simpa only [List.filter_append, hcollected, hfiles, hloaded, hpolicies, hbudget, List.nil_append,
    List.append_nil] using hwarnings

/-- A scan that reviews policies and is done in time settles all of them. -/
theorem Reports.exists_settlesAll (h : Reports w o s a request report)
    (hiam : s.scan.enabled "iam" = true) (hdone : report.totals.incomplete = false) :
    ∃ loaded fates, Iam.load w.tree (o.policies.map Path.ofString) = .ok loaded ∧
      SettlesAll a loaded request report fates := by
  obtain ⟨files, policies, haccounts⟩ := accounts_of_run h.ran
  have hrequested := h.requested
  simp only [requestOf, bind_eq_ok_iff, pure_eq_ok_iff] at hrequested
  obtain ⟨collected, -, loaded, hload, hrequest⟩ := hrequested
  have hintime : policies.any Fate.isTimedOut = false := by
    have hincomplete := haccounts.incomplete
    rw [hdone, List.any_append, eq_comm, Bool.or_eq_false_iff] at hincomplete
    exact hincomplete.2
  have hsettled := PolicyFate.isSettled haccounts.policies_fate hintime
  have hwarned := filter_warnings h.requested hload haccounts hsettled
  have hrequested : request.policies = loaded.documents.map .document := by rw [← hrequest]
  refine ⟨loaded, policies, hload, h.review_ne_none hiam, hrequested, haccounts.policies_fate,
    hsettled, haccounts.scanned_policies, hwarned, ?_⟩
  have hlength : loaded.documents.length = policies.length := by
    rw [← haccounts.policies_fate.length_eq, List.length_zipIdx, hrequested, List.length_map]
  have hcount := hwarned.length_eq
  rw [List.length_append, ← List.countP_eq_length_filter] at hcount
  have hall := length_of_isSettled hsettled
  omega

/-- **Nothing is lost from policy files.**  Let there be a working directory.  Loading policies from
any paths is complete: the files of a directory come in the order of their names, each file gives
one warning or all its entries in order, and an entry is kept but for the name that an object
without one is given.  Only a number of too many digits in a file, or a path that cannot be
followed, keeps all of them from being loaded.

In a scan of these policies that has them reviewed and gets to a report in time, every entry is
counted as scanned or there is a warning about it. -/
theorem load_loses_nothing {w : Workplace} (hw : w.tree.HasWorkingDirectory)
    (given : List String) :
    Iam.LoadsAll w.tree (given.map Path.ofString) ∧
    ∀ o s a request report, o.policies = given → Reports w o s a request report →
      s.scan.enabled "iam" = true → report.totals.incomplete = false →
      ∃ loaded fates, Iam.load w.tree (given.map Path.ofString) = .ok loaded ∧
        SettlesAll a loaded request report fates := by
  refine ⟨Iam.loadsAll hw given, ?_⟩
  intro o s a request report hgiven hreports hiam hdone
  subst hgiven
  exact hreports.exists_settlesAll hiam hdone

/-- A working directory with a list of policies, one of which is a number, and with a file that is
no JSON text. -/
def policyDesk : Workplace where
  tree := { root := .directory [("policies", .directory [
    ("b.json", .file [91]),
    ("a.json", .file (Text.utf8Bytes "[\x7b\"permissions\": []\x7d, 1]".toList)),
    ("notes.txt", .file [])])] }
  now := ⟨0, some 0⟩
  occasion := { id := "1" }

/-- The options of a scan of these policies. -/
def policyDirectory : ScanOptions :=
  { path := "policies/notes.txt", policies := ["policies"], scanTypes := ["iam"] }

/-- The request of that scan. -/
theorem requestOf_policyDirectory :
    requestOf policyDesk policyDirectory = (do
      let path := Path.ofString "policies/notes.txt"
      let collected ← Audit.collect policyDesk.tree path
      let loaded ← Iam.loadFiles policyDesk.tree
        [Path.ofString "policies/a.json", Path.ofString "policies/b.json"]
      return {
        files := collected.files.map fun (name, bytes) => (name, .bytes bytes)
        policies := loaded.documents.map .document
        scope := path.text
        warnings := collected.warnings ++ loaded.warnings }) := by
  have hnames : policyDesk.tree.list (Path.ofString "policies") =
      .ok ["a.json", "b.json", "notes.txt"] := by
    have hentry : policyDesk.tree.find (Path.ofString "policies") =
        .ok (.directory [("b.json", .file [91]),
          ("a.json", .file (Text.utf8Bytes "[\x7b\"permissions\": []\x7d, 1]".toList)),
          ("notes.txt", .file [])]) := rfl
    rw [Tree.list, hentry]
    simp only [Entry.names, Sorting.mergeSort_eq_sortWithin]
    rfl
  have hfiles : Iam.allFilesOf policyDesk.tree (policyDirectory.policies.map Path.ofString) =
      .ok [Path.ofString "policies/a.json", Path.ofString "policies/b.json"] := by
    have hdirectory : policyDesk.tree.hasDirectory (Path.ofString "policies") = .ok true := rfl
    have hfilesOf : Iam.filesOf policyDesk.tree (Path.ofString "policies") =
        .ok [Path.ofString "policies/a.json", Path.ofString "policies/b.json"] := by
      rw [Iam.filesOf, hdirectory, hnames]
      rfl
    show ([Path.ofString "policies"].mapM (Iam.filesOf policyDesk.tree)).map List.flatten = _
    rw [List.mapM_cons, hfilesOf]
    rfl
  rw [requestOf, Iam.load, hfiles]
  rfl

/-- One policy is scanned, and there are warnings about the number and about the file. -/
theorem load_loses_nothing_directory :
    policyDesk.tree.HasWorkingDirectory ∧
      Iam.LoadsAll policyDesk.tree (policyDirectory.policies.map Path.ofString) ∧
      ∃ s a request report loaded fates, Reports policyDesk policyDirectory s a request report ∧
        SettlesAll a loaded request report fates ∧ fates.countP Fate.isScanned = 1 ∧
        (report.warnings.countP fun w => w.kind == "policy") = 2 := by
  have hsteps : ((prepareScan policyDesk policyDirectory
      (projectRoot policyDesk policyDirectory)).toOption.any fun p =>
        p.1.scan.enabled "iam" && (Audit.assemble p.1 p.2 policyDesk.now).toOption.any fun a =>
          (requestOf policyDesk policyDirectory).toOption.any fun request =>
            (a.run policyDesk.occasion request).toOption.any fun report =>
              !report.totals.incomplete && report.totals.policies matches .int 1 &&
                (report.warnings.countP fun w => w.kind == "policy") == 2) = true := by
    simp only [requestOf_policyDirectory, Audit.run, Report.aggregate, Finding.sorted,
      Report.sortedSuppressions, Audit.circumstances, Sorting.mergeSort_eq_sortWithin]
    decide +kernel
  obtain ⟨⟨s, c⟩, hprepared, hsteps⟩ := any_toOption_iff.mp hsteps
  obtain ⟨hiam, hsteps⟩ := Bool.and_eq_true_iff.mp hsteps
  obtain ⟨a, hassembled, hsteps⟩ := any_toOption_iff.mp hsteps
  obtain ⟨request, hrequest, hsteps⟩ := any_toOption_iff.mp hsteps
  obtain ⟨report, hran, hsteps⟩ := any_toOption_iff.mp hsteps
  simp only [Bool.and_eq_true, Bool.not_eq_true', beq_iff_eq] at hsteps
  obtain ⟨⟨hdone, hone⟩, htwo⟩ := hsteps
  have hreports : Reports policyDesk policyDirectory s a request report :=
    ⟨rfl, ⟨c, hprepared, hassembled⟩, hrequest, hran⟩
  have hw : policyDesk.tree.HasWorkingDirectory := ⟨_, _, rfl⟩
  obtain ⟨hloads, hscans⟩ := load_loses_nothing hw policyDirectory.policies
  obtain ⟨loaded, fates, -, hsettles⟩ :=
    hscans policyDirectory s a request report rfl hreports hiam hdone
  rw [hsettles.scanned] at hone
  have hscanned : fates.countP Fate.isScanned = 1 := by
    split at hone
    · rename_i hcount
      exact Int.ofNat.inj (Value.int.inj hcount)
    · cases hone
  exact ⟨hw, hloads, s, a, request, report, loaded, fates, hreports, hsettles, hscanned, htwo⟩

/-- A working directory with a policy file that holds one number of 4301 digits. -/
def numberDesk : Workplace where
  tree := { root := .directory [("a.json", .file (Text.utf8Bytes (List.replicate 4301 '1')))] }
  now := ⟨0, some 0⟩
  occasion := { id := "1" }

/-- The number keeps the file from being loaded, and there is no warning about it. -/
theorem load_long_number :
    Iam.load numberDesk.tree (["a.json"].map Path.ofString) = .error .badValue := by
  have hlong : Iam.HasLongNumber numberDesk.tree (Path.ofString "a.json") :=
    ⟨_, _, rfl, Text.decode?_utf8Bytes _, Json.parse_replicate_digit (by decide)⟩
  have hfiles : Iam.allFilesOf numberDesk.tree (["a.json"].map Path.ofString) =
      .ok [Path.ofString "a.json"] := rfl
  rw [Iam.load_eq_of_allFilesOf hfiles]
  exact Iam.loadFiles_eq_error_iff.mpr ⟨rfl, _, List.mem_singleton_self _, hlong⟩

end Cli

end SecurityAudit
