import Mathlib.Data.List.Nodup
import Mathlib.Data.String.Basic
import SecurityAudit.Proofs.Resolution
import SecurityAudit.Proofs.StableSort

/-!
# Which files below a directory are collected

The files below a directory are listed directory by directory, and what is listed below an entry
goes by the names on the way to it.  So there is one statement about the listing of a directory for
each of the two parts of it, its own files and those of the directories in it, and what holds of
whole trees follows by induction on the tree.

A file is sought when names lead to it through directories that are looked into (`IsSought`), and it
is found if each of these directories can be listed (`IsFound`).  The listing is in order: of two
files the one stands first that comes first where their names part (`Precedes`).  Nothing stands
before itself, so nothing is listed twice.

A directory cannot be listed when it may not be read, when one on the way to it may not be passed,
or when the path to it is too long.  What is below it is passed over without a warning
(`exists_file_lost`).
-/

namespace SecurityAudit

namespace Tree

variable {t : Tree} {d c : Entry} {p : Path} {below names more : List String} {name : String}
  {entries : List (String × Entry)} {mode : Mode}

/-! ## The order of files -/

/-- What stands before what in a listing, by their names: the files of a directory by name, before
everything in the directories below it, and the directories by name. -/
inductive Precedes : List String → List String → Prop
  | files {a b : String} (lt : a < b) : Precedes [a] [b]
  | filesFirst {a b c : String} {more : List String} : Precedes [a] (b :: c :: more)
  | directories {a b a' b' : String} {as bs : List String} (lt : a < b) :
      Precedes (a :: a' :: as) (b :: b' :: bs)
  | within {name : String} {as bs : List String} (precedes : Precedes as bs) :
      Precedes (name :: as) (name :: bs)

/-- Nothing stands before itself. -/
theorem Precedes.irrefl (names : List String) : ¬ Precedes names names := by
  induction names with
  | nil => intro h; cases h
  | cons name names ih =>
      intro h
      cases h with
      | files lt => exact String.lt_irrefl name lt
      | directories lt => exact String.lt_irrefl name lt
      | within precedes => exact ih precedes

theorem Precedes.append_left (below : List String) (h : Precedes names more) :
    Precedes (below ++ names) (below ++ more) := by
  induction below with
  | nil => exact h
  | cons name below ih => exact .within ih

theorem mem_byName {entry : String × Entry} : entry ∈ byName entries ↔ entry ∈ entries :=
  (List.mergeSort_perm _ _).mem_iff

/-- Entries with distinct names are in the order of their names. -/
theorem pairwise_byName (h : (entries.map Prod.fst).Nodup) :
    (byName entries).Pairwise fun a b => a.1 < b.1 := by
  have hsorted : (byName entries).Pairwise fun a b => (compare a.1 b.1).isLE = true := by
    have : Std.TransCmp fun a b : String × Entry => compare a.1 b.1 :=
      inferInstanceAs (Std.TransCmp (compareOn Prod.fst))
    exact Sorting.pairwise_mergeSort entries
  have hdistinct : ((byName entries).map Prod.fst).Nodup :=
    ((List.mergeSort_perm _ _).map Prod.fst).nodup_iff.mpr h
  refine (hsorted.and (List.pairwise_map.mp hdistinct)).imp fun h => ?_
  exact lt_of_le_of_ne (compare_le_iff_le.mp (Ordering.isLE_iff_ne_gt.mp h.1)) h.2

/-! ## The listing of a directory -/

/-- An entry of a directory is looked into. -/
def isEntered (entry : String × Entry) : Bool :=
  entry.2.isDirectory && !skippedNames.contains entry.1

theorem filesBelow_eq (t : Tree) (p : Path) (below : List String)
    (entries : List (String × Entry)) :
    t.filesBelow p below entries =
      (entries.filter isEntered).map fun e => (e.1, t.filesIn p (below ++ [e.1]) e.2) := by
  induction entries with
  | nil => rw [filesBelow]; rfl
  | cons entry entries ih =>
      obtain ⟨name, c⟩ := entry
      rw [filesBelow, ih, List.filter_cons, isEntered]
      split <;> rfl

/-- The listing of a directory that can be listed: its own files, and after them what is listed
below the directories that are looked into. -/
theorem filesIn_directory (h : t.canList p below = true) :
    t.filesIn p below (.directory entries mode) = t.ownFiles p below entries ++
      (byName (entries.filter isEntered)).flatMap fun e => t.filesIn p (below ++ [e.1]) e.2 := by
  rw [filesIn, if_pos h, joinByName, filesBelow_eq, ← List.map_mergeSort, List.flatMap_map]
  · rfl
  · intro a _ b _
    rfl

/-- The listing of a directory that cannot be listed is empty. -/
theorem filesIn_of_not_canList (h : t.canList p below = false) :
    t.filesIn p below (.directory entries mode) = [] := by
  rw [filesIn, h]
  rfl

/-! ## What is found -/

/-- An entry to which a walk comes counts as a file: it is one, or something else that is opened
like one, or a link that does not lead the walk to a directory. -/
def IsFileAt (t : Tree) (p : Path) (names : List String) (c : Entry) : Prop :=
  (∃ bytes mode, c = .file bytes mode) ∨ (∃ content, c = .special content) ∨
    ∃ target, c = .link target ∧ t.walksToDirectory p names = false

/-- From a directory, to which a walk from the path `p` comes under the names `below`, names lead to
something that counts as a file, through directories that are looked into. -/
structure IsSought (t : Tree) (p : Path) (below : List String) (d : Entry) (names : List String) :
    Prop where
  ne_nil : names ≠ []
  entered : ∀ name ∈ names.dropLast, name ∉ skippedNames
  isFileAt : ∃ c, d.at? names = some c ∧ IsFileAt t p (below ++ names) c

/-- A walk can list all directories on the way under names. -/
def CanWalk (t : Tree) (p : Path) (below names : List String) : Prop :=
  ∀ above more, above ++ more = names → more ≠ [] → t.canList p (below ++ above) = true

/-- What is sought, on a way of directories that can be listed. -/
structure IsFound (t : Tree) (p : Path) (below : List String) (d : Entry) (names : List String) :
    Prop extends IsSought t p below d names where
  canWalk : CanWalk t p below names

theorem canWalk_cons_iff :
    CanWalk t p below (name :: names) ↔
      t.canList p below = true ∧ CanWalk t p (below ++ [name]) names := by
  constructor
  · intro h
    refine ⟨by simpa using h [] (name :: names) rfl (List.cons_ne_nil _ _), ?_⟩
    intro above more heq hmore
    have hlist := h (name :: above) more (by rw [List.cons_append, heq]) hmore
    rwa [List.append_assoc, List.singleton_append]
  · intro h above more heq hmore
    cases above with
    | nil =>
        rw [List.append_nil]
        exact h.1
    | cons first above =>
        rw [List.cons_append, List.cons.injEq] at heq
        obtain ⟨rfl, heq⟩ := heq
        have hlist := h.2 above more heq hmore
        rwa [List.append_assoc, List.singleton_append] at hlist

theorem canWalk_singleton_iff : CanWalk t p below [name] ↔ t.canList p below = true := by
  rw [canWalk_cons_iff, and_iff_left]
  intro above more heq hmore
  exact absurd (List.append_eq_nil_iff.mp heq).2 hmore

theorem isListed_iff :
    t.isListed p below (name, c) = true ↔ IsFileAt t p (below ++ [name]) c := by
  cases c <;> simp [isListed, IsFileAt]

theorem isEntered_iff :
    isEntered (name, c) = true ↔
      (∃ entries mode, c = .directory entries mode) ∧ name ∉ skippedNames := by
  cases c <;> simp [isEntered, Entry.isDirectory]

theorem mem_ownFiles_iff {entry : List String × Except Failure (List UInt8)} :
    entry ∈ t.ownFiles p below entries ↔ ∃ name c, (name, c) ∈ entries ∧
      t.isListed p below (name, c) = true ∧
      (below ++ [name], t.read (p.below (below ++ [name]))) = entry := by
  simp only [ownFiles, List.mem_map, mem_byName, List.mem_filter, Prod.exists, and_assoc]

/-- What is found in a directory itself. -/
theorem isFound_singleton_iff (distinct : (entries.map Prod.fst).Nodup) :
    IsFound t p below (.directory entries mode) [name] ↔ t.canList p below = true ∧
      ∃ c, (name, c) ∈ entries ∧ IsFileAt t p (below ++ [name]) c := by
  have hat : ∀ c, (Entry.directory entries mode).at? [name] = some c ↔ (name, c) ∈ entries := by
    intro c
    rw [Entry.at?_cons_eq_some_iff, ← Entry.lookup_eq_some_iff_mem distinct]
    simp [Entry.at?]
  constructor
  · intro h
    exact ⟨canWalk_singleton_iff.mp h.canWalk, by simpa only [hat] using h.isFileAt⟩
  · intro h
    exact ⟨⟨List.cons_ne_nil _ _, List.forall_mem_nil _, by simpa only [hat] using h.2⟩,
      canWalk_singleton_iff.mpr h.1⟩

/-- What is found in the directories of a directory. -/
theorem isFound_cons_iff (distinct : (entries.map Prod.fst).Nodup) (hnames : names ≠ []) :
    IsFound t p below (.directory entries mode) (name :: names) ↔ t.canList p below = true ∧
      ∃ c, (name, c) ∈ entries ∧ isEntered (name, c) = true ∧
        IsFound t p (below ++ [name]) c names := by
  obtain ⟨next, more, rfl⟩ := List.exists_cons_of_ne_nil hnames
  have hplace : below ++ [name] ++ next :: more = below ++ name :: next :: more := by
    rw [List.append_assoc, List.singleton_append]
  constructor
  · intro h
    obtain ⟨hskipped, hentered⟩ := List.forall_mem_cons.mp h.entered
    obtain ⟨e, he, hfile⟩ := h.isFileAt
    obtain ⟨hlist, hwalk⟩ := canWalk_cons_iff.mp h.canWalk
    obtain ⟨_, _, c, hsame, hc, he⟩ := Entry.at?_cons_eq_some_iff.mp he
    obtain ⟨rfl, rfl⟩ := Entry.directory.inj hsame
    obtain ⟨inner, innerMode, -, rfl, -⟩ := Entry.at?_cons_eq_some_iff.mp he
    rw [← hplace] at hfile
    exact ⟨hlist, _, (Entry.lookup_eq_some_iff_mem distinct).mp hc,
      isEntered_iff.mpr ⟨⟨inner, innerMode, rfl⟩, hskipped⟩,
      ⟨⟨hnames, hentered, e, he, hfile⟩, hwalk⟩⟩
  · intro h
    obtain ⟨hlist, c, hc, henters, hfound⟩ := h
    obtain ⟨e, he, hfile⟩ := hfound.isFileAt
    rw [hplace] at hfile
    refine ⟨⟨List.cons_ne_nil _ _,
      List.forall_mem_cons.mpr ⟨(isEntered_iff.mp henters).2, hfound.entered⟩, e, ?_, hfile⟩,
      canWalk_cons_iff.mpr ⟨hlist, hfound.canWalk⟩⟩
    exact Entry.at?_cons_eq_some_iff.mpr
      ⟨entries, mode, c, rfl, (Entry.lookup_eq_some_iff_mem distinct).mpr hc, he⟩

/-- Nothing is found below what is no directory. -/
theorem IsFound.exists_entries (h : IsFound t p below d names) :
    ∃ entries mode, d = .directory entries mode := by
  obtain ⟨name, more, rfl⟩ := List.exists_cons_of_ne_nil h.ne_nil
  obtain ⟨_, he, -⟩ := h.isFileAt
  obtain ⟨entries, mode, -, hd, -⟩ := Entry.at?_cons_eq_some_iff.mp he
  exact ⟨entries, mode, hd⟩

/-- Nothing is listed below what is no directory, and nothing is found there. -/
theorem mem_filesIn_iff_of_not_directory (hd : ∀ entries mode, d ≠ .directory entries mode)
    {entry : List String × Except Failure (List UInt8)} :
    entry ∈ t.filesIn p below d ↔ ∃ names, IsFound t p below d names ∧
      (below ++ names, t.read (p.below (below ++ names))) = entry := by
  refine iff_of_false ?_ fun h => ?_
  · cases d with
    | directory entries mode => exact (hd entries mode rfl).elim
    | _ => simp [filesIn]
  · obtain ⟨names, hfound, -⟩ := h
    obtain ⟨entries, mode, hentries⟩ := hfound.exists_entries
    exact hd entries mode hentries

/-- **What is listed is what is found**, with its bytes or with a reason why it cannot be read. -/
theorem mem_filesIn_iff (hd : d.IsProper) {entry : List String × Except Failure (List UInt8)} :
    entry ∈ t.filesIn p below d ↔ ∃ names, IsFound t p below d names ∧
      (below ++ names, t.read (p.below (below ++ names))) = entry := by
  induction hd generalizing below entry with
  | file => exact mem_filesIn_iff_of_not_directory (by simp)
  | link => exact mem_filesIn_iff_of_not_directory (by simp)
  | special => exact mem_filesIn_iff_of_not_directory (by simp)
  | @directory entries mode distinct named proper ih =>
      cases hlist : t.canList p below with
      | false =>
          rw [filesIn_of_not_canList hlist]
          refine iff_of_false List.not_mem_nil fun h => ?_
          obtain ⟨names, hfound, -⟩ := h
          have hfirst := hfound.canWalk [] names rfl hfound.ne_nil
          rw [List.append_nil, hlist] at hfirst
          cases hfirst
      | true =>
          -- The names on the way to what is listed below an entry begin with that of the entry.
          have hplace : ∀ name names, below ++ [name] ++ names = below ++ name :: names := by
            intro name names
            rw [List.append_assoc, List.singleton_append]
          rw [filesIn_directory hlist, List.mem_append, mem_ownFiles_iff, List.mem_flatMap]
          simp only [mem_byName, List.mem_filter, isListed_iff]
          constructor
          · intro h
            rcases h with ⟨name, c, hc, hfile, rfl⟩ | ⟨⟨name, c⟩, ⟨hc, henters⟩, hentry⟩
            · exact ⟨[name], (isFound_singleton_iff distinct).mpr ⟨hlist, c, hc, hfile⟩, rfl⟩
            · obtain ⟨names, hfound, rfl⟩ := (ih _ hc).mp hentry
              refine ⟨name :: names, ?_, by rw [hplace]⟩
              exact (isFound_cons_iff distinct hfound.ne_nil).mpr ⟨hlist, c, hc, henters, hfound⟩
          · intro h
            obtain ⟨names, hfound, rfl⟩ := h
            obtain ⟨name, names, rfl⟩ := List.exists_cons_of_ne_nil hfound.ne_nil
            by_cases hnames : names = []
            · subst hnames
              obtain ⟨-, c, hc, hfile⟩ := (isFound_singleton_iff distinct).mp hfound
              exact .inl ⟨name, c, hc, hfile, rfl⟩
            · obtain ⟨-, c, hc, henters, hfound⟩ := (isFound_cons_iff distinct hnames).mp hfound
              exact .inr ⟨(name, c), ⟨hc, henters⟩,
                (ih _ hc).mpr ⟨names, hfound, by rw [hplace]⟩⟩

/-- What is listed below the directories of a directory has two more names at least. -/
theorem exists_names_of_mem_filesIn (hd : d.IsProper)
    (h : names ∈ (t.filesIn p (below ++ [name]) d).map Prod.fst) :
    ∃ next more, names = below ++ name :: next :: more := by
  obtain ⟨entry, hentry, rfl⟩ := List.mem_map.mp h
  obtain ⟨rest, hfound, rfl⟩ := (mem_filesIn_iff hd).mp hentry
  obtain ⟨next, more, rfl⟩ := List.exists_cons_of_ne_nil hfound.ne_nil
  exact ⟨next, more, by simp only [List.append_assoc, List.singleton_append]⟩

/-- **The listing is in order.** -/
theorem pairwise_filesIn (hd : d.IsProper) :
    ((t.filesIn p below d).map Prod.fst).Pairwise Precedes := by
  induction hd generalizing below with
  | file => exact .nil
  | link => exact .nil
  | special => exact .nil
  | @directory entries mode distinct named proper ih =>
      cases hlist : t.canList p below with
      | false =>
          rw [filesIn_of_not_canList hlist]
          exact .nil
      | true =>
          have hsorted : ∀ keep : String × Entry → Bool,
              (byName (entries.filter keep)).Pairwise fun a b => a.1 < b.1 := fun keep =>
            pairwise_byName (distinct.sublist (List.filter_sublist.map Prod.fst))
          have hmem : ∀ e ∈ byName (entries.filter isEntered), e ∈ entries := fun e he =>
            (List.mem_filter.mp (mem_byName.mp he)).1
          rw [filesIn_directory hlist, List.map_append, List.map_flatMap]
          refine List.pairwise_append.mpr ⟨?own, ?inside, ?between⟩
          case own =>
            -- Files of the directory itself part in their only name.
            rw [ownFiles, List.map_map, List.pairwise_map]
            exact (hsorted _).imp fun hlt => (Precedes.files hlt).append_left below
          case inside =>
            -- Below one entry the induction hypothesis says it; below two entries the names of the
            -- entries are where the paths part.
            refine List.pairwise_flatMap.mpr ⟨fun e he => ih e (hmem e he), ?_⟩
            refine (hsorted isEntered).imp_of_mem ?_
            intro a b ha hb hlt names hnames names' hnames'
            obtain ⟨next, more, rfl⟩ := exists_names_of_mem_filesIn (proper a (hmem a ha)) hnames
            obtain ⟨next', more', rfl⟩ :=
              exists_names_of_mem_filesIn (proper b (hmem b hb)) hnames'
            exact (Precedes.directories hlt).append_left below
          case between =>
            intro own hown inside hinside
            obtain ⟨e, he, hinside⟩ := List.mem_flatMap.mp hinside
            obtain ⟨next, more, rfl⟩ :=
              exists_names_of_mem_filesIn (proper e (hmem e he)) hinside
            obtain ⟨entry, hentry, rfl⟩ := List.mem_map.mp hown
            obtain ⟨name, c, -, -, rfl⟩ := mem_ownFiles_iff.mp hentry
            exact Precedes.filesFirst.append_left below

/-- **The listing at a directory**: the names of what is found, in order, each with what is read
there. -/
theorem exists_filesAt (hd : (Entry.directory entries mode).IsProper)
    (hdirectory : t.find p = .ok (.directory entries mode)) :
    ∃ found : List (List String),
      (∀ names, names ∈ found ↔ IsFound t p [] (.directory entries mode) names) ∧
      found.Pairwise Precedes ∧
      t.filesAt p = .ok (found.map fun names => (names, t.read (p.below names))) := by
  have hlisting : t.filesAt p = .ok (t.filesIn p [] (.directory entries mode)) := by
    simp [filesAt, hasFile, find?, hdirectory, Entry.isFile, bind, Except.bind, pure, Except.pure,
      Except.map]
  have hmem : ∀ entry, entry ∈ t.filesIn p [] (.directory entries mode) ↔
      ∃ names, IsFound t p [] (.directory entries mode) names ∧
        (names, t.read (p.below names)) = entry := fun entry => mem_filesIn_iff hd
  refine ⟨(t.filesIn p [] (.directory entries mode)).map Prod.fst, ?_, pairwise_filesIn hd, ?_⟩
  · intro names
    rw [List.mem_map]
    constructor
    · intro h
      obtain ⟨entry, hentry, rfl⟩ := h
      obtain ⟨names, hfound, rfl⟩ := (hmem entry).mp hentry
      exact hfound
    · intro h
      exact ⟨_, (hmem _).mpr ⟨names, h, rfl⟩, rfl⟩
  · rw [hlisting, List.map_map]
    refine congrArg Except.ok (Eq.symm ?_)
    refine (List.map_congr_left fun entry hentry => ?_).trans (List.map_id _)
    obtain ⟨names, -, rfl⟩ := (hmem entry).mp hentry
    rfl

/-- **Which directories a walk can list**, below a directory that a path leads to: those that may be
read, if the path to them is not too long and all directories on the way may be passed. -/
theorem canList_iff (h : t.find p = .ok d) (hd : d.IsProper)
    (he : d.at? below = some (.directory entries mode)) :
    t.canList p below = true ↔ (p.walked below).utf8ByteSize ≤ maxPathSize ∧
      d.passes below = true ∧ mode.read = true := by
  have hwalk := findAs_below (p.walked below) h he (hd.of_at? he).2 (by simp)
  rw [canList, walkTo, hwalk]
  by_cases hlong : maxPathSize < (p.walked below).utf8ByteSize
  · simp [hlong, Nat.not_le.mpr hlong]
  · rw [if_neg hlong]
    cases d.passes below <;> simp [Nat.not_lt.mp hlong]

end Tree

namespace Audit

open SecurityAudit.Tree

variable {t : Tree} {d : Entry} {p : Path} {found : List (List String)} {names : List String}

/-! ## What is collected -/

/-- What is made of a file that is found under some names, if it can be read. -/
def fileAt? (t : Tree) (p : Path) (names : List String) : Option (String × List UInt8) :=
  match t.read (p.below names) with
  | .ok bytes => some (Text.join "/" names, bytes)
  | .error _ => none

/-- The warning about a file that is found under some names, if it cannot be read. -/
def warningAt? (t : Tree) (p : Path) (names : List String) : Option Warning :=
  match t.read (p.below names) with
  | .ok _ => none
  | .error e => some ⟨"io", Text.join "/" names, "unreadable: " ++ e.message⟩

theorem divide_eq (t : Tree) (p : Path) (found : List (List String)) :
    divide (found.map fun names => (names, t.read (p.below names))) =
      { files := found.filterMap (fileAt? t p), warnings := found.filterMap (warningAt? t p) } := by
  induction found with
  | nil => rfl
  | cons names found ih =>
      cases hread : t.read (p.below names) <;>
        simp [divide, ih, fileAt?, warningAt?, hread, unreadable]

/-- Each file that is found is collected, or there is a warning about it. -/
theorem perm_files_warnings (t : Tree) (p : Path) (found : List (List String)) :
    (((found.filterMap (fileAt? t p)).map fun f => RawText.sound f.1) ++
      (found.filterMap (warningAt? t p)).map Warning.target).Perm
        (found.map fun names => .sound (Text.join "/" names)) := by
  induction found with
  | nil => exact .nil
  | cons names found ih =>
      cases hread : t.read (p.below names) with
      | ok bytes =>
          simp only [List.filterMap_cons, fileAt?, warningAt?, hread, List.map_cons]
          exact ih.cons _
      | error e =>
          simp only [List.filterMap_cons, fileAt?, warningAt?, hread, List.map_cons]
          exact List.perm_middle.trans (ih.cons _)

/-- The paths about which a collection says something: those of its files and of its warnings. -/
def Collected.paths (c : Collected) : List RawText :=
  (c.files.map fun f => .sound f.1) ++ c.warnings.map Warning.target

/-- **What is collected is exact**: it is made of the files that are found below a directory, in
their order and each once, and they are told apart by their paths.  Which directories can be listed
and which files can be read is told by the tree.  When all directories that are looked into can be
listed, all files that are sought are found; about those below one that cannot be listed nothing is
said. -/
structure IsExact (t : Tree) (p : Path) (d : Entry) (found : List (List String))
    (collected : Collected) : Prop where
  mem_iff : ∀ names, names ∈ found ↔ IsFound t p [] d names
  ordered : found.Pairwise Precedes
  distinct : (found.map (Text.join "/")).Nodup
  files : collected.files = found.filterMap (fileAt? t p)
  warnings : collected.warnings = found.filterMap (warningAt? t p)
  once : collected.paths.Perm (found.map fun names => .sound (Text.join "/" names))
  readable : ∀ names bytes mode, d.at? names = some (.file bytes mode) →
    t.read (p.below names) =
      if maxPathSize < (p.below names).text.utf8ByteSize then .error .nameTooLong
      else if d.passes names && mode.read then .ok bytes else .error .denied
  listable : ∀ above entries mode, d.at? above = some (.directory entries mode) →
    (t.canList p above = true ↔ (p.walked above).utf8ByteSize ≤ maxPathSize ∧
      d.passes above = true ∧ mode.read = true)
  complete : (∀ above entries mode, d.at? above = some (.directory entries mode) →
    (∀ name ∈ above, name ∉ skippedNames) → t.canList p above = true) →
      ∀ names, names ∈ found ↔ IsSought t p [] d names
  silent : ∀ above more c, d.at? (above ++ more) = some c → more ≠ [] →
    t.canList p above = false → .sound (Text.join "/" (above ++ more)) ∉ collected.paths

/-- Paths of names of files are distinct if their names are. -/
theorem nodup_map_join (hnodup : found.Nodup)
    (hnames : ∀ names ∈ found, ∀ name ∈ names, Path.IsName name) :
    (found.map (Text.join "/")).Nodup := by
  refine List.Nodup.map_on (fun names hmem more hmore hjoin => ?_) hnodup
  rw [← Path.namesOf_join (hnames names hmem), hjoin, Path.namesOf_join (hnames more hmore)]

/-- Names that lead through a tree to something have directories before the last of them. -/
theorem exists_directory_of_at? {above more : List String} {c : Entry}
    (h : d.at? (above ++ more) = some c) (hmore : more ≠ []) :
    ∃ entries mode, d.at? above = some (.directory entries mode) := by
  obtain ⟨name, rest, rfl⟩ := List.exists_cons_of_ne_nil hmore
  rw [Entry.at?_append, Option.bind_eq_some_iff] at h
  obtain ⟨e, he, hc⟩ := h
  obtain ⟨entries, mode, -, rfl, -⟩ := Entry.at?_cons_eq_some_iff.mp hc
  exact ⟨entries, mode, he⟩

/-- When all directories that are looked into can be listed, what is sought is found. -/
theorem isFound_iff_isSought (h : ∀ above entries mode,
      d.at? above = some (.directory entries mode) → (∀ name ∈ above, name ∉ skippedNames) →
        t.canList p above = true) :
    IsFound t p [] d names ↔ IsSought t p [] d names := by
  refine ⟨fun hfound => hfound.toIsSought, fun hsought => ⟨hsought, ?_⟩⟩
  intro above more heq hmore
  obtain ⟨c, hc, -⟩ := hsought.isFileAt
  rw [← heq] at hc
  obtain ⟨entries, mode, habove⟩ := exists_directory_of_at? hc hmore
  refine h above entries mode habove fun name hname => hsought.entered name ?_
  rw [← heq, List.dropLast_append_of_ne_nil hmore]
  exact List.mem_append_left _ hname

/-- **Every file below a directory is collected once**, unless a directory on the way to it cannot
be listed.  Let a path lead to a directory of a proper tree.  What is collected there are the files,
other things that are opened like files, and the links to something other than a directory, that lie
below the directory and not below one in it that is never looked into, or that cannot be listed, or
below a link in it; the directory itself may have any name, and links may lead to it.  Each of them
is collected once under its path from the directory, with its bytes or, if it cannot be read, in a
warning.  In each directory the files come by name, before what is in the directories below it, by
name.  About the files below a directory that cannot be listed nothing is said. -/
theorem collect_exact {entries : List (String × Entry)} {mode : Mode} (ht : t.root.IsProper)
    (hdirectory : t.find p = .ok (.directory entries mode)) :
    ∃ found collected, collect t p = .ok collected ∧
      IsExact t p (.directory entries mode) found collected := by
  obtain ⟨mid, -, hmid⟩ := findAs_eq_ok_iff.mp hdirectory
  have hd : (Entry.directory entries mode).IsProper := (ht.of_at? hmid).1
  obtain ⟨found, hmem, hordered, hlisting⟩ := exists_filesAt hd hdirectory
  have hcollect : collect t p = .ok { files := found.filterMap (fileAt? t p),
                                      warnings := found.filterMap (warningAt? t p) } := by
    rw [collect, hlisting, ← divide_eq]
    rfl
  have hnodup : found.Nodup := hordered.imp fun h hsame => by
    subst hsame
    exact Precedes.irrefl _ h
  have hnames : ∀ names ∈ found, ∀ name ∈ names, Path.IsName name := by
    intro names hfound name hname
    obtain ⟨c, hc, -⟩ := ((hmem names).mp hfound).isFileAt
    exact ((hd.of_at? hc).2 name hname).toIsName
  have honce := perm_files_warnings t p found
  refine ⟨found, _, hcollect, hmem, hordered, nodup_map_join hnodup hnames, rfl, rfl, honce, ?_, ?_,
    ?_, ?_⟩
  · intro names bytes mode hfile
    exact read_below hdirectory hd hfile
  · intro above entries mode hentry
    exact canList_iff hdirectory hd hentry
  · intro hlist names
    rw [hmem names, isFound_iff_isSought hlist]
  · intro above more c hc hmore hlist hpath
    obtain ⟨names, hfound, hjoin⟩ := List.mem_map.mp (honce.mem_iff.mp hpath)
    obtain rfl : names = above ++ more := by
      rw [← Path.namesOf_join (hnames names hfound), RawText.sound.inj hjoin,
        Path.namesOf_join fun name hname => ((hd.of_at? hc).2 name hname).toIsName]
    have hlisted := ((hmem _).mp hfound).canWalk above more rfl hmore
    rw [List.nil_append, hlist] at hlisted
    cases hlisted

/-- A directory that may neither be listed nor passed, with a file in it. -/
def lockedDirectory : Entry :=
  .directory [("secret.py", .file [98])] { read := false, write := false, pass := false }

/-- A project with a file, a link to it, a link to nothing, a link to a directory, a file that may
not be read and a locked directory. -/
def sampleProject : Entry :=
  .directory [
    ("b.py", .file [98]),
    ("a.py", .link "b.py"),
    ("gone", .link "nowhere"),
    ("up", .link "lib"),
    ("closed.py", .file [99] { read := false }),
    ("lib", .directory [("c.py", .file [99])]),
    ("locked", lockedDirectory),
    (".git", .directory [("config", .file [])])]

/-- The files of a working directory with one project. -/
def desk (project : Entry) : Tree :=
  { root := .directory [("p", project)] }

theorem isProper_lockedDirectory : lockedDirectory.IsProper :=
  .directory (by decide) (by decide) (List.forall_mem_singleton.mpr (.file _ _))

theorem isProper_sampleProject : sampleProject.IsProper := by
  refine .directory (by decide) (by decide) ?_
  simp only [List.forall_mem_cons]
  refine ⟨.file _ _, .link _, .link _, .link _, .file _ _, ?_, isProper_lockedDirectory, ?_,
    List.forall_mem_nil _⟩
  · exact .directory (by decide) (by decide) (List.forall_mem_singleton.mpr (.file _ _))
  · exact .directory (by decide) (by decide) (List.forall_mem_singleton.mpr (.file _ _))

/-- The files are collected, and there are warnings about the link to nothing and the file that may
not be read; what git keeps for itself and what is locked is not looked into, and neither is the
link to a directory. -/
theorem collect_exact_sample :
    (desk sampleProject).root.IsProper ∧
      (desk sampleProject).find (Path.ofString "p") = .ok sampleProject ∧
      ∃ found collected, collect (desk sampleProject) (Path.ofString "p") = .ok collected ∧
        IsExact (desk sampleProject) (Path.ofString "p") sampleProject found collected ∧
        ["a.py"] ∈ found ∧ ["gone"] ∈ found ∧ ["closed.py"] ∈ found ∧ ["lib", "c.py"] ∈ found ∧
        ["up"] ∉ found ∧ ["locked", "secret.py"] ∉ found ∧ [".git", "config"] ∉ found := by
  have ht : (desk sampleProject).root.IsProper :=
    .directory (by decide) (by decide) (List.forall_mem_singleton.mpr isProper_sampleProject)
  have hdirectory : (desk sampleProject).find (Path.ofString "p") = .ok sampleProject := rfl
  obtain ⟨found, collected, hcollect, hexact⟩ := collect_exact ht hdirectory
  have htop : (desk sampleProject).canList (Path.ofString "p") [] = true := by decide
  refine ⟨ht, hdirectory, found, collected, hcollect, hexact, ?_, ?_, ?_, ?_, ?_, ?_, ?_⟩
  · exact (hexact.mem_iff _).mpr ⟨⟨by decide, by decide, _, rfl,
      .inr (.inr ⟨"b.py", rfl, by decide⟩)⟩, canWalk_singleton_iff.mpr htop⟩
  · exact (hexact.mem_iff _).mpr ⟨⟨by decide, by decide, _, rfl,
      .inr (.inr ⟨"nowhere", rfl, by decide⟩)⟩, canWalk_singleton_iff.mpr htop⟩
  · exact (hexact.mem_iff _).mpr ⟨⟨by decide, by decide, _, rfl, .inl ⟨_, _, rfl⟩⟩,
      canWalk_singleton_iff.mpr htop⟩
  · exact (hexact.mem_iff _).mpr ⟨⟨by decide, by decide, _, rfl, .inl ⟨_, _, rfl⟩⟩,
      canWalk_cons_iff.mpr ⟨htop, canWalk_singleton_iff.mpr (by decide)⟩⟩
  · intro h
    obtain ⟨c, hc, hfile⟩ := ((hexact.mem_iff _).mp h).isFileAt
    obtain rfl : Entry.link "lib" = c := Option.some.inj hc
    obtain ⟨_, _, hc⟩ | ⟨_, hc⟩ | ⟨_, _, hnone⟩ := hfile
    · cases hc
    · cases hc
    · exact absurd hnone (by decide)
  · intro h
    exact absurd (((hexact.mem_iff _).mp h).canWalk ["locked"] ["secret.py"] rfl (by decide))
      (by decide)
  · intro h
    exact absurd (((hexact.mem_iff _).mp h).entered ".git" List.mem_cons_self) (by decide)

/-- A project with a locked directory. -/
def lockedProject : Entry :=
  .directory [("a.py", .file [97]), ("locked", lockedDirectory)]

/-- **A file can be lost**: it lies below a directory and not below one that is never looked into,
it is not collected, and there is no warning about it. -/
theorem exists_file_lost :
    IsSought (desk lockedProject) (Path.ofString "p") [] lockedProject ["locked", "secret.py"] ∧
      ∃ collected, collect (desk lockedProject) (Path.ofString "p") = .ok collected ∧
        collected.files = [("a.py", [97])] ∧ collected.warnings = [] := by
  refine ⟨⟨by decide, by decide, _, rfl, .inl ⟨_, _, rfl⟩⟩, ?_⟩
  have hcollect : ((collect (desk lockedProject) (Path.ofString "p")).toOption.any fun collected =>
      collected.files == [("a.py", [97])] && collected.warnings.isEmpty) = true := by
    decide +kernel
  obtain ⟨collected, hcollected, hsame⟩ := any_toOption_iff.mp hcollect
  obtain ⟨hfiles, hwarnings⟩ := (Bool.and_eq_true _ _).mp hsame
  exact ⟨collected, hcollected, eq_of_beq hfiles, List.isEmpty_iff.mp hwarnings⟩

end Audit

end SecurityAudit
