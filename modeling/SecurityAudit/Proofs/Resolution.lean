import SecurityAudit.Audit.Files
import SecurityAudit.Proofs.Outcome
import SecurityAudit.Proofs.PathParts

/-!
# Where paths lead

A path is followed from name to name, and what follows its first names depends on nothing but the
place that they lead to and on how many links may still be followed (`follow_append`).  Below a
directory to which a path leads, names that go through directories of the tree lead where the tree
says, if all of these directories may be passed: no links are followed on the way (`findAs_below`).

Following names is bounded by their number, those of the links on the way among them.  The bound is
never reached: every link that is followed is counted, and adds at most as many names as all links
of the tree have (`resolveFrom_eq`).

Trees have names that can be those of files, and in each directory no name twice (`IsProper`).
-/

namespace SecurityAudit

/-- A text has at most as many names as characters. -/
theorem Path.length_namesOf_le (cs : List Char) : (namesOf cs).length ≤ cs.length := by
  induction cs with
  | nil => exact Nat.le_refl 0
  | cons c cs ih =>
      unfold namesOf at ih ⊢
      rw [Text.splitAt]
      split
      · exact Nat.le_succ_of_le ih
      · obtain ⟨piece, pieces, hpieces⟩ := List.exists_cons_of_ne_nil (Text.splitAt_ne_nil '/' cs)
        rw [hpieces, List.filterMap_cons] at ih
        rw [hpieces, List.filterMap_cons]
        -- The first piece is one name at most, and it has one character more than it had.
        split at ih <;> split <;> simp only [List.length_cons] at ih ⊢ <;> omega

namespace Entry

open SecurityAudit.Tree (Failure)

variable {t d e : Entry} {here there mid names : List String} {fuel links : Nat} {name : String}
  {target : String} {f : Failure}

/-- A name that a file can have. -/
structure IsProperName (name : String) : Prop extends Path.IsName name where
  ne_up : name ≠ ".."
  short : name.utf8ByteSize ≤ maxNameSize

instance (name : String) : Decidable (IsProperName name) :=
  decidable_of_iff ((name ≠ "" ∧ name ≠ "." ∧ '/' ∉ name.toList) ∧ name ≠ ".." ∧
      name.utf8ByteSize ≤ maxNameSize)
    ⟨fun h => ⟨⟨h.1.1, h.1.2.1, h.1.2.2⟩, h.2.1, h.2.2⟩,
      fun h => ⟨⟨h.ne_empty, h.ne_dot, h.no_slash⟩, h.ne_up, h.short⟩⟩

/-- The names in the directories of a tree are names of files, and no directory has one twice. -/
inductive IsProper : Entry → Prop
  | file (bytes : List UInt8) (mode : Mode) : IsProper (.file bytes mode)
  | link (target : String) : IsProper (.link target)
  | special (content : Except Failure (List UInt8)) : IsProper (.special content)
  | directory {entries : List (String × Entry)} {mode : Mode}
      (distinct : (entries.map Prod.fst).Nodup)
      (named : ∀ entry ∈ entries, IsProperName entry.1)
      (proper : ∀ entry ∈ entries, IsProper entry.2) : IsProper (.directory entries mode)

/-! ## Entries under names -/

theorem at?_cons (t : Entry) (name : String) (names : List String) :
    t.at? (name :: names) = (t.child? name).bind (·.at? names) := rfl

theorem at?_append (t : Entry) (names more : List String) :
    t.at? (names ++ more) = (t.at? names).bind (·.at? more) := by
  induction names generalizing t with
  | nil => rfl
  | cons name names ih =>
      rw [List.cons_append, at?_cons, at?_cons]
      cases t.child? name with
      | none => rfl
      | some c => exact ih c

/-- What has something below it is a directory with an entry for the first name. -/
theorem at?_cons_eq_some_iff :
    t.at? (name :: names) = some e ↔ ∃ entries mode c, t = .directory entries mode ∧
      entries.lookup name = some c ∧ c.at? names = some e := by
  rw [at?_cons, Option.bind_eq_some_iff]
  cases t <;> simp [child?]

/-- With distinct names, what is found under a name is the entry of that name. -/
theorem lookup_eq_some_iff_mem {entries : List (String × Entry)} {c : Entry}
    (h : (entries.map Prod.fst).Nodup) : entries.lookup name = some c ↔ (name, c) ∈ entries := by
  constructor
  · intro hc
    obtain ⟨before, after, rfl, -⟩ := List.lookup_eq_some_iff.mp hc
    exact List.mem_append_right _ List.mem_cons_self
  · intro hmem
    obtain ⟨before, after, rfl⟩ := List.append_of_mem hmem
    refine List.lookup_eq_some_iff.mpr ⟨before, after, rfl, fun entry hentry => ?_⟩
    rw [List.map_append, List.map_cons, List.nodup_append] at h
    have hne := h.2.2 _ (List.mem_map_of_mem hentry) _ List.mem_cons_self
    simpa using Ne.symm hne

/-- What lies in a proper tree is proper, under names that are names of files. -/
theorem IsProper.of_at? (h : t.IsProper) (he : t.at? names = some e) :
    e.IsProper ∧ ∀ name ∈ names, IsProperName name := by
  induction names generalizing t with
  | nil =>
      obtain rfl := Option.some.inj he
      exact ⟨h, List.forall_mem_nil _⟩
  | cons name names ih =>
      obtain ⟨entries, mode, c, rfl, hc, he⟩ := at?_cons_eq_some_iff.mp he
      cases h with
      | directory distinct named proper =>
          have hmem := (lookup_eq_some_iff_mem distinct).mp hc
          obtain ⟨hproper, hnames⟩ := ih (proper _ hmem) he
          exact ⟨hproper, List.forall_mem_cons.mpr ⟨named _ hmem, hnames⟩⟩

/-- The directories on the way under names may be passed. -/
def passes (t : Entry) : List String → Bool
  | [] => true
  | name :: rest =>
    match t with
    | .directory entries mode => mode.pass && (entries.lookup name).any (·.passes rest)
    | _ => false

/-! ## Following names -/

section Steps

variable {entries : List (String × Entry)} {mode : Mode}
  (hhere : t.at? here = some (.directory entries mode))
include hhere

/-- What is no link is gone into, if its directory may be passed. -/
theorem stride_down (hname : IsProperName name) (hentry : entries.lookup name = some e)
    (he : ∀ target, e ≠ .link target) :
    t.stride here name = if mode.pass then .ok (.place (here ++ [name])) else .error .denied := by
  have hshort : ¬ maxNameSize < name.utf8ByteSize := Nat.not_lt.mpr hname.short
  cases hpass : mode.pass with
  | false => simp [stride, hhere, hpass]
  | true =>
      cases e with
      | link target => exact (he target rfl).elim
      | _ => simp [stride, hhere, hpass, hname.ne_dot, hname.ne_up, hshort, hentry]

end Steps

/-- A name that leads to a link has the link in the tree. -/
theorem exists_link_of_stride (h : t.stride here name = .ok (.link target)) :
    t.at? (here ++ [name]) = some (.link target) := by
  unfold stride at h
  split at h
  next entries mode hhere =>
    split at h
    · cases h
    · split at h
      · cases h
      · split at h
        · cases h
        · split at h
          · cases h
          · split at h
            next => cases h
            next found hentry =>
              split at h
              · cases h
              · obtain rfl := Stride.link.inj (Except.ok.inj h)
                rw [at?_append, hhere, Option.bind_some, at?_cons_eq_some_iff]
                exact ⟨entries, mode, _, rfl, hentry, rfl⟩
            next => cases h
  next => cases h

theorem follow_error (h : t.stride here name = .error f) :
    t.follow (fuel + 1) links here (name :: names) = .error (failureBefore names f) := by
  rw [follow, h]

theorem follow_place (h : t.stride here name = .ok (.place there)) :
    t.follow (fuel + 1) links here (name :: names) = t.follow fuel links there names := by
  rw [follow, h]

theorem follow_link_zero (h : t.stride here name = .ok (.link target)) :
    t.follow (fuel + 1) 0 here (name :: names) = .error .tooManyLinks := by
  rw [follow, h]

theorem follow_link (h : t.stride here name = .ok (.link target)) :
    t.follow (fuel + 1) (links + 1) here (name :: names) =
      t.follow fuel links (if (Path.rootOf target.toList).isEmpty then here else [])
        (namesOfTarget target ++ names) := by
  rw [follow, h]

/-- **Following some names and then others**: what follows the first names depends only on where
they lead, and on the links that may still be followed. -/
theorem follow_append (h : t.follow fuel links here names = .ok mid) :
    ∃ used left, used < fuel ∧ ∀ extra more,
      t.follow (used + extra) links here (names ++ more) = t.follow extra left mid more := by
  -- The steps that are taken for the first names are taken again, with the other names behind.
  fun_induction follow t fuel links here names with
  | case2 =>
      obtain rfl := Except.ok.inj h
      exact ⟨0, _, Nat.zero_lt_succ _, fun extra more => by rw [Nat.zero_add, List.nil_append]⟩
  | case4 fuel links here name rest there hstride ih =>
      obtain ⟨used, left, hused, hmore⟩ := ih h
      refine ⟨used + 1, left, Nat.succ_lt_succ hused, fun extra more => ?_⟩
      rw [Nat.add_right_comm, List.cons_append, follow_place hstride, hmore]
  | case6 fuel here name rest target hstride links start ih =>
      obtain ⟨used, left, hused, hmore⟩ := ih h
      refine ⟨used + 1, left, Nat.succ_lt_succ hused, fun extra more => ?_⟩
      rw [Nat.add_right_comm, List.cons_append, follow_link hstride, ← List.append_assoc, hmore]
  | _ => cases h

/-- **Names that go through directories of the tree** lead where the tree says, if all directories
on the way may be passed. -/
theorem follow_of_at? (hd : t.at? here = some d) (he : d.at? names = some e)
    (hnames : ∀ name ∈ names, IsProperName name) (hlink : ∀ target, e ≠ .link target)
    (hfuel : names.length < fuel) :
    t.follow fuel links here names =
      if d.passes names then .ok (here ++ names) else .error .denied := by
  induction names generalizing here d fuel with
  | nil =>
      obtain ⟨fuel, rfl⟩ := Nat.exists_eq_add_one_of_ne_zero (Nat.ne_of_gt hfuel)
      simp [follow, passes]
  | cons name names ih =>
      obtain ⟨entries, mode, c, rfl, hc, he⟩ := at?_cons_eq_some_iff.mp he
      obtain ⟨hname, hnames⟩ := List.forall_mem_cons.mp hnames
      obtain ⟨fuel, rfl⟩ := Nat.exists_eq_add_one_of_ne_zero
        (Nat.ne_of_gt (Nat.zero_lt_of_lt hfuel))
      have hplace : t.at? (here ++ [name]) = some c := by
        rw [at?_append, hd, Option.bind_some, at?_cons_eq_some_iff]
        exact ⟨entries, mode, c, rfl, hc, rfl⟩
      have hnolink : ∀ target, c ≠ .link target := by
        intro target hc
        subst hc
        cases names with
        | nil => exact hlink target (Option.some.inj he).symm
        | cons => cases he
      have hstride := stride_down hd hname hc hnolink
      cases hpass : mode.pass with
      | false =>
          rw [hpass] at hstride
          rw [follow_error hstride]
          simp [passes, hpass, failureBefore]
      | true =>
          rw [hpass] at hstride
          rw [follow_place hstride, ih hplace he hnames (Nat.lt_of_succ_lt_succ hfuel)]
          simp [passes, hpass, hc]

/-! ## The bound on the names -/

theorem linkNames_le_sum {entries : List (String × Entry)} {c : Entry}
    (h : (name, c) ∈ entries) : c.linkNames ≤ linkNames.sum entries := by
  induction entries with
  | nil => cases h
  | cons entry entries ih =>
      rcases List.mem_cons.mp h with rfl | h
      · exact Nat.le_add_right _ _
      · exact Nat.le_trans (ih h) (Nat.le_add_left _ _)

/-- What lies in a tree has no more names in its links. -/
theorem linkNames_le_of_at? (h : t.at? names = some e) : e.linkNames ≤ t.linkNames := by
  induction names generalizing t with
  | nil => rw [Option.some.inj h]
  | cons name names ih =>
      obtain ⟨entries, mode, c, rfl, hc, he⟩ := at?_cons_eq_some_iff.mp h
      obtain ⟨before, after, rfl, -⟩ := List.lookup_eq_some_iff.mp hc
      exact Nat.le_trans (ih he)
        (linkNames_le_sum (List.mem_append_right before List.mem_cons_self))

/-- A target has at most one name more than characters. -/
theorem length_namesOfTarget_le (target : String) :
    (namesOfTarget target).length ≤ (link target).linkNames := by
  have hnames := Path.length_namesOf_le target.toList
  rw [String.length_toList] at hnames
  rw [linkNames, namesOfTarget]
  split
  · rw [List.length_append, List.length_singleton]
    exact Nat.succ_le_succ hnames
  · rw [List.length_append, List.length_singleton]
    exact Nat.succ_le_succ hnames
  · exact Nat.le_succ_of_le hnames

/-- Following names does not depend on the bound on their number, if it is large enough for them and
for those of the links that may still be followed. -/
theorem follow_succ (h : names.length + links * (t.linkNames + 1) < fuel) :
    t.follow (fuel + 1) links here names = t.follow fuel links here names := by
  fun_induction follow t fuel links here names with
  | case1 => cases h
  | case2 => rw [follow]
  | case3 fuel links here name rest f hstride => rw [follow_error hstride]
  | case4 fuel links here name rest there hstride ih =>
      rw [follow_place hstride]
      exact ih (by simp only [List.length_cons] at h; omega)
  | case5 fuel here name rest target hstride => rw [follow_link_zero hstride]
  | case6 fuel here name rest target hstride links start ih =>
      have htarget : (namesOfTarget target).length ≤ t.linkNames :=
        Nat.le_trans (length_namesOfTarget_le target)
          (linkNames_le_of_at? (exists_link_of_stride hstride))
      rw [follow_link hstride]
      refine ih ?_
      rw [List.length_append]
      rw [List.length_cons, Nat.succ_mul] at h
      omega

/-- **Where names lead does not depend on the bound on their number**: the one that is used is never
reached. -/
theorem resolveFrom_eq (h : names.length + (maxLinks + 1) * (t.linkNames + 1) < fuel) :
    t.resolveFrom here names = t.follow fuel maxLinks here names := by
  induction fuel with
  | zero => cases h
  | succ fuel ih =>
      rcases Nat.lt_succ_iff_lt_or_eq.mp h with h | h
      · rw [ih h, follow_succ (by rw [Nat.succ_mul] at h; omega)]
      · rw [resolveFrom, h]

/-- Names that go down from a place to which other names lead. -/
theorem resolveFrom_append {more : List String} (h : t.resolveFrom here names = .ok mid)
    (hd : t.at? mid = some d) (he : d.at? more = some e)
    (hnames : ∀ name ∈ more, IsProperName name) (hlink : ∀ target, e ≠ .link target) :
    t.resolveFrom here (names ++ more) =
      if d.passes more then .ok (mid ++ more) else .error .denied := by
  obtain ⟨used, left, hused, hmore⟩ := follow_append h
  have hfuel : (names ++ more).length + (maxLinks + 1) * (t.linkNames + 1) + 1 =
      used + (names.length + (maxLinks + 1) * (t.linkNames + 1) + 1 - used + more.length) := by
    rw [List.length_append]
    omega
  rw [resolveFrom, hfuel, hmore]
  exact follow_of_at? hd he hnames hlink (by omega)

end Entry

namespace Tree

variable {t : Tree} {d e : Entry} {p : Path} {names : List String} {text : String}

/-! ## Paths -/

/-- A path leads to the entry under the names that it resolves to. -/
theorem findAs_eq_ok_iff :
    t.findAs text p = .ok e ↔ ∃ mid, t.resolveAs text p = .ok mid ∧ t.root.at? mid = some e := by
  rw [findAs, bind_eq_ok_iff]
  refine exists_congr fun mid => and_congr_right fun _ => ?_
  cases t.root.at? mid <;> simp

/-- **Below a directory that a path leads to**, names that go through directories of the tree lead
where the tree says, if the path is not too long and the directories may be passed. -/
theorem findAs_below (text : String) (h : t.find p = .ok d) (he : d.at? names = some e)
    (hnames : ∀ name ∈ names, Entry.IsProperName name) (hlink : ∀ target, e ≠ .link target) :
    t.findAs text (p.below names) =
      if maxPathSize < text.utf8ByteSize then .error .nameTooLong
      else if d.passes names then .ok e else .error .denied := by
  obtain ⟨mid, hmid, hd⟩ := findAs_eq_ok_iff.mp h
  rw [resolveAs] at hmid
  split at hmid
  case isTrue => cases hmid
  case isFalse =>
    have hbelow : p.below names = { p with names := p.names ++ names } := rfl
    have hplace : t.root.at? (mid ++ names) = some e := by
      rw [Entry.at?_append, hd, Option.bind_some, he]
    rw [findAs, resolveAs, hbelow]
    split
    · rfl
    · rw [Entry.resolveFrom_append hmid hd he hnames hlink]
      cases d.passes names with
      | false => rfl
      | true => simp [bind, Except.bind, hplace]

/-- **Below a directory of a proper tree, a file is read as it is**, if its path is not too long and
the directories on the way may be passed and it may be read. -/
theorem read_below {bytes : List UInt8} {mode : Mode} (h : t.find p = .ok d) (hd : d.IsProper)
    (he : d.at? names = some (.file bytes mode)) :
    t.read (p.below names) =
      if maxPathSize < (p.below names).text.utf8ByteSize then .error .nameTooLong
      else if d.passes names && mode.read then .ok bytes else .error .denied := by
  have hfind := findAs_below (p.below names).text h he (hd.of_at? he).2 (by simp)
  rw [read, find, hfind]
  split
  · rfl
  · cases d.passes names with
    | false => rfl
    | true =>
        rw [Bool.true_and]
        rfl

/-! ## Directories -/

theorem hasDirectory_eq_true_iff :
    t.hasDirectory p = .ok true ↔ ∃ entries mode, t.find p = .ok (.directory entries mode) := by
  rw [hasDirectory, find?]
  cases t.find p with
  | ok e => cases e <;> simp [Except.map, Entry.isDirectory]
  | error e => cases hsaid : e.saysAbsent <;> simp [hsaid, Except.map]

/-- The names of the working directory lead to a directory of the tree. -/
def HasWorkingDirectory (t : Tree) : Prop :=
  ∃ entries mode, t.root.at? t.here = some (.directory entries mode)

/-- Where there is a working directory, the root is a directory. -/
theorem HasWorkingDirectory.root (ht : t.HasWorkingDirectory) :
    ∃ entries mode, t.root = .directory entries mode := by
  obtain ⟨entries, mode, hhere⟩ := ht
  cases hnames : t.here with
  | nil =>
      rw [hnames] at hhere
      exact ⟨entries, mode, Option.some.inj hhere⟩
  | cons name names =>
      rw [hnames] at hhere
      obtain ⟨entries, mode, -, hroot, -⟩ := Entry.at?_cons_eq_some_iff.mp hhere
      exact ⟨entries, mode, hroot⟩

/-- A text without names is a path to the working directory or to the root. -/
theorem HasWorkingDirectory.find_of_names_eq_nil (ht : t.HasWorkingDirectory) {s : String}
    (hnames : (Path.ofString s).names = []) :
    ∃ entries mode, t.find (Path.ofString s) = .ok (.directory entries mode) := by
  have hshort : ¬ maxPathSize < (Path.ofString s).text.utf8ByteSize := by
    have hroot : (Path.ofString s).root ∈ Path.roots := Path.rootOf_mem_roots s.toList
    have hroots : ∀ root ∈ Path.roots,
        ¬ maxPathSize < (Path.text { root := root, names := [] }).utf8ByteSize := by decide
    have hpath : Path.ofString s = { root := (Path.ofString s).root, names := [] } := by
      rw [← hnames]
    rw [hpath]
    exact hroots _ hroot
  have hresolve : t.resolveAs (Path.ofString s).text (Path.ofString s) =
      .ok (if (Path.ofString s).root.isEmpty then t.here else []) := by
    rw [resolveAs, if_neg hshort, hnames, Entry.resolveFrom, Entry.follow]
  simp only [find, findAs_eq_ok_iff, hresolve]
  split
  · obtain ⟨entries, mode, hhere⟩ := ht
    exact ⟨entries, mode, _, rfl, hhere⟩
  · obtain ⟨entries, mode, hroot⟩ := ht.root
    exact ⟨entries, mode, _, rfl, congrArg some hroot⟩

/-! ## Files that can be collected -/

/-- The files at or below a path can be collected when it can be told whether it leads somewhere. -/
theorem exists_filesAt_of_exists_ {b : Bool} (h : t.exists_ p = .ok b) :
    ∃ listing, t.filesAt p = .ok listing := by
  obtain ⟨found?, hfound, -⟩ := map_eq_ok_iff.mp h
  simp only [filesAt, hasFile, hfound, Except.map, bind, Except.bind]
  split
  · exact ⟨_, rfl⟩
  · split <;> exact ⟨_, rfl⟩

end Tree

/-- The files of an audit can be collected when it can be told whether the path leads somewhere. -/
theorem Audit.exists_collect {t : Tree} {p : Path} {b : Bool} (h : t.exists_ p = .ok b) :
    ∃ collected, Audit.collect t p = .ok collected := by
  obtain ⟨listing, hlisting⟩ := Tree.exists_filesAt_of_exists_ h
  rw [Audit.collect, hlisting]
  exact ⟨_, rfl⟩

end SecurityAudit
