import SecurityAudit.Audit.Target

/-!
# Which lines a marker covers

Whether a finding on a line is suppressed is told from two lines: the line itself, and the line
before it.  The marker of the line counts; if the line has none, the marker of the line before does,
provided that line is nothing but a comment.

A register goes through the lines of a file once and carries a marker along from each to the next.
`find?_ofLines` says that nothing is carried any further: what covers a line is what `coverageAt?`
tells from the two lines.  From this follows how far markers reach (`verdict_local`), and that a
marker of a line's own takes the place of the one that the line before hands on, even where it is
not for a rule that the other one is for (`verdict_of_promised`).
-/

namespace SecurityAudit

/-- The line with a number, from one on. -/
def lineAt? (lines : List (List Char)) : Nat → Option (List Char)
  | 0 => none
  | i + 1 => lines[i]?

/-- A line has a marker. -/
def isMarked (line : List Char) : Bool :=
  (Marker.ofLine? line).isSome

/-- A line has a marker that is for a rule. -/
def isMarkedFor (rule : Value) (line : List Char) : Bool :=
  (Marker.ofLine? line).any (·.covers rule)

theorem isMarkedFor_iff {rule : Value} {line : List Char} :
    isMarkedFor rule line = true ↔ ∃ m, Marker.ofLine? line = some m ∧ m.covers rule = true := by
  simp [isMarkedFor, Option.any_eq_true]

namespace Marker

/-- The marker that a line hands on to the next one, if the line is nothing but a comment. -/
def handedOn? (line : List Char) : Option Marker :=
  if isCommentLine line then ofLine? line else none

/-- A line of code hands nothing on. -/
theorem handedOn?_of_code {line : List Char} (h : isCommentLine line = false) :
    handedOn? line = none := by
  simp [handedOn?, h]

/-- A line without a marker hands nothing on. -/
theorem handedOn?_of_unmarked {line : List Char} (h : isMarked line = false) :
    handedOn? line = none := by
  have hnone : ofLine? line = none := by simpa [isMarked] using h
  simp [handedOn?, hnone]

/-- What is handed on is the marker of a comment. -/
theorem handedOn?_eq_some_iff {line : List Char} {m : Marker} :
    handedOn? line = some m ↔ isCommentLine line = true ∧ ofLine? line = some m := by
  simp [handedOn?]

end Marker

/-- What covers a line that a marker is handed on to, or none is. -/
def Coverage.ofLine? (carried : Option Marker) (line : List Char) : Option Coverage :=
  match Marker.ofLine? line with
  | some m => some ⟨.inline, m⟩
  | none => carried.map (⟨.previousLine, ·⟩)

/-- A line is covered by its own marker, or, if it has none, by the one that is handed on to it. -/
theorem Coverage.ofLine?_eq_some_iff {carried : Option Marker} {line : List Char} {c : Coverage} :
    Coverage.ofLine? carried line = some c ↔
      (∃ m, Marker.ofLine? line = some m ∧ c = ⟨.inline, m⟩) ∨
      (isMarked line = false ∧ ∃ m, carried = some m ∧ c = ⟨.previousLine, m⟩) := by
  simp only [Coverage.ofLine?, isMarked]
  cases Marker.ofLine? line with
  | some m => simp [eq_comm]
  | none => cases carried <;> simp [eq_comm]

/-- The marker that is handed on to the line with a number. -/
def handedTo? (lines : List (List Char)) (number : Nat) : Option Marker :=
  (lineAt? lines (number - 1)).bind Marker.handedOn?

/-- What covers the line with a number, as the line and the one before it tell. -/
def coverageAt? (lines : List (List Char)) (number : Nat) : Option Coverage :=
  (lineAt? lines number).bind (Coverage.ofLine? (handedTo? lines number))

/-! ## What a register knows about a line -/

/-- Lines with their numbers, the first of which comes after `start`. -/
def numberedFrom (start : Nat) (lines : List (List Char)) : List (Int × List Char) :=
  (lines.zipIdx start).map fun (line, i) => (((i + 1 : Nat) : Int), line)

theorem numberedFrom_cons (start : Nat) (line : List Char) (lines : List (List Char)) :
    numberedFrom start (line :: lines) =
      (((start + 1 : Nat) : Int), line) :: numberedFrom (start + 1) lines := by
  simp [numberedFrom, List.zipIdx_cons]

namespace Coverings

/-- Of one line the register notes what covers it, and goes on with what the line hands on. -/
theorem ofLines_cons (carried : Option Marker) (number : Int) (line : List Char)
    (rest : List (Int × List Char)) :
    ofLines carried ((number, line) :: rest) =
      (Coverage.ofLine? carried line).toList.map (number, ·) ++
        ofLines (Marker.handedOn? line) rest := by
  simp only [ofLines, Coverage.ofLine?, Marker.handedOn?]
  cases Marker.ofLine? line with
  | some m => simp
  | none => cases carried <;> simp

/-- What comes later is found first. -/
theorem find?_append (cs ds : Coverings) (number : Int) :
    find? (cs ++ ds) number = (find? ds number).or (find? cs number) := by
  simp [find?, List.reverse_append, List.lookup_append]

/-- Of what covers one line, only that line is covered. -/
theorem find?_map_toList (c : Option Coverage) (number other : Int) :
    find? (c.toList.map (number, ·)) other = if other = number then c else none := by
  cases c with
  | none => simp [find?]
  | some c =>
      by_cases h : other = number
      · simp [find?, h]
      · have hne : (other == number) = false := beq_false_of_ne h
        simp [find?, List.lookup_cons, h, hne]

/-- No line is covered that does not come after the start. -/
theorem find?_ofLines_of_le (carried : Option Marker) {start number : Nat} (h : number ≤ start)
    (lines : List (List Char)) :
    find? (ofLines carried (numberedFrom start lines)) number = none := by
  induction lines generalizing carried start with
  | nil => rfl
  | cons line lines ih =>
      have hne : ¬ (number : Int) = ((start + 1 : Nat) : Int) := by omega
      rw [numberedFrom_cons, ofLines_cons, find?_append, find?_map_toList, ih _ (by omega),
        if_neg hne]
      rfl

/-- **Nothing is carried further than to the next line.**  What covers a line is told by the line
and by what the line before it hands on; to the first line it is what is carried from the start. -/
theorem find?_ofLines (carried : Option Marker) (start : Nat) (lines : List (List Char))
    (i : Nat) :
    find? (ofLines carried (numberedFrom start lines)) ((start + (i + 1) : Nat) : Int) =
      lines[i]?.bind
        (Coverage.ofLine? (if i = 0 then carried else handedTo? lines (i + 1))) := by
  induction lines generalizing carried start i with
  | nil => rfl
  | cons line lines ih =>
      rw [numberedFrom_cons, ofLines_cons, find?_append, find?_map_toList]
      cases i with
      | zero =>
          rw [find?_ofLines_of_le _ (by omega)]
          simp
      | succ i =>
          have hnumber : start + (i + 1 + 1) = start + 1 + (i + 1) := by omega
          have hne : ¬ ((start + (i + 1 + 1) : Nat) : Int) = ((start + 1 : Nat) : Int) := by omega
          rw [if_neg hne, hnumber, ih, Option.or_none]
          cases i with
          | zero => rfl
          | succ i => rfl

end Coverings

namespace Register

/-- What a register says of a rule on a line of a file, after it has taken note of its lines. -/
def verdict (r : Register) (file : String) (lines : List (List Char)) (number : Nat)
    (rule : Value) : Except Refusal (Option Suppression) :=
  Suppression.check? ((r.add file (numberedFrom 0 lines)).coverings file) rule file number

/-- About a file that was not known, a register knows what its lines tell. -/
theorem coverings_add {r : Register} {file : String} (hnew : r.coverings file = [])
    (lines : List (Int × List Char)) :
    (r.add file lines).coverings file = Coverings.ofLines none lines := by
  cases h : Coverings.ofLines none lines with
  | nil => simpa [add, h] using hnew
  | cons c cs => simp [add, h, coverings]

/-- **What covers a line is told by two lines.** -/
theorem find?_coverings_add {r : Register} {file : String} (hnew : r.coverings file = [])
    (lines : List (List Char)) (number : Nat) :
    ((r.add file (numberedFrom 0 lines)).coverings file).find? number =
      coverageAt? lines number := by
  rw [coverings_add hnew]
  cases number with
  | zero => exact Coverings.find?_ofLines_of_le none (Nat.le_refl 0) lines
  | succ i =>
      have h := Coverings.find?_ofLines none 0 lines i
      rw [Nat.zero_add] at h
      rw [h]
      cases i with
      | zero => rfl
      | succ i => rfl

end Register

/-- The audit judges the findings in a file as a new register does, whatever the path. -/
theorem Audit.coveringsOf_eq (f : SourceFile) (path : String) :
    coveringsOf f = (Register.add [] path (numberedFrom 0 f.lines)).coverings path := by
  rw [Register.coverings_add rfl]
  simp [coveringsOf, SourceFile.numbered, numberedFrom, Function.comp_def]

/-! ## What a register says -/

/-- A marker that lists rules is for nothing that cannot be looked up in the list. -/
theorem Marker.isKey_of_covers {m : Marker} {rule : Value} (hcovers : m.covers rule = true)
    (hrules : m.rules.isSome = true) : rule.isKey = true := by
  obtain ⟨rules, hrules⟩ := Option.isSome_iff_exists.mp hrules
  cases rule with
  | text s => rfl
  | _ => simp [covers, hrules, Value.text?] at hcovers

/-- A finding is suppressed when what covers its line is for its rule. -/
theorem Suppression.check?_eq_some_iff {cs : Coverings} {rule : Value} {file : String}
    {line : Int} {s : Suppression} :
    check? cs rule file line = .ok (some s) ↔
      ∃ c, cs.find? line = some c ∧ c.marker.covers rule = true ∧
        s = ofCoverage c rule file line := by
  cases hfind : cs.find? line with
  | none => simp [check?, hfind]
  | some c =>
      by_cases hcovers : c.marker.covers rule = true
      · have hlooked : (c.marker.rules.isSome && !rule.isKey) = false := by
          cases hrules : c.marker.rules.isSome with
          | false => rfl
          | true => simp [Marker.isKey_of_covers hcovers hrules]
        simp only [check?, hfind, hlooked, hcovers]
        constructor
        · intro h
          cases h
          exact ⟨c, rfl, hcovers, rfl⟩
        · rintro ⟨_, ⟨⟩, -, rfl⟩
          rfl
      · simp only [check?, hfind]
        split <;> simp [hcovers]

/-- Different places are given as different reasons. -/
theorem MarkerPlace.reason_injective : Function.Injective MarkerPlace.reason := by
  intro a b h
  cases a <;> cases b <;> simp_all [reason]

/-- Whether a finding is suppressed depends on what covers its line. -/
theorem Suppression.check?_congr {cs ds : Coverings} {line : Int}
    (h : cs.find? line = ds.find? line) (rule : Value) (file : String) :
    check? cs rule file line = check? ds rule file line := by
  simp only [check?, h]

/-- Why a finding of a rule on a line is suppressed, by the place of the marker: the line has a
marker for the rule, or it has none and the line before it is a comment with a marker for the
rule. -/
inductive Grounds (lines : List (List Char)) (number : Nat) (rule : Value) : MarkerPlace → Prop
  | inline {line : List Char} (line_eq : lineAt? lines number = some line)
      (marked : isMarkedFor rule line = true) : Grounds lines number rule .inline
  | previousLine {line previous : List Char} (line_eq : lineAt? lines number = some line)
      (unmarked : isMarked line = false)
      (previous_eq : lineAt? lines (number - 1) = some previous)
      (comment : isCommentLine previous = true) (marked : isMarkedFor rule previous = true) :
      Grounds lines number rule .previousLine

/-- There are grounds when what covers the line is for the rule. -/
theorem grounds_iff {lines : List (List Char)} {number : Nat} {rule : Value}
    {place : MarkerPlace} :
    Grounds lines number rule place ↔
      ∃ m, coverageAt? lines number = some ⟨place, m⟩ ∧ m.covers rule = true := by
  simp only [coverageAt?, handedTo?, Option.bind_eq_some_iff, Coverage.ofLine?_eq_some_iff,
    Marker.handedOn?_eq_some_iff]
  constructor
  · intro h
    cases h with
    | inline line_eq marked =>
        obtain ⟨m, hm, hcovers⟩ := isMarkedFor_iff.mp marked
        exact ⟨m, ⟨_, line_eq, .inl ⟨m, hm, rfl⟩⟩, hcovers⟩
    | previousLine line_eq unmarked previous_eq comment marked =>
        obtain ⟨m, hm, hcovers⟩ := isMarkedFor_iff.mp marked
        exact ⟨m, ⟨_, line_eq, .inr ⟨unmarked, m, ⟨_, previous_eq, comment, hm⟩, rfl⟩⟩, hcovers⟩
  · rintro ⟨m, ⟨line, hline, ⟨m', hm, heq⟩ | ⟨hunmarked, m', hhanded, heq⟩⟩, hcovers⟩
    · cases heq
      exact .inline hline (isMarkedFor_iff.mpr ⟨m, hm, hcovers⟩)
    · cases heq
      obtain ⟨previous, hprevious, hcomment, hm⟩ := hhanded
      exact .previousLine hline hunmarked hprevious hcomment
        (isMarkedFor_iff.mpr ⟨m, hm, hcovers⟩)

/-! ## Lines among others -/

/-- The line after some others has the next number. -/
theorem lineAt?_middle (before : List (List Char)) (line : List Char) (after : List (List Char)) :
    lineAt? (before ++ line :: after) (before.length + 1) = some line := by
  simp [lineAt?]

/-- Another line in the place of one leaves the lines with other numbers. -/
theorem lineAt?_replace {before : List (List Char)} {number : Nat}
    (h : number ≠ before.length + 1) (line line' : List Char) (after : List (List Char)) :
    lineAt? (before ++ line' :: after) number = lineAt? (before ++ line :: after) number := by
  cases number with
  | zero => rfl
  | succ i =>
      simp only [lineAt?]
      by_cases hi : i < before.length
      · rw [List.getElem?_append_left hi, List.getElem?_append_left hi]
      · have hafter : i - before.length = i - before.length - 1 + 1 := by omega
        rw [List.getElem?_append_right (by omega), List.getElem?_append_right (by omega), hafter,
          List.getElem?_cons_succ, List.getElem?_cons_succ]

/-- **A line that hands nothing on tells nothing about other lines.** -/
theorem coverageAt?_replace {before : List (List Char)} {number : Nat}
    (h : number ≠ before.length + 1) {line line' : List Char}
    (hline : Marker.handedOn? line = none) (hline' : Marker.handedOn? line' = none)
    (after : List (List Char)) :
    coverageAt? (before ++ line' :: after) number =
      coverageAt? (before ++ line :: after) number := by
  have hhanded : handedTo? (before ++ line' :: after) number =
      handedTo? (before ++ line :: after) number := by
    simp only [handedTo?]
    by_cases hnext : number - 1 = before.length + 1
    · simp [hnext, lineAt?_middle, hline, hline']
    · rw [lineAt?_replace hnext line line' after]
  rw [coverageAt?, coverageAt?, lineAt?_replace h line line' after, hhanded]

namespace Register

variable {r : Register} {file : String} {lines : List (List Char)} {number : Nat} {rule : Value}

/-- A register records a suppression when what covers the line is for the rule. -/
theorem verdict_eq_some_iff (hnew : r.coverings file = []) {s : Suppression} :
    r.verdict file lines number rule = .ok (some s) ↔
      ∃ c, coverageAt? lines number = some c ∧ c.marker.covers rule = true ∧
        s = .ofCoverage c rule file number := by
  rw [verdict, Suppression.check?_eq_some_iff, find?_coverings_add hnew]

/-- **A suppression is recorded, with its reason, when there are grounds for it.** -/
theorem exists_record_iff (hnew : r.coverings file = []) (place : MarkerPlace) :
    (∃ s, r.verdict file lines number rule = .ok (some s) ∧ s.reason = place.reason) ↔
      Grounds lines number rule place := by
  rw [grounds_iff]
  constructor
  · rintro ⟨s, hs, hreason⟩
    obtain ⟨⟨place', m⟩, hc, hcovers, rfl⟩ := (verdict_eq_some_iff hnew).mp hs
    obtain rfl : place' = place := MarkerPlace.reason_injective hreason
    exact ⟨m, hc, hcovers⟩
  · rintro ⟨m, hc, hcovers⟩
    exact ⟨_, (verdict_eq_some_iff hnew).mpr ⟨_, hc, hcovers, rfl⟩, rfl⟩

/-- A suppression that is recorded has grounds. -/
theorem exists_grounds (hnew : r.coverings file = []) {s : Suppression}
    (hs : r.verdict file lines number rule = .ok (some s)) :
    ∃ place, s.reason = place.reason ∧ Grounds lines number rule place := by
  obtain ⟨⟨place, m⟩, hc, hcovers, rfl⟩ := (verdict_eq_some_iff hnew).mp hs
  exact ⟨place, rfl, grounds_iff.mpr ⟨m, hc, hcovers⟩⟩

/-- What is said about a line depends on what covers it, and on the name of the file. -/
theorem verdict_congr (hnew : r.coverings file = []) {r' : Register} {file' : String}
    (hnew' : r'.coverings file' = []) {lines' : List (List Char)}
    (h : coverageAt? lines' number = coverageAt? lines number) :
    r'.verdict file' lines' number rule =
      (r.verdict file lines number rule).map (Option.map fun s => { s with file := file' }) := by
  simp only [verdict, Suppression.check?, find?_coverings_add hnew, find?_coverings_add hnew', h]
  cases coverageAt? lines number with
  | none => rfl
  | some c =>
      simp only
      split
      · rfl
      · split <;> rfl

/-- **How far markers reach.**  A suppression is recorded because of the marker of the line, or, if
the line has none, because of that of the comment before it.  A marker on a line of code makes no
difference to any other line; of comments with markers one after another only the last reaches the
line after them; and whatever else is in a file, what is said about a line is told by the line and
the one before it. -/
theorem verdict_local (hnew : r.coverings file = []) (lines : List (List Char)) (number : Nat)
    (rule : Value) :
    (∀ s, r.verdict file lines number rule = .ok (some s) →
      s.reason = "inline" ∧ Grounds lines number rule .inline ∨
      s.reason = "next-line" ∧ Grounds lines number rule .previousLine) ∧
    (∀ before code plain after, lines = before ++ code :: after → isCommentLine code = false →
      isMarked plain = false → number ≠ before.length + 1 →
      r.verdict file lines number rule =
        r.verdict file (before ++ plain :: after) number rule) ∧
    (∀ before run last line after, lines = before ++ run ++ last :: line :: after →
      (∀ c ∈ run ++ [last], isCommentLine c = true ∧ isMarked c = true) →
      number = (before ++ run).length + 2 →
      ((∃ s, r.verdict file lines number rule = .ok (some s) ∧ s.reason = "next-line") ↔
        isMarked line = false ∧ isMarkedFor rule last = true)) ∧
    (∀ (r' : Register) (file' : String) (lines' : List (List Char)), r'.coverings file' = [] →
      lineAt? lines' number = lineAt? lines number →
      lineAt? lines' (number - 1) = lineAt? lines (number - 1) →
      r'.verdict file' lines' number rule =
        (r.verdict file lines number rule).map
          (Option.map fun s => { s with file := file' })) := by
  refine ⟨fun s hs => ?_, ?_, ?_, ?_⟩
  · obtain ⟨place, hreason, hgrounds⟩ := exists_grounds hnew hs
    cases place with
    | inline => exact .inl ⟨hreason, hgrounds⟩
    | previousLine => exact .inr ⟨hreason, hgrounds⟩
  · rintro before code plain after rfl hcode hplain hne
    refine Suppression.check?_congr ?_ rule file
    rw [find?_coverings_add hnew, find?_coverings_add hnew]
    exact (coverageAt?_replace hne (Marker.handedOn?_of_code hcode)
      (Marker.handedOn?_of_unmarked hplain) after).symm
  · rintro before run last line after rfl hrun rfl
    obtain ⟨hcomment, -⟩ := hrun last (List.mem_append_right run List.mem_cons_self)
    have hlast := lineAt?_middle (before ++ run) last (line :: after)
    have hline : lineAt? (before ++ run ++ last :: line :: after) ((before ++ run).length + 2) =
        some line := by
      have h := lineAt?_middle (before ++ run ++ [last]) line after
      rwa [List.append_assoc, List.length_append, List.singleton_append] at h
    refine (exists_record_iff hnew .previousLine).trans ?_
    constructor
    · intro h
      cases h with
      | previousLine line_eq unmarked previous_eq comment marked =>
          obtain rfl := Option.some.inj (hline.symm.trans line_eq)
          obtain rfl := Option.some.inj (hlast.symm.trans previous_eq)
          exact ⟨unmarked, marked⟩
    · rintro ⟨hunmarked, hmarked⟩
      exact .previousLine hline hunmarked hlast hcomment hmarked
  · intro r' file' lines' hnew' hline hprevious
    refine verdict_congr hnew hnew' ?_
    rw [coverageAt?, coverageAt?, handedTo?, handedTo?, hline, hprevious]

/-- Two comments with markers one after another, a line of code, and another one with a marker. -/
def stacked : List (List Char) :=
  ["# nosec[A]".toList, "# nosec[B]".toList, "x = eval(a)".toList, "y = eval(b)  # nosec".toList]

/-- The line after the two comments is covered by the second of them, for its rule and not for the
rule of the first, whether or not there is a marker on the last line. -/
theorem verdict_local_stacked :
    (∃ s, Register.verdict [] "a.py" stacked 3 (.text "B") = .ok (some s) ∧
      s.reason = "next-line") ∧
    (¬ ∃ s, Register.verdict [] "a.py" stacked 3 (.text "A") = .ok (some s) ∧
      s.reason = "next-line") ∧
    Register.verdict [] "a.py" stacked 3 (.text "B") =
      Register.verdict [] "a.py" (stacked.take 3 ++ ["y = eval(b)".toList]) 3 (.text "B") := by
  have hrun : ∀ c ∈ ["# nosec[A]".toList] ++ ["# nosec[B]".toList],
      isCommentLine c = true ∧ isMarked c = true := by
    decide
  obtain ⟨-, hcode, hlast, -⟩ := @verdict_local [] "a.py" rfl stacked 3 (.text "B")
  obtain ⟨-, -, hfirst, -⟩ := @verdict_local [] "a.py" rfl stacked 3 (.text "A")
  refine ⟨?_, ?_, ?_⟩
  · exact (hlast [] ["# nosec[A]".toList] "# nosec[B]".toList _ _ rfl hrun rfl).mpr (by decide)
  · exact mt (hfirst [] ["# nosec[A]".toList] "# nosec[B]".toList _ _ rfl hrun rfl).mp (by decide)
  · exact hcode (stacked.take 3) _ "y = eval(b)".toList [] rfl (by decide) (by decide) (by decide)

/-! ## What markers promise -/

/-- What is promised about markers: a rule is suppressed on a line that has a marker for it, and on
a line after a comment with a marker for it. -/
inductive Promised (lines : List (List Char)) (number : Nat) (rule : Value) : Prop
  | own {line : List Char} (line_eq : lineAt? lines number = some line)
      (marked : isMarkedFor rule line = true)
  | previous {line previous : List Char} (line_eq : lineAt? lines number = some line)
      (previous_eq : lineAt? lines (number - 1) = some previous)
      (comment : isCommentLine previous = true) (marked : isMarkedFor rule previous = true)

/-- **When the promise is kept.**  A rule that is promised to be suppressed on a line is suppressed
there unless the line has a marker of its own that is not for the rule: that marker takes the place
of the one on the comment before. -/
theorem verdict_of_promised (hnew : r.coverings file = [])
    (hpromised : Promised lines number rule) :
    (∃ s, r.verdict file lines number rule = .ok (some s)) ↔
      ∀ line, lineAt? lines number = some line → isMarked line = true →
        isMarkedFor rule line = true := by
  constructor
  · rintro ⟨s, hs⟩ line hline hmarked
    obtain ⟨place, -, hgrounds⟩ := exists_grounds hnew hs
    cases hgrounds with
    | inline line_eq marked =>
        obtain rfl := Option.some.inj (hline.symm.trans line_eq)
        exact marked
    | previousLine line_eq unmarked _ _ _ =>
        obtain rfl := Option.some.inj (hline.symm.trans line_eq)
        rw [hmarked] at unmarked
        cases unmarked
  · intro hown
    have hgrounds : ∃ place, Grounds lines number rule place := by
      cases hpromised with
      | own line_eq marked => exact ⟨_, .inline line_eq marked⟩
      | @previous line _ line_eq previous_eq comment marked =>
          cases hmarked : isMarked line with
          | true => exact ⟨_, .inline line_eq (hown line line_eq hmarked)⟩
          | false => exact ⟨_, .previousLine line_eq hmarked previous_eq comment marked⟩
    obtain ⟨place, hgrounds⟩ := hgrounds
    obtain ⟨s, hs, -⟩ := (exists_record_iff hnew place).mpr hgrounds
    exact ⟨s, hs⟩

/-- On a line without a marker the promise of the comment before is kept. -/
theorem verdict_of_promised_stacked :
    ∃ s, Register.verdict [] "a.py" stacked 3 (.text "B") = .ok (some s) := by
  have hpromised : Promised stacked 3 (.text "B") := .previous rfl rfl (by decide) (by decide)
  refine (verdict_of_promised (r := []) rfl hpromised).mpr fun line hline hmarked => ?_
  obtain rfl := Option.some.inj hline
  exact absurd hmarked (by decide)

/-- **The promise is not always kept.**  The comment before a line is for all rules, and the line
has a marker for one rule; another rule is not suppressed there. -/
theorem exists_promise_broken :
    ∃ lines number rule, Promised lines number rule ∧
      Register.verdict [] "a.py" lines number rule = .ok none := by
  refine ⟨["# nosec".toList, "x = eval(a)  # nosec[B]".toList], 2, .text "A",
    .previous rfl rfl (by decide) (by decide), ?_⟩
  rfl

end Register

end SecurityAudit
