import SecurityAudit.Detect.Vulnerability
import SecurityAudit.Proofs.LeftmostMatch

/-!
# The lines on which a rule matches

A rule with a window sees some lines joined by line feeds (`Rule.windowAt`).  Its match there counts
for the line that the window starts with when it begins on that line: before the line feed after it,
or at that line feed, which is where the line ends.  A match that begins further on is left to the
window of a later line, and near the end of a file a window has fewer lines.

So a line is reported when a match begins on it, with the text of the first one that does, and the
lines come in order (`hits_spec`).  To look at the lines one by one is the case of a window of one
line, where a match begins on the line wherever it begins (`lineHitsFrom_eq`).
-/

namespace SecurityAudit.Rule

open Pattern (search IsLeftmost)

variable {r : Rule} {lines : List (List Char)} {number : Nat}

/-- What a rule sees from a line on: the lines of a window that starts with it, as far as there are
any, joined by line feeds. -/
def windowAt (r : Rule) (lines : List (List Char)) (i : Nat) : List Char :=
  joined ((lines.drop i).take r.window)

/-- The first window starts with the first line. -/
theorem windowAt_zero (first : List Char) (rest : List (List Char)) :
    r.windowAt (first :: rest) 0 = joined (first :: rest.take (r.window - 1)) := by
  obtain ⟨n, hn⟩ := Nat.exists_eq_add_of_le' r.window_pos
  rw [windowAt, hn, List.drop_zero, List.take_succ_cons, Nat.add_sub_cancel]

/-- The windows after the first one are those of the lines after the first one. -/
theorem windowAt_succ (first : List Char) (rest : List (List Char)) (i : Nat) :
    r.windowAt (first :: rest) (i + 1) = r.windowAt rest i := rfl

/-- A window has the line that it starts with as its beginning. -/
theorem length_le_windowAt {line : List Char} {i : Nat} (h : lines[i]? = some line) :
    line.length ≤ (r.windowAt lines i).length := by
  induction lines generalizing i with
  | nil => cases h
  | cons first rest ih =>
      cases i with
      | succ i => exact ih h
      | zero =>
          obtain rfl := Option.some.inj h
          rw [windowAt_zero, joined]
          cases rest.take (r.window - 1) with
          | nil =>
              exact Nat.le_of_eq (congrArg List.length List.intercalate_singleton.symm)
          | cons second others =>
              rw [List.intercalate_cons_cons, List.length_append, List.length_append]
              omega

/-! ## One line -/

/-- The hit of a window is its first match, if that begins on the line that the window starts
with. -/
theorem hitAt?_eq_some_iff {first : List Char} {rest : List (List Char)} {text : List Char} :
    r.hitAt? first rest = some text ↔
      ∃ m, IsLeftmost r.pattern (r.windowAt (first :: rest) 0) m ∧ m.first ≤ first.length ∧
        text = m.text (r.windowAt (first :: rest) 0) := by
  rw [windowAt_zero]
  simp only [hitAt?, ← Pattern.search_eq_some_iff]
  cases search r.pattern (joined (first :: rest.take (r.window - 1))) with
  | none =>
      constructor
      · intro h
        cases h
      · rintro ⟨m, h, -⟩
        cases h
  | some m =>
      by_cases hbegins : m.first ≤ first.length
      · simp only [if_pos hbegins]
        constructor
        · intro h
          exact ⟨m, rfl, hbegins, (Option.some.inj h).symm⟩
        · rintro ⟨m', hm', -, rfl⟩
          rw [Option.some.inj hm']
      · simp only [if_neg hbegins]
        constructor
        · intro h
          cases h
        · rintro ⟨m', hm', hbegins', -⟩
          exact absurd (Option.some.inj hm' ▸ hbegins') hbegins

/-- In a window of one line a match begins on the line wherever it begins. -/
theorem hitAt?_of_window_eq_one (h : r.window = 1) (first : List Char)
    (rest : List (List Char)) :
    r.hitAt? first rest = (search r.pattern first).map fun m => m.text first := by
  have htext : joined (first :: rest.take (r.window - 1)) = first := by
    rw [h, Nat.sub_self, List.take_zero, joined, List.intercalate_singleton]
  simp only [hitAt?, htext]
  cases hsearch : search r.pattern first with
  | none => rfl
  | some m =>
      have hinside := (Pattern.search_eq_some_iff.mp hsearch).inside
      simp only [if_pos hinside, Option.map_some]

/-! ## All lines -/

/-- The hits of a rule are the first matches of the windows that begin on the line that the window
starts with. -/
theorem mem_hitsFrom_iff {h : Hit} :
    h ∈ r.hitsFrom number lines ↔
      ∃ i line m, lines[i]? = some line ∧ IsLeftmost r.pattern (r.windowAt lines i) m ∧
        m.first ≤ line.length ∧ h = ⟨number + i, m.text (r.windowAt lines i)⟩ := by
  induction lines generalizing number with
  | nil =>
      constructor
      · intro hmem
        cases hmem
      · rintro ⟨i, line, m, hline, -⟩
        cases hline
  | cons first rest ih =>
      have hmem : h ∈ r.hitsFrom number (first :: rest) ↔
          (∃ text, r.hitAt? first rest = some text ∧ h = ⟨number, text⟩) ∨
            h ∈ r.hitsFrom (number + 1) rest := by
        rw [hitsFrom]
        cases r.hitAt? first rest <;> simp
      rw [hmem, ih]
      constructor
      · rintro (⟨text, hhit, rfl⟩ | ⟨i, line, m, hline, hleftmost, hbegins, rfl⟩)
        · obtain ⟨m, hleftmost, hbegins, rfl⟩ := hitAt?_eq_some_iff.mp hhit
          exact ⟨0, first, m, rfl, hleftmost, hbegins, rfl⟩
        · refine ⟨i + 1, line, m, hline, hleftmost, hbegins, ?_⟩
          rw [windowAt_succ, Nat.add_right_comm, Nat.add_assoc]
      · rintro ⟨i, line, m, hline, hleftmost, hbegins, rfl⟩
        cases i with
        | zero =>
            obtain rfl := Option.some.inj hline
            exact .inl ⟨_, hitAt?_eq_some_iff.mpr ⟨m, hleftmost, hbegins, rfl⟩, rfl⟩
        | succ i =>
            refine .inr ⟨i, line, m, hline, hleftmost, hbegins, ?_⟩
            rw [windowAt_succ, Nat.add_right_comm, Nat.add_assoc]

/-- A rule matches on lines that are there. -/
theorem line_of_mem_hitsFrom {h : Hit} (hmem : h ∈ r.hitsFrom number lines) :
    number ≤ h.line ∧ h.line < number + lines.length := by
  obtain ⟨i, line, m, hline, -, -, rfl⟩ := mem_hitsFrom_iff.mp hmem
  obtain ⟨hlt, -⟩ := List.getElem?_eq_some_iff.mp hline
  exact ⟨Nat.le_add_right _ _, Nat.add_lt_add_left hlt _⟩

/-- A rule matches on a line once at most. -/
theorem pairwise_hitsFrom (r : Rule) (number : Nat) (lines : List (List Char)) :
    (r.hitsFrom number lines).Pairwise fun h h' => h.line < h'.line := by
  induction lines generalizing number with
  | nil => exact .nil
  | cons first rest ih =>
      rw [hitsFrom]
      split
      · refine List.pairwise_cons.mpr ⟨fun h hmem => ?_, ih _⟩
        have hleast := (line_of_mem_hitsFrom hmem).1
        exact hleast
      · exact ih _

/-- To look at the lines one by one is to look at windows of one line. -/
theorem lineHitsFrom_eq (h : r.window = 1) :
    lineHitsFrom r.pattern number lines = r.hitsFrom number lines := by
  induction lines generalizing number with
  | nil => rfl
  | cons first rest ih =>
      rw [lineHitsFrom, hitsFrom, hitAt?_of_window_eq_one h, ih]
      cases search r.pattern first <;> rfl

/-- The lines on which a rule matches are told by its windows, even when it needs none. -/
theorem hits_eq (r : Rule) (lines : List (List Char)) : r.hits lines = r.hitsFrom 1 lines := by
  unfold hits
  by_cases h : r.window = 1
  · rw [if_pos (beq_iff_eq.mpr h), lineHitsFrom_eq h]
  · rw [if_neg (by simpa using h)]

/-- **On which lines a rule matches.**  They come in order.  A line is among them when a match of
the pattern begins on it, in the window that starts with it: at a place that has at most as many
characters before it as the line has.  What is reported is the text of the match that begins first
of all in that window.  And to look at the lines one by one, wherever a match begins, is the same as
to look at windows of one line. -/
theorem hits_spec (r : Rule) (lines : List (List Char)) :
    (r.hits lines).Pairwise (fun h h' => h.line < h'.line) ∧
    (∀ i, (∃ h ∈ r.hits lines, h.line = i + 1) ↔
      ∃ line, lines[i]? = some line ∧
        ∃ k, k ≤ line.length ∧ (r.pattern.matchFrom? (r.windowAt lines i) k).isSome = true) ∧
    (∀ h, h ∈ r.hits lines ↔
      ∃ i line m, lines[i]? = some line ∧ IsLeftmost r.pattern (r.windowAt lines i) m ∧
        m.first ≤ line.length ∧ h = ⟨i + 1, m.text (r.windowAt lines i)⟩) ∧
    ∀ number, lineHitsFrom r.pattern number lines =
      ({ r with window := 1, window_pos := Nat.le_refl 1 } : Rule).hitsFrom number lines := by
  have hmem : ∀ h, h ∈ r.hits lines ↔
      ∃ i line m, lines[i]? = some line ∧ IsLeftmost r.pattern (r.windowAt lines i) m ∧
        m.first ≤ line.length ∧ h = ⟨i + 1, m.text (r.windowAt lines i)⟩ := by
    intro h
    rw [hits_eq, mem_hitsFrom_iff]
    simp only [Nat.add_comm 1]
  refine ⟨?_, ?_, hmem, fun number => ?_⟩
  · rw [hits_eq]
    exact r.pairwise_hitsFrom 1 lines
  · intro i
    constructor
    · rintro ⟨h, hh, hnumber⟩
      obtain ⟨j, line, m, hline, hleftmost, hbegins, rfl⟩ := (hmem h).mp hh
      obtain rfl : j = i := Nat.succ.inj hnumber
      exact ⟨line, hline, (Pattern.exists_match_within_iff (length_le_windowAt hline)).mpr
        ⟨m, hleftmost, hbegins⟩⟩
    · rintro ⟨line, hline, hmatch⟩
      obtain ⟨m, hleftmost, hbegins⟩ :=
        (Pattern.exists_match_within_iff (length_le_windowAt hline)).mp hmatch
      exact ⟨_, (hmem _).mpr ⟨i, line, m, hline, hleftmost, hbegins, rfl⟩, rfl⟩
  · exact lineHitsFrom_eq (r := { r with window := 1, window_pos := Nat.le_refl 1 }) rfl

end SecurityAudit.Rule
