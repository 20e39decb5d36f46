import SecurityAudit.Proofs.Budget
import SecurityAudit.Proofs.Reportable
import SecurityAudit.Proofs.WindowedMatching

/-!
# Lines beyond the cap

Both detectors cut a line before they do anything else with it: before it is looked at for comments
and markers, before the lines of a window are joined, and before a match is asked where it begins.
So no pattern gets to see more than the cap allows, and what comes after the cap makes no
difference.

What a rule sees of some lines are its windows (`Rule.windows`), and what the secret patterns see
are the lines that are looked at (`SecretScan.looked`).  What the detectors find is told by running
patterns on these texts and on no others (`vulnerabilities_int`, `SecretScan.run_int`).  The main
statement, `findings_bounded`, says how long the texts are, and that two files whose lines begin
alike have the same findings.
-/

namespace SecurityAudit

namespace Detect

/-- To cut a line at a whole number is to keep its first characters. -/
theorem cut_int (cap : Nat) (line : List Char) : cut (.int cap) line = .ok (line.take cap) := by
  have hpos : (0 : Int) ≤ cap := by omega
  simp [cut, cutPoint?, firstChars, hpos]

/-- A line that is cut unless it is within the cap keeps its first characters. -/
theorem cutUnlessWithin_int (cap : Nat) (line : List Char) :
    cutUnlessWithin (.int cap) line = .ok (line.take cap) := by
  have hcap : (Value.int cap).number? = some (.int cap) := rfl
  have hbelow : (lengthOf line).below (.int cap) = decide ((line.length : Int) < cap) :=
    Number.below_int _ _
  have hsame : (lengthOf line).same (.int cap) = decide ((line.length : Int) = cap) :=
    Number.same_int _ _
  simp only [cutUnlessWithin, hcap, hbelow, hsame]
  by_cases h : line.length ≤ cap
  · have hwithin : (line.length : Int) < cap ∨ (line.length : Int) = cap := by omega
    rw [if_pos (by simpa only [Bool.or_eq_true, decide_eq_true_eq] using hwithin),
      List.take_of_length_le h]
  · have hbeyond : ¬ ((line.length : Int) < cap ∨ (line.length : Int) = cap) := by omega
    rw [if_neg (by simpa only [Bool.or_eq_true, decide_eq_true_eq] using hbeyond)]
    exact cut_int cap line

/-- A line that is cut if it is beyond the cap keeps its first characters. -/
theorem cutIfBeyond_int (cap : Nat) (line : List Char) :
    cutIfBeyond (.int cap) line = .ok (line.take cap) := by
  have hcap : (Value.int cap).number? = some (.int cap) := rfl
  have hbelow : (Number.int cap).below (lengthOf line) = decide ((cap : Int) < line.length) :=
    Number.below_int _ _
  simp only [cutIfBeyond, hcap, hbelow]
  by_cases h : cap < line.length
  · rw [if_pos (by simpa using h)]
    exact cut_int cap line
  · rw [if_neg (by simpa using h), List.take_of_length_le (by omega)]

end Detect

namespace SourceFile

/-- The lines of a file as far as the cap. -/
def linesWithin (f : SourceFile) (cap : Nat) : List (List Char) :=
  f.lines.map (List.take cap)

/-- Two files of one path have as many lines, and each line of the one begins like that of the
other, as far as the cap. -/
structure AgreesWithin (cap : Nat) (f g : SourceFile) : Prop where
  path : f.path = g.path
  lines : List.Forall₂ (fun l m => l.take cap = m.take cap) f.lines g.lines

variable {f g : SourceFile} {cap : Nat}

/-- No line is longer than the cap when it is cut there. -/
theorem length_le_of_mem_linesWithin {line : List Char} (h : line ∈ f.linesWithin cap) :
    line.length ≤ cap := by
  obtain ⟨whole, -, rfl⟩ := List.mem_map.mp h
  rw [List.length_take]
  omega

/-- Files that agree have the same lines as far as the cap. -/
theorem AgreesWithin.linesWithin_eq (h : f.AgreesWithin cap g) :
    f.linesWithin cap = g.linesWithin cap := by
  have hlines : List.Forall₂ Eq (f.lines.map (List.take cap)) (g.lines.map (List.take cap)) := by
    rw [List.forall₂_map_left_iff, List.forall₂_map_right_iff]
    exact h.lines
  exact List.forall₂_eq_eq_eq ▸ hlines

end SourceFile

/-! ## What a rule sees -/

namespace Rule

/-- What a rule sees from a line on: which line it is, how long it is, and the lines of the window
that starts with it, joined to one text. -/
structure Window where
  line : Nat
  firstLength : Nat
  text : List Char

/-- The windows of lines, the first of which has the number `number`. -/
def windowsFrom (r : Rule) (number : Nat) : List (List Char) → List Window
  | [] => []
  | first :: rest =>
    ⟨number, first.length, joined (first :: rest.take (r.window - 1))⟩ ::
      r.windowsFrom (number + 1) rest

/-- The windows of lines. -/
def windows (r : Rule) (lines : List (List Char)) : List Window :=
  r.windowsFrom 1 lines

/-- The hit of a pattern in a window: its match there, if that begins on the first line. -/
def Window.hit? (p : Pattern) (w : Window) : Option Hit :=
  match Pattern.search p w.text with
  | some m => if m.first ≤ w.firstLength then some ⟨w.line, m.text w.text⟩ else none
  | none => none

variable {r : Rule}

/-- The hits of a rule in some lines are those in their windows. -/
theorem hitsFrom_eq (number : Nat) (lines : List (List Char)) :
    r.hitsFrom number lines = (r.windowsFrom number lines).filterMap (Window.hit? r.pattern) := by
  induction lines generalizing number with
  | nil => rfl
  | cons first rest ih =>
      have hfirst : Window.hit? r.pattern
          ⟨number, first.length, joined (first :: rest.take (r.window - 1))⟩ =
          (r.hitAt? first rest).map fun text => ⟨number, text⟩ := by
        simp only [Window.hit?, hitAt?]
        cases hmatch : Pattern.search r.pattern (joined (first :: rest.take (r.window - 1))) with
        | none => rfl
        | some m =>
            by_cases hbegins : m.first ≤ first.length
            · simp only [hbegins, if_true, Option.map_some]
            · simp only [hbegins, if_false, Option.map_none]
      rw [hitsFrom, windowsFrom, List.filterMap_cons, hfirst, ih]
      cases r.hitAt? first rest <;> rfl

/-- The findings of a rule in windows, if the rule is for the file of a path. -/
def findingsIn (r : Rule) (now : Calendar.Moment) (path : RawText) (ws : List Window) :
    Except Refusal (List Finding) := do
  if ← r.appliesTo path.readable then
    (ws.filterMap (Window.hit? r.pattern)).mapM (r.finding now path)
  else return []

/-- The findings of a rule in some lines are those in their windows. -/
theorem findings_eq (now : Calendar.Moment) (path : RawText) (lines : List (List Char)) :
    r.findings now path lines = r.findingsIn now path (r.windows lines) := by
  unfold findings findingsIn windows
  rw [hits_eq, hitsFrom_eq]

/-- Some lines that are joined have their characters, and a line feed between each and the next. -/
theorem length_joined_le {lines : List (List Char)} {cap : Nat}
    (h : ∀ line ∈ lines, line.length ≤ cap) :
    (joined lines).length ≤ lines.length * cap + (lines.length - 1) := by
  unfold joined
  induction lines with
  | nil => simp
  | cons first rest ih =>
      obtain ⟨hfirst, hrest⟩ := List.forall_mem_cons.mp h
      have hlength := ih hrest
      cases rest with
      | nil => simpa using hfirst
      | cons second rest =>
          have hmore : (first :: second :: rest).length * cap =
              (second :: rest).length * cap + cap := Nat.succ_mul _ _
          rw [List.intercalate_cons_cons, hmore]
          simp only [List.length_append, List.length_cons, List.length_nil] at hlength ⊢
          omega

/-- **How much a rule sees.**  When no line is longer than the cap, the text of a window has at most
as many characters as its lines may have, and the line feeds between them. -/
theorem length_window_le {lines : List (List Char)} {cap number : Nat}
    (h : ∀ line ∈ lines, line.length ≤ cap) {w : Window} (hw : w ∈ r.windowsFrom number lines) :
    w.text.length ≤ r.window * cap + (r.window - 1) := by
  induction lines generalizing number with
  | nil => cases hw
  | cons first rest ih =>
      obtain ⟨hfirst, hrest⟩ := List.forall_mem_cons.mp h
      rw [windowsFrom] at hw
      rcases List.mem_cons.mp hw with rfl | hw
      · have hlines : ∀ line ∈ first :: rest.take (r.window - 1), line.length ≤ cap := by
          intro line hline
          rcases List.mem_cons.mp hline with rfl | hline
          · exact hfirst
          · exact hrest line (List.mem_of_mem_take hline)
        have htext := length_joined_le hlines
        have hfew : (first :: rest.take (r.window - 1)).length ≤ r.window := by
          have := r.window_pos
          simp only [List.length_cons, List.length_take]
          omega
        have hchars := Nat.mul_le_mul_right cap hfew
        simp only
        omega
      · exact ih hrest hw

end Rule

namespace Detect

/-- **What a scan for vulnerabilities finds** is found in the windows of the lines as far as the
cap. -/
theorem vulnerabilities_int (rules : List Rule) (cap : Nat) (now : Calendar.Moment)
    (f : SourceFile) :
    vulnerabilities rules (.int cap) now f =
      (rules.mapM fun r : Rule => r.findingsIn now f.path (r.windows (f.linesWithin cap))).map
        List.flatten := by
  have hcut : f.lines.mapM (cutUnlessWithin (.int cap)) = .ok (f.linesWithin cap) := by
    rw [mapM_eq_ok_iff, SourceFile.linesWithin, List.forall₂_map_right_iff]
    exact List.forall₂_same.mpr fun line _ => cutUnlessWithin_int cap line
  unfold vulnerabilities
  rw [hcut]
  simp only [bind, Except.bind, Rule.findings_eq]
  cases rules.mapM fun r : Rule => r.findingsIn now f.path (r.windows (f.linesWithin cap)) <;> rfl

/-! ## What the secret patterns see -/

namespace SecretScan

/-- The lines that are looked at, with their numbers, as far as the cap: none if the path is
marked, and otherwise those that are not left out. -/
def looked (s : SecretScan) (f : SourceFile) (cap : Nat) : List (Nat × List Char) :=
  if s.skipsPath f.path then []
  else
    ((f.linesWithin cap).zipIdx.map fun (line, i) => (i + 1, line)).filter fun p => !s.skips p.2

/-- The findings of the patterns on a line that is looked at. -/
def findingsIn (s : SecretScan) (now : Calendar.Moment) (path : RawText)
    (line : Nat × List Char) : Except Refusal (List Finding) :=
  (s.patterns.filterMap fun p => (candidates p line.2).head?.map fun c => (p, c)).mapM
    fun (p, c) => p.finding now path line.1 c

variable {s : SecretScan} {f : SourceFile} {cap : Nat}

/-- **How much a secret pattern sees**: one line as far as the cap. -/
theorem length_le_of_mem_looked {line : Nat × List Char} (h : line ∈ s.looked f cap) :
    line.2.length ≤ cap := by
  unfold looked at h
  by_cases hmarked : s.skipsPath f.path = true
  · rw [if_pos hmarked] at h
    cases h
  · rw [if_neg hmarked] at h
    obtain ⟨⟨cut, i⟩, hcut, rfl⟩ := List.mem_map.mp (List.mem_filter.mp h).1
    exact SourceFile.length_le_of_mem_linesWithin (List.fst_mem_of_mem_zipIdx hcut)

/-- What is found on lines is found on those that are not left out. -/
theorem flatten_mapM_findingsOn (now : Calendar.Moment) (path : RawText)
    (lines : List (Nat × List Char)) :
    (lines.mapM fun p => s.findingsOn now path p.1 p.2).map List.flatten =
      ((lines.filter fun p => !s.skips p.2).mapM (s.findingsIn now path)).map List.flatten := by
  induction lines with
  | nil => rfl
  | cons p lines ih =>
      cases hskips : s.skips p.2 with
      | true =>
          have hnone : s.findingsOn now path p.1 p.2 = .ok [] := by
            simp [findingsOn, candidatesOn, hskips, pure, Except.pure]
          rw [List.filter_cons_of_neg (by simp [hskips]), ← ih, List.mapM_cons, hnone]
          cases lines.mapM fun p => s.findingsOn now path p.1 p.2 <;> rfl
      | false =>
          have hsame : s.findingsOn now path p.1 p.2 = s.findingsIn now path p := by
            simp [findingsOn, candidatesOn, findingsIn, hskips]
          rw [List.filter_cons_of_pos (by simp [hskips]), List.mapM_cons, List.mapM_cons, hsame]
          cases s.findingsIn now path p with
          | error e => rfl
          | ok found =>
              revert ih
              cases lines.mapM fun p => s.findingsOn now path p.1 p.2 <;>
                cases (lines.filter fun p => !s.skips p.2).mapM (s.findingsIn now path) <;>
                simp [Except.map, bind, Except.bind, pure, Except.pure]

/-- **What a scan for secrets finds** is found on the lines that are looked at. -/
theorem run_int (s : SecretScan) (cap : Nat) (now : Calendar.Moment) (f : SourceFile) :
    { s with cap := .int cap }.run now f =
      ((s.looked f cap).mapM (s.findingsIn now f.path)).map List.flatten := by
  have hmarks : ({ s with cap := .int cap } : SecretScan).skipsPath f.path = s.skipsPath f.path :=
    rfl
  unfold run looked
  rw [hmarks]
  by_cases hmarked : s.skipsPath f.path = true
  · rw [if_pos hmarked, if_pos hmarked]
    rfl
  · rw [if_neg hmarked, if_neg hmarked, ← s.flatten_mapM_findingsOn]
    have hfound : (f.numbered.mapM fun p => do
        ({ s with cap := .int cap } : SecretScan).findingsOn now f.path p.1
          (← cutIfBeyond (.int cap) p.2)) =
        ((f.linesWithin cap).zipIdx.map fun (line, i) => (i + 1, line)).mapM fun p =>
          s.findingsOn now f.path p.1 p.2 := by
      rw [SourceFile.numbered, SourceFile.linesWithin, List.zipIdx_map, List.map_map,
        List.mapM_map, List.mapM_map]
      congr 1
      funext p
      simp only [cutIfBeyond_int]
      rfl
    rw [hfound]
    cases ((f.linesWithin cap).zipIdx.map fun (line, i) => (i + 1, line)).mapM fun p =>
      s.findingsOn now f.path p.1 p.2 <;> rfl

end SecretScan

/-- **What comes after the cap makes no difference.**  Two files of one path whose lines begin
alike, as far as the cap, have the same findings, of whatever rules, and of whatever secret patterns
with whatever markers.  The findings are told by the windows of the lines as far as the cap and by
the lines that are looked at; the text of a window has at most as many characters as the cap allows
for each line of the window, with a line feed between each and the next, and a line that is looked
at has at most as many as the cap. -/
theorem findings_bounded {f g : SourceFile} {cap : Nat} (h : f.AgreesWithin cap g)
    (rules : List Rule) (s : SecretScan) (now : Calendar.Moment) :
    vulnerabilities rules (.int cap) now f = vulnerabilities rules (.int cap) now g ∧
    { s with cap := .int cap }.run now f = { s with cap := .int cap }.run now g ∧
    vulnerabilities rules (.int cap) now f =
      (rules.mapM fun r : Rule => r.findingsIn now f.path (r.windows (f.linesWithin cap))).map
        List.flatten ∧
    (∀ r ∈ rules, ∀ w ∈ r.windows (f.linesWithin cap),
      w.text.length ≤ r.window * cap + (r.window - 1)) ∧
    { s with cap := .int cap }.run now f =
      ((s.looked f cap).mapM (s.findingsIn now f.path)).map List.flatten ∧
    ∀ line ∈ s.looked f cap, line.2.length ≤ cap := by
  have hlines := h.linesWithin_eq
  refine ⟨?_, ?_, vulnerabilities_int rules cap now f, ?_, s.run_int cap now f, ?_⟩
  · rw [vulnerabilities_int, vulnerabilities_int, hlines, h.path]
  · rw [SecretScan.run_int, SecretScan.run_int, SecretScan.looked, SecretScan.looked, hlines,
      h.path]
  · intro r _ w hw
    exact Rule.length_window_le (fun _ => SourceFile.length_le_of_mem_linesWithin) hw
  · intro line hline
    exact SecretScan.length_le_of_mem_looked hline

namespace Tails

/-- A file of two lines, the first of which goes on after three characters. -/
def file (tail : List Char) : SourceFile where
  path := .sound "a.txt"
  lines := [['z', 'a', 'p'] ++ tail, ['x']]
  language := "text"

/-- A rule for the end of a line and what the next one begins with. -/
def rule : Rule where
  id := .text "ENDS"
  name := .text "Ends"
  description := .text ""
  category := .injection
  cwe := ""
  pattern := {
    source := "p\nx"
    node := .seq (.char (.single .exact 'p'.toNat))
      (.seq (.char (.single .exact '\n'.toNat)) (.char (.single .exact 'x'.toNat)))
    names := [] }
  remediation := .text ""
  metrics := Category.injection.metrics
  references := []
  filePatterns := none
  window := 2
  window_pos := Nat.zero_lt_two

/-- The search for secrets without patterns. -/
def noSecrets : SecretScan where
  patterns := []
  lineMarkers := []
  pathMarkers := []
  cap := .null

end Tails

/-- With a cap of three characters the rule matches over the end of the first line, whatever follows
there. -/
theorem findings_bounded_tails :
    (Tails.file "ped".toList).AgreesWithin 3 (Tails.file []) ∧
    vulnerabilities [Tails.rule] (.int 3) ⟨0, none⟩ (Tails.file "ped".toList) =
      vulnerabilities [Tails.rule] (.int 3) ⟨0, none⟩ (Tails.file []) ∧
    ((vulnerabilities [Tails.rule] (.int 3) ⟨0, none⟩ (Tails.file "ped".toList)).toOption.any
      fun fs => fs.length == 1) = true := by
  have hagrees : (Tails.file "ped".toList).AgreesWithin 3 (Tails.file []) :=
    ⟨rfl, .cons rfl (.cons rfl .nil)⟩
  refine ⟨hagrees, ?_, by decide +kernel⟩
  exact (findings_bounded hagrees [Tails.rule] Tails.noSecrets ⟨0, none⟩).1

end Detect

end SecurityAudit
