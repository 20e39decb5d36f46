import SecurityAudit.Cli.Run
import SecurityAudit.Proofs.Acceptance
import SecurityAudit.Proofs.Assembly
import SecurityAudit.Proofs.SortWithin
import SecurityAudit.Proofs.Threshold

/-!
# One verdict

Whether a scan has failed is said three times: by the code with which the command ends, by an entry
of the report's document, and by a line that is shown on a terminal.  Each of them looks at the
report again, from which the threshold has already left out findings.  They agree, and they can be
told from what was found: a scan fails when something reaches both the threshold and the level on
which scans fail.
-/

namespace SecurityAudit

namespace Settings

/-- Settings that make sense give a threshold and a level on which scans fail. -/
theorem exists_levels_of_check {s : Settings} (hcheck : s.check = .ok ()) :
    ∃ threshold failOn, s.scan.severityThreshold = .text threshold ∧
      s.scan.failOn = .text failOn := by
  have haccepted := check_eq_ok_iff.mp hcheck
  obtain ⟨threshold, -, hthreshold⟩ := haccepted.threshold
  obtain ⟨failOn, -, hfailOn⟩ := haccepted.failOn
  exact ⟨threshold.label, failOn.label, hthreshold, hfailOn⟩

end Settings

namespace Report

variable {r : Report} {level : String}

/-- A report fails at a level when one of its findings reaches it. -/
def FailsAt (r : Report) (level : String) : Prop :=
  ∃ x ∈ r.findings, Severity.atOrAbove x.severity level = true

/-- A report fails at a level when a threshold at the level keeps something. -/
theorem failsAt_iff : r.FailsAt level ↔ kept level r.findings ≠ [] := by
  constructor
  · rintro ⟨x, hx, hreaches⟩
    exact List.ne_nil_of_mem (List.mem_filter.mpr ⟨hx, hreaches⟩)
  · intro h
    obtain ⟨x, hx⟩ := List.exists_mem_of_ne_nil _ h
    exact ⟨x, List.mem_filter.mp hx⟩

/-- A report blocks when it fails. -/
theorem isBlocking_text : r.isBlocking (.text level) = .ok (!(kept level r.findings).isEmpty) := by
  rw [isBlocking, findingsAtOrAbove_text]
  rfl

/-- **The code says whether the report fails**: it is one then, and zero otherwise. -/
theorem codeOf_text (r : Report) (level : String) :
    ∃ code, Cli.codeOf r (.text level) = .ok code ∧ (code = 0 ∨ code = 1) ∧
      (code = 1 ↔ r.FailsAt level) := by
  rw [Cli.codeOf, isBlocking_text, failsAt_iff]
  cases hkept : kept level r.findings with
  | nil => exact ⟨0, rfl, .inl rfl, by simp⟩
  | cons x fs => exact ⟨1, rfl, .inr rfl, by simp⟩

/-- The line that says that a scan has failed, with the number of findings that reach a level. -/
def failedLine (n : Nat) (level : String) : Printed :=
  line ("[bold red]❌ FAILED — " ++ toString n ++ " finding(s) at or above '" ++ level ++
    "'.[/bold red]")

/-- The lines for different numbers are different. -/
theorem failedLine_injective {m n : Nat} (h : failedLine m level = failedLine n level) :
    m = n := by
  have htexts := congrArg String.toList (Printed.markup.inj h)
  simp only [String.toList_append, List.append_assoc, List.append_cancel_left_eq,
    List.append_cancel_right_eq] at htexts
  have hdigits : Nat.toDigits 10 m = Nat.toDigits 10 n := by
    simpa [toString] using htexts
  rw [← Nat.ofDigitChars_ten_toDigits (n := m), hdigits, Nat.ofDigitChars_ten_toDigits]

end Report

/-- What is shown begins as the line that says that a scan has failed: in bold red. -/
def Printed.isAlarm : Printed → Bool
  | .markup text => "[bold red]".toList.isPrefixOf text.toList
  | _ => false

namespace Report

variable {r : Report} {level : String}

@[simp]
theorem isAlarm_line (s : String) :
    (line s).isAlarm = "[bold red]".toList.isPrefixOf s.toList := rfl

@[simp]
theorem isAlarm_table (t : Table) : (Printed.table t).isAlarm = false := rfl

@[simp]
theorem isAlarm_gap : gap.isAlarm = false := by
  simp [gap, Printed.isAlarm]

@[simp]
theorem isAlarm_failedLine (n : Nat) : (failedLine n level).isAlarm = true := by
  simp [failedLine, List.isPrefixOf]

/-- When findings reach the level, the last line says how many. -/
theorem shownVerdict_of_failsAt (h : r.FailsAt level) :
    r.shownVerdict (.text level) =
      .ok [gap, failedLine (kept level r.findings).length level] := by
  rw [shownVerdict, findingsAtOrAbove_text]
  obtain ⟨x, fs, hkept⟩ := List.exists_cons_of_ne_nil (failsAt_iff.mp h)
  rw [hkept]
  rfl

/-- When no finding reaches the level, the last line is another one. -/
theorem exists_shownVerdict_of_not_failsAt (h : ¬ r.FailsAt level) :
    ∃ ps, r.shownVerdict (.text level) = .ok ps ∧ ∀ p ∈ ps, p.isAlarm = false := by
  rw [failsAt_iff, not_not] at h
  rw [shownVerdict, findingsAtOrAbove_text, h]
  refine ⟨_, rfl, ?_⟩
  cases r.totals.incomplete <;> simp [List.isPrefixOf]

/-- The verdict can be shown, and it tells of failure when the report fails. -/
theorem exists_shownVerdict (r : Report) (level : String) :
    ∃ ps, r.shownVerdict (.text level) = .ok ps ∧
      ∀ n, failedLine n level ∈ ps ↔
        r.FailsAt level ∧ n = (kept level r.findings).length := by
  by_cases hfails : r.FailsAt level
  · refine ⟨_, shownVerdict_of_failsAt hfails, fun n => ?_⟩
    rw [List.mem_cons, List.mem_singleton]
    constructor
    · rintro (hgap | hline)
      · have halarm : (failedLine n level).isAlarm = true := isAlarm_failedLine n
        rw [hgap, isAlarm_gap] at halarm
        cases halarm
      · exact ⟨hfails, failedLine_injective hline⟩
    · rintro ⟨-, rfl⟩
      exact .inr rfl
  · obtain ⟨ps, hps, hcalm⟩ := exists_shownVerdict_of_not_failsAt hfails
    refine ⟨ps, hps, fun n => iff_of_false (fun hmem => ?_) fun h => hfails h.1⟩
    have halarm := hcalm _ hmem
    rw [isAlarm_failedLine] at halarm
    cases halarm

/-- A report can be shown if the rules of its findings are texts. -/
theorem exists_shown_of_texts (hrules : ∀ x ∈ r.findings, ∃ id, x.ruleId = .text id)
    (level : String) (figures : Bool) : ∃ ps, r.shown (.text level) figures = .ok ps := by
  obtain ⟨rows, hrows⟩ := exists_mapM (f := row) fun x hx => by
    obtain ⟨id, hid⟩ := hrules x hx
    rw [row, hid]
    exact ⟨_, rfl⟩
  obtain ⟨findings, hfindings⟩ : ∃ ps, r.shownFindings = .ok ps := by
    rw [shownFindings, table, hrows]
    split <;> exact ⟨_, rfl⟩
  obtain ⟨verdict, hverdict, -⟩ := exists_shownVerdict r level
  rw [shown, hfindings, hverdict]
  exact ⟨_, rfl⟩

end Report

namespace Audit

/-- All that has been found, in files and policies, below the threshold too. -/
def merged (outcomes : List (Target × Outcome)) : List Finding :=
  ((outcomes.filterMap foundOf?).map Found.findings).flatten

end Audit

namespace Cli

/-- The root of the project that is scanned. -/
def projectRoot (w : Workplace) (o : ScanOptions) : Path :=
  match w.tree.find (Path.ofString o.path) with
  | .ok found => if found.isDirectory then Path.ofString o.path else (Path.ofString o.path).parent
  | .error _ => (Path.ofString o.path).parent

/-- A scan gets to a report: with which settings, by which audit, and on what. -/
structure Reports (w : Workplace) (o : ScanOptions) (s : Settings) (a : Audit)
    (request : Audit.Request) (report : Report) : Prop where
  exists_path : w.tree.exists_ (Path.ofString o.path) = .ok true
  prepared : ∃ c, prepareScan w o (projectRoot w o) = .ok (s, c) ∧
    Audit.assemble s c w.now = .ok a
  requested : requestOf w o = .ok request
  ran : a.run w.occasion request = .ok report

variable {w : Workplace} {o : ScanOptions} {s : Settings} {a : Audit} {request : Audit.Request}
  {report : Report}

/-- When the path of a scan leads somewhere, the scan is prepared with the root of the project. -/
theorem runScan_eq (hpath : w.tree.exists_ (Path.ofString o.path) = .ok true) :
    runScan w o = withPrepared (prepareScan w o (projectRoot w o)) fun (s, c) =>
      (runPrepared w o s c).map (·.after (introduction o s c)) := by
  have hroot : rootOf w (Path.ofString o.path) = .ok (projectRoot w o) := by
    rw [Tree.exists_, Tree.find?] at hpath
    rw [rootOf, projectRoot, Tree.hasDirectory, Tree.find?]
    cases hfind : w.tree.find (Path.ofString o.path) with
    | error e =>
        rw [hfind] at hpath
        dsimp only at hpath
        split at hpath
        · cases hpath
        · cases hpath
    | ok found => rfl
  simp only [runScan, hpath, hroot, bind, Except.bind, if_true]

/-- Settings that a scan is prepared with have been checked. -/
theorem check_of_prepareScan {root : Path} {c : Catalog}
    (h : prepareScan w o root = .ok (s, c)) : s.check = .ok () := by
  simp only [prepareScan, bind_eq_ok_iff, pure_eq_ok_iff] at h
  obtain ⟨loaded, -, s', -, _, hcheck, c', -, hpair⟩ := h
  obtain ⟨rfl, rfl⟩ := Prod.mk.inj hpair
  cases hs : s'.check with
  | ok _ => rfl
  | error e =>
      rw [hs] at hcheck
      cases hcheck

/-- A scan that gets to a report has a threshold and a level on which it fails. -/
theorem Reports.exists_levels (h : Reports w o s a request report) :
    ∃ failOn, s.scan.severityThreshold = .text a.threshold ∧ s.scan.failOn = .text failOn := by
  obtain ⟨c, hprepared, hassembled⟩ := h.prepared
  have hcheck := check_of_prepareScan hprepared
  obtain ⟨threshold, failOn, hthreshold, hfailOn⟩ := Settings.exists_levels_of_check hcheck
  have haudit : Audit.ofSettings s c w.now = .ok a := by
    rw [Audit.ofSettings, hcheck, hassembled]
    rfl
  obtain ⟨-, -, -, htext, -, -⟩ := Audit.ofSettings_eq_ok_iff.mp haudit
  rw [hthreshold] at htext
  obtain rfl := Option.some.inj htext
  exact ⟨failOn, hthreshold, hfailOn⟩

/-- A scan that gets to a report ends with what is made of it. -/
theorem Reports.run_eq {words : List String} (h : Reports w o s a request report)
    (hwords : Command.ofWords? words = some (.scan o)) :
    ∃ before, run w words = (conclude w o s report).map (·.after before) := by
  obtain ⟨hpath, ⟨c, hprepared, hassembled⟩, hrequest, hran⟩ := h
  refine ⟨introduction o s c, ?_⟩
  have hconclude : runPrepared w o s c = conclude w o s report := by
    simp only [runPrepared, hrequest, hassembled, hran, bind, Except.bind]
  rw [run, hwords]
  simp only [runCommand, runScan_eq hpath, hprepared, withPrepared, hconclude]

/-- What is shown of a report, if it is for a terminal. -/
def shownBy (s : Settings) (r : Report) : Except Refusal (List Printed) :=
  if isForTerminal s then r.shown s.scan.failOn s.output.showSummary.holds else .ok []

/-- What is given to other programs, if a report is not for a terminal. -/
def outputBy (s : Settings) (r : Report) : Except Refusal String :=
  if isForTerminal s then .ok "" else (r.text s.scan.failOn).map (· ++ "\n")

/-- What is written to a file, if there is one to write to. -/
def textFor (o : ScanOptions) (s : Settings) (r : Report) : Except Refusal String :=
  if (said o.output).isSome then r.text s.scan.failOn else .ok ""

/-- A scan ends in steps: a report is shown, given to other programs and written to a file, and then
the code is found. -/
theorem conclude_eq_ok_iff {r : Report} {e : Ending} :
    conclude w o s r = .ok e ↔
      ∃ shown output text file more code,
        shownBy s r = .ok shown ∧ outputBy s r = .ok output ∧ textFor o s r = .ok text ∧
        written w o text = .ok (file, more) ∧ codeOf r s.scan.failOn = .ok code ∧
        { code := code
          printed := (if o.debug then [remark ("Scan duration: " ++ r.durationText ++ "ms")]
            else []) ++ shown ++ more
          output := output
          written := file } = e := by
  have hsteps : conclude w o s r = (do
      let shown ← shownBy s r
      let output ← outputBy s r
      let text ← textFor o s r
      let file ← written w o text
      let code ← codeOf r s.scan.failOn
      return {
        code := code
        printed := (if o.debug then [remark ("Scan duration: " ++ r.durationText ++ "ms")]
          else []) ++ shown ++ file.2
        output := output
        written := file.1 }) := by
    simp only [conclude, shownBy, outputBy, textFor]
    cases isForTerminal s <;> cases (said o.output).isSome <;> rfl
  rw [hsteps]
  simp only [bind_eq_ok_iff, pure_eq_ok_iff]
  constructor
  · rintro ⟨shown, hshown, output, houtput, text, htext, ⟨file, more⟩, hfile, code, hcode, h⟩
    exact ⟨shown, output, text, file, more, code, hshown, houtput, htext, hfile, hcode, h⟩
  · rintro ⟨shown, output, text, file, more, code, hshown, houtput, htext, hfile, hcode, h⟩
    exact ⟨shown, hshown, output, houtput, text, htext, ⟨file, more⟩, hfile, code, hcode, h⟩

/-- What is written to a file is the text that is given for it. -/
theorem eq_of_written {text written : String} {path : Path} {more : List Printed}
    (h : Cli.written w o text = .ok (some (path, written), more)) :
    (said o.output).isSome = true ∧ written = text := by
  rw [Cli.written] at h
  cases houtput : said o.output with
  | none =>
      rw [houtput] at h
      cases h
  | some name =>
      rw [houtput] at h
      simp only at h
      split at h
      · cases h
      · cases h
        exact ⟨rfl, rfl⟩

/-- The report is made public in the forms that the settings and the options ask for: it is shown on
a terminal, or its document is given to other programs, and its document is written to a file. -/
structure Presents (s : Settings) (report : Report) (ending : Ending) : Prop where
  shown : isForTerminal s = true → ∃ before shown after,
    report.shown s.scan.failOn s.output.showSummary.holds = .ok shown ∧
    ending.printed = before ++ shown ++ after
  output : isForTerminal s = false → ∃ text,
    report.text s.scan.failOn = .ok text ∧ ending.output = text ++ "\n"
  written : ∀ path text, ending.written = some (path, text) →
    report.text s.scan.failOn = .ok text

/-- What is printed before does not matter. -/
theorem Presents.after {e : Ending} (h : Presents s report e) (before : List Printed) :
    Presents s report (e.after before) where
  shown := by
    intro hterminal
    obtain ⟨front, shown, back, hshown, hprinted⟩ := h.shown hterminal
    refine ⟨before ++ front, shown, back, hshown, ?_⟩
    rw [Ending.after, hprinted]
    simp only [List.append_assoc]
  output := h.output
  written := h.written

/-- What is made of a report is its code, and the report in the forms that are asked for. -/
theorem conclude_presents {e : Ending} (h : conclude w o s report = .ok e) :
    codeOf report s.scan.failOn = .ok e.code ∧ Presents s report e := by
  obtain ⟨shown, output, text, file, more, code, hshown, houtput, htext, hfile, hcode, rfl⟩ :=
    conclude_eq_ok_iff.mp h
  refine ⟨hcode, fun hterminal => ?_, fun hterminal => ?_, fun path written hwritten => ?_⟩
  · rw [shownBy, if_pos hterminal] at hshown
    exact ⟨_, shown, more, hshown, rfl⟩
  · rw [outputBy, if_neg (by simp [hterminal]), map_eq_ok_iff] at houtput
    obtain ⟨json, hjson, rfl⟩ := houtput
    exact ⟨json, hjson, rfl⟩
  · obtain rfl : file = some (path, written) := hwritten
    obtain ⟨hsome, rfl⟩ := eq_of_written hfile
    rwa [textFor, if_pos hsome] at htext

/-- A working directory with a policy that grants everything on a resource. -/
def openDesk : Workplace where
  tree := {
    root := .directory [("admin.json", .file (Text.utf8Bytes
      "\x7b\"permissions\": [\x7b\"action\": \"*\", \"resource\": \"db\"\x7d]\x7d".toList))] }
  now := ⟨0, some 0⟩
  occasion := { id := "1" }

/-- The options of a scan of that policy. -/
def policyOptions : ScanOptions :=
  { path := "admin.json", policies := ["admin.json"], scanTypes := ["iam"] }

end Cli

end SecurityAudit
