import SecurityAudit.Proofs.Acceptance
import SecurityAudit.Proofs.JsonValues
import SecurityAudit.Proofs.OrderIndependence

/-!
# What cannot be read does no harm

A file that is no text has a place in the queue like any other, and so has a document that is no
policy.  Seeing to one of them leaves a warning, and leaves the workers and the budget as they were.
So all other targets fare as they do without it, and the report is the report on them with one more
warning (`run_isolated`).
-/

namespace SecurityAudit

/-- A JSON document can be named, whatever it gives for a name. -/
theorem PolicySource.canBeNamed_of_isJson {v : Value} (h : v.IsJson) :
    (PolicySource.document v).canBeNamed = true := by
  rw [PolicySource.canBeNamed, Option.all_eq_true]
  intro name hname
  obtain ⟨key, -, hkey⟩ := List.exists_of_findSome?_eq_some hname
  exact (h.of_get? (Option.filter_eq_some_iff.mp hkey).1).isWritable

namespace Audit

/-- One more file that is to be scanned and cannot be read, or one more document at the end of the
policies that is no policy, and that can be named as every JSON document can; and the warning about
it. -/
inductive WithUnreadable (a : Audit) (request : Request) : Request → Warning → Prop
  | file {before after : List (String × Content)} {path : String} {content : Content}
      {p : SourceFile.Problem} (files_eq : request.files = before ++ after)
      (wanted : IsWanted a path) (unread : SourceFile.read .utf8 path content = .error p) :
      WithUnreadable a request { request with files := before ++ (path, content) :: after }
        ⟨"source", path, p.message⟩
  | policy {v : Value} {p : Iam.Problem} (reviewed : a.review ≠ none)
      (nameable : (PolicySource.document v).canBeNamed = true)
      (rejected : Iam.Policy.ofDocument v = .error (.problem p)) :
      WithUnreadable a request { request with policies := request.policies ++ [.document v] }
        ⟨"policy", (PolicySource.document v).label request.policies.length, p.message⟩

/-- A target in the queue that is left with a warning whatever the budget is. -/
def IsLeft (a : Audit) (t : Target) (w : Warning) : Prop :=
  ∀ b, a.scan b t = .ok (.left w, b)

/-! ## The queue -/

/-- One queue holds a target more than another one; or neither can be filled, for the same
reason. -/
inductive HoldsMore (t : Target) : Except Refusal Queue → Except Refusal Queue → Prop
  | filled (q : Queue) {before after : List Target} (targets_eq : q.targets = before ++ after) :
      HoldsMore t (.ok q) (.ok { q with targets := before ++ t :: after })
  | refused (r : Refusal) : HoldsMore t (.error r) (.error r)

variable {a : Audit} {request request' : Request} {w : Warning}

/-- Among other queues, one with a single target is one more target. -/
theorem holdsMore_joined (t : Target) (before after : List Queue) :
    HoldsMore t (.ok (Queue.joined (before ++ after)))
      (.ok (Queue.joined (before ++ { targets := [t] } :: after))) := by
  have htargets : (Queue.joined (before ++ after)).targets =
      (Queue.joined before).targets ++ (Queue.joined after).targets := by
    rw [Queue.joined_append, Queue.append]
  have hmore : Queue.joined (before ++ { targets := [t] } :: after) =
      { Queue.joined (before ++ after) with
        targets := (Queue.joined before).targets ++ t :: (Queue.joined after).targets } := by
    simp [Queue.joined_append, Queue.joined_cons, Queue.append]
  rw [hmore]
  exact .filled _ htargets

/-- A file that is to be scanned is a target in the queue. -/
theorem ofFile_of_isWanted {path : String} (h : IsWanted a path) (content : Content) :
    Queue.ofFile a path content = .ok { targets := [.file path content] } := by
  have hdetectors : a.detectors.isEmpty = false := by
    simpa using h.detected
  simp only [Queue.ofFile, h.included, hdetectors]
  rfl

/-- One more file that is to be scanned is one more target, after those of the files before it. -/
theorem holdsMore_file {before after : List (String × Content)} {path : String}
    {content : Content} (files_eq : request.files = before ++ after) (wanted : IsWanted a path) :
    HoldsMore (.file path content) (Queue.ofRequest a request)
      (Queue.ofRequest a { request with files := before ++ (path, content) :: after }) := by
  have hrequest : { request with files := before ++ after } = request := by
    rw [← files_eq]
  obtain ⟨r, hrefused, hrefused'⟩ | ⟨qs, rs, hfilled, hfilled'⟩ :=
    Queue.ofRequest_insert request before after (ofFile_of_isWanted wanted content)
  · rw [hrequest] at hrefused
    rw [hrefused, hrefused']
    exact .refused r
  · rw [hrequest] at hfilled
    rw [hfilled, hfilled']
    exact holdsMore_joined _ qs rs

/-- One more document at the end of the policies is one more target, if policies are reviewed. -/
theorem holdsMore_policy {v : Value} (reviewed : a.review ≠ none)
    (nameable : (PolicySource.document v).canBeNamed = true) :
    HoldsMore
      (.policy ((PolicySource.document v).label request.policies.length) (.document v))
      (Queue.ofRequest a request)
      (Queue.ofRequest a { request with policies := request.policies ++ [.document v] }) := by
  obtain ⟨review, hreview⟩ := Option.ne_none_iff_exists'.mp reviewed
  have hnames : Queue.checkNames (request.policies ++ [.document v]) =
      Queue.checkNames request.policies := by
    simp [Queue.checkNames, nameable]
  simp only [Queue.ofRequest_eq, List.zipIdx_append, List.map_append, hnames]
  cases request.files.mapM fun f => Queue.ofFile a f.1 f.2 with
  | error r => exact .refused r
  | ok qs =>
      cases Queue.checkNames request.policies with
      | error r => exact .refused r
      | ok u =>
          have h := holdsMore_joined
            (.policy ((PolicySource.document v).label request.policies.length) (.document v))
            (qs ++ request.policies.zipIdx.map fun p => Queue.ofPolicy a p.2 p.1) []
          rw [List.append_nil, List.append_assoc] at h
          simpa [bind, Except.bind, pure, Except.pure, Queue.ofPolicy, hreview] using h

/-- **What cannot be read is one more target**, and it is left with the warning. -/
theorem WithUnreadable.exists_left (h : WithUnreadable a request request' w) :
    ∃ t, HoldsMore t (Queue.ofRequest a request) (Queue.ofRequest a request') ∧ IsLeft a t w := by
  cases h with
  | @file before after path content p files_eq wanted unread =>
      refine ⟨.file path content, holdsMore_file files_eq wanted, fun b => ?_⟩
      rw [scan_file_eq_ok_iff, scanFile, unread]
  | @policy v p reviewed nameable rejected =>
      refine ⟨_, holdsMore_policy reviewed nameable, fun b => scan_policy_eq_ok_iff.mpr ⟨?_, rfl⟩⟩
      simp only [scanPolicy, rejected]
      rfl

/-! ## The outcomes -/

variable {occasion occasion' : Occasion}

/-- **A target that is left is passed over.**  The targets before it and after it have the outcomes
that they have without it, and as much is left of the budget; or there are none, for the same
reason. -/
theorem attendAll_left (hslow : occasion.slow = []) {t : Target} (hleft : IsLeft a t w)
    (b : Budget) (before after : List Target) :
    (∃ e, a.attendAll occasion ⟨1, b⟩ (before ++ after) = .error e ∧
      a.attendAll occasion ⟨1, b⟩ (before ++ t :: after) = .error e) ∨
    ∃ ofBefore ofAfter b',
      a.attendAll occasion ⟨1, b⟩ (before ++ after) = .ok (ofBefore ++ ofAfter, b') ∧
      a.attendAll occasion ⟨1, b⟩ (before ++ t :: after) =
        .ok (ofBefore ++ (t, .left w) :: ofAfter, b') := by
  rw [attendAll_append hslow 0, attendAll_append hslow 0]
  cases a.attendAll occasion ⟨0 + 1, b⟩ before with
  | error e => exact .inl ⟨e, rfl, rfl⟩
  | ok first =>
      simp only [bind, Except.bind, attendAll_cons_of_not_slow hslow 0, hleft first.2]
      cases a.attendAll occasion ⟨0 + 1, first.2⟩ after with
      | error e => exact .inl ⟨e, rfl, rfl⟩
      | ok rest => exact .inr ⟨first.1, rest.1, rest.2, rfl, rfl⟩

/-! ## The report -/

/-- A report with one more warning, on another occasion. -/
def withWarning (occasion : Occasion) (w : Warning) (report : Report) : Report :=
  { report with
    id := occasion.id
    duration := occasion.duration
    warnings := (w :: report.warnings).mergeSort fun v w => (warningOrder v w).isLE }

/-- Nothing is found in a target that is left. -/
@[simp]
theorem filterMap_foundOf?_left (before : List (Target × Outcome)) (t : Target) (w : Warning)
    (after : List (Target × Outcome)) :
    (before ++ (t, .left w) :: after).filterMap foundOf? =
      (before ++ after).filterMap foundOf? := by
  rw [List.filterMap_append, List.filterMap_append]
  rfl

/-- One more warning takes its place among those that are in order. -/
theorem mergeSort_insert {vs ws : List Warning} (h : vs.Perm (w :: ws)) :
    (vs.mergeSort fun v w => (warningOrder v w).isLE) =
      (w :: ws.mergeSort fun v w => (warningOrder v w).isLE).mergeSort
        fun v w => (warningOrder v w).isLE := by
  refine Sorting.mergeSort_eq_of_perm eq_of_warningOrder (h.trans ?_)
  exact (List.mergeSort_perm ws _).symm.cons w

/-- The warning about a target that is left is one more among those before and after it. -/
theorem warnings_left (timeout : Value) (given atEnd : List Warning)
    (before after : List (Target × Outcome)) (t : Target) (w : Warning) :
    (given ++ (before ++ (t, .left w) :: after).filterMap (warningOf? timeout) ++ atEnd).Perm
      (w :: (given ++ (before ++ after).filterMap (warningOf? timeout) ++ atEnd)) := by
  have hone : (before ++ (t, .left w) :: after).filterMap (warningOf? timeout) =
      before.filterMap (warningOf? timeout) ++ w :: after.filterMap (warningOf? timeout) := by
    rw [List.filterMap_append]
    rfl
  rw [hone, List.filterMap_append, ← List.append_assoc, ← List.append_assoc]
  exact List.perm_middle.append_right atEnd

/-- A target that is left is not counted, and there is a warning about it. -/
theorem circumstances_left {queue queue' : Queue} (hscope : request'.scope = request.scope)
    (hgiven : request'.warnings = request.warnings) (hskipped : queue'.skipped = queue.skipped)
    (hwarnings : queue'.warnings = queue.warnings) (before after : List (Target × Outcome))
    (t : Target) (b : Budget) :
    a.circumstances occasion' request' queue' (before ++ (t, .left w) :: after) b =
      let c := a.circumstances occasion request queue (before ++ after) b
      { c with
        id := occasion'.id
        duration := occasion'.duration
        warnings := (w :: c.warnings).mergeSort fun v w => (warningOrder v w).isLE } := by
  simp only [circumstances, hscope, hgiven, hskipped, hwarnings, filterMap_foundOf?_left,
    mergeSort_insert (warnings_left _ _ _ before after t w)]
  simp [isScanned, isTimedOut, List.countP_append]

/-- A target that is left makes for one more warning in the report. -/
theorem reportOn_left {queue queue' : Queue} (hscope : request'.scope = request.scope)
    (hgiven : request'.warnings = request.warnings) (hskipped : queue'.skipped = queue.skipped)
    (hwarnings : queue'.warnings = queue.warnings) (before after : List (Target × Outcome))
    (t : Target) (b : Budget) :
    a.reportOn occasion' request' queue' (before ++ (t, .left w) :: after) b =
      (a.reportOn occasion request queue (before ++ after) b).map (withWarning occasion' w) := by
  rw [reportOn, reportOn, filterMap_foundOf?_left,
    circumstances_left hscope hgiven hskipped hwarnings]
  apply Report.aggregate_map
  · rfl
  · intro _ _ _
    rfl

/-! ## The run -/

/-- What is asked of an audit on an occasion for the time not to be over before everything has been
seen to: no file is slow, there is a worker to begin with, and the time can be waited for. -/
structure Unhurried (a : Audit) (occasion : Occasion) : Prop where
  slow : occasion.slow = []
  worker : workersOf a.settings.scan.workers 1 = .ok 1
  waits : ∀ ts, checkTimeout a.settings.scan.timeout ts = .ok ()

/-- There are some workers, whatever the number of targets, if there is one for a single target. -/
theorem exists_workersOf {v : Value} (hsome : workersOf v 1 = .ok 1) (most : Nat) :
    ∃ workers, workersOf v most = .ok workers := by
  cases hnumber : v.number? with
  | none => simp [workersOf, hnumber] at hsome
  | some n => exact ⟨_, by rw [workersOf, hnumber]⟩

/-- A run with time enough is one in which a single worker sees to all targets. -/
theorem run_of_unhurried (h : Unhurried a occasion) (request : Request) :
    a.run occasion request = (do
      let queue ← allowing (Queue.ofRequest a request)
      let budget ← allowing (Budget.ofValue a.settings.scan.maxFindings)
      let (outcomes, after) ← a.attendAll occasion ⟨1, budget⟩ queue.targets
      allowing (a.reportOn occasion request queue outcomes after)) := by
  simp only [run]
  congr 1
  funext queue
  congr 1
  funext budget
  obtain ⟨workers, hworkers⟩ := exists_workersOf h.worker queue.targets.length
  rw [hworkers, h.waits, ← attendAll_of_workersOf h.slow h.worker hworkers]
  rfl

/-- **One more target that cannot be read.** -/
theorem run_withUnreadable (h : Unhurried a occasion) (h' : Unhurried a occasion')
    (hmore : WithUnreadable a request request' w) :
    a.run occasion' request' = (a.run occasion request).map (withWarning occasion' w) := by
  obtain ⟨t, hqueue, hleft⟩ := hmore.exists_left
  have hscope : request'.scope = request.scope := by cases hmore <;> rfl
  have hgiven : request'.warnings = request.warnings := by cases hmore <;> rfl
  rw [run_of_unhurried h, run_of_unhurried h']
  generalize Queue.ofRequest a request = q, Queue.ofRequest a request' = q' at hqueue ⊢
  cases hqueue with
  | refused r => rfl
  | @filled queue before after targets_eq =>
      cases Budget.ofValue a.settings.scan.maxFindings with
      | error r => rfl
      | ok b =>
          simp only [allowing, bind, Except.bind, targets_eq,
            attendAll_congr (h'.slow.trans h.slow.symm)]
          obtain ⟨e, hall, hall'⟩ | ⟨ofBefore, ofAfter, b', hall, hall'⟩ :=
            attendAll_left h.slow hleft b before after
          · rw [hall, hall']
            rfl
          · have hreport : a.reportOn occasion' request'
                { queue with targets := before ++ t :: after }
                (ofBefore ++ (t, .left w) :: ofAfter) b' =
                  (a.reportOn occasion request queue (ofBefore ++ ofAfter) b').map
                    (withWarning occasion' w) :=
              reportOn_left hscope hgiven rfl rfl _ _ t _
            simp only [hall, hall', hreport]
            cases a.reportOn occasion request queue (ofBefore ++ ofAfter) b' with
            | error r => rfl
            | ok report => rfl

/-- Settings that pass their check give a worker to a single target, unless the number of workers is
a float that is no number. -/
theorem workersOf_of_check {s : Settings} (hcheck : s.check = .ok ())
    (hnumber : s.scan.workers.isNaN = false) : workersOf s.scan.workers 1 = .ok 1 := by
  obtain ⟨n, hn, hone⟩ := (Settings.check_eq_ok_iff.mp hcheck).workers
  have hnan : n.exact ≠ .nan := by
    simpa [Value.isNaN, hn] using hnumber
  have hzero := Number.zero_below hnan hone
  simp [workersOf, hn, hzero]

/-- **What cannot be read does no harm.**  Let the number of workers in the settings not be a float
that is no number, and let the time suffice, whether or not findings are limited.  One more file
that cannot be read, wherever it is among the files, or one more document at the end of the policies
that is none makes for one more warning in the report and changes nothing else, but for the id and
for the time that it took.  If there is no report without it, there is none with it, for the same
reason. -/
theorem run_isolated {s : Settings} {c : Catalog} {now : Calendar.Moment}
    (ha : Audit.ofSettings s c now = .ok a) (hworkers : s.scan.workers.isNaN = false)
    (hwaits : ∀ ts, checkTimeout s.scan.timeout ts = .ok ()) (hslow : occasion.slow = [])
    (hslow' : occasion'.slow = []) (hmore : WithUnreadable a request request' w) :
    a.run occasion' request' = (a.run occasion request).map (withWarning occasion' w) := by
  obtain ⟨hsettings, -⟩ := detectors_of_ofSettings ha
  obtain ⟨_, hcheck, -⟩ := bind_eq_ok_iff.mp ha
  have hworker : workersOf a.settings.scan.workers 1 = .ok 1 := by
    rw [hsettings]
    exact workersOf_of_check hcheck hworkers
  have hwaits : ∀ ts, checkTimeout a.settings.scan.timeout ts = .ok () := by
    rwa [hsettings]
  exact run_withUnreadable ⟨hslow, hworker, hwaits⟩ ⟨hslow', hworker, hwaits⟩ hmore

/-- Targets can be waited for when the settings do not say for how long. -/
theorem checkTimeout_default (ts : List Target) :
    checkTimeout ({} : Settings.Scan).timeout ts = .ok () := by
  match ts with
  | [] => rfl
  | [_] => rfl
  | _ :: _ :: _ => rfl

namespace Shelf

/-- The settings that ask for vulnerabilities and for a review of policies. -/
def reviewing : Settings where
  scan := { scanTypes := .texts ["owasp", "iam"] }

/-- The audit of these settings. -/
def reviewed : Audit :=
  { audit [] with
    settings := reviewing
    review := some { dangerous := [], staleAfter := 90 * Calendar.day, now := ⟨0, none⟩ } }

theorem ofSettings_reviewing :
    Audit.ofSettings reviewing (catalog []) ⟨0, none⟩ = .ok reviewed := by
  rfl

end Shelf

/-- A file with a zero between those on the shelf, or a list among the policies, makes for one more
warning. -/
theorem run_isolated_shelf :
    ∃ report, Shelf.reviewed.run { id := "1" } Shelf.request = .ok report ∧
      report.findings.length = 5 ∧
      Shelf.reviewed.run { id := "2" } { Shelf.request with
        files := Shelf.request.files.take 2 ++ ("z.bin", .bytes [0]) ::
          Shelf.request.files.drop 2 } =
        .ok (withWarning { id := "2" }
          ⟨"source", "z.bin", (SourceFile.Problem.binary "z.bin").message⟩ report) ∧
      Shelf.reviewed.run { id := "2" } { Shelf.request with
        policies := Shelf.request.policies ++ [.document (.list [])] } =
        .ok (withWarning { id := "2" }
          ⟨"policy", "policy[0]", Iam.Problem.notAnObject.message⟩ report) := by
  have hrun : ((Shelf.reviewed.run { id := "1" } Shelf.request).toOption.any fun report =>
      report.findings.length == 5) = true := by
    simp only [Audit.run, Report.aggregate, Finding.sorted, Report.sortedSuppressions,
      circumstances, Sorting.mergeSort_eq_sortWithin]
    decide +kernel
  obtain ⟨report, hreport, hfive⟩ := any_toOption_iff.mp hrun
  have hisolated : ∀ {request' w}, WithUnreadable Shelf.reviewed Shelf.request request' w →
      Shelf.reviewed.run { id := "2" } request' = .ok (withWarning { id := "2" } w report) := by
    intro request' w hmore
    have h : Shelf.reviewed.run { id := "2" } request' =
        (Shelf.reviewed.run { id := "1" } Shelf.request).map (withWarning { id := "2" } w) :=
      run_isolated Shelf.ofSettings_reviewing (by decide) checkTimeout_default rfl rfl hmore
    rw [h, hreport]
    rfl
  have hwanted : IsWanted Shelf.reviewed "z.bin" := ⟨rfl, List.cons_ne_nil _ _⟩
  have hreviewed : Shelf.reviewed.review ≠ none := Option.some_ne_none _
  exact ⟨report, hreport, eq_of_beq hfive, hisolated (.file rfl hwanted rfl),
    hisolated (.policy hreviewed rfl rfl)⟩

end Audit

end SecurityAudit
