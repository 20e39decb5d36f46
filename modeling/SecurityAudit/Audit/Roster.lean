import SecurityAudit.Audit.Run

/-!
# Workers and a deadline

The targets in the queue are handed to a number of workers as tasks.  A worker that is free takes
the first task that waits, and is free again when it is done with it.  Some tasks stall: who has
taken one of them is not done by the deadline.  Everything else that has been taken is done by then,
and tasks wait only if no worker is free.

Findings are not limited here, so what becomes of a task depends on nothing but the task itself, and
on whether it is done.
-/

namespace SecurityAudit

namespace Audit

/-- A target that is handed to the workers, and whether it stalls. -/
structure Task where
  target : Target
  stalls : Bool

/-- The tasks that workers have taken, in the order in which they did, each with whether it is done;
and the tasks that wait. -/
structure Roster where
  started : List (Task × Bool) := []
  waiting : List Task

namespace Roster

/-- The number of workers that are not free. -/
def busy (r : Roster) : Nat :=
  r.started.countP fun p => !p.2

/-- All tasks in the order in which they were handed in, each with whether it is done. -/
def tasks (r : Roster) : List (Task × Bool) :=
  r.started ++ r.waiting.map fun t => (t, false)

/-- The tasks that are done. -/
def completed (r : Roster) : List Task :=
  (r.tasks.filter Prod.snd).map Prod.fst

/-- The tasks that are not done. -/
def pending (r : Roster) : List Task :=
  (r.tasks.filter fun p => !p.2).map Prod.fst

/-- One step of one of the workers, of which there are `workers`. -/
inductive Step (workers : Nat) : Roster → Roster → Prop
  /-- A free worker takes the first task that waits. -/
  | start {r : Roster} {t : Task} {waiting : List Task} (next : r.waiting = t :: waiting)
      (free : r.busy < workers) :
      Step workers r { started := r.started ++ [(t, false)], waiting }
  /-- A worker is done with a task that does not stall. -/
  | finish {r : Roster} {before after : List (Task × Bool)} {t : Task}
      (on : r.started = before ++ (t, false) :: after) (moves : t.stalls = false) :
      Step workers r { r with started := before ++ (t, true) :: after }

/-- How things stand at the deadline: workers are busy only with tasks that stall, and if tasks
wait, all workers are busy. -/
structure AtDeadline (workers : Nat) (r : Roster) : Prop where
  stalled : ∀ p ∈ r.started, p.2 = false → p.1.stalls = true
  taken : r.waiting = [] ∨ workers ≤ r.busy

end Roster

/-- The tasks of files, each file with whether it stalls: one for a file that is to be scanned, and
none for any other. -/
def tasksOfFiles (a : Audit) (marked : List ((String × Content) × Bool)) : List Task :=
  marked.flatMap fun f =>
    ((Queue.ofFile a f.1.1 f.1.2).toOption.getD {}).targets.map fun t => ⟨t, f.2⟩

/-- The tasks of policies, which do not stall. -/
def tasksOfPolicies (a : Audit) (policies : List PolicySource) : List Task :=
  (policies.zipIdx.flatMap fun p => (Queue.ofPolicy a p.2 p.1).targets).map fun t => ⟨t, false⟩

/-- What has become of a task at the deadline: it has been scanned if it is done, and else the time
is over for it. -/
def outcomeAt (a : Audit) (b : Budget) :
    Task × Bool → Except (Fault Problem) (Target × Outcome)
  | (t, true) => (a.scan b t.target).map fun result => (t.target, result.1)
  | (t, false) => .ok (t.target, .timedOut)

end Audit

end SecurityAudit
