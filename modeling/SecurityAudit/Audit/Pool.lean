import SecurityAudit.Audit.Budget

/-!
# Workers that share a budget

The workers of an audit are on several files at a time, and all of them draw on one budget.  A
worker runs the detectors on its file one after another.  Before each of them it asks whether the
budget is exhausted.  If it is not, the detector is run, and what it finds is offered to the budget;
if it is, the detector is left out, and that is noted.  Asking, offering and noting are single steps
of the budget, and between any two of them the other workers may take steps of their own.
-/

namespace SecurityAudit

/-- What a detector finds in a file when it is run on it, without what is suppressed.  The pair says
which file and which detector. -/
structure Offer (ι α : Type) where
  pair : ι
  findings : List α
  deriving DecidableEq

/-- A file that a worker is on, with what the detectors find that have not had their turn. -/
inductive Job (ι α : Type) where
  /-- The worker has not asked yet whether the budget is exhausted. -/
  | asking (offers : List (Offer ι α))
  /-- The budget was not exhausted: what the first detector finds is to be offered. -/
  | offering (first : Offer ι α) (rest : List (Offer ι α))
  /-- The budget was exhausted: that the first detector is left out is to be noted. -/
  | leaving (first : Offer ι α) (rest : List (Offer ι α))

/-- What the detectors find that have not had their turn. -/
def Job.offers {ι α : Type} : Job ι α → List (Offer ι α)
  | .asking offers => offers
  | .offering first rest | .leaving first rest => first :: rest

/-- What has become of an offer: what was admitted of it, or that its detector was left out. -/
structure Settlement (ι α : Type) where
  offer : Offer ι α
  admitted : Option (List α)
  deriving DecidableEq

/-- The files that no worker is on yet, those that some worker is on, the budget, and the offers
that have been settled, in the order in which they were. -/
structure Pool (ι α : Type) where
  waiting : List (List (Offer ι α))
  active : List (Job ι α) := []
  budget : Budget
  settled : List (Settlement ι α) := []

namespace Pool

variable {ι α : Type}

/-- The findings that have been admitted. -/
def admitted (p : Pool ι α) : List α :=
  p.settled.flatMap fun s => s.admitted.getD []

/-- No file is left. -/
def isDone (p : Pool ι α) : Bool :=
  p.waiting.isEmpty && p.active.isEmpty

/-- One step of one of the workers, of which there are `workers`. -/
inductive Step (workers : Nat) : Pool ι α → Pool ι α → Prop
  /-- A free worker takes the next file. -/
  | start {p : Pool ι α} {offers : List (Offer ι α)} {waiting : List (List (Offer ι α))}
      (next : p.waiting = offers :: waiting) (free : p.active.length < workers) :
      Step workers p { p with waiting, active := p.active ++ [.asking offers] }
  /-- A worker asks whether the budget is exhausted. -/
  | ask {p : Pool ι α} (before : List (Job ι α)) {after : List (Job ι α)} {o : Offer ι α}
      {rest : List (Offer ι α)}
      (on : p.active = before ++ .asking (o :: rest) :: after) :
      Step workers p { p with
        active := before ++
          (if p.budget.isExhausted then .leaving o rest else .offering o rest) :: after }
  /-- A worker offers what a detector has found. -/
  | offer {p : Pool ι α} (before : List (Job ι α)) {after : List (Job ι α)} {o : Offer ι α}
      {rest : List (Offer ι α)} {admitted : List α} {budget : Budget}
      (on : p.active = before ++ .offering o rest :: after)
      (accepted : p.budget.accept o.findings = .ok (admitted, budget)) :
      Step workers p { p with
        active := before ++ .asking rest :: after
        budget
        settled := p.settled ++ [⟨o, some admitted⟩] }
  /-- A worker notes that a detector is left out. -/
  | leave {p : Pool ι α} (before : List (Job ι α)) {after : List (Job ι α)} {o : Offer ι α}
      {rest : List (Offer ι α)}
      (on : p.active = before ++ .leaving o rest :: after) :
      Step workers p { p with
        active := before ++ .asking rest :: after
        budget := p.budget.noteSkip
        settled := p.settled ++ [⟨o, none⟩] }
  /-- A worker is done with its file. -/
  | finish {p : Pool ι α} (before : List (Job ι α)) {after : List (Job ι α)}
      (on : p.active = before ++ .asking [] :: after) :
      Step workers p { p with active := before ++ after }

end Pool

end SecurityAudit
