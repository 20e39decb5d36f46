import SecurityAudit.Refusal
import SecurityAudit.Value.Basic

/-!
# Budgets

An audit may be told to stop after a number of findings.  Its budget counts what has been admitted:
once the limit is reached nothing more is looked for, and of the findings that reach beyond it only
the first ones are admitted.  Whatever is left out that way is noted.

The limit is a setting and may be any number; only a whole one can cut a list.
-/

namespace SecurityAudit

/-- How many findings may be admitted, and how many have been. -/
structure Budget where
  limit : Option Number
  count : Nat := 0
  truncated : Bool := false
  deriving Inhabited

namespace Budget

/-- The budget of a setting. -/
def ofValue : Value → Except Refusal Budget
  | .null => .ok { limit := none }
  | v =>
    match v.number? with
    | some n => .ok { limit := some n }
    | none => .error .wrongKind

/-- As much as may be has been admitted. -/
def isExhausted (b : Budget) : Bool :=
  b.limit.any (·.atMost b.count)

/-- How many more findings may be admitted; none when there is no limit. -/
def room (b : Budget) : Except Refusal (Option Nat) :=
  match b.limit with
  | none => .ok none
  | some (.int n) => .ok (some (n - b.count).toNat)
  | some (.float x) =>
    if (Number.float x).below (.int b.count) then .ok (some 0) else .error .wrongKind

/-- Admit the first of some findings, as many as there is room for. -/
def accept {α : Type} (b : Budget) (offered : List α) : Except Refusal (List α × Budget) := do
  match ← b.room with
  | none => return (offered, b)
  | some n =>
    let admitted := offered.take n
    return (admitted,
      { b with
        count := b.count + admitted.length
        truncated := b.truncated || admitted.length < offered.length })

/-- Note that something has not been looked at. -/
def noteSkip (b : Budget) : Budget :=
  { b with truncated := true }

end Budget

end SecurityAudit
