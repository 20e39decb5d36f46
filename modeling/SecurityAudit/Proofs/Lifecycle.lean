import Mathlib.Data.List.Chain
import SecurityAudit.Finding.Lifecycle

/-!
# Whatever is tried with a finding

A finding can be moved to another state, and one may try to assign to its fields.  Of the moves only
those along an `Edge` succeed, and no assignment does; whatever fails leaves the finding as it was
(`attempt_eq_ok_iff`).

So after any number of attempts a finding has been moved along edges (`isChain_moves`), and nothing
but its state is different from what it was made with (`triedAll_eq`).  The edges have no cycle:
every move lowers the number of moves that can still come, of which there are two from the start.
-/

namespace SecurityAudit.Finding

variable {f g : Finding} {status target field : String} {attached : List String}

/-! ## One attempt -/

/-- The moves from one state to another that there are. -/
inductive Edge : (status target : String) → Prop
  | confirm : Edge "open" "confirmed"
  | dismiss : Edge "open" "false_positive"
  | mitigate : Edge "confirmed" "mitigated"
  | acceptRisk : Edge "confirmed" "accepted_risk"

theorem mem_successors_iff : target ∈ successors status ↔ Edge status target := by
  constructor
  · intro h
    unfold successors at h
    split at h
    · rcases List.mem_pair.mp h with rfl | rfl
      · exact .confirm
      · exact .dismiss
    · rcases List.mem_pair.mp h with rfl | rfl
      · exact .mitigate
      · exact .acceptRisk
    · cases h
  · intro h
    cases h <;> simp [successors]

/-- A state is terminal when no edge leaves it. -/
theorem isTerminal_iff : f.isTerminal = true ↔ ∀ target, ¬ Edge f.status target := by
  rw [isTerminal, List.isEmpty_iff, List.eq_nil_iff_forall_not_mem]
  simp only [mem_successors_iff]

/-- A move along an edge changes the state alone. -/
theorem transition_of_edge (h : Edge f.status target) :
    f.transition (.text target) = .ok { f with status := target } := by
  simp [transition, Value.isKey, Value.text?, Option.filter, mem_successors_iff.mpr h]

/-- Any other move is turned down. -/
theorem transition_of_not_edge (h : ¬ Edge f.status target) :
    f.transition (.text target) = fail (.invalidTransition f.id f.status (.text target)) := by
  simp [transition, Value.isKey, Value.text?, Option.filter, mt mem_successors_iff.mp h]

/-- The name of a field is never attached. -/
theorem attach_of_field (h : field ∈ fields) : attach attached field = fail (.readOnly field) := by
  rw [attach, List.contains_iff_mem.mpr h, Bool.true_or, if_pos rfl]

/-- Something that is tried with a finding: to move it to a state, or to assign a value to one of
the fields that it was made with. -/
inductive Attempt where
  | move (target : String)
  | assign (field : String) (isField : field ∈ fields) (value : Value)

/-- The finding that an attempt makes, or why it fails.  Besides its fields the finding has the
names in `attached`. -/
def attempt (attached : List String) (f : Finding) : Attempt → Except (Fault Problem) Finding
  | .move target => f.transition (.text target)
  | .assign field _ _ => (attach attached field).map fun _ => f

/-- The finding after an attempt: the same one if the attempt fails. -/
def tried (attached : List String) (f : Finding) (a : Attempt) : Finding :=
  (f.attempt attached a).toOption.getD f

theorem tried_of_error {a : Attempt} {e : Fault Problem} (h : f.attempt attached a = .error e) :
    f.tried attached a = f := by
  rw [tried, h]
  rfl

theorem attempt_assign (isField : field ∈ fields) (value : Value) :
    f.attempt attached (.assign field isField value) = .error (.problem (.readOnly field)) := by
  rw [attempt, attach_of_field isField]
  rfl

/-- **What succeeds** is a move along an edge, and it changes the state alone. -/
theorem attempt_eq_ok_iff {a : Attempt} :
    f.attempt attached a = .ok g ↔
      ∃ target, a = .move target ∧ Edge f.status target ∧ g = { f with status := target } := by
  cases a with
  | move target =>
      by_cases h : Edge f.status target
      · simp [attempt, transition_of_edge h, h, eq_comm]
      · simp [attempt, transition_of_not_edge h, h, fail]
  | assign field isField value => simp [attempt_assign]

/-! ## Any number of attempts -/

/-- The finding after attempts, one after another. -/
def triedAll (attached : List String) (f : Finding) (attempts : List Attempt) : Finding :=
  attempts.foldl (tried attached) f

/-- The states to which a finding is moved by those attempts that succeed. -/
def moves (attached : List String) (f : Finding) : List Attempt → List String
  | [] => []
  | a :: rest =>
    match f.attempt attached a with
    | .ok g => g.status :: g.moves attached rest
    | .error _ => f.moves attached rest

/-- **The state goes along edges**, one for each attempt that succeeds. -/
theorem isChain_moves (f : Finding) (attempts : List Attempt) :
    List.IsChain Edge (f.status :: f.moves attached attempts) := by
  induction attempts generalizing f with
  | nil => exact List.isChain_singleton _
  | cons a rest ih =>
      rw [moves]
      cases h : f.attempt attached a with
      | ok g =>
          obtain ⟨target, -, hedge, rfl⟩ := attempt_eq_ok_iff.mp h
          exact List.isChain_cons_cons.mpr ⟨hedge, ih _⟩
      | error e => exact ih f

/-- **Nothing but the state changes**, and it is the last one of those moved to. -/
theorem triedAll_eq (f : Finding) (attempts : List Attempt) :
    f.triedAll attached attempts =
      { f with status := (f.moves attached attempts).getLastD f.status } := by
  induction attempts generalizing f with
  | nil => rfl
  | cons a rest ih =>
      rw [triedAll, List.foldl_cons, ← triedAll, ih, moves]
      cases h : f.attempt attached a with
      | ok g =>
          obtain ⟨target, -, -, rfl⟩ := attempt_eq_ok_iff.mp h
          have hnext : f.tried attached a = { f with status := target } := by
            rw [tried, h]
            rfl
          rw [hnext, List.getLastD_cons]
      | error e => rw [tried_of_error h]

theorem moves_append (f : Finding) (before rest : List Attempt) :
    f.moves attached (before ++ rest) =
      f.moves attached before ++ (f.triedAll attached before).moves attached rest := by
  induction before generalizing f with
  | nil => rfl
  | cons a before ih =>
      rw [List.cons_append, moves, moves, triedAll, List.foldl_cons, ← triedAll]
      cases h : f.attempt attached a with
      | ok g =>
          have hnext : f.tried attached a = g := by
            rw [tried, h]
            rfl
          simp only [ih, hnext, List.cons_append]
      | error e => simp only [ih, tried_of_error h]

/-- In a terminal state nothing succeeds any more. -/
theorem moves_of_isTerminal (h : f.isTerminal = true) (attempts : List Attempt) :
    f.moves attached attempts = [] := by
  have hchain : List.IsChain Edge (f.status :: f.moves attached attempts) :=
    f.isChain_moves attempts
  cases hmoves : f.moves attached attempts with
  | nil => rfl
  | cons target rest =>
      rw [hmoves] at hchain
      exact absurd (List.isChain_cons_cons.mp hchain).1 (isTerminal_iff.mp h target)

/-- The number of moves that can still come from a state. -/
def movesLeft : (status : String) → Nat
  | "open" => 2
  | "confirmed" => 1
  | _ => 0

/-- Every move leaves fewer moves. -/
theorem Edge.movesLeft_lt (h : Edge status target) : movesLeft target < movesLeft status := by
  cases h <;> decide

theorem length_le_movesLeft {targets : List String} (h : List.IsChain Edge (status :: targets)) :
    targets.length ≤ movesLeft status := by
  induction targets generalizing status with
  | nil => exact Nat.zero_le _
  | cons target rest ih =>
      obtain ⟨hedge, hrest⟩ := List.isChain_cons_cons.mp h
      exact (Nat.succ_le_succ (ih hrest)).trans hedge.movesLeft_lt

/-- **The life of a finding.**  A move succeeds when it is along an edge, and changes the state
alone; any other move and every assignment to a field is turned down and changes nothing.  So
whatever is tried with a finding that is open, and however often, its state goes along edges, there
are no more than two moves and none after it is terminal, and everything but the state is as the
finding was made. -/
theorem life_of_open (hopen : f.status = "open") (attached : List String)
    (attempts : List Attempt) :
    (∀ (g : Finding) (target : String), Edge g.status target →
      g.attempt attached (.move target) = .ok { g with status := target }) ∧
    (∀ (g : Finding) (target : String), ¬ Edge g.status target →
      g.attempt attached (.move target) =
          .error (.problem (.invalidTransition g.id g.status (.text target))) ∧
        g.tried attached (.move target) = g) ∧
    (∀ (g : Finding) (field : String) (isField : field ∈ fields) (value : Value),
      g.attempt attached (.assign field isField value) = .error (.problem (.readOnly field)) ∧
        g.tried attached (.assign field isField value) = g) ∧
    List.IsChain Edge ("open" :: f.moves attached attempts) ∧
    (f.moves attached attempts).length ≤ 2 ∧
    (∀ before rest, attempts = before ++ rest → (f.triedAll attached before).isTerminal = true →
      f.moves attached attempts = f.moves attached before) ∧
    f.triedAll attached attempts =
      { f with status := (f.moves attached attempts).getLastD "open" } := by
  have hchain : List.IsChain Edge ("open" :: f.moves attached attempts) :=
    hopen ▸ f.isChain_moves attempts
  refine ⟨fun g target hedge => transition_of_edge hedge, fun g target hedge => ?_,
    fun g field isField value => ?_, hchain, length_le_movesLeft hchain, ?_,
    hopen ▸ f.triedAll_eq attempts⟩
  · have hfails := transition_of_not_edge hedge
    exact ⟨hfails, tried_of_error hfails⟩
  · have hfails : g.attempt attached (.assign field isField value) =
        .error (.problem (.readOnly field)) := attempt_assign isField value
    exact ⟨hfails, tried_of_error hfails⟩
  · intro before rest happend hterminal
    subst happend
    rw [moves_append, moves_of_isTerminal hterminal, List.append_nil]

/-- Of five attempts two succeed: the finding is confirmed, and its risk is accepted. -/
theorem life_of_open_accepted :
    let f : Finding := {
      id := "A-0", ruleId := .text "A", title := .null, description := .null, severity := "high"
      category := "xss", file := "a.py", line := 1, evidence := "", remediation := .null
      cvss := none, references := [], cwe := none, cve := none, entropy := none, status := "open"
      detectedAt := ⟨0, none⟩ }
    let attempts : List Attempt := [.move "mitigated", .move "confirmed",
      .assign "status" (by decide) (.text "open"), .move "accepted_risk", .move "mitigated"]
    f.status = "open" ∧ f.moves [] attempts = ["confirmed", "accepted_risk"] ∧
      f.triedAll [] attempts = { f with status := "accepted_risk" } := by
  intro f attempts
  have hmoves : f.moves [] attempts = ["confirmed", "accepted_risk"] := by decide +kernel
  obtain ⟨-, -, -, -, -, -, hafter⟩ := life_of_open (f := f) rfl [] attempts
  rw [hmoves] at hafter
  exact ⟨rfl, hmoves, hafter⟩

end SecurityAudit.Finding
