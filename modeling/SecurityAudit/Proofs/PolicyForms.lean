import SecurityAudit.Proofs.JsonValues
import SecurityAudit.Proofs.Unlimited

/-!
# Which documents are policies

A document is read part by part, and the first part that is unfit ends the reading with a problem.
Whether a part is fit depends on nothing but the part itself, so for each of them there is a
condition on values, and a document is a policy when its parts satisfy theirs (`IsDocument`).  It
has one of two shapes, with permissions or with statements, and a document that has both is taken
to have permissions.

A document that is no policy does not end an audit: its target is left with a warning.  What does
end it is a whole number of too many digits that has to be written out, in a message or for a
provider; no JSON text is read as a document with such a number in it.
-/

namespace SecurityAudit

namespace Value

variable {v x : Value} {key : String} {P : Value → Prop}

/-- A value is an object. -/
def IsObject (v : Value) : Prop :=
  ∃ entries, v = .mapping entries

/-- What stands under a key satisfies a condition, if anything does stand there. -/
def MayHave (v : Value) (key : String) (P : Value → Prop) : Prop :=
  ∀ x, v.get? key = some x → P x

end Value

namespace Iam

open Value

variable {v doc : Value}

/-! ## The parts of permissions and statements -/

/-- A value says whether to allow or to deny, in whatever letter case. -/
def IsEffect (v : Value) : Prop :=
  ∃ s, v = .text s ∧ (Text.lower s = "allow" ∨ Text.lower s = "deny")

/-- A value is a condition: an object, or null. -/
def IsCondition (v : Value) : Prop :=
  v = .null ∨ v.IsObject

/-- A value is a string, or a list of strings that is not empty. -/
def IsOneOrMore (v : Value) : Prop :=
  v.IsString ∨ ∃ items, v = .list items ∧ items ≠ [] ∧ ∀ x ∈ items, x.IsString

/-- An entry is a permission: an object with an action and a resource, which are strings, and
possibly with an effect and a condition. -/
structure IsPermission (entry : Value) : Prop where
  action : ∃ v, entry.get? "action" = some v ∧ v.IsString
  resource : ∃ v, entry.get? "resource" = some v ∧ v.IsString
  effect : entry.MayHave "effect" IsEffect
  condition : entry.MayHave "condition" IsCondition

/-- An entry is a statement: an object with one action or more, and possibly with one resource or
more, with an effect and with a condition. -/
structure IsStatement (entry : Value) : Prop where
  action : ∃ v, entry.get? "Action" = some v ∧ IsOneOrMore v
  resource : entry.MayHave "Resource" IsOneOrMore
  effect : entry.MayHave "Effect" IsEffect
  condition : entry.MayHave "Condition" IsCondition

/-- A document has permissions, or statements and no permissions. -/
inductive HasBody (doc : Value) : Prop
  | permissions {items : List Value} (found : doc.get? "permissions" = some (.list items))
      (each : ∀ entry ∈ items, IsPermission entry)
  | statement {entry : Value} (unfound : doc.get? "permissions" = none)
      (found : doc.get? "Statement" = some entry) (isObject : entry.IsObject)
      (isStatement : IsStatement entry)
  | statements {items : List Value} (unfound : doc.get? "permissions" = none)
      (found : doc.get? "Statement" = some (.list items))
      (each : ∀ entry ∈ items, IsStatement entry)

/-- A document has a name: of the values under the keys for names, the first that counts as true is
a string. -/
def HasName (doc : Value) : Prop :=
  ∃ earlier key later v, nameKeys = earlier ++ key :: later ∧ doc.get? key = some v ∧
    v.IsString ∧ v.holds = true ∧ ∀ k ∈ earlier, doc.MayHave k fun v => v.holds = false

/-- A value says when a policy was last used, or that it is not known: null, the empty string, or a
string that is a moment when each letter Z in it is replaced by the distance zero. -/
def IsTimestamp (v : Value) : Prop :=
  v = .null ∨ ∃ t, v.raw? = some t ∧
    (t.readable = "" ∨ ∃ m, Calendar.Moment.parse? (withoutZulu t.readable) = some m)

/-- What documents are like that are policies. -/
structure IsDocument (doc : Value) : Prop where
  isObject : doc.IsObject
  name : HasName doc
  body : HasBody doc
  lastUsed : doc.MayHave "lastUsed" IsTimestamp
  olderLastUsed : doc.get? "lastUsed" = none → doc.MayHave "last_used" IsTimestamp

/-- A refusal for a whole number of too many digits in a value. -/
def IsForLength (v : Value) (r : Refusal) : Prop :=
  r = .badValue ∧ v.isWritable = false

/-- What is refused for a part is refused for the whole, if the part can be written out whenever the
whole can. -/
theorem IsForLength.of_part {w : Value} {r : Refusal} (h : IsForLength v r)
    (hpart : w.isWritable = true → v.isWritable = true) : IsForLength w r := by
  refine ⟨h.1, Bool.eq_false_iff.mpr fun hw => ?_⟩
  have hlong := h.2
  rw [hpart hw] at hlong
  cases hlong

theorem refusesOnly_readEffect : RefusesOnly (IsForLength v) (readEffect v) := by
  unfold readEffect
  split
  · exact refusesOnly_ok _
  · exact refusesOnly_ok _
  · exact refusesOnly_failAbout fun hlong => ⟨rfl, hlong⟩

theorem refusesOnly_readCondition {q : Refusal → Prop} : RefusesOnly q (readCondition v) := by
  cases v with
  | null => exact refusesOnly_ok _
  | mapping entries => exact refusesOnly_ok _
  | _ => exact refusesOnly_fail _

theorem refusesOnly_readStrings {q : Refusal → Prop} (index : Nat) (key : String) :
    RefusesOnly q (readStrings index key v) := by
  unfold readStrings
  split
  · exact refusesOnly_ok _
  · exact refusesOnly_fail _

theorem refusesOnly_readPermission (index : Nat) (entry : Value) :
    RefusesOnly (IsForLength entry) (readPermission index entry) := by
  unfold readPermission
  split
  · split
    · exact refusesOnly_fail _
    · exact refusesOnly_fail _
    · split
      · refine RefusesOnly.bind (refusesOnly_readEffect.mono fun r hr => ?_) fun effect _ => ?_
        · exact hr.of_part (isWritable_getD rfl)
        · exact refusesOnly_readCondition.bind fun _ _ => refusesOnly_ok _
      · exact refusesOnly_fail _
  · exact refusesOnly_fail _

theorem refusesOnly_readStatement (index : Nat) (entry : Value) :
    RefusesOnly (IsForLength entry) (readStatement index entry) := by
  unfold readStatement
  split
  · split
    · exact refusesOnly_fail _
    · refine (refusesOnly_readStrings _ _).bind fun actions _ => ?_
      refine (refusesOnly_readStrings _ _).bind fun resources _ => ?_
      refine RefusesOnly.bind (refusesOnly_readEffect.mono fun r hr => ?_) fun effect _ => ?_
      · exact hr.of_part (isWritable_getD rfl)
      · exact refusesOnly_readCondition.bind fun _ _ => refusesOnly_ok _
  · exact refusesOnly_fail _

/-- What is refused in a list is refused in one of its items. -/
theorem refusesOnly_readAll {α : Type} {read : Nat → Value → Reading α}
    (hread : ∀ i entry, RefusesOnly (IsForLength entry) (read i entry)) (items : List Value) :
    RefusesOnly (IsForLength (.list items)) (readAll read items) := by
  refine RefusesOnly.mapM fun p hp => (hread p.2 p.1).mono fun r hr => hr.of_part fun hlist => ?_
  exact areWritable_iff.mp hlist _ (List.fst_mem_of_mem_zipIdx hp)

theorem refusesOnly_readPermissions : RefusesOnly (IsForLength v) (readPermissions v) := by
  cases v with
  | list items => exact refusesOnly_readAll refusesOnly_readPermission items
  | _ => exact refusesOnly_fail _

theorem refusesOnly_readStatements : RefusesOnly (IsForLength v) (readStatements v) := by
  cases v with
  | list items => exact (refusesOnly_readAll refusesOnly_readStatement items).map
  | mapping entries => exact refusesOnly_readStatement 0 _
  | _ => exact refusesOnly_fail _

theorem refusesOnly_readBody (name : RawText) :
    RefusesOnly (IsForLength doc) (readBody name doc) := by
  unfold readBody
  split
  next v hpermissions =>
    refine refusesOnly_readPermissions.mono fun r hr => hr.of_part fun hdoc => ?_
    exact isWritable_of_get? hdoc hpermissions
  next v _ hstatement =>
    refine refusesOnly_readStatements.mono fun r hr => hr.of_part fun hdoc => ?_
    exact isWritable_of_get? hdoc hstatement
  next => exact refusesOnly_fail _

theorem refusesOnly_readTimestamp {q : Refusal → Prop} : RefusesOnly q (readTimestamp v) := by
  unfold readTimestamp
  split
  · exact refusesOnly_ok _
  · exact refusesOnly_ok _
  · split
    · exact refusesOnly_fail _
    · split
      · exact refusesOnly_ok _
      · split
        · exact refusesOnly_ok _
        · exact refusesOnly_fail _

/-- **What is refused in a document**: a whole number of too many digits, and nothing else. -/
theorem refusesOnly_ofDocument : RefusesOnly (IsForLength doc) (Policy.ofDocument doc) := by
  unfold Policy.ofDocument
  split
  · split
    · refine RefusesOnly.bind (refusesOnly_asText fun hlong => ?_) fun provider _ => ?_
      · exact IsForLength.of_part ⟨rfl, hlong⟩ (isWritable_getD rfl)
      · refine (refusesOnly_readBody _).bind fun permissions _ => ?_
        exact refusesOnly_readTimestamp.bind fun _ _ => refusesOnly_ok _
    · exact refusesOnly_fail _
  · exact refusesOnly_fail _

end Iam

end SecurityAudit
