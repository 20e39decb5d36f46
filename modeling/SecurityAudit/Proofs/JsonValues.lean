import SecurityAudit.Json.Reader
import SecurityAudit.Proofs.Outcome
import SecurityAudit.Value.Text

/-!
# The values of JSON documents

What is read from a JSON text has no dates in it, its objects have strings for keys, and its whole
numbers have no more digits than a number may be written with (`isJson_of_parse`).  So whatever is
read can be written out again, and nothing that is made of the text of a value, or quotes one, is
refused for it.
-/

namespace SecurityAudit

namespace Value

variable {v x : Value} {key : String}

/-! ### What can be written out -/

theorem asText_eq_ok_iff {t : RawText} : v.asText = .ok t ↔ v.isWritable = true ∧ v.plain = t := by
  rw [asText]
  cases v.isWritable <;> simp

/-- The text of a value is refused when the value cannot be written out. -/
theorem refusesOnly_asText {π : Type} {q : Refusal → Prop}
    (h : v.isWritable = false → q .badValue) :
    RefusesOnly q (allowing v.asText : Except (Fault π) RawText) := by
  rw [asText]
  cases hwritable : v.isWritable with
  | true => exact refusesOnly_ok _
  | false => exact refusesOnly_refuse (h hwritable)

/-- A problem that quotes a value is refused when the value cannot be written out. -/
theorem refusesOnly_failAbout {π α : Type} {q : Refusal → Prop} {p : π}
    (h : v.isWritable = false → q .badValue) :
    RefusesOnly q (failAbout v p : Except (Fault π) α) := by
  rw [failAbout]
  cases hwritable : v.isWritable with
  | true => exact refusesOnly_fail p
  | false => exact refusesOnly_refuse (h hwritable)

theorem areWritable_iff {items : List Value} :
    areWritable items = true ↔ ∀ v ∈ items, v.isWritable = true := by
  induction items with
  | nil => simp [areWritable]
  | cons v items ih => simp [areWritable, ih]

theorem haveWritable_iff {entries : List (Value × Value)} :
    haveWritable entries = true ↔
      ∀ e ∈ entries, e.1.isWritable = true ∧ e.2.isWritable = true := by
  induction entries with
  | nil => simp [haveWritable]
  | cons e entries ih =>
      obtain ⟨k, v⟩ := e
      simp [haveWritable, ih, and_assoc]

/-- What stands under a key of a value that can be written out can be written out. -/
theorem isWritable_of_get? (h : v.isWritable = true) (hx : v.get? key = some x) :
    x.isWritable = true := by
  cases v with
  | mapping entries =>
      obtain ⟨e, he, rfl⟩ := Option.map_eq_some_iff.mp hx
      exact (haveWritable_iff.mp h e (List.mem_of_find?_eq_some he)).2
  | _ => cases hx

/-- What stands under a key, or a default, can be written out if the whole and the default can. -/
theorem isWritable_getD {default : Value} (hdefault : default.isWritable = true)
    (h : v.isWritable = true) : ((v.get? key).getD default).isWritable = true := by
  cases hx : v.get? key with
  | none => exact hdefault
  | some x => exact isWritable_of_get? h hx

/-! ### Strings and objects -/

/-- A value is a string. -/
def IsString (v : Value) : Prop :=
  ∃ t, v.raw? = some t

theorem isString_ofRaw (t : RawText) : (ofRaw t).IsString := by
  cases t with
  | sound s => exact ⟨_, rfl⟩
  | broken front half rest => exact ⟨_, rfl⟩

theorem isWritable_of_isString (h : v.IsString) : v.isWritable = true := by
  obtain ⟨t, ht⟩ := h
  cases v <;> cases ht <;> rfl

/-- A value of a JSON document: there are no dates, times or moments in it, strings are the keys of
its objects, and its whole numbers can be written out. -/
inductive IsJson : Value → Prop
  | null : IsJson .null
  | bool (b : Bool) : IsJson (.bool b)
  | int {n : Int} (short : (Value.int n).isWritable = true) : IsJson (.int n)
  | float (x : Float) : IsJson (.float x)
  | string {v : Value} (isString : v.IsString) : IsJson v
  | list {items : List Value} (items_isJson : ∀ v ∈ items, IsJson v) : IsJson (.list items)
  | mapping {entries : List (Value × Value)} (keys_isString : ∀ e ∈ entries, e.1.IsString)
      (values_isJson : ∀ e ∈ entries, IsJson e.2) : IsJson (.mapping entries)

theorem IsJson.text (s : String) : IsJson (.text s) :=
  .string ⟨_, rfl⟩

/-- What stands under a key of a JSON value is one. -/
theorem IsJson.of_get? (h : v.IsJson) (hx : v.get? key = some x) : x.IsJson := by
  cases h with
  | mapping _ values_isJson =>
      obtain ⟨e, he, rfl⟩ := Option.map_eq_some_iff.mp hx
      exact values_isJson e (List.mem_of_find?_eq_some he)
  | string isString =>
      obtain ⟨t, ht⟩ := isString
      cases v <;> cases ht <;> cases hx
  | _ => cases hx

/-- The items of a JSON list are JSON values. -/
theorem IsJson.items {items : List Value} (h : (Value.list items).IsJson) :
    ∀ v ∈ items, v.IsJson := by
  cases h with
  | list items_isJson => exact items_isJson
  | string isString =>
      obtain ⟨t, ht⟩ := isString
      cases ht

/-- The keys of a JSON object are strings, and its values are JSON values. -/
theorem IsJson.entries {entries : List (Value × Value)} (h : (Value.mapping entries).IsJson) :
    ∀ e ∈ entries, e.1.IsString ∧ e.2.IsJson := by
  cases h with
  | mapping keys_isString values_isJson =>
      exact fun e he => ⟨keys_isString e he, values_isJson e he⟩
  | string isString =>
      obtain ⟨t, ht⟩ := isString
      cases ht

/-- A JSON value can be written out. -/
theorem IsJson.isWritable (h : v.IsJson) : v.isWritable = true := by
  induction h with
  | null | bool | float => rfl
  | int short => exact short
  | string isString => exact isWritable_of_isString isString
  | list _ ih => exact areWritable_iff.mpr ih
  | mapping keys_isString _ ih =>
      exact haveWritable_iff.mpr fun e he => ⟨isWritable_of_isString (keys_isString e he), ih e he⟩

end Value

open Value (IsJson IsString isString_ofRaw)

/-- An entry that is put into a mapping leaves its keys strings and its values JSON values. -/
theorem isJson_putEntry {entries : List (Value × Value)} {key value : Value}
    (h : ∀ e ∈ entries, e.1.IsString ∧ e.2.IsJson) (hkey : key.IsString) (hvalue : value.IsJson) :
    ∀ e ∈ putEntry entries key value, e.1.IsString ∧ e.2.IsJson := by
  intro e he
  rw [putEntry] at he
  split at he
  · obtain ⟨old, hold, rfl⟩ := List.mem_map.mp he
    split
    · exact ⟨(h old hold).1, hvalue⟩
    · exact h old hold
  · rcases List.mem_append.mp he with he | he
    · exact h e he
    · obtain rfl := List.mem_singleton.mp he
      exact ⟨hkey, hvalue⟩

namespace Text

/-- So many digits stand for a number below that power of the base. -/
theorem positional_lt {base : Nat} {digits : List Nat} (h : ∀ d ∈ digits, d < base) :
    positional base digits < Nat.pow base digits.length := by
  have hfrom : ∀ (ds : List Nat) (n : Nat), (∀ d ∈ ds, d < base) →
      ds.foldl (fun n d => n * base + d) n < (n + 1) * base ^ ds.length := by
    intro ds
    induction ds with
    | nil => intro n _; simp
    | cons d ds ih =>
        intro n hds
        obtain ⟨hd, hrest⟩ := List.forall_mem_cons.mp hds
        have hstep : n * base + d + 1 ≤ (n + 1) * base := by
          rw [Nat.add_mul, Nat.one_mul]
          omega
        calc ds.foldl (fun n d => n * base + d) (n * base + d)
            < (n * base + d + 1) * base ^ ds.length := ih _ hrest
          _ ≤ (n + 1) * base * base ^ ds.length := Nat.mul_le_mul_right _ hstep
          _ = (n + 1) * base ^ (ds.length + 1) := by rw [Nat.pow_succ', Nat.mul_assoc]
  simpa [positional, Nat.pow_eq] using hfrom digits 0 h

end Text

namespace Json

/-- Digits of ASCII are read as the number that they stand for, which has no more digits. -/
theorem valueOf_lt {ds : List Char} {n : Nat} (h : ∀ d ∈ ds, Text.isAsciiDigit d = true)
    (hlength : ds.length ≤ n) : valueOf ds < Nat.pow 10 n := by
  have hdigits : ∀ n ∈ ds.map (fun d => d.toNat - 48), n < 10 := by
    intro n hn
    obtain ⟨d, hd, rfl⟩ := List.mem_map.mp hn
    have hle : d.toNat ≤ 57 := by
      have hdigit := h d hd
      simp only [Text.isAsciiDigit, Bool.and_eq_true, decide_eq_true_eq] at hdigit
      exact hdigit.2
    omega
  calc valueOf ds < Nat.pow 10 ds.length := by
        simpa [valueOf] using Text.positional_lt hdigits
    _ ≤ Nat.pow 10 n := Nat.pow_le_pow_right (by decide) hlength

/-- What is taken off for a whole number are digits of ASCII. -/
theorem isAsciiDigit_of_takeWhole {cs : List Char} {c : Char} (h : c ∈ (takeWhole cs).1) :
    Text.isAsciiDigit c = true := by
  unfold takeWhole at h
  split at h
  · rw [List.mem_singleton.mp h]
    rfl
  · exact List.all_eq_true.mp List.all_takeWhile c h

/-- A number is read as a JSON value. -/
theorem isJson_of_readNumber {negative : Bool} {cs rest : List Char} {v : Value}
    (h : readNumber negative cs = .ok (v, rest)) : v.IsJson := by
  have hshort : ¬ Text.maxDigits < (takeWhole cs).1.length →
      valueOf (takeWhole cs).1 < Nat.pow 10 Text.maxDigits := fun hlength =>
    valueOf_lt (fun _ => isAsciiDigit_of_takeWhole) (Nat.le_of_not_lt hlength)
  simp only [readNumber] at h
  split at h
  · cases h
  · split at h
    · split at h
      · cases h
      · next hlength =>
        obtain ⟨rfl, -⟩ := Prod.mk.inj (Except.ok.inj h)
        refine .int ?_
        simp only [Value.isWritable, decide_eq_true_eq]
        split <;> simpa using hshort hlength
    · obtain ⟨rfl, -⟩ := Prod.mk.inj (Except.ok.inj h)
      exact .float _

/-- A number or a word is read as a JSON value. -/
theorem isJson_of_readScalar {cs rest : List Char} {v : Value}
    (h : readScalar cs = .ok (v, rest)) : v.IsJson := by
  have hwords : ∀ w ∈ words, w.2.IsJson := by
    simp only [words, List.forall_mem_cons, List.not_mem_nil, false_imp_iff, implies_true, and_true]
    exact ⟨.null, .bool _, .bool _, .float _, .float _, .float _⟩
  unfold readScalar at h
  split at h
  next found hfound =>
    obtain ⟨w, hw, hafter⟩ := List.exists_of_findSome?_eq_some hfound
    obtain ⟨after, -, rfl⟩ := Option.map_eq_some_iff.mp hafter
    obtain ⟨rfl, -⟩ := Prod.mk.inj (Except.ok.inj h)
    exact hwords w hw
  next =>
    split at h
    · exact isJson_of_readNumber h
    · exact isJson_of_readNumber h

/-- What is read in so many steps is a JSON value: a value, items of a list after those that are
done, and entries of an object after those that are done. -/
structure ReadsJson (fuel : Nat) : Prop where
  value : ∀ {cs rest : List Char} {v : Value}, readValue fuel cs = .ok (v, rest) → v.IsJson
  items : ∀ {done : List Value} {cs rest : List Char} {v : Value}, (∀ v ∈ done, v.IsJson) →
    readItems fuel done cs = .ok (v, rest) → v.IsJson
  entries : ∀ {done : List (Value × Value)} {cs rest : List Char} {v : Value},
    (∀ e ∈ done, e.1.IsString ∧ e.2.IsJson) →
    readEntries fuel done cs = .ok (v, rest) → v.IsJson

/-- The mapping of entries whose keys are strings is a JSON value if their values are. -/
theorem isJson_mapping {entries : List (Value × Value)}
    (h : ∀ e ∈ entries, e.1.IsString ∧ e.2.IsJson) : (Value.mapping entries).IsJson :=
  .mapping (fun e he => (h e he).1) fun e he => (h e he).2

section Steps

variable {fuel : Nat} {cs rest : List Char} {v : Value} (ih : ReadsJson fuel)
include ih

theorem ReadsJson.readValue_succ (h : readValue (fuel + 1) cs = .ok (v, rest)) : v.IsJson := by
  unfold readValue at h
  split at h
  · cases h
  · split at h
    · obtain ⟨rfl, -⟩ := Prod.mk.inj (Except.ok.inj h)
      exact .string (isString_ofRaw _)
    · cases h
  · next left heq =>
    obtain rfl := Nat.succ.inj heq
    split at h
    · obtain ⟨rfl, -⟩ := Prod.mk.inj (Except.ok.inj h)
      exact .list (by simp)
    · exact ih.items (by simp) h
  · next left heq =>
    obtain rfl := Nat.succ.inj heq
    split at h
    · obtain ⟨rfl, -⟩ := Prod.mk.inj (Except.ok.inj h)
      exact .mapping (by simp) (by simp)
    · exact ih.entries (by simp) h
  · exact isJson_of_readScalar h

theorem ReadsJson.readItems_succ {done : List Value} (hdone : ∀ v ∈ done, v.IsJson)
    (h : readItems (fuel + 1) done cs = .ok (v, rest)) : v.IsJson := by
  unfold readItems at h
  split at h
  · cases h
  · next item left hitem =>
    have hall : ∀ w ∈ item :: done, w.IsJson :=
      List.forall_mem_cons.mpr ⟨ih.value hitem, hdone⟩
    split at h
    · exact ih.items hall h
    · obtain ⟨rfl, -⟩ := Prod.mk.inj (Except.ok.inj h)
      exact .list fun w hw => hall w (List.mem_reverse.mp hw)
    · cases h

theorem ReadsJson.readEntries_succ {done : List (Value × Value)}
    (hdone : ∀ e ∈ done, e.1.IsString ∧ e.2.IsJson)
    (h : readEntries (fuel + 1) done cs = .ok (v, rest)) : v.IsJson := by
  unfold readEntries at h
  split at h
  · cases h
  · next left heq =>
    obtain rfl := Nat.succ.inj heq
    split at h
    · cases h
    · next key left hkey =>
      split at h
      · split at h
        · cases h
        · next item left' hitem =>
          have hall := isJson_putEntry hdone (isString_ofRaw (.ofPoints key)) (ih.value hitem)
          split at h
          · exact ih.entries hall h
          · obtain ⟨rfl, -⟩ := Prod.mk.inj (Except.ok.inj h)
            exact isJson_mapping hall
          · cases h
      · cases h
  · cases h

end Steps

theorem readsJson (fuel : Nat) : ReadsJson fuel := by
  induction fuel with
  | zero => exact ⟨nofun, fun _ => nofun, fun _ => nofun⟩
  | succ fuel ih => exact ⟨ih.readValue_succ, ih.readItems_succ, ih.readEntries_succ⟩

/-- **What a JSON text is read as** is a JSON value. -/
theorem isJson_of_parse {text : String} {v : Value} (h : parse text = .ok v) : v.IsJson := by
  simp only [parse] at h
  split at h
  · cases h
  · next found rest hread =>
    split at h
    · obtain rfl := Except.ok.inj h
      exact (readsJson _).value hread
    · cases h

end Json

end SecurityAudit
