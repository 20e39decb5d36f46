import SecurityAudit.Calendar.Moment
import SecurityAudit.Decimal.Binary64
import SecurityAudit.Text.Raw

/-!
# Document values

What a configuration file, a rule file or a policy document holds.  Documents are read before
anything is known about the shape they ought to have, so the values in them are of one type, and
whoever uses a value decides what it takes for an answer.

A mapping keeps its entries in the order in which their keys first came.

A text with half of a surrogate pair in it is a value of its own kind: most operations ask for a
text that can be encoded, and those that take any text ask for a raw one.
-/

namespace SecurityAudit

/-- A whole number or a floating-point number. -/
inductive Number where
  | int (n : Int)
  | float (x : Float)
  deriving Inhabited

namespace Number

/-- The exact value of a number. -/
def exact : Number → Decimal.Exact
  | .int n => .finite (n < 0) n.natAbs 0
  | .float x => Decimal.exact x

/-- The place of one number before another, compared exactly; a float that is no number has none. -/
def order? (a b : Number) : Option Ordering :=
  a.exact.order? b.exact

/-- Whether two numbers are equal, compared exactly; a float that is no number equals itself. -/
def same (a b : Number) : Bool :=
  a.order? b == some .eq || (a.exact == .nan && b.exact == .nan)

/-- Whether a number is below another, compared exactly. -/
def below (a b : Number) : Bool :=
  a.order? b == some .lt

/-- Whether a number is at most a whole number, compared exactly. -/
def atMost (a : Number) (n : Int) : Bool :=
  a.below (.int n) || a.same (.int n)

end Number

/-- A value of a document. -/
inductive Value where
  | null
  | bool (b : Bool)
  | int (n : Int)
  | float (x : Float)
  | text (s : String)
  | broken (front : String) (half : Surrogate) (rest : RawText)
  | date (d : Calendar.Date)
  | time (t : Calendar.Micros)
  | moment (m : Calendar.Moment)
  | list (items : List Value)
  | mapping (entries : List (Value × Value))
  deriving Inhabited

namespace Value

/-- The value counts as true: it is not null, false, zero or empty. -/
def holds : Value → Bool
  | .null => false
  | .bool b => b
  | .int n => n != 0
  | .float x => x != 0.0
  | .text s => !s.isEmpty
  | .list items => !items.isEmpty
  | .mapping entries => !entries.isEmpty
  | .broken _ _ _ | .date _ | .time _ | .moment _ => true

/-- The number that a value is; a truth value is one or zero. -/
def number? : Value → Option Number
  | .bool b => some (.int (if b then 1 else 0))
  | .int n => some (.int n)
  | .float x => some (.float x)
  | _ => none

/-- The text that a value is. -/
def text? : Value → Option String
  | .text s => some s
  | _ => none

/-- The value of a raw text. -/
def ofRaw : RawText → Value
  | .sound s => .text s
  | .broken front half rest => .broken front half rest

@[simp] theorem ofRaw_sound (s : String) : ofRaw (.sound s) = .text s := rfl

/-- The raw text that a value is. -/
def raw? : Value → Option RawText
  | .text s => some (.sound s)
  | .broken front half rest => some (.broken front half rest)
  | _ => none

/-- The text that a value is, for a reader. -/
def readable? (v : Value) : Option String :=
  v.raw?.map RawText.readable

/-- What a value holds one after another: the items of a list, the keys of a mapping, the
characters of a text. -/
def elements? : Value → Option (List Value)
  | .list items => some items
  | .mapping entries => some (entries.map Prod.fst)
  | .text s => some (s.toList.map fun c => .text (String.singleton c))
  | .broken front half rest =>
    some ((RawText.broken front half rest).points.map fun p => ofRaw (.ofPoints [p]))
  | _ => none

/-- A value that can be a key: neither a list nor a mapping. -/
def isKey : Value → Bool
  | .list _ | .mapping _ => false
  | _ => true

mutual

/-- Whether two values are equal.  Numbers are compared by value, so that one, 1.0 and true are
equal; mappings are compared without regard to order. -/
def same : Value → Value → Bool
  | .null, .null => true
  | .text a, .text b => a == b
  | .broken a h as, .broken b k bs => a == b && h == k && as == bs
  | .date a, .date b => a == b
  | .time a, .time b => a == b
  | .moment a, .moment b => a.since? b == some 0
  | .list as, .list bs => sameItems as bs
  | .mapping as, .mapping bs => as.length == bs.length && sameEntries as bs
  | a, b =>
    match a.number?, b.number? with
    | some x, some y => x.same y
    | _, _ => false

/-- Whether two lists have equal items. -/
def sameItems : List Value → List Value → Bool
  | [], [] => true
  | a :: as, b :: bs => same a b && sameItems as bs
  | _, _ => false

/-- Whether every entry of one mapping is an entry of the other. -/
def sameEntries : List (Value × Value) → List (Value × Value) → Bool
  | [], _ => true
  | (k, v) :: rest, bs => (bs.any fun e => same k e.1 && same v e.2) && sameEntries rest bs

end

/-- A float that is no number. -/
def isNaN (v : Value) : Bool :=
  v.number?.any fun n => n.exact == .nan

/-- A value is found where another one is looked for: the two are equal.  A float that is no number
is found nowhere. -/
def isFoundAs (a b : Value) : Bool :=
  !b.isNaN && a.same b

/-- The entry of a mapping under a text key. -/
def get? (v : Value) (key : String) : Option Value :=
  match v with
  | .mapping entries => (entries.find? fun e => e.1.text? == some key).map Prod.snd
  | _ => none

/-- Whether a value is among others. -/
def isAmong (x : Value) (items : List Value) : Bool :=
  items.any (·.isFoundAs x)

/-- A list of texts. -/
def texts (items : List String) : Value :=
  .list (items.map .text)

/-- A mapping with text keys. -/
def record (entries : List (String × Value)) : Value :=
  .mapping (entries.map fun (k, v) => (.text k, v))

/-- The place of one key before another: numbers by value, texts by code points, dates and moments
by time.  Keys of different kinds have no order, and neither has a float that is no number and
another number. -/
def order? (a b : Value) : Option Ordering :=
  match a, b with
  | .text x, .text y => some (compare x y)
  | .text x, .broken y k ys => some (compare (RawText.sound x) (.broken y k ys))
  | .broken x h xs, .text y => some (compare (.broken x h xs) (RawText.sound y))
  | .broken x h xs, .broken y k ys => some (compare (RawText.broken x h xs) (.broken y k ys))
  | .date x, .date y => some (compare x.number y.number)
  | .time x, .time y => some (compare x y)
  | .moment x, .moment y => (x.since? y).map fun d => compare d 0
  | .null, .null => some .eq
  | a, b =>
    match a.number?, b.number? with
    | some x, some y => if x.same y then some .eq else x.order? y
    | _, _ => none

/-- Two keys can be asked which of them comes first: they have an order or are numbers. -/
def isComparable (a b : Value) : Bool :=
  (a.order? b).isSome || (a.number?.isSome && b.number?.isSome)

end Value

/-- A mapping with `key` bound to `value`: in its place if the key is there, else at the end. -/
def putEntry (entries : List (Value × Value)) (key value : Value) : List (Value × Value) :=
  if entries.any fun e => e.1.isFoundAs key then
    entries.map fun e => if e.1.isFoundAs key then (e.1, value) else e
  else entries ++ [(key, value)]

end SecurityAudit
