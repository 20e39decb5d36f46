import SecurityAudit.Refusal
import SecurityAudit.Text.Case
import SecurityAudit.Text.Quoted

/-!
# Raw texts

A character beyond the sixteen bits of a code unit is written by a pair of surrogates, and an escape
in a document, or a file name that is in no encoding, can leave half of such a pair behind.  A text
with a half in it has a length, an order and a quoted form like any other.  What it does not have is
a form as bytes: whoever needs one refuses it.

A raw text is made of texts with halves between them, so that it is a text exactly when there is no
half.
-/

namespace SecurityAudit

/-- Half of a surrogate pair, by its place among all halves. -/
abbrev Surrogate := Fin 0x800

/-- The first code point that is a half. -/
def Surrogate.first : Nat := 0xD800

/-- The code point of a half. -/
def Surrogate.number (h : Surrogate) : Nat :=
  Surrogate.first + h

/-- A code point of a raw text. -/
inductive CodePoint where
  | char (c : Char)
  | half (h : Surrogate)
  deriving Repr, DecidableEq, Inhabited

namespace CodePoint

/-- The number of a code point. -/
def number : CodePoint → Nat
  | .char c => c.toNat
  | .half h => h.number

/-- The code point of a number, which is no greater than the last one. -/
def ofNat (n : Nat) : CodePoint :=
  if h : n - Surrogate.first < 0x800 ∧ Surrogate.first ≤ n then .half ⟨n - Surrogate.first, h.1⟩
  else .char (Char.ofNat n)

/-- One code point between delimiters `quote`; a half is written by its number. -/
def quotedBy (quote : Char) : CodePoint → List Char
  | .char c => Text.quoteChar quote c
  | .half h => '\\' :: 'u' :: Text.hexDigits 4 h.number

end CodePoint

/-- Text as it comes, possibly with halves of surrogate pairs in it. -/
inductive RawText where
  | sound (s : String)
  | broken (front : String) (half : Surrogate) (rest : RawText)
  deriving Repr, DecidableEq, Inhabited

namespace RawText

instance : Coe String RawText := ⟨.sound⟩

/-- The code points of a text. -/
def points : RawText → List CodePoint
  | .sound s => s.toList.map .char
  | .broken front half rest => front.toList.map .char ++ .half half :: rest.points

/-- The text of some code points, after the characters in `front`, the last of which comes first. -/
def ofPointsAfter (front : List Char) : List CodePoint → RawText
  | [] => .sound (String.ofList front.reverse)
  | .char c :: rest => ofPointsAfter (c :: front) rest
  | .half h :: rest => .broken (String.ofList front.reverse) h (ofPointsAfter [] rest)

/-- The text of some code points. -/
def ofPoints (points : List CodePoint) : RawText :=
  ofPointsAfter [] points

/-- A text, and then another one. -/
def append : RawText → RawText → RawText
  | .sound s, .sound t => .sound (s ++ t)
  | .sound s, .broken front half rest => .broken (s ++ front) half rest
  | .broken front half rest, t => .broken front half (rest.append t)

instance : Append RawText := ⟨append⟩

@[simp] theorem sound_append_sound (s t : String) : sound s ++ sound t = sound (s ++ t) := rfl

@[simp] theorem sound_append_broken (s front : String) (half : Surrogate) (rest : RawText) :
    sound s ++ broken front half rest = broken (s ++ front) half rest := rfl

@[simp] theorem broken_append (front : String) (half : Surrogate) (rest t : RawText) :
    broken front half rest ++ t = broken front half (rest ++ t) := rfl

/-- The texts between the halves. -/
def pieces : RawText → List String
  | .sound s => [s]
  | .broken front _ rest => front :: rest.pieces

/-- The text in small letters.  A half is no letter, so it parts what is before it from what is
after it. -/
def lower : RawText → RawText
  | .sound s => .sound (Text.lower s)
  | .broken front half rest => .broken (Text.lower front) half rest.lower

/-- The text that is encoded; there is none when there is a half. -/
def encoded : RawText → Except Refusal String
  | .sound s => .ok s
  | .broken _ _ _ => .error .unencodable

@[simp] theorem encoded_sound (s : String) : (sound s).encoded = .ok s := rfl

@[simp] theorem encoded_broken (front : String) (half : Surrogate) (rest : RawText) :
    (broken front half rest).encoded = .error .unencodable := rfl

/-- No half is in the text. -/
def isSound : RawText → Bool
  | .sound _ => true
  | .broken _ _ _ => false

@[simp] theorem isSound_sound (s : String) : (sound s).isSound = true := rfl

@[simp] theorem isSound_broken (front : String) (half : Surrogate) (rest : RawText) :
    (broken front half rest).isSound = false := rfl

@[simp] theorem isSound_append (t u : RawText) : (t ++ u).isSound = (t.isSound && u.isSound) := by
  cases t <;> cases u <;> rfl

/-- The text between quotes, with escapes. -/
def quoted : RawText → String
  | .sound s => Text.quoted s
  | t =>
    let quote := Text.delimiter (t.pieces.flatMap String.toList)
    String.ofList (quote :: t.points.flatMap (CodePoint.quotedBy quote) ++ [quote])

/-- The text for a reader: what replaces a half says that something is there. -/
def readable : RawText → String
  | .sound s => s
  | .broken front _ rest => front ++ "\uFFFD" ++ rest.readable

@[simp] theorem readable_sound (s : String) : (sound s).readable = s := rfl

/-- A text without a half is the text that a reader sees. -/
theorem eq_sound_of_isSound {t : RawText} (h : t.isSound = true) : t = .sound t.readable := by
  cases t with
  | sound s => rfl
  | broken front half rest => cases h

/-- What is encoded is the text that a reader sees, if there is no half in it. -/
theorem encoded_eq (t : RawText) :
    t.encoded = if t.isSound then .ok t.readable else .error .unencodable := by
  cases t <;> rfl

/-- The numbers of the code points, by which texts are ordered. -/
def numbers (t : RawText) : List Nat :=
  t.points.map CodePoint.number

instance : Ord RawText := ⟨fun a b => compare a.numbers b.numbers⟩

end RawText

end SecurityAudit
