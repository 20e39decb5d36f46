/-!
# Encodings

How the bytes of a file are read as text.  Every byte is a character in Latin-1; ASCII has the
lower half of them; in UTF-8 a text is read from its shortest form only, and from no other bytes.
-/

namespace SecurityAudit.Text

/-- An encoding of texts. -/
inductive Encoding where
  | utf8
  | latin1
  | ascii
  deriving Repr, DecidableEq, Inhabited

namespace Encoding

/-- The name of an encoding. -/
def name : Encoding → String
  | .utf8 => "utf-8"
  | .latin1 => "latin-1"
  | .ascii => "ascii"

/-- The encoding of a name. -/
def ofName? (name : String) : Option Encoding :=
  [Encoding.utf8, .latin1, .ascii].find? (·.name == name)

/-- The text that the bytes stand for, if they stand for one. -/
def decode? (e : Encoding) (bytes : List UInt8) : Option (List Char) :=
  match e with
  | .utf8 => (String.fromUTF8? ⟨bytes.toArray⟩).map String.toList
  | .latin1 => some (bytes.map fun b => Char.ofNat b.toNat)
  | .ascii =>
    if bytes.all (· < 128) then some (bytes.map fun b => Char.ofNat b.toNat) else none

end Encoding

/-- The bytes of a text in UTF-8. -/
def utf8Bytes (cs : List Char) : List UInt8 :=
  (String.ofList cs).toUTF8.toList

end SecurityAudit.Text
