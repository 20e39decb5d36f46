import SecurityAudit.Decimal.Shortest
import SecurityAudit.Refusal
import SecurityAudit.Text.Blank
import SecurityAudit.Text.Quoted
import SecurityAudit.Value.Text

/-!
# Writing JSON

A value as JSON text, each item and each entry on a line of its own, two blanks deeper than what
holds it.  Strings are written in ASCII: a character outside the printable ASCII range is written by
its code units, and so is half of a pair.  Dates and times have no form in JSON, and neither do keys
that are dates or times; a whole number of too many digits is refused.
-/

namespace SecurityAudit.Json

/-- A code unit of sixteen bits, written by its number. -/
def unitEscape (n : Nat) : List Char :=
  '\\' :: 'u' :: Text.hexDigits 4 n

/-- One character of a string. -/
def escapeChar (c : Char) : List Char :=
  let n := c.toNat
  if c == '"' || c == '\\' then ['\\', c]
  else if 32 ≤ n && n < 127 then [c]
  else if n == 10 then ['\\', 'n']
  else if n == 13 then ['\\', 'r']
  else if n == 9 then ['\\', 't']
  else if n == 12 then ['\\', 'f']
  else if n == 8 then ['\\', 'b']
  else if n < 0x10000 then unitEscape n
  else unitEscape (0xD800 + (n - 0x10000) / 1024) ++ unitEscape (0xDC00 + (n - 0x10000) % 1024)

/-- One code point of a string. -/
def escapePoint : CodePoint → List Char
  | .char c => escapeChar c
  | .half h => unitEscape h.number

/-- A string between double quotes. -/
def quoted (t : RawText) : String :=
  String.ofList ('"' :: t.points.flatMap escapePoint ++ ['"'])

/-- A whole number. -/
def wholeText (n : Int) : Except Refusal String :=
  if (Value.int n).isWritable then .ok (toString n) else .error .badValue

/-- A floating-point number. -/
def floatText (x : Float) : String :=
  Decimal.floatText ⟨"NaN", "Infinity"⟩ x

/-- The string under which a key is written, if it can be one. -/
def keyText : Value → Except Refusal RawText
  | .text s => .ok s
  | .broken front half rest => .ok (.broken front half rest)
  | .null => .ok "null"
  | .bool b => .ok (if b then "true" else "false")
  | .int n => (wholeText n).map .sound
  | .float x => .ok (floatText x)
  | _ => .error .wrongKind

/-- A line end and the blanks at the start of a line at a given depth. -/
def newline (depth : Nat) : String :=
  String.ofList ('\n' :: List.replicate (2 * depth) ' ')

/-- Pieces between brackets, each on a line of its own; `depth` is that of the brackets. -/
def bracketed (opening closing : String) (depth : Nat) (pieces : List String) : String :=
  if pieces.isEmpty then opening ++ closing
  else
    opening ++ newline (depth + 1) ++ Text.join ("," ++ newline (depth + 1)) pieces ++
      newline depth ++ closing

mutual

/-- The text of a value at a given depth. -/
def writeAt (depth : Nat) : Value → Except Refusal String
  | .null => .ok "null"
  | .bool b => .ok (if b then "true" else "false")
  | .int n => wholeText n
  | .float x => .ok (floatText x)
  | .text s => .ok (quoted s)
  | .broken front half rest => .ok (quoted (.broken front half rest))
  | .list items => do
    return bracketed "[" "]" depth (← writeItems (depth + 1) items)
  | .mapping entries => do
    return bracketed "\x7b" "\x7d" depth (← writeEntries (depth + 1) entries)
  | .date _ | .time _ | .moment _ => .error .wrongKind

/-- The texts of items. -/
def writeItems (depth : Nat) : List Value → Except Refusal (List String)
  | [] => .ok []
  | v :: rest => do
    let piece ← writeAt depth v
    return piece :: (← writeItems depth rest)

/-- The texts of entries. -/
def writeEntries (depth : Nat) : List (Value × Value) → Except Refusal (List String)
  | [] => .ok []
  | (k, v) :: rest => do
    let key ← keyText k
    let piece ← writeAt depth v
    return (quoted key ++ ": " ++ piece) :: (← writeEntries depth rest)

end

/-- The text of a value. -/
def write (v : Value) : Except Refusal String :=
  writeAt 0 v

end SecurityAudit.Json
