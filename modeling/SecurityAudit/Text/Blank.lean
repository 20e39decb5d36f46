/-!
# Blank characters and lines

The blank characters of Unicode 14, trimming, and the division of a text into lines.  A line ends
at a line feed, a carriage return, the two together, a vertical tab, a form feed, one of the file,
group and record separators, a next-line control, a line separator or a paragraph separator.  A
line end closes its line and opens none, so a text that ends with one has no empty last line.
-/

namespace SecurityAudit.Text

/-- A blank character: the white space of ASCII with its four separators, the next-line control,
the no-break spaces and the spaces of every width. -/
def isBlank (c : Char) : Bool :=
  let n := c.toNat
  if n < 128 then n == 32 || (9 ≤ n && n ≤ 13) || (28 ≤ n && n ≤ 31)
  else n == 0x85 || n == 0xA0 || n == 0x1680 || (0x2000 ≤ n && n ≤ 0x200A) ||
    n == 0x2028 || n == 0x2029 || n == 0x202F || n == 0x205F || n == 0x3000

/-- The characters from the first that is not blank. -/
def trimLeft (cs : List Char) : List Char :=
  cs.dropWhile isBlank

/-- The characters up to the last that is not blank. -/
def trimRight (cs : List Char) : List Char :=
  (cs.reverse.dropWhile isBlank).reverse

/-- The characters between the blanks at both ends. -/
def trimChars (cs : List Char) : List Char :=
  trimRight (trimLeft cs)

/-- The text without the blanks at both ends. -/
def trim (s : String) : String :=
  String.ofList (trimChars s.toList)

/-- A character that ends a line. -/
def isLineEnd (c : Char) : Bool :=
  let n := c.toNat
  (10 ≤ n && n ≤ 13) || (28 ≤ n && n ≤ 30) || n == 0x85 || n == 0x2028 || n == 0x2029

/-- The lines of a text whose first line has begun with `current` (last character first), after
the finished lines `done` (last line first). -/
def linesFrom (current : List Char) (done : List (List Char)) : List Char → List (List Char)
  | [] => (if current.isEmpty then done else current.reverse :: done).reverse
  | '\r' :: '\n' :: rest => linesFrom [] (current.reverse :: done) rest
  | c :: rest =>
    if isLineEnd c then linesFrom [] (current.reverse :: done) rest
    else linesFrom (c :: current) done rest

/-- The lines of a text, without their ends. -/
def lines (cs : List Char) : List (List Char) :=
  linesFrom [] [] cs

/-- The pieces of a text between the occurrences of a character; always one piece at least. -/
def splitAt (sep : Char) (cs : List Char) : List (List Char) :=
  match cs with
  | [] => [[]]
  | c :: rest =>
    if c == sep then [] :: splitAt sep rest
    else
      match splitAt sep rest with
      | [] => [[c]]
      | piece :: pieces => (c :: piece) :: pieces

/-- The pieces of a text between the occurrences of a character, as texts. -/
def split (sep : Char) (s : String) : List String :=
  (splitAt sep s.toList).map String.ofList

/-- Texts joined by a separator. -/
def join (sep : String) (parts : List String) : String :=
  sep.intercalate parts

end SecurityAudit.Text
