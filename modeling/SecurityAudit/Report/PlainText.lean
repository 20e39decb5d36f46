import SecurityAudit.Report.Terminal

/-!
# What is shown, without colours

The lines that are left of what is shown when a terminal knows no styles.  Of markup the tags are
left out, and an escaped tag is seen as it was written.  A table has a line for its title, one for
its headers and one for each row, and its columns are as wide as their longest cell.
-/

namespace SecurityAudit

namespace Markup

/-- What is seen of a text with markup.  `fuel` bounds the number of steps, `slashes` are the
backslashes right before the text: two of them in front of a tag show one, and one more escapes the
tag. -/
def seenFrom : (fuel slashes : Nat) → List Char → List Char
  | 0, slashes, cs => List.replicate slashes '\\' ++ cs
  | _ + 1, slashes, [] => List.replicate slashes '\\'
  | fuel + 1, slashes, '\\' :: rest => seenFrom fuel (slashes + 1) rest
  | fuel + 1, slashes, c :: rest =>
    match if c == '[' then tag? rest else none with
    | some (tag, left) =>
      List.replicate (slashes / 2) '\\' ++ (if slashes % 2 == 1 then '[' :: tag else []) ++
        seenFrom fuel 0 left
    | none => List.replicate slashes '\\' ++ c :: seenFrom fuel 0 rest

/-- What is seen of a text with markup. -/
def seen (s : String) : String :=
  let cs := s.toList
  String.ofList (seenFrom (cs.length + 1) 0 cs)

end Markup

/-- What is seen of a cell. -/
def Cell.seen : Cell → String
  | .markup text => Markup.seen text
  | .styled s => s.text

/-- A text in a column of some width. -/
def Column.cellText (c : Column) (width : Nat) (text : String) : String :=
  let blanks := String.ofList (List.replicate (width - text.length) ' ')
  if c.justify == "right" then blanks ++ text else text ++ blanks

namespace Table

/-- The width of the column with a number. -/
def columnWidth (rows : List (List String)) (i : Nat) (c : Column) : Nat :=
  let cells := rows.map fun row => (row[i]?.getD "").length
  cells.foldl max (max c.header.length (max (c.width.getD 0) (c.minWidth.getD 0)))

/-- The lines of a table. -/
def plainLines (t : Table) : List String :=
  let rows := t.rows.map fun row => row.map Cell.seen
  let columns := t.columns.zipIdx.map fun (c, i) => (c, columnWidth rows i c)
  let line (cells : List String) : String :=
    Text.join "  " ((columns.zip cells).map fun ((c, width), cell) => c.cellText width cell)
  t.title :: line (t.columns.map Column.header) :: rows.map line

end Table

/-- The lines that are left of what is shown. -/
def Printed.plainLines : Printed → List String
  | .markup text => [Markup.seen text]
  | .styled s => [s.text]
  | .table t => t.plainLines

end SecurityAudit
