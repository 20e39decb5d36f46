import SecurityAudit.Text.Blank

/-!
# Evidence

What a finding shows of the text that it is about.  A match is shown on one line, with single spaces
and within 160 characters; a secret is shown by its ends only, and a short one not at all.
-/

namespace SecurityAudit.Detect

/-- A text with every run of blanks replaced by one space. -/
def singleSpaced : List Char → List Char
  | [] => []
  | c :: rest =>
    if Text.isBlank c then
      match rest with
      | [] => [' ']
      | d :: _ => if Text.isBlank d then singleSpaced rest else ' ' :: singleSpaced rest
    else c :: singleSpaced rest

/-- The most characters of an evidence. -/
def maxEvidence : Nat := 160

/-- The evidence of a match. -/
def evidence (cs : List Char) : List Char :=
  let line := Text.trimChars (singleSpaced cs)
  if maxEvidence < line.length then line.take (maxEvidence - 3) ++ ['.', '.', '.'] else line

/-- The number of characters that are shown at either end of a secret. -/
def shownEnds : Nat := 4

/-- A secret with its middle masked, or all of it if there is no middle. -/
def masked (cs : List Char) : List Char :=
  if cs.length ≤ 2 * shownEnds then List.replicate cs.length '*'
  else
    cs.take shownEnds ++ List.replicate (cs.length - 2 * shownEnds) '*' ++
      cs.drop (cs.length - shownEnds)

end SecurityAudit.Detect
