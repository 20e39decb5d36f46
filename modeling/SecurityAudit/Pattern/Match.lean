import SecurityAudit.Pattern.Basic

/-!
# Matching

A pattern is tried at one place of a text.  `Node.run` hands every way to match, best first, to
what follows, and stops at the first way that what follows accepts.  So the ways of a sequence are
tried in the order of its first part, and a repetition prefers more or fewer times as its greed
says.

A repetition may match the empty text, but once it has been through its least number of times, it
is not entered again at the place where it was entered last.  That keeps every run finite, and the
number of times below the length of the text, so a count of that size is fuel enough.
-/

namespace SecurityAudit.Pattern

/-- A place in a text: the characters before it (nearest first), those after it, its distance from
the start, and what the groups remember (latest first), each from one place to another. -/
structure State where
  before : List Char
  after : List Char
  pos : Nat
  groups : List (Nat × (Nat × Nat))
  deriving Repr, DecidableEq, Inhabited

namespace State

/-- The start of a text. -/
def start (text : List Char) : State :=
  ⟨[], text, 0, []⟩

/-- The place after one character. -/
def forward (s : State) (c : Char) (rest : List Char) : State :=
  { s with before := c :: s.before, after := rest, pos := s.pos + 1 }

/-- The place some characters back, if there are so many. -/
def back? (s : State) : Nat → Option State
  | 0 => some s
  | n + 1 =>
    match s.before with
    | [] => none
    | c :: before => back? { s with before := before, after := c :: s.after, pos := s.pos - 1 } n

/-- Remember the text between two places under a number. -/
def remember (s : State) (index first : Nat) : State :=
  { s with groups := (index, (first, s.pos)) :: s.groups }

/-- Where the text remembered under a number begins and ends. -/
def group? (s : State) (index : Nat) : Option (Nat × Nat) :=
  s.groups.lookup index

/-- The place after a given text, if it comes next. -/
def after? (mode : CaseMode) (s : State) : List Char → Option State
  | [] => some s
  | c :: cs =>
    match s.after with
    | [] => none
    | d :: rest =>
      if (Member.range c.toNat c.toNat).covers mode d then after? mode (s.forward d rest) cs
      else none

end State

/-- The characters between two places of a text. -/
def slice (text : List Char) (first last : Nat) : List Char :=
  (text.drop first).take (last - first)

/-- The condition holds at a place. -/
def Anchor.holds (a : Anchor) (s : State) : Bool :=
  let edge (ascii : Bool) : Bool :=
    let isWord (cs : List Char) : Bool :=
      match cs with
      | [] => false
      | c :: _ => CharClass.word.contains ascii c
    isWord s.before != isWord s.after
  let empty := s.before.isEmpty && s.after.isEmpty
  match a with
  | .start => s.before.isEmpty
  | .lineStart => s.before.head?.all (· == '\n')
  | .finish => s.after.isEmpty || s.after == ['\n']
  | .lineEnd => s.after.head?.all (· == '\n')
  | .veryEnd => s.after.isEmpty
  | .wordEdge ascii => !empty && edge ascii
  | .noWordEdge ascii => !empty && !edge ascii

/-- A way to go on: from a place, hand the places reached, best first, to what follows. -/
abbrev Step := State → (State → Option State) → Option State

/-- Whether a repetition that has been through `count` times may go on. -/
def mayRepeat (max : Option Nat) (count : Nat) : Bool :=
  match max with
  | none => true
  | some m => count < m

/-- Repeat as often as possible.  `last` is the place where the repetition was entered last, once
it has been through its least number of times. -/
def greedy (body : Step) (min : Nat) (max : Option Nat) :
    (fuel count : Nat) → (last : Option Nat) → Step
  | 0, _, _ => fun _ _ => none
  | fuel + 1, count, last => fun s k =>
    if count < min then body s fun t => greedy body min max fuel (count + 1) last t k
    else if mayRepeat max count && last != some s.pos then
      match body s fun t => greedy body min max fuel (count + 1) (some s.pos) t k with
      | some t => some t
      | none => k s
    else k s

/-- Repeat as rarely as possible. -/
def lazy (body : Step) (min : Nat) (max : Option Nat) :
    (fuel count : Nat) → (last : Option Nat) → Step
  | 0, _, _ => fun _ _ => none
  | fuel + 1, count, last => fun s k =>
    if count < min then body s fun t => lazy body min max fuel (count + 1) last t k
    else
      match k s with
      | some t => some t
      | none =>
        if mayRepeat max count && last != some s.pos then
          body s fun t => lazy body min max fuel (count + 1) (some s.pos) t k
        else none

/-- Repeat as often as possible, each time in the best way, and never go back. -/
def possessive (body : Step) (min : Nat) (max : Option Nat) :
    (fuel count : Nat) → (last : Option Nat) → State → Option State
  | 0, _, _, _ => none
  | fuel + 1, count, last, s =>
    if count < min then
      match body s some with
      | some t => possessive body min max fuel (count + 1) last t
      | none => none
    else if mayRepeat max count && last != some s.pos then
      match body s some with
      | some t => possessive body min max fuel (count + 1) (some s.pos) t
      | none => some s
    else some s

/-- Match a pattern at a place of `text`, whose length is `size`. -/
def Node.run (text : List Char) (size : Nat) : Node → Step
  | .empty => fun s k => k s
  | .char set => fun s k =>
    match s.after with
    | [] => none
    | c :: rest => if set.contains c then k (s.forward c rest) else none
  | .seq a b => fun s k => a.run text size s fun t => b.run text size t k
  | .alt a b => fun s k =>
    match a.run text size s k with
    | some t => some t
    | none => b.run text size s k
  | .group i a => fun s k => a.run text size s fun t => k (t.remember i s.pos)
  | .backref i mode => fun s k =>
    match s.group? i with
    | none => none
    | some (first, last) =>
      match State.after? mode s (slice text first last) with
      | none => none
      | some t => k t
  | .rep .greedy min max a => greedy (a.run text size) min max (min + size + 3) 0 none
  | .rep .lazy min max a => lazy (a.run text size) min max (min + size + 3) 0 none
  | .rep .possessive min max a => fun s k =>
    match possessive (a.run text size) min max (min + size + 3) 0 none s with
    | none => none
    | some t => k t
  | .ahead negated a => fun s k =>
    match a.run text size s some with
    | none => if negated then k s else none
    | some t => if negated then none else k { s with groups := t.groups }
  | .behind negated width a => fun s k =>
    match (s.back? width).bind fun t => a.run text size t some with
    | none => if negated then k s else none
    | some t => if negated then none else k { s with groups := t.groups }
  | .anchor a => fun s k => if a.holds s then k s else none
  | .ifGroup i a b => fun s k =>
    if (s.group? i).isSome then a.run text size s k else b.run text size s k
  | .atomic a => fun s k =>
    match a.run text size s some with
    | none => none
    | some t => k t

end SecurityAudit.Pattern
