/-!
# Switches

How the words of a command line are taken apart.  A long switch begins with two hyphens and may have
its value behind an equals sign; short switches have one letter each and can be put together behind
one hyphen, where the rest after a switch that takes a value is that value.  A switch that has no
value yet takes the next word, whatever it looks like.  All other words are operands, and so is
everything after two hyphens alone.
-/

namespace SecurityAudit.Cli

/-- A switch: what it stands for, how it is written, and whether it takes a value. -/
structure Switch where
  key : String
  long : String
  short : Option Char := none
  takesValue : Bool := true
  deriving Repr, DecidableEq, Inhabited

/-- What is given on a command line: switches with their values, which are empty for those that take
none, and operands. -/
structure Given where
  values : List (String × String) := []
  operands : List String := []
  deriving Repr, DecidableEq, Inhabited

namespace Given

/-- A switch is given. -/
def has (g : Given) (key : String) : Bool :=
  g.values.any (·.1 == key)

/-- All values of a switch. -/
def all (g : Given) (key : String) : List String :=
  (g.values.filter (·.1 == key)).map Prod.snd

/-- The last value of a switch. -/
def last? (g : Given) (key : String) : Option String :=
  (g.all key).getLast?

/-- More switches in front. -/
def withValues (g : Given) (values : List (String × String)) : Given :=
  { g with values := values ++ g.values }

/-- One more operand in front. -/
def withOperand (g : Given) (operand : String) : Given :=
  { g with operands := operand :: g.operands }

end Given

/-- What a word says: switches with their values, and a switch that takes the next word. -/
structure Word where
  values : List (String × String) := []
  pending : Option String := none
  deriving Repr, DecidableEq, Inhabited

/-- A word that begins with a hyphen and is more than that. -/
def isSwitch (word : String) : Bool :=
  match word.toList with
  | '-' :: _ :: _ => true
  | _ => false

/-- Read short switches behind their hyphen. -/
def readShort (switches : List Switch) : List Char → Option Word
  | [] => some {}
  | c :: rest =>
    match switches.find? (·.short == some c) with
    | none => none
    | some s =>
      if s.takesValue then
        if rest.isEmpty then some { pending := some s.key }
        else some { values := [(s.key, String.ofList rest)] }
      else
        (readShort switches rest).map fun w => { w with values := (s.key, "") :: w.values }

/-- The name of a long switch, and its value if it has an equals sign. -/
def splitLong (cs : List Char) : List Char × Option (List Char) :=
  let name := cs.takeWhile (· != '=')
  match cs.drop name.length with
  | [] => (name, none)
  | _ :: value => (name, some value)

/-- Read a long switch. -/
def readLong (s : Switch) (value : Option (List Char)) : Option Word :=
  match s.takesValue, value with
  | true, some value => some { values := [(s.key, String.ofList value)] }
  | true, none => some { pending := some s.key }
  | false, some _ => none
  | false, none => some { values := [(s.key, "")] }

/-- Read a word that begins with a hyphen. -/
def readWord (switches : List Switch) (word : String) : Option Word :=
  let (name, value) := splitLong word.toList
  match switches.find? fun s => s.long.toList == name with
  | some s => readLong s value
  | none =>
    match word.toList with
    | '-' :: '-' :: _ => none
    | _ :: rest => readShort switches rest
    | [] => none

/-- Read a command line, if all its switches are known and have their values. -/
def readLine (switches : List Switch) (words : List String) : Option Given :=
  match words with
  | [] => some {}
  | word :: rest =>
    if word == "--" then some { operands := rest }
    else if isSwitch word then
      match readWord switches word with
      | none => none
      | some ⟨values, none⟩ => (readLine switches rest).map (·.withValues values)
      | some ⟨values, some key⟩ =>
        match rest with
        | [] => none
        | value :: rest => (readLine switches rest).map (·.withValues (values ++ [(key, value)]))
    else (readLine switches rest).map (·.withOperand word)

end SecurityAudit.Cli
