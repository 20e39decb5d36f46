import SecurityAudit.Yaml.Token

/-!
# YAML nodes

The tokens of a document make up one node: a scalar, a sequence or a mapping.  An anchor names a
node, and an alias repeats the node of that name; no name may be given twice.

A place where a node is due but none is written holds the empty plain scalar.
-/

namespace SecurityAudit.Yaml

/-- A node of a document. -/
inductive Node where
  | scalar (tag : Option String) (text : RawText) (plain : Bool)
  | sequence (tag : Option String) (items : List Node)
  | mapping (tag : Option String) (entries : List (Node × Node))
  deriving Inhabited

/-- The node that is not written. -/
def Node.empty : Node :=
  .scalar none (.sound "") true

/-- The tokens that are left, the fault that ends them, the names that have been given, and the
nodes that have them. -/
structure Feed where
  tokens : List Token
  fault : Fault Problem
  names : List String
  anchors : List (String × Node)

namespace Feed

/-- The next token; the fault that ends the tokens if there is none. -/
def peek (f : Feed) : Outcome Token :=
  match f.tokens with
  | t :: _ => .ok t
  | [] => .error f.fault

/-- What is left after the next token. -/
def rest (f : Feed) : Feed :=
  { f with tokens := f.tokens.tail }

/-- Give a name, which must be new, to a node that is yet to come. -/
def naming (f : Feed) (anchor : Option String) : Outcome Feed :=
  match anchor with
  | none => .ok f
  | some name =>
    if f.names.contains name then malformed else .ok { f with names := name :: f.names }

/-- Let a name stand for a node. -/
def named (f : Feed) (anchor : Option String) (n : Node) : Feed :=
  match anchor with
  | none => f
  | some name => { f with anchors := (name, n) :: f.anchors }

/-- A name that is not given yet, and the tag, in either order. -/
def takeProperties (f : Feed) : Outcome ((Option String × Option String) × Feed) := do
  match ← f.peek with
  | .anchor name =>
    match ← f.rest.peek with
    | .tag t => return ((some name, some t), f.rest.rest)
    | _ => return ((some name, none), f.rest)
  | .tag t =>
    match ← f.rest.peek with
    | .anchor name => return ((some name, some t), f.rest.rest)
    | _ => return ((none, some t), f.rest)
  | _ => return ((none, none), f)

/-- Where a node stands: between brackets, in a block, or in a block in which a sequence needs no
indentation. -/
inductive Context where
  | flow
  | block
  | indentless
  deriving DecidableEq

mutual

/-- Take a node; `fuel` bounds the number of steps. -/
def takeNode : (fuel : Nat) → Context → Feed → Outcome (Node × Feed)
  | 0, _, _ => malformed
  | fuel + 1, context, f => do
    match ← f.peek with
    | .alias_ name =>
      match f.anchors.lookup name with
      | some n => return (n, f.rest)
      | none => malformed
    | _ =>
      let ((anchor, tag), f) ← f.takeProperties
      let (n, f) ← takeContent fuel context anchor.isSome tag (← f.naming anchor)
      return (n, f.named anchor n)

/-- Take what follows the name and the tag of a node. -/
def takeContent : (fuel : Nat) → Context → (named : Bool) → (tag : Option String) → Feed →
    Outcome (Node × Feed)
  | 0, _, _, _, _ => malformed
  | fuel + 1, context, named, tag, f => do
    match ← f.peek with
    | .scalar text plain => return (.scalar tag text plain, f.rest)
    | .flowSequence => takeFlowItems fuel tag true [] f.rest
    | .flowMapping => takeFlowEntries fuel tag true [] f.rest
    | t =>
      if t == .blockEntry && context == .indentless then takeItems fuel false tag [] f
      else if t == .blockSequence && context != .flow then takeItems fuel true tag [] f.rest
      else if t == .blockMapping && context != .flow then takeEntries fuel tag [] f.rest
      else if named || tag.isSome then return (.scalar tag (.sound "") true, f)
      else malformed

/-- Take a node unless one of some tokens comes next. -/
def takeUnless : (fuel : Nat) → Context → (closing : List Token) → Feed → Outcome (Node × Feed)
  | 0, _, _, _ => malformed
  | fuel + 1, context, closing, f => do
    if closing.contains (← f.peek) then return (.empty, f) else takeNode fuel context f

/-- Take the items of a block sequence after those in `done`, which holds the last of them
first.  One that is not indented ends without a token of its own. -/
def takeItems : (fuel : Nat) → (indented : Bool) → (tag : Option String) → (done : List Node) →
    Feed → Outcome (Node × Feed)
  | 0, _, _, _, _ => malformed
  | fuel + 1, indented, tag, done, f => do
    match ← f.peek with
    | .blockEntry =>
      let closing : List Token :=
        if indented then [.blockEntry, .blockEnd] else [.blockEntry, .key, .value, .blockEnd]
      let (n, f) ← takeUnless fuel .block closing f.rest
      takeItems fuel indented tag (n :: done) f
    | t =>
      if !indented then return (.sequence tag done.reverse, f)
      else if t == .blockEnd then return (.sequence tag done.reverse, f.rest)
      else malformed

/-- Take the entries of a block mapping after those in `done`. -/
def takeEntries : (fuel : Nat) → (tag : Option String) → (done : List (Node × Node)) → Feed →
    Outcome (Node × Feed)
  | 0, _, _, _ => malformed
  | fuel + 1, tag, done, f => do
    let closing : List Token := [.key, .value, .blockEnd]
    match ← f.peek with
    | .blockEnd => return (.mapping tag done.reverse, f.rest)
    | .key =>
      let (k, f) ← takeUnless fuel .indentless closing f.rest
      match ← f.peek with
      | .value =>
        let (v, f) ← takeUnless fuel .indentless closing f.rest
        takeEntries fuel tag ((k, v) :: done) f
      | _ => takeEntries fuel tag ((k, .empty) :: done) f
    | _ => malformed

/-- Take the items of a flow sequence after those in `done`.  A single entry of a mapping may
stand for the mapping. -/
def takeFlowItems : (fuel : Nat) → (tag : Option String) → (first : Bool) →
    (done : List Node) → Feed → Outcome (Node × Feed)
  | 0, _, _, _, _ => malformed
  | fuel + 1, tag, first, done, f => do
    let ended (f : Feed) : Outcome (Node × Feed) := return (.sequence tag done.reverse, f.rest)
    let t ← f.peek
    if t == .flowSequenceEnd then ended f
    else if !first && t != .flowEntry then malformed
    else
      let f := if first then f else f.rest
      match ← f.peek with
      | .flowSequenceEnd => ended f
      | .key =>
        let (k, f) ← takeUnless fuel .flow [.value, .flowEntry, .flowSequenceEnd] f.rest
        match ← f.peek with
        | .value =>
          let (v, f) ← takeUnless fuel .flow [.flowEntry, .flowSequenceEnd] f.rest
          takeFlowItems fuel tag false (.mapping none [(k, v)] :: done) f
        | _ => takeFlowItems fuel tag false (.mapping none [(k, .empty)] :: done) f
      | _ =>
        let (n, f) ← takeNode fuel .flow f
        takeFlowItems fuel tag false (n :: done) f

/-- Take the entries of a flow mapping after those in `done`. -/
def takeFlowEntries : (fuel : Nat) → (tag : Option String) → (first : Bool) →
    (done : List (Node × Node)) → Feed → Outcome (Node × Feed)
  | 0, _, _, _, _ => malformed
  | fuel + 1, tag, first, done, f => do
    let ended (f : Feed) : Outcome (Node × Feed) := return (.mapping tag done.reverse, f.rest)
    let t ← f.peek
    if t == .flowMappingEnd then ended f
    else if !first && t != .flowEntry then malformed
    else
      let f := if first then f else f.rest
      match ← f.peek with
      | .flowMappingEnd => ended f
      | .key =>
        let (k, f) ← takeUnless fuel .flow [.value, .flowEntry, .flowMappingEnd] f.rest
        match ← f.peek with
        | .value =>
          let (v, f) ← takeUnless fuel .flow [.flowEntry, .flowMappingEnd] f.rest
          takeFlowEntries fuel tag false ((k, v) :: done) f
        | _ => takeFlowEntries fuel tag false ((k, .empty) :: done) f
      | _ =>
        let (k, f) ← takeNode fuel .flow f
        takeFlowEntries fuel tag false ((k, .empty) :: done) f

end

/-- Leave out marks at the end of documents. -/
def dropEnds (f : Feed) : Feed :=
  { f with tokens := f.tokens.dropWhile (· == .documentEnd) }

/-- Take the directives before a document: one version at most, and of the first major version. -/
def takeDirectives : (fuel : Nat) → (version : Bool) → Feed → Outcome (Unit × Feed)
  | 0, _, _ => malformed
  | fuel + 1, version, f => do
    match ← f.peek with
    | .version major => if version || major != 1 then malformed else takeDirectives fuel true f.rest
    | .directive => takeDirectives fuel version f.rest
    | _ => return ((), f)

/-- Take a document that begins with its mark. -/
def takeMarked (fuel : Nat) (f : Feed) : Outcome (Node × Feed) := do
  let ((), f) ← takeDirectives fuel false f
  if (← f.peek) != .documentStart then malformed
  else
    let f := f.rest
    match ← f.peek with
    | .version _ | .directive | .documentStart | .documentEnd | .streamEnd => return (.empty, f)
    | _ => takeNode fuel .block f

/-- Nothing but marks at the end of documents is left. -/
def isFinished (f : Feed) : Outcome Bool := do
  return (← f.dropEnds.peek) == .streamEnd

/-- Take the only document of a text, if there is one. -/
def takeOnly (f : Feed) : Outcome (Option Node) := do
  let fuel := 4 * f.tokens.length + 8
  let first ← f.peek
  if first == .streamEnd then return none
  else
    let marked := first == .documentStart || first == .directive ||
      (match first with | .version _ => true | _ => false)
    let (n, f) ← if marked then takeMarked fuel f else takeNode fuel .block f
    if ← f.isFinished then return some n else malformed

end Feed

/-- The node of a text, if it holds a document. -/
def Node.ofText? (text : List Char) : Outcome (Option Node) :=
  let (tokens, fault) := tokensOf text
  Feed.takeOnly ⟨tokens, fault.getD (.problem .malformed), [], []⟩

end SecurityAudit.Yaml
