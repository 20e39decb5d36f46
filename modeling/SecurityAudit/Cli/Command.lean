import SecurityAudit.Cli.Switches
import SecurityAudit.Text.Numeral

/-!
# Commands

The commands of the program and their options.  A command line that is none of them is refused as a
whole.
-/

namespace SecurityAudit.Cli

/-- The options of a scan. -/
structure ScanOptions where
  path : String := "."
  policies : List String := []
  config : Option String := none
  format : Option String := none
  output : Option String := none
  severity : Option String := none
  failOn : Option String := none
  scanTypes : List String := []
  exclusions : List String := []
  maxFindings : Option Int := none
  timeout : Option Float := none
  verbose : Bool := false
  debug : Bool := false
  deriving Inhabited

/-- A command. -/
inductive Command where
  | scan (o : ScanOptions)
  | rules (path : String) (config : Option String)
  | init (path : String)
  | version
  | help
  deriving Inhabited

namespace Command

/-- The switch that asks for help. -/
def helpSwitch : Switch :=
  { key := "help", long := "--help", takesValue := false }

/-- The switch that names the file with the settings. -/
def configSwitch : Switch :=
  { key := "config", long := "--config", short := some 'c' }

/-- The switches of a scan. -/
def scanSwitches : List Switch := [
  { key := "policy", long := "--policy", short := some 'p' },
  configSwitch,
  { key := "format", long := "--format", short := some 'f' },
  { key := "output", long := "--output", short := some 'o' },
  { key := "severity", long := "--severity", short := some 's' },
  { key := "fail-on", long := "--fail-on" },
  { key := "scan-type", long := "--scan-type", short := some 't' },
  { key := "exclude", long := "--exclude", short := some 'e' },
  { key := "max-findings", long := "--max-findings" },
  { key := "timeout", long := "--timeout" },
  { key := "verbose", long := "--verbose", short := some 'v', takesValue := false },
  { key := "debug", long := "--debug", takesValue := false },
  helpSwitch]

/-- The switches before a command. -/
def generalSwitches : List Switch := [
  { key := "version", long := "--version", short := some 'V', takesValue := false },
  helpSwitch]

/-- The only operand, or what holds without one. -/
def onlyOperand? (operands : List String) : Option String :=
  match operands with
  | [] => some "."
  | [path] => some path
  | _ => none

/-- A value that may be left out, but has to be read if it is there. -/
def readIfGiven {α : Type} (read : String → Option α) : Option String → Option (Option α)
  | none => some none
  | some value => (read value).map some

/-- The options of a scan. -/
def scanOptions? (g : Given) : Option ScanOptions := do
  let path ← onlyOperand? g.operands
  let maxFindings ← readIfGiven Text.parseInt? (g.last? "max-findings")
  let timeout ← readIfGiven Text.parseFloat? (g.last? "timeout")
  return {
    path
    policies := g.all "policy"
    config := g.last? "config"
    format := g.last? "format"
    output := g.last? "output"
    severity := g.last? "severity"
    failOn := g.last? "fail-on"
    scanTypes := g.all "scan-type"
    exclusions := g.all "exclude"
    maxFindings
    timeout
    verbose := g.has "verbose"
    debug := g.has "debug" }

/-- Read the line of a command; if help is asked for, nothing else counts. -/
def ofLine? (switches : List Switch) (make : Given → Option Command) (words : List String) :
    Option Command := do
  let g ← readLine switches words
  if g.has "help" then return .help else make g

/-- Read a command by its name. -/
def ofName? (name : String) (words : List String) : Option Command :=
  match name with
  | "scan" => ofLine? scanSwitches (fun g => (scanOptions? g).map .scan) words
  | "rules" =>
    ofLine? [configSwitch, helpSwitch]
      (fun g => (onlyOperand? g.operands).map fun path => .rules path (g.last? "config")) words
  | "init" =>
    ofLine? [helpSwitch] (fun g => (onlyOperand? g.operands).map .init) words
  | _ => none

/-- What the switches in front of a command ask for; the first counts. -/
def ofGeneral? (g : Given) : Option Command :=
  match g.values with
  | ("version", _) :: _ => some .version
  | ("help", _) :: _ => some .help
  | _ => none

/-- Read a command line; an empty one asks for help. -/
def ofWords? (words : List String) : Option Command :=
  if words.isEmpty then some .help
  else do
    let front := words.takeWhile fun w => isSwitch w && w != "--"
    let g ← readLine generalSwitches front
    match ofGeneral? g with
    | some c => return c
    | none =>
      let rest := words.drop front.length
      match if rest.head? == some "--" then rest.drop 1 else rest with
      | [] => none
      | name :: words => ofName? name words

end Command

end SecurityAudit.Cli
