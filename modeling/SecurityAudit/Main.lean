import Std.Time.DateTime.Timestamp
import SecurityAudit.Cli.Run
import SecurityAudit.Report.PlainText

/-!
# The program

The command line as a program: what a command needs of the system is read before it is run, and what
it leaves is written afterwards.  Only the files below the working directory are seen.
-/

namespace SecurityAudit.Main

/-- The variables that settings are taken from. -/
def variableNames : List String :=
  ["SEVERITY_THRESHOLD", "SCAN_TYPES", "EXCLUDE", "MAX_FINDINGS", "TIMEOUT", "FORMAT"].map
    ("VULNAUDIT_" ++ ·)

/-- The variables that are set. -/
def readEnvironment : IO Settings.Environment :=
  variableNames.filterMapM fun name => do
    return (← IO.getEnv name).map fun value => (name, value)

/-- The moment at which the program runs. -/
def readClock : IO Calendar.Moment := do
  let sinceEpoch := (← Std.Time.Timestamp.now).toNanosecondsSinceUnixEpoch.val / 1000
  let epoch := Calendar.Moment.ofDate { year := 1970, month := 1, day := 1 } 0 (some 0)
  return { epoch with wall := epoch.wall + sinceEpoch }

/-- An id for a report. -/
def newId : IO String := do
  let bytes := (← IO.getRandomBytes 6).toList
  let digits := bytes.flatMap fun b => [b.toNat / 16, b.toNat % 16]
  return "AUDIT-" ++ String.ofList (digits.map Nat.digitChar)

/-- The target of a link that leads nowhere: no file has this name. -/
def nowhere : String := "\x00"

/-- Read an entry of a directory with all that is below it.  Of what may not be read it is known
only that it is there. -/
partial def readEntry (e : IO.FS.DirEntry) : IO (String × Entry) := do
  let entry ← match (← e.path.symlinkMetadata).type with
    | .dir =>
      try
        pure (.directory (← (← e.path.readDir).toList.mapM readEntry))
      catch _ => pure (.directory [] { read := false, pass := false })
    | .symlink =>
      try
        pure (.link (← IO.FS.realPath e.path).toString)
      catch _ => pure (.link nowhere)
    | .file =>
      try
        pure (.file (← IO.FS.readBinFile e.path).toList)
      catch _ => pure (.file [] { read := false, write := false })
    | .other => pure (.special (.error .noDevice))
  return (e.fileName, entry)

/-- The files below the working directory, and the directories above it. -/
def readFiles : IO Tree := do
  let here ← IO.currentDir
  let names := (Path.ofString here.toString).names
  let entries ← (← here.readDir).toList.mapM readEntry
  let root := names.foldr (fun name below => .directory [(name, below)]) (.directory entries)
  return { root, here := names }

/-- Show and write what a command leaves.  When there is a text for other programs, what is shown
goes to the other stream. -/
def finish (e : Cli.Ending) : IO Unit := do
  let say := if e.output.isEmpty then IO.println else IO.eprintln
  for line in e.printed.flatMap Printed.plainLines do
    say line
  IO.print e.output
  if let some (path, text) := e.written then
    IO.FS.writeFile path.text text

end SecurityAudit.Main

/-- Run the command that the words on the command line name. -/
def main (words : List String) : IO UInt32 := do
  let w : SecurityAudit.Cli.Workplace := {
    tree := ← SecurityAudit.Main.readFiles
    environment := ← SecurityAudit.Main.readEnvironment
    now := ← SecurityAudit.Main.readClock
    occasion := { id := ← SecurityAudit.Main.newId } }
  let result := SecurityAudit.Cli.run w words
  match result with
  | .ok e => SecurityAudit.Main.finish e
  | .error r => IO.eprintln ("error: " ++ r.name)
  return (SecurityAudit.Cli.exitStatus (fun _ => true) result).toUInt32
