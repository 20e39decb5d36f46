import SecurityAudit.Glob
import SecurityAudit.Path
import SecurityAudit.Refusal
import SecurityAudit.Text.Blank
import SecurityAudit.Value.Basic

/-!
# Exclusions

A file is excluded when a glob matches its path, or what is left of its path after some of the first
directories: a glob for the files of a directory is for those of a directory of that name anywhere.
-/

namespace SecurityAudit.Exclusion

/-- Some names joined by slashes, the same without the first name, and so on. -/
def endings : List String → List String
  | [] => []
  | name :: rest => Text.join "/" (name :: rest) :: endings rest

/-- A glob matches one of some endings.  A value that is no text matches nothing that it could be
tried on. -/
def fitsOne (ends : List String) (glob : Value) : Except Refusal Bool :=
  match glob with
  | .text g => .ok (ends.any (globMatches g))
  | _ => if ends.isEmpty then .ok false else .error .wrongKind

/-- One of some globs matches one of some endings; the first that does decides. -/
def anyFits (ends : List String) : List Value → Except Refusal Bool
  | [] => .ok false
  | glob :: rest => do
    if ← fitsOne ends glob then return true else anyFits ends rest

/-- Whether exclusions are for a path. -/
def covers (exclusions : Value) (path : String) : Except Refusal Bool :=
  match exclusions.elements? with
  | none => .error .wrongKind
  | some globs => anyFits (endings (Path.ofString path).parts) globs

end SecurityAudit.Exclusion
