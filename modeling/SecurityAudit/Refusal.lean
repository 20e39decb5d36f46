/-!
# Refusals

Documents are taken as they come, so an operation may meet a value that it cannot work with.  It
then refuses, and says in which way the value is unfit.
-/

namespace SecurityAudit

/-- Why an operation refuses a value. -/
inductive Refusal where
  /-- The value is of a kind that the operation does not take. -/
  | wrongKind
  /-- The kind is right and the value is not. -/
  | badValue
  /-- The value does not offer what the operation asks of it. -/
  | noOperation
  /-- The number is out of range. -/
  | tooLarge
  /-- The bytes are no text in the encoding. -/
  | undecodable
  /-- The text has no form in the encoding. -/
  | unencodable
  /-- Nothing goes by the value. -/
  | missingKey
  /-- There is no such file. -/
  | missingFile
  /-- The path leads to a directory where a file is needed. -/
  | isDirectory
  /-- The path leads through a file where a directory is needed. -/
  | notDirectory
  /-- The path leads from one symbolic link to the next, and so on. -/
  | tooManyLinks
  /-- The file or directory may not be used in this way. -/
  | notPermitted
  /-- The path, or a name in it, is too long. -/
  | nameTooLong
  /-- Nothing is behind the entry to which the path leads. -/
  | noDevice
  /-- The value cannot be shown in a table. -/
  | notRenderable
  deriving Repr, DecidableEq, Inhabited

/-- The name of a refusal in messages. -/
def Refusal.name : Refusal → String
  | .wrongKind => "TypeError"
  | .badValue => "ValueError"
  | .noOperation => "AttributeError"
  | .tooLarge => "OverflowError"
  | .undecodable => "UnicodeDecodeError"
  | .unencodable => "UnicodeEncodeError"
  | .missingKey => "KeyError"
  | .missingFile => "FileNotFoundError"
  | .isDirectory => "IsADirectoryError"
  | .notDirectory => "NotADirectoryError"
  | .tooManyLinks => "OSError"
  | .notPermitted => "PermissionError"
  | .nameTooLong => "OSError"
  | .noDevice => "OSError"
  | .notRenderable => "NotRenderableError"

/-- Why an operation fails: it refuses a value, or it meets a problem of its own field. -/
inductive Fault (problem : Type) where
  | refused (r : Refusal)
  | problem (p : problem)
  deriving Inhabited

namespace Fault

/-- The same fault, its problem seen as part of a larger field. -/
def map {α β : Type} (f : α → β) : Fault α → Fault β
  | .refused r => .refused r
  | .problem p => .problem (f p)

end Fault

/-- Refuse a value. -/
def refuse {π α : Type} (r : Refusal) : Except (Fault π) α :=
  .error (.refused r)

/-- Fail with a problem. -/
def fail {π α : Type} (p : π) : Except (Fault π) α :=
  .error (.problem p)

/-- The answer if there is one; otherwise the value is refused. -/
def orRefuse {π α : Type} (r : Refusal) : Option α → Except (Fault π) α
  | some a => .ok a
  | none => refuse r

/-- An answer or a refusal, as an answer or a fault. -/
def allowing {π α : Type} : Except Refusal α → Except (Fault π) α
  | .ok a => .ok a
  | .error r => refuse r

end SecurityAudit
