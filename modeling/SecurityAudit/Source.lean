import SecurityAudit.Path
import SecurityAudit.Text.Blank
import SecurityAudit.Text.Case
import SecurityAudit.Text.Encoding
import SecurityAudit.Value.Text

/-!
# Source files

What is to be scanned comes as text, as bytes, or as something that is neither.  It becomes a source
file when it can be read as text: it must not hold a zero among its first 8000 units, and bytes have
to be valid in their encoding.
-/

namespace SecurityAudit

/-- What a file holds. -/
inductive Content where
  | text (cs : List Char)
  | bytes (bs : List UInt8)
  | other (v : Value)
  deriving Inhabited

/-- A file divided into lines, with the language that its name tells. -/
structure SourceFile where
  path : RawText
  lines : List (List Char)
  language : String
  deriving Repr, DecidableEq, Inhabited

namespace SourceFile

/-- Why a file cannot be scanned. -/
inductive Problem where
  | binary (path : String)
  | undecodable (path : String) (encoding : Text.Encoding)
  | unsupported (path kind : String)
  deriving Repr, DecidableEq, Inhabited

/-- The message of a problem. -/
def Problem.message : Problem → String
  | .binary path => path ++ ": binary content"
  | .undecodable path encoding => path ++ ": not valid " ++ encoding.name ++ " text"
  | .unsupported path kind => path ++ ": unsupported content type " ++ kind

/-- The languages by the endings of file names. -/
def languages : List (String × String) :=
  [(".py", "python"), (".js", "javascript"), (".jsx", "javascript"), (".mjs", "javascript"),
    (".ts", "typescript"), (".tsx", "typescript"), (".java", "java"), (".go", "go"),
    (".rb", "ruby"), (".php", "php"), (".cs", "csharp"), (".yaml", "yaml"), (".yml", "yaml"),
    (".json", "json"), (".tf", "terraform"), (".sh", "shell"), (".env", "dotenv")]

/-- The language of a file, as far as its name tells. -/
def languageOf (path : String) : String :=
  let p := Path.ofString path
  if ".env".toList.isPrefixOf p.name.toList then "dotenv"
  else (languages.lookup (Text.lower p.suffix)).getD "text"

/-- The number of units in which a zero is looked for. -/
def sniffed : Nat := 8000

/-- The text of a file. -/
def textOf (encoding : Text.Encoding) (path : String) : Content → Except Problem (List Char)
  | .text cs => if (cs.take sniffed).contains (Char.ofNat 0) then .error (.binary path) else .ok cs
  | .bytes bs =>
    if (bs.take sniffed).contains 0 then .error (.binary path)
    else
      match encoding.decode? bs with
      | some cs => .ok cs
      | none => .error (.undecodable path encoding)
  | .other v => .error (.unsupported path v.kindName)

/-- Read a file. -/
def read (encoding : Text.Encoding) (path : String) (content : Content) :
    Except Problem SourceFile :=
  (textOf encoding path content).map fun cs =>
    { path, lines := Text.lines cs, language := languageOf path }

/-- The lines with their numbers, from one on. -/
def numbered (f : SourceFile) : List (Nat × List Char) :=
  f.lines.zipIdx.map fun (line, i) => (i + 1, line)

end SourceFile

end SecurityAudit
