import ScriptDiag.Text.Path
import ScriptDiag.Text.Utf8

/-!
# Files in a working directory

A `FileTable` lists the files below a working directory by their path from there. A directory
exists exactly if a file lies below it. `FileTable.read` opens a path the way a Unix system does:
component by component, each of which must be a directory except the last.
-/

namespace ScriptDiag

/-- Why a file cannot be read. -/
inductive FileError where
  | notFound
  | notADirectory
  | isADirectory
  | invalidText
deriving DecidableEq, Repr, Inhabited

def FileError.message : FileError → String
  | notFound => "No such file or directory (os error 2)"
  | notADirectory => "Not a directory (os error 20)"
  | isADirectory => "Is a directory (os error 21)"
  | invalidText => "stream did not contain valid UTF-8"

/-- A file with the components of its path. -/
structure StoredFile where
  path : List String
  content : Bytes
deriving DecidableEq, Repr, Inhabited

/-- The files below a working directory. -/
abbrev FileTable := List StoredFile

namespace FileTable

/-- What a path leads to. -/
inductive Node where
  /-- A directory at or below the working directory. -/
  | directory (path : List String)
  /-- The directory so many levels above the working directory. -/
  | ancestor (levels : Nat)
  | file (content : Bytes)
deriving DecidableEq, Repr, Inhabited

/-- The node that `name` leads to from a directory, `..` leading to the parent. Nothing is known
about directories above the working directory, except their parents. -/
def enter (t : FileTable) (node : Node) (name : String) : Except FileError Node :=
  match node with
  | .file _ => .error .notADirectory
  | .ancestor levels => if name = ".." then .ok (.ancestor (levels + 1)) else .error .notFound
  | .directory path =>
    if name = ".." then
      .ok (if path.isEmpty then .ancestor 1 else .directory path.dropLast)
    else
      let inner := path ++ [name]
      match t.find? fun f => f.path == inner with
      | some f => .ok (.file f.content)
      | none =>
        if t.any fun f => inner.isPrefixOf f.path then .ok (.directory inner)
        else .error .notFound

/-- Whether a path can only name a directory, because of how it ends. -/
def endsAsDirectory (path : String) : Bool :=
  match (splitAll (· == '/') path.toList).getLast? with
  | some [] | some ['.'] => true
  | _ => false

/-- Where a path starts: at the root of the system, which lies above the working directory, or at
the working directory. -/
def startOf (path : String) : Node :=
  if path.startsWith "/" then .ancestor 1 else .directory []

/-- The content of the file at `path`. -/
def read (t : FileTable) (path : String) : Except FileError Bytes := do
  if path.isEmpty then
    throw .notFound
  match ← (pathComponents path).foldlM t.enter (startOf path) with
  | .file content => if endsAsDirectory path then throw .notADirectory else return content
  | _ => throw .isADirectory

/-- The content of the file at `path` as text. -/
def readText (t : FileTable) (path : String) : Except FileError String := do
  match ofUtf8? (← t.read path) with
  | some s => return s
  | none => throw .invalidText

end FileTable

end ScriptDiag
