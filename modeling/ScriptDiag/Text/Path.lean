import ScriptDiag.Text.Blank

/-!
# File paths as text

A path is a text whose components are separated by `/`. Empty components and `.` carry no
meaning of their own, except that a leading `.` names the directory itself.

`fileName?` is the last component when it names a file, and `fileExtension?` is what stands
after the last dot of that name. A name without a dot, or whose only dot is its first character, has
no extension. `baseName` splits at `\` too, and is used for module paths, which come from any
host.
-/

namespace ScriptDiag

/-- The components of `path`, without the empty ones and without `.`. -/
def pathComponents (path : String) : List String :=
  ((splitAll (· == '/') path.toList).filter fun piece => piece != [] && piece != ['.']).map
    String.ofList

/-- The last component of `path`, unless there is none or it is `..`. -/
def fileName? (path : String) : Option String :=
  match (pathComponents path).getLast? with
  | some ".." => none
  | last => last

/-- The text after the last dot of the file name, where the name has a dot past its start. -/
def fileExtension? (path : String) : Option String := do
  let name ← fileName? path
  let reversed := name.toList.reverse
  match reversed.dropWhile (· != '.') with
  | [] | [_] => none
  | _ => some (String.ofList (reversed.takeWhile (· != '.')).reverse)

/-- What follows the last `/` or `\` of `path`. -/
def baseName (path : String) : String :=
  String.ofList (path.toList.reverse.takeWhile fun c => c != '/' && c != '\\').reverse

end ScriptDiag
