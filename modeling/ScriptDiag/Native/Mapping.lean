import ScriptDiag.Cell
import ScriptDiag.Text.Blank
import ScriptDiag.Text.Number

/-!
# Memory map listings

A listing has one mapping a line: the address range in hexadecimal, the permissions, three fields
of no concern here, and the path, all separated by blanks. `Mapping.parseListing` skips lines of
any other shape.
-/

namespace ScriptDiag

/-- A mapped address range, with its permissions and the file or pseudo file behind it. -/
structure Mapping where
  start : Address
  stop : Address
  perms : List Char
  path : Option String
deriving DecidableEq, Repr, Inhabited

namespace Mapping

def address? (cs : List Char) : Option Address :=
  (readUnsigned? 16 UInt64.size cs).map UInt64.ofNat

/-- The two ends of a range, which are separated by the first hyphen. -/
def range? (cs : List Char) : Option (Address × Address) :=
  match cs.dropWhile (· != '-') with
  | [] => none
  | _ :: stop => do
    let start ← address? (cs.takeWhile (· != '-'))
    let stop ← address? stop
    return (start, stop)

/-- The mapping that a line describes. -/
def parseLine? (line : List Char) : Option Mapping :=
  match words line with
  | range :: perms :: rest => do
    let (start, stop) ← range? range
    return { start, stop, perms, path := (rest[3]?).map String.ofList }
  | _ => none

def parseListing (text : String) : List Mapping :=
  (lines text.toList).filterMap parseLine?

def isExecutable (m : Mapping) : Bool :=
  m.perms.contains 'x'

end Mapping

end ScriptDiag
