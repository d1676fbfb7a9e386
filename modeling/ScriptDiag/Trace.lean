import ScriptDiag.DebugTables
import ScriptDiag.Native.Symbol

/-!
# Stack traces

A trace lists the frames of a machine, innermost first: frames of the script, and in between them
the host functions it called.
-/

namespace ScriptDiag

/-- A frame of a composite stack. -/
inductive TraceFrame where
  /-- A script frame at a code address, with the function and the place in the source, where known.
  -/
  | script (address : UCell) (function : Option String) (location : Option SourceLocation)
  /-- A host function, with the name it is imported under and the host code it resolves to. -/
  | native (index : Cell) (name : Option String) (target : Option NativeSymbol)
deriving DecidableEq, Repr, Inhabited

/-- How a native is called whose index has no entry. -/
def unnamedNative (index : Cell) : String :=
  s!"<native #{index.toInt}>"

def TraceFrame.text : TraceFrame → String
  | .script address function location =>
    let place := match location with
      | some location => location.text
      | none => "0x" ++ hexAtLeast 8 address.toNat
    function.getD "<unknown>" ++ " (" ++ place ++ ")"
  | .native index name target =>
    let place := match target with
      | some target => target.text
      | none => "unresolved"
    name.getD (unnamedNative index) ++ " (native, " ++ place ++ ")"

/-- Frames, innermost first, and whether there are more than are listed. -/
structure StackTrace where
  frames : List TraceFrame := []
  truncated : Bool := false
deriving DecidableEq, Repr, Inhabited

namespace StackTrace

/-- One line a frame, and one more if frames were left out. -/
def lines (t : StackTrace) : List String :=
  let numbered := t.frames.zipIdx.map fun (frame, i) => s!"#{i} {frame.text}"
  if t.truncated then
    numbered ++ [s!"... (stack truncated after {t.frames.length} frames)"]
  else
    numbered

/-- The lines of a trace, each ended. -/
def text (t : StackTrace) : String :=
  String.join (t.lines.map fun line => line ++ "\n")

end StackTrace

end ScriptDiag
