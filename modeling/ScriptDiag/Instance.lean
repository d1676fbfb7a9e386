import ScriptDiag.CallStack
import ScriptDiag.DiagError
import ScriptDiag.Handler
import ScriptDiag.Report
import ScriptDiag.VmView

/-!
# Diagnosed instances

For each machine that a detector is attached to there is an `Instance`: the machine's identity, its
debug tables, the content of its slots before the detector's interceptors came in front, and the
calls in flight. It stays in use as long as an interceptor of it is called, which may be longer
than it stays registered.
-/

namespace ScriptDiag

/-- What a detector keeps about a machine. -/
structure Instance where
  handle : VmHandle
  path : Option String := none
  debug : DebugTables := {}
  previous : Slots := Slots.none
  calls : CallStack := []
deriving DecidableEq, Repr, Inhabited

namespace Instance

/-- The file name of the module, or the machine's handle if the module has no such name. -/
def name (i : Instance) : String :=
  (i.path.bind fileName?).getD i.handle.text

/-- The debug tables of the first of the given sources that gives any, and a warning for each source
before it. -/
def firstTables : List (String × Except DiagError DebugTables) → DebugTables × List LogLine
  | [] => (DebugTables.empty, [])
  | (_, .ok tables) :: _ => (tables, [])
  | (complaint, .error e) :: sources =>
    let (tables, warnings) := firstTables sources
    (tables, { level := .warn, message := complaint ++ e.message } :: warnings)

/-- The debug tables of a machine, with the warnings given on the way: those embedded in the
machine, else those in the module file, else none. -/
def loadDebug (files : FileTable) (vm : VmView) : DebugTables × List LogLine :=
  let embedded := vm.debugBlock.map fun block =>
    (vm.handle.text ++ ": ignoring embedded debug info: ", DebugTables.load block)
  let stored := vm.path.map fun path =>
    (vm.handle.text ++ ": no debug info from " ++ path ++ ": ", DebugTables.loadFile files path)
  firstTables (embedded.toList ++ stored.toList)

/-- The instance for a machine, with the warnings given while loading its debug tables. -/
def load (files : FileTable) (vm : VmView) (previous : Slots) : Instance × List LogLine :=
  let (debug, warnings) := loadDebug files vm
  ({ handle := vm.handle, path := vm.path, debug, previous }, warnings)

end Instance

end ScriptDiag
