import ScriptDiag.DebugTables
import ScriptDiag.Settings

/-!
# Errors of attaching and loading
-/

namespace ScriptDiag

/-- Why diagnostics cannot be set up. -/
inductive DiagError where
  | alreadyAttached (handle : VmHandle)
  | notAttached (handle : VmHandle)
  | debugInfo (error : DecodeError)
  | unreadable (error : FileError)
  | settings (error : SettingsError)
deriving DecidableEq, Repr, Inhabited

def DiagError.message : DiagError → String
  | alreadyAttached handle => handle.text ++ " is already attached"
  | notAttached handle => handle.text ++ " is not attached"
  | debugInfo error => "Invalid debug information: " ++ error.message
  | unreadable error => "I/O error: " ++ error.message
  | settings error => error.message

namespace DebugTables

/-- The tables of an encoded block, with the error that loading gives. -/
def load (block : Bytes) : Except DiagError DebugTables :=
  (parse block).mapError .debugInfo

/-- The tables of the module file at `path`, which are empty if the module was compiled without
debug information. -/
def loadFile (files : FileTable) (path : String) : Except DiagError DebugTables := do
  let bytes ← (files.read path).mapError .unreadable
  (ofImage bytes).mapError .debugInfo

end DebugTables

end ScriptDiag
