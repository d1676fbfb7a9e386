import ScriptDiag.Settings.KeyValue
import ScriptDiag.Settings.Toml

/-!
# Settings from a file
-/

namespace ScriptDiag.Settings

/-- The settings in the file at `path`, whose extension tells the format of the document. -/
def load (files : FileTable) (path : String) : Except SettingsError Settings :=
  match files.readText path with
  | .error e => .error (.unreadable e)
  | .ok document =>
    if fileExtension? path = some "toml" then ofToml document else ofKeyValues document

end ScriptDiag.Settings
