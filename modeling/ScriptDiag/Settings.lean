import ScriptDiag.FileTable

/-!
# Settings

There are three settings, each with a default, and a bound: traces have at least one frame.
Settings come from documents of two formats, in `Settings.KeyValue` and `Settings.Toml`.
-/

namespace ScriptDiag

/-- The settings of a detector: whether to end the process after a runtime error, the most frames of
a trace, and the most jump stubs followed from an address. -/
structure Settings where
  dieOnError : Bool := false
  maxTraceDepth : Nat := 100
  maxTrampolineHops : Nat := 8
deriving DecidableEq, Repr, Inhabited

/-- The name of a setting. -/
inductive SettingKey where
  | dieOnError
  | maxTraceDepth
  | maxTrampolineHops
deriving DecidableEq, Repr, Inhabited

namespace SettingKey

def text : SettingKey → String
  | dieOnError => "die_on_error"
  | maxTraceDepth => "max_trace_depth"
  | maxTrampolineHops => "max_trampoline_hops"

/-- The setting that documents write as `cs`. -/
def ofChars? (cs : List Char) : Option SettingKey :=
  [dieOnError, maxTraceDepth, maxTrampolineHops].find? fun key => key.text.toList == cs

end SettingKey

/-- Why settings cannot be had from a document. -/
inductive SettingsError where
  /-- The file with the document cannot be read. -/
  | unreadable (error : FileError)
  /-- The document is not of its format, or not about settings. -/
  | malformed
  /-- A setting has a value that it cannot take. -/
  | invalidValue (key : SettingKey) (value : String)
deriving DecidableEq, Repr, Inhabited

/-- The text of an error. What is wrong with a malformed document is not said. -/
def SettingsError.message : SettingsError → String
  | unreadable error => "Failed to read config file: " ++ error.message
  | malformed => "Failed to parse config"
  | invalidValue key value => "Invalid value for `" ++ key.text ++ "`: " ++ value

namespace Settings

/-- The settings, unless their trace depth is zero. -/
def validate (s : Settings) : Except SettingsError Settings :=
  if s.maxTraceDepth = 0 then .error (.invalidValue .maxTraceDepth "0") else .ok s

end Settings

end ScriptDiag
