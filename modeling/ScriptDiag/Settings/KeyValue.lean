import ScriptDiag.Settings
import ScriptDiag.Text.Number

/-!
# Settings as key and value lines

A host has one file of `key value` lines for all its parts. Lines whose key is no setting of this
library belong to others and are passed over, as are blank lines and comments, which begin with `#`
or `//`. Of several lines for one setting the last counts.
-/

namespace ScriptDiag.Settings

/-- The setting of a line with its value, if the line is about one. -/
def readLine? (line : List Char) : Option (SettingKey × List Char) :=
  let line := trimBlanks line
  if line.isEmpty || ['#'].isPrefixOf line || ['/', '/'].isPrefixOf line then none
  else
    let (key, rest) := splitAtBlank line
    (SettingKey.ofChars? key).map fun key => (key, trimBlanks (rest.getD []))

/-- A truth value in one of its four spellings, in letters of either case. -/
def readBool? (value : List Char) : Option Bool :=
  let word := String.ofList (value.map Char.toLower)
  if word ∈ ["1", "true", "yes", "on"] then some true
  else if word ∈ ["0", "false", "no", "off"] then some false
  else none

/-- A number of 64 bits. -/
def readCount? (value : List Char) : Option Nat :=
  readUnsigned? 10 UInt64.size value

/-- `s` with the value of `key` read from a text, if it reads as one. -/
def assign? (s : Settings) (key : SettingKey) (value : List Char) : Option Settings :=
  match key with
  | .dieOnError => (readBool? value).map fun b => { s with dieOnError := b }
  | .maxTraceDepth => (readCount? value).map fun n => { s with maxTraceDepth := n }
  | .maxTrampolineHops => (readCount? value).map fun n => { s with maxTrampolineHops := n }

/-- `s` after a line. -/
def applyLine (s : Settings) (line : List Char) : Except SettingsError Settings :=
  match readLine? line with
  | none => .ok s
  | some (key, value) =>
    match s.assign? key value with
    | some s => .ok s
    | none => .error (.invalidValue key (String.ofList value))

/-- The settings of a document of key and value lines. -/
def ofKeyValues (document : String) : Except SettingsError Settings := do
  let s ← (lines document.toList).foldlM applyLine {}
  s.validate

end ScriptDiag.Settings
