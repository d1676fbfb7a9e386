import ScriptDiag.Settings
import ScriptDiag.Text.Number

/-!
# Settings as a TOML document

Of TOML, settings need little: a document that gives each setting at most once, as `key = value`,
where the values are truth values and whole numbers. All else that TOML can express has a
type or a key that no setting has, so documents with it are refused, as are those that are not
TOML at all. This module accepts the documents that remain: lines with one assignment or none,
blanks, comments, keys bare or in quotes.
-/

namespace ScriptDiag.Settings

namespace Toml

/-! ## Lexical elements -/

/-- Spaces and tabs, the only blanks within a line. -/
def isSpace (c : Char) : Bool :=
  c == ' ' || c == '\t'

/-- Whether a comment may contain `c`: any character but control characters other than the tab. -/
def isCommentChar (c : Char) : Bool :=
  c == '\t' || (0x20 ≤ c.toNat && c.toNat != 0x7F)

/-- Whether a bare key may contain `c`. -/
def isBareKeyChar (c : Char) : Bool :=
  c.isAlphanum || c == '_' || c == '-'

/-- Whether `cs` ends a line: blanks and possibly a comment. -/
def isLineEnd (cs : List Char) : Bool :=
  match cs.dropWhile isSpace with
  | [] => true
  | '#' :: comment => comment.all isCommentChar
  | _ => false

/-- The character with the code that `digits` write. -/
def escaped? (digits : List Char) : Option Char :=
  (digitsValue? 16 0 digits).map Char.ofNat

/-- The text up to a closing double quote, and what follows the quote. Of the escapes only those by
code can write a letter of a setting's name, so the others are refused. -/
def basicKey? : List Char → Option (List Char × List Char)
  | [] => none
  | '"' :: rest => some ([], rest)
  | '\\' :: 'u' :: a :: b :: c :: d :: rest => do
    let char ← escaped? [a, b, c, d]
    let (key, rest) ← basicKey? rest
    return (char :: key, rest)
  | '\\' :: 'U' :: a :: b :: c :: d :: e :: f :: g :: h :: rest => do
    let char ← escaped? [a, b, c, d, e, f, g, h]
    let (key, rest) ← basicKey? rest
    return (char :: key, rest)
  | '\\' :: _ => none
  | char :: rest => do
    let (key, rest) ← basicKey? rest
    return (char :: key, rest)

def key? (cs : List Char) : Option (List Char × List Char) :=
  match cs with
  | '"' :: rest => basicKey? rest
  | '\'' :: rest =>
    match rest.dropWhile (· != '\'') with
    | [] => none
    | _ :: after => some (rest.takeWhile (· != '\''), after)
  | _ => some (cs.takeWhile isBareKeyChar, cs.dropWhile isBareKeyChar)

/-! ## Values -/

/-- The digits of a number, without the underscores, each of which stands between two digits. -/
def separatedDigits? : List Char → Option (List Char)
  | [] => none
  | [c] => if c = '_' then none else some [c]
  | '_' :: _ => none
  | c :: '_' :: rest => (separatedDigits? rest).map (c :: ·)
  | c :: rest => (separatedDigits? rest).map (c :: ·)

/-- The number that separated digits write in the given base. -/
def number? (base : Nat) (cs : List Char) : Option Nat :=
  (separatedDigits? cs).bind (digitsValue? base 0)

/-- A number in base ten, which has no leading zeros. -/
def decimal? (cs : List Char) : Option Nat :=
  if cs.length > 1 && cs.head? == some '0' then none else number? 10 cs

/-- A whole number of 64 bits with sign that is not negative. Only base ten takes a sign. -/
def count? (cs : List Char) : Option Nat :=
  let value? :=
    match cs with
    | '0' :: 'x' :: digits => number? 16 digits
    | '0' :: 'o' :: digits => number? 8 digits
    | '0' :: 'b' :: digits => number? 2 digits
    | '+' :: digits => decimal? digits
    | '-' :: digits => (decimal? digits).filter fun n => n = 0
    | digits => decimal? digits
  value?.filter fun n => n ≤ 0x7fffffffffffffff

def bool? (cs : List Char) : Option Bool :=
  if cs = "true".toList then some true
  else if cs = "false".toList then some false
  else none

/-! ## Documents -/

/-- `s` with the value of `key`, if `value` is one of its type. -/
def assign? (s : Settings) (key : SettingKey) (value : List Char) : Option Settings :=
  match key with
  | .dieOnError => (bool? value).map fun b => { s with dieOnError := b }
  | .maxTraceDepth => (count? value).map fun n => { s with maxTraceDepth := n }
  | .maxTrampolineHops => (count? value).map fun n => { s with maxTrampolineHops := n }

def assignment? (line : List Char) : Option (SettingKey × List Char) := do
  let (name, rest) ← key? line
  let key ← SettingKey.ofChars? name
  match rest.dropWhile isSpace with
  | '=' :: rest =>
    let rest := rest.dropWhile isSpace
    let isValueChar := fun c => !isSpace c && c != '#'
    if isLineEnd (rest.dropWhile isValueChar) then
      return (key, rest.takeWhile isValueChar)
    else
      none
  | _ => none

/-- The settings and the keys given so far, after one more line. -/
def line? (state : Settings × List SettingKey) (line : List Char) :
    Option (Settings × List SettingKey) :=
  if isLineEnd line then some state
  else do
    let (s, given) := state
    let (key, value) ← assignment? (line.dropWhile isSpace)
    if key ∈ given then
      none
    else
      let s ← assign? s key value
      return (s, key :: given)

/-- `cs` without a byte order mark at the start. -/
def dropMark (cs : List Char) : List Char :=
  match cs with
  | '\uFEFF' :: rest => rest
  | _ => cs

end Toml

def ofToml (document : String) : Except SettingsError Settings :=
  match (lines (Toml.dropMark document.toList)).foldlM Toml.line? ({}, []) with
  | some (s, _) => s.validate
  | none => .error .malformed

end ScriptDiag.Settings
