import ScriptDiag.Bisect
import ScriptDiag.DebugBlock.Parse
import ScriptDiag.Image.Parse

/-!
# What the debug tables say about a code address

`DebugTables` holds the tables of one module, sorted by address; entries of equal address keep
their written order. A module without debug information has empty tables, and every question about
it is answered with `none`.
-/

namespace ScriptDiag

/-- A place in a source file. Lines count from one. -/
structure SourceLocation where
  file : String
  line : Nat
deriving DecidableEq, Repr, Inhabited

/-- A location as traces show it. -/
def SourceLocation.text (l : SourceLocation) : String :=
  s!"{l.file}:{l.line}"

/-- What is known about a code address that some function covers. -/
structure CodeSymbol where
  function : String
  location : Option SourceLocation
deriving DecidableEq, Repr, Inhabited

/-- The debug tables of a module, in ascending order of address. -/
structure DebugTables where
  files : List FileEntry := []
  lines : List LineEntry := []
  functions : List SymbolEntry := []
  tags : List TagEntry := []
deriving DecidableEq, Repr, Inhabited

/-- `xs` in ascending order of `key`; entries with equal keys stay in order. -/
def sortByKey {α : Type} (key : α → UInt32) (xs : List α) : List α :=
  xs.mergeSort fun a b => key a ≤ key b

namespace DebugTables

/-- The name of the tag that untagged values carry. -/
def untagged : String := "_"

def empty : DebugTables := {}

/-- The tables of a block. Of its symbols the functions are kept. -/
def ofBlock (b : DebugBlock) : DebugTables where
  files := sortByKey FileEntry.address b.files
  lines := sortByKey LineEntry.address b.lines
  functions := sortByKey SymbolEntry.codeStart b.functions
  tags := b.tags

def parse (bytes : Bytes) : Except DecodeError DebugTables :=
  ofBlock <$> DebugBlock.parse bytes

/-- The tables of an encoded image, which are empty if it carries no debug block. -/
def ofImage (bytes : Bytes) : Except DecodeError DebugTables := do
  let image ← Image.parse bytes
  match image.debugBlock with
  | some block => parse block
  | none => return empty

/-- Whether there is nothing to look an address up in. -/
def isEmpty (t : DebugTables) : Bool :=
  t.files.isEmpty && t.lines.isEmpty && t.functions.isEmpty

/-! ## Questions about an address -/

/-- The function that covers `address`. Functions do not overlap, so the last one that starts at or
before the address is the only candidate. -/
def functionAt? (t : DebugTables) (address : UCell) : Option SymbolEntry :=
  (lastBefore? (fun f => f.codeStart ≤ address) t.functions).filter fun f => f.covers address

/-- The name of the file that `address` belongs to. -/
def fileAt? (t : DebugTables) (address : UCell) : Option String :=
  (lastBefore? (fun f => f.address ≤ address) t.files).map FileEntry.name

/-- The line of `address`, counted from one; none if the table gives a negative line. -/
def lineAt? (t : DebugTables) (address : UCell) : Option Nat :=
  (lastBefore? (fun l => l.address ≤ address) t.lines).bind fun l =>
    if l.line < 0 then none else some (l.line.toNatClampNeg + 1)

/-- The name that the first entry for tag `id` gives. -/
def tagName? (t : DebugTables) (id : Int16) : Option String :=
  (t.tags.find? fun e => e.id == id).map TagEntry.name

/-- File and line of `address`, if both are known. -/
def locate? (t : DebugTables) (address : UCell) : Option SourceLocation := do
  let file ← t.fileAt? address
  let line ← t.lineAt? address
  return { file, line }

/-- The name of a function, behind the name of its tag where it has one. -/
def functionName (t : DebugTables) (f : SymbolEntry) : String :=
  match t.tagName? f.tag with
  | some tag => if tag = untagged then f.name else tag ++ ":" ++ f.name
  | none => f.name

/-- All that is known about `address`, if a function covers it. -/
def resolve? (t : DebugTables) (address : UCell) : Option CodeSymbol :=
  (t.functionAt? address).map fun f =>
    { function := t.functionName f, location := t.locate? address }

end DebugTables

end ScriptDiag
