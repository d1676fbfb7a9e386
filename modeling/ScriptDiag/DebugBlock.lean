import ScriptDiag.Cell

/-!
# Debug blocks

A compiler describes a module in four tables: which code belongs to which file, which to which
line, the symbols, and the names of the value tags. `DebugBlock` holds the tables in the order in
which they were written; `DebugTables` answers questions about addresses.
-/

namespace ScriptDiag

/-- Code from `address` on belongs to the file `name`, up to the next entry. -/
structure FileEntry where
  address : UCell
  name : String
deriving DecidableEq, Repr, Inhabited

/-- Code from `address` on stands on `line`, counted from zero, up to the next entry. -/
structure LineEntry where
  address : UCell
  line : Int32
deriving DecidableEq, Repr, Inhabited

/-- What a symbol names. -/
inductive SymbolKind where
  | scalar
  | reference
  | array
  | refArray
  | function
  | other (ident : UInt8)
deriving DecidableEq, Repr, Inhabited

namespace SymbolKind

/-- The kind written as `ident`. -/
def ofIdent (ident : UInt8) : SymbolKind :=
  if ident = 1 then scalar
  else if ident = 2 then reference
  else if ident = 3 then array
  else if ident = 4 then refArray
  else if ident = 9 then function
  else other ident

def ident : SymbolKind → UInt8
  | scalar => 1
  | reference => 2
  | array => 3
  | refArray => 4
  | function => 9
  | other ident => ident

/-- The kind that is read back when `kind` is written: the same one, unless `other` was given the
number of a named kind. -/
def normal (kind : SymbolKind) : SymbolKind :=
  ofIdent kind.ident

theorem ident_ofIdent (n : UInt8) : (ofIdent n).ident = n := by
  unfold ofIdent
  repeat' split
  all_goals simp_all [ident]

end SymbolKind

structure Dimension where
  tag : Int16
  size : UCell
deriving DecidableEq, Repr, Inhabited

/-- A symbol with the range of code in which it is in scope, and its storage class. -/
structure SymbolEntry where
  address : UCell
  tag : Int16
  codeStart : UCell
  codeEnd : UCell
  kind : SymbolKind
  storage : UInt8
  dims : List Dimension
  name : String
deriving DecidableEq, Repr, Inhabited

/-- Whether `address` lies in the range of the symbol, whose end is not part of it. -/
def SymbolEntry.covers (s : SymbolEntry) (address : UCell) : Bool :=
  s.codeStart ≤ address && address < s.codeEnd

structure TagEntry where
  id : Int16
  name : String
deriving DecidableEq, Repr, Inhabited

/-- The four tables of a module, each in its written order, with the two version numbers. -/
structure DebugBlock where
  fileVersion : UInt8
  vmVersion : UInt8
  files : List FileEntry
  lines : List LineEntry
  symbols : List SymbolEntry
  tags : List TagEntry
deriving DecidableEq, Repr, Inhabited

namespace DebugBlock

/-- The version that new blocks carry. -/
def formatVersion : UInt8 := 8

def functions (b : DebugBlock) : List SymbolEntry :=
  b.symbols.filter fun s => s.kind == .function

/-- Whether there is nothing to look an address up in. -/
def isEmpty (b : DebugBlock) : Bool :=
  b.files.isEmpty && b.lines.isEmpty && b.symbols.isEmpty

end DebugBlock

/-! ## Building a block entry by entry -/

/-- An entry of any of the four tables. -/
inductive DebugEntry where
  | file (entry : FileEntry)
  | line (entry : LineEntry)
  | symbol (entry : SymbolEntry)
  | tag (entry : TagEntry)
deriving Repr, Inhabited

namespace DebugEntry

/-- A function with the code from `codeStart` to before `codeEnd`. -/
def function (name : String) (tag : Int16) (codeStart codeEnd : UCell) : DebugEntry :=
  .symbol
    { address := codeStart, tag, codeStart, codeEnd, kind := .function, storage := 0, dims := [],
      name }

/-- The entry, if it belongs to the file table. -/
def file? : DebugEntry → Option FileEntry
  | .file entry => some entry
  | _ => none

/-- The entry, if it belongs to the line table. -/
def line? : DebugEntry → Option LineEntry
  | .line entry => some entry
  | _ => none

/-- The entry, if it belongs to the symbol table. -/
def symbol? : DebugEntry → Option SymbolEntry
  | .symbol entry => some entry
  | _ => none

/-- The entry, if it belongs to the tag table. -/
def tag? : DebugEntry → Option TagEntry
  | .tag entry => some entry
  | _ => none

end DebugEntry

/-- The block with the given entries, each table in the order of the list. -/
def DebugBlock.ofEntries (entries : List DebugEntry) : DebugBlock where
  fileVersion := formatVersion
  vmVersion := formatVersion
  files := entries.filterMap DebugEntry.file?
  lines := entries.filterMap DebugEntry.line?
  symbols := entries.filterMap DebugEntry.symbol?
  tags := entries.filterMap DebugEntry.tag?

end ScriptDiag
