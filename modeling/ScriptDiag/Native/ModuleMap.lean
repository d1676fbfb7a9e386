import ScriptDiag.Bisect
import ScriptDiag.Native.Mapping
import ScriptDiag.Native.Symbol
import ScriptDiag.Text.Path

/-!
# Modules in the host's address space

A `ModuleMap` is a table of address ranges, sorted by their start, each belonging to a module and
carrying the exported symbols in it, sorted by address. Ranges of one path that touch are joined,
as long as the joined range stays clear of all others.
-/

namespace ScriptDiag

structure ExportedSymbol where
  address : Address
  name : String
deriving DecidableEq, Repr, Inhabited

/-- The range from `base` to before `stop`, in which the module at `path` lies. -/
structure ModuleRange where
  base : Address
  stop : Address
  path : String
  symbols : List ExportedSymbol := []
deriving DecidableEq, Repr, Inhabited

namespace ModuleRange

/-- The file name of the module. -/
def name (m : ModuleRange) : String :=
  baseName m.path

/-- Whether the range shares an end with, or overlaps, the one from `base` to `stop`. -/
def touches (m : ModuleRange) (base stop : Address) : Bool :=
  m.base ≤ stop && base ≤ m.stop

/-- Whether no address of the range lies between `base` and `stop`. -/
def isClearOf (m : ModuleRange) (base stop : Address) : Bool :=
  m.stop ≤ base || stop ≤ m.base

/-- The range with one more symbol, behind those at or below its address. -/
def addSymbol (m : ModuleRange) (s : ExportedSymbol) : ModuleRange :=
  let n := partitionPoint (fun e => e.address ≤ s.address) m.symbols
  { m with symbols := m.symbols.take n ++ s :: m.symbols.drop n }

/-- What the range says about an address in it. -/
def describe (m : ModuleRange) (address : Address) : NativeSymbol :=
  match lastBefore? (fun s => s.address ≤ address) m.symbols with
  | some s =>
    { address, module := some m.name, symbol := some s.name, offset := address - s.address }
  | none => { address, module := some m.name, offset := address - m.base }

end ModuleRange

abbrev ModuleMap := List ModuleRange

namespace ModuleMap

/-- The ranges in front of the first one satisfying `p`, that one, and those behind it. -/
def splitAtFirst? (p : ModuleRange → Bool) (map : ModuleMap) :
    Option (ModuleMap × ModuleRange × ModuleMap) :=
  match map.dropWhile (fun m => !p m) with
  | [] => none
  | m :: after => some (map.takeWhile (fun m => !p m), m, after)

/-- `map` with a range joined to the first one of the same path that it touches, if the joined range
is clear of the others. -/
def join? (map : ModuleMap) (path : String) (base stop : Address) : Option ModuleMap := do
  let (before, m, after) ← map.splitAtFirst? fun m => m.path == path && m.touches base stop
  let low := min m.base base
  let high := max m.stop stop
  if (before ++ after).all fun other => other.isClearOf low high then
    return before ++ { m with base := low, stop := high } :: after
  else
    none

/-- The table with a range of its own for the module, put in by its start. -/
def add (map : ModuleMap) (path : String) (base stop : Address) : ModuleMap :=
  let added : ModuleRange := { base, stop, path }
  (map ++ [added]).mergeSort fun a b => a.base ≤ b.base

/-- The table with one more range, joined to another one where that is possible. -/
def insertRange (map : ModuleMap) (path : String) (base stop : Address) : ModuleMap :=
  (map.join? path base stop).getD (map.add path base stop)

/-- The table with the module at `path` in the `size` addresses from `base` on. A range that would
reach past the last address ends there. -/
def insert (map : ModuleMap) (path : String) (base size : Address) : ModuleMap :=
  let stop := if base + size < base then -1 else base + size
  map.insertRange path base stop

/-- The position of the range that `address` lies in. -/
def find? (map : ModuleMap) (address : Address) : Option Nat :=
  match partitionPoint (fun m => m.base ≤ address) map with
  | 0 => none
  | n + 1 => if (map[n]?).any fun m => address < m.stop then some n else none

/-- The table with one more exported symbol; a symbol outside all ranges is dropped. -/
def insertSymbol (map : ModuleMap) (address : Address) (name : String) : ModuleMap :=
  match map.find? address with
  | some n => map.modify n fun m => m.addSymbol { address, name }
  | none => map

/-- The name of an address. -/
def resolve (map : ModuleMap) (address : Address) : NativeSymbol :=
  match (map.find? address).bind fun n => map[n]? with
  | some m => m.describe address
  | none => NativeSymbol.unknown address

/-- The executable mappings of a listing that have a file behind them. -/
def ofMappings (mappings : List Mapping) : ModuleMap :=
  mappings.foldl (fun map m =>
    match m.path with
    | some path =>
      if m.isExecutable && path.startsWith "/" then map.insertRange path m.start m.stop else map
    | none => map) []

def ofListing (text : String) : ModuleMap :=
  ofMappings (Mapping.parseListing text)

end ModuleMap

end ScriptDiag
