import ScriptDiag.Cell

/-!
# Names of host code addresses
-/

namespace ScriptDiag

/-- What is known about an address of host code: the file name of the module it lies in, the nearest
exported symbol at or below it, and its distance from that symbol, or from the module's start
where there is none. -/
structure NativeSymbol where
  address : Address
  module : Option String := none
  symbol : Option String := none
  offset : Address := 0
deriving DecidableEq, Repr, Inhabited

namespace NativeSymbol

def unknown (address : Address) : NativeSymbol := { address }

def isUnknown (s : NativeSymbol) : Bool :=
  s.module.isNone && s.symbol.isNone

/-- A symbol as traces show it. The offset is left out right at a symbol of a known module. -/
def text (s : NativeSymbol) : String :=
  match s.module, s.symbol with
  | some module, some symbol =>
    if s.offset = 0 then module ++ "!" ++ symbol
    else module ++ "!" ++ symbol ++ "+" ++ prefixedHex s.offset.toNat
  | none, some symbol => symbol ++ "+" ++ prefixedHex s.offset.toNat
  | some module, none => module
  | none, none => "0x" ++ hexAtLeast 8 s.address.toNat

end NativeSymbol

/-- A way to name host code addresses. -/
abbrev SymbolSource := Address → NativeSymbol

end ScriptDiag
