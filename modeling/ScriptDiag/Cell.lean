import ScriptDiag.Text.Hex

/-!
# Cells, registers and handles

The script machine computes on 32-bit cells. A cell is signed as a value and unsigned as an
address of code or data. The host that embeds the machine has 64-bit addresses of its own.
-/

namespace ScriptDiag

/-- A machine word, read as a signed number. -/
abbrev Cell := Int32

/-- A machine word, read as the address of code or data. -/
abbrev UCell := UInt32

/-- An address in the host process. -/
abbrev Address := UInt64

/-- Bytes in one cell. -/
def cellSize : UCell := 4

/-- The public index that stands for the entry point `main`. -/
def mainIndex : Cell := -1

/-- The public index with which a host asks for a public that may not exist. -/
def probeIndex : Cell := -10

/-- The table position that a signed index names, if it is not negative. -/
def tableIndex? (index : Cell) : Option Nat :=
  if index < 0 then none else some index.toNatClampNeg

/-- The entry of `xs` that a signed index names. -/
def entryAt? {α : Type} (xs : List α) (index : Cell) : Option α :=
  (tableIndex? index).bind fun i => xs[i]?

/-- The identity of one loaded machine. The host picks the value. -/
structure VmHandle where
  value : UInt64
deriving DecidableEq, Repr, Inhabited

/-- A handle as reports show it. -/
def VmHandle.text (handle : VmHandle) : String :=
  "vm#" ++ hex handle.value.toNat

/-- The registers a diagnosis reads: frame, code, stack and heap pointer. -/
structure Registers where
  frm : UCell := 0
  cip : UCell := 0
  stk : UCell := 0
  hea : UCell := 0
deriving DecidableEq, Repr, Inhabited

end ScriptDiag
