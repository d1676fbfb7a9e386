import ScriptDiag.Image

/-!
# A loaded script seen from outside

Diagnostics look at a machine through a `VmView`: its identity, its registers, the cells it can
read, and the tables of its module. Every frame of the script begins with three saved cells,
which `VmView.frameLink?` reads.
-/

namespace ScriptDiag

/-- What can be seen of a machine. `readCell` gives nothing outside the data of the machine. -/
structure VmView where
  handle : VmHandle
  registers : Registers
  readCell : UCell → Option Cell
  natives : List NativeEntry
  publics : List PublicEntry
  path : Option String
  debugBlock : Option Bytes

def VmView.native? (vm : VmView) (index : Cell) : Option NativeEntry :=
  entryAt? vm.natives index

def VmView.public? (vm : VmView) (index : Cell) : Option PublicEntry :=
  entryAt? vm.publics index

/-! ## Frames -/

/-- The linkage saved at the base of a frame: the caller's frame, the code address to return to, and
the size of the arguments in bytes. -/
structure FrameLink where
  callerFrm : UCell
  returnAddress : UCell
  argBytes : UCell
deriving DecidableEq, Repr, Inhabited

/-- Whether the frame was entered by the host, which leaves no address to return to. -/
def FrameLink.isEntry (l : FrameLink) : Bool :=
  l.returnAddress == 0

/-- The cell that lies `cells` cells above `address`, unless that is past the address space. -/
def VmView.cellAbove? (vm : VmView) (address : UCell) (cells : Nat) : Option UCell :=
  let above := address.toNat + cellSize.toNat * cells
  if above < UInt32.size then (vm.readCell (UInt32.ofNat above)).map Int32.toUInt32 else none

/-- The linkage of the frame at `frm`. There is none at address zero, nor where one of its cells
cannot be read. -/
def VmView.frameLink? (vm : VmView) (frm : UCell) : Option FrameLink :=
  if frm = 0 then none
  else do
    let callerFrm ← vm.cellAbove? frm 0
    let returnAddress ← vm.cellAbove? frm 1
    let argBytes ← vm.cellAbove? frm 2
    return { callerFrm, returnAddress, argBytes }

end ScriptDiag
