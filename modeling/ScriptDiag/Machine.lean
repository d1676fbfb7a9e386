import ScriptDiag.Handler
import ScriptDiag.Memory
import ScriptDiag.Script
import ScriptDiag.VmView

/-!
# The script machine

A `Machine` has registers, data memory, the tables of its module with the bodies behind them, and
its handler slots. It has no instructions: bodies move the code pointer themselves. What it shares
with a real machine is what diagnostics look at, first of all the frames on its stack.

The stack grows down from the end of the data memory. A frame is made by pushing three cells, the
size of the arguments (always zero), the return address and the caller's frame; the frame pointer
then points at the last of them. `MachineM` computations change the machine step by step, and what
they changed before they fail stays changed.
-/

namespace ScriptDiag

structure HostFunction where
  address : Address
  body : Body
deriving Inhabited

/-- A native in a module's table; the function is missing while the host has registered none. -/
structure NativeDef where
  name : String
  function : Option HostFunction
deriving Inhabited

/-- A public in a module's table. -/
structure PublicDef where
  name : String
  address : UCell
  body : Body
deriving Inhabited

structure MainDef where
  address : UCell
  body : Body
deriving Inhabited

/-- A script machine. `counted` is how often its own instruction hook was called, if it has one. -/
structure Machine where
  handle : VmHandle
  memory : Memory
  registers : Registers
  natives : List NativeDef
  publics : List PublicDef
  main : Option MainDef
  path : Option String
  debugBlock : Option Bytes
  slots : Slots
  counted : Option Nat
deriving Inhabited

namespace Machine

/-- Bytes of data memory that a machine has by default. -/
def defaultDataSize : Nat := 0x1000

/-- Bytes of linkage at the base of a frame. -/
def frameLinkSize : UCell := 3 * cellSize

/-- The host address of the native at `position` in its table, where none is given. -/
def generatedAddress (position : Nat) : Address :=
  0x70000000 + 0x100 * UInt64.ofNat position

/-- A machine whose stack starts at the end of its data memory. -/
def ofSize (handle : VmHandle) (dataSize : Nat) : Machine where
  handle
  memory := Memory.zeros dataSize
  registers := { stk := UInt32.ofNat dataSize }
  natives := []
  publics := []
  main := none
  path := none
  debugBlock := none
  slots := {}
  counted := none

/-- The machine as diagnostics see it. -/
def view (m : Machine) : VmView where
  handle := m.handle
  registers := m.registers
  readCell := m.memory.read?
  natives := m.natives.map fun n => { name := n.name, address := n.function.map (·.address) }
  publics := m.publics.map fun p => { name := p.name, address := p.address }
  path := m.path
  debugBlock := m.debugBlock

/-- The native that `index` names, if there is a function behind it. -/
def nativeBody? (m : Machine) (index : Cell) : Option Body :=
  ((entryAt? m.natives index).bind NativeDef.function).map HostFunction.body

/-- Where the public that `index` names starts, and its body. One index stands for `main`. -/
def entryPoint? (m : Machine) (index : Cell) : Option (UCell × Body) :=
  if index = mainIndex then m.main.map fun f => (f.address, f.body)
  else (entryAt? m.publics index).map fun p => (p.address, p.body)

end Machine

/-- A machine that a host hands to a handler: a script machine, or one of another kind, of which
only the outside is known. -/
inductive HostedVm where
  | script (machine : Machine)
  | foreign (view : VmView)

/-- The script machine behind a hosted one. The own handlers of script machines work on no other
kind. -/
def HostedVm.machine : HostedVm → Except VmError Machine
  | script machine => .ok machine
  | foreign _ => .error .invalidState

/-! ## Stack and frames -/

/-- A computation that changes a machine and may fail. -/
abbrev MachineM := EStateM VmError Machine

namespace MachineM

def modifyRegisters (f : Registers → Registers) : MachineM Unit :=
  modify fun m => { m with registers := f m.registers }

/-- Push a cell, unless the stack would then meet the heap. Where the stack pointer points outside
the data memory it moves all the same, and nothing is written. -/
def push (value : Cell) : MachineM Unit := do
  let m ← get
  let regs := m.registers
  if regs.stk < cellSize ∨ regs.stk - cellSize < regs.hea then
    throw .stackCollision
  let stk := regs.stk - cellSize
  set { m with
    registers := { regs with stk }
    memory := (m.memory.write? stk value).getD m.memory }

/-- Make the frame of a call of the function at `address`. -/
def enterFrame (address returnAddress : UCell) : MachineM Unit := do
  push 0
  push returnAddress.toInt32
  push (← get).registers.frm.toInt32
  modifyRegisters fun regs => { regs with frm := regs.stk, cip := address }

def load (address : UCell) : MachineM UCell := do
  match (← get).memory.read? address with
  | some value => return value.toUInt32
  | none => throw .memoryAccess

/-- Give up the frame at `frm` and return to its caller. -/
def leaveFrame (frm : UCell) : MachineM Unit := do
  let caller ← load frm
  let returnAddress ← load (frm + cellSize)
  modifyRegisters fun regs =>
    { regs with stk := frm + Machine.frameLinkSize, frm := caller, cip := returnAddress }

/-- Write a cell, and say whether it lies in the data memory. -/
def store (address : UCell) (value : Cell) : MachineM Bool := do
  let m ← get
  match m.memory.write? address value with
  | some memory =>
    set { m with memory }
    return true
  | none => return false

end MachineM

end ScriptDiag
