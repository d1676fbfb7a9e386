import ScriptDiag.Bytes.LittleEndian
import ScriptDiag.Native.Code

/-!
# Jump stubs

Hook libraries overwrite the first bytes of a function with a jump to their own code. To name the
code that really runs, `resolveJump` follows such stubs from an address. `stubForms` is the table
of the forms that are known: a form is an opcode, an operand of fixed width, and possibly a
fixed end. No two forms of an instruction set can begin the same bytes, so the order of the
table does not matter.
-/

namespace ScriptDiag

/-- An instruction set. No stubs are known for the last. -/
inductive Abi where
  | x86
  | x86_64
  | other
deriving DecidableEq, Repr, Inhabited

def Abi.pointerSize : Abi → Nat
  | .x86 => 4
  | _ => 8

/-- Where a stub leads: to an address, or to the address stored in a slot. -/
inductive StubTarget where
  | direct (address : Address)
  | indirect (slot : Address)
deriving DecidableEq, Repr, Inhabited

/-- A form of stub: its opcode, the width of its operand, what follows the operand, and the target,
which may depend on the stub's own address. -/
structure StubForm where
  opcode : Bytes
  width : Nat
  ending : Bytes
  target : (address : Address) → (operand : Nat) → StubTarget

namespace StubForm

/-- The bytes of a stub with the given operand. -/
def encode (f : StubForm) (operand : Nat) : Bytes :=
  f.opcode ++ toLittleEndian f.width operand ++ f.ending

/-- The operand of the stub that `code` begins with, if it is of this form. -/
def operand? (f : StubForm) (code : Bytes) : Option Nat :=
  let operand := (code.drop f.opcode.length).take f.width
  if (f.opcode ++ operand ++ f.ending).isPrefixOf code && operand.length == f.width then
    some (ofLittleEndian operand)
  else none

/-- A number of 8 bits, extended by its sign. -/
def signed8 (n : Nat) : Address :=
  UInt64.ofInt (UInt8.ofNat n).toInt8.toInt

/-- A number of 32 bits, extended by its sign. -/
def signed32 (n : Nat) : Address :=
  UInt64.ofInt (UInt32.ofNat n).toInt32.toInt

/-- A jump by a distance of 32 bits, counted from the end of the instruction. -/
def nearJump : StubForm where
  opcode := [0xE9]
  width := 4
  ending := []
  target address n := .direct (address + 5 + signed32 n)

/-- A jump by a distance of 8 bits, counted from the end of the instruction. -/
def shortJump : StubForm where
  opcode := [0xEB]
  width := 1
  ending := []
  target address n := .direct (address + 2 + signed8 n)

/-- A jump to the pointer at an absolute address. -/
def absoluteSlotJump : StubForm where
  opcode := [0xFF, 0x25]
  width := 4
  ending := []
  target _ n := .indirect (UInt64.ofNat n)

/-- A jump to the pointer at a distance from the end of the instruction. -/
def relativeSlotJump : StubForm where
  opcode := [0xFF, 0x25]
  width := 4
  ending := []
  target address n := .indirect (address + 6 + signed32 n)

/-- A return to an address just pushed. -/
def pushReturn : StubForm where
  opcode := [0x68]
  width := 4
  ending := [0xC3]
  target _ n := .direct (UInt64.ofNat n)

/-- A jump to an address just moved into the first register. -/
def registerJump : StubForm where
  opcode := [0x48, 0xB8]
  width := 8
  ending := [0xFF, 0xE0]
  target _ n := .direct (UInt64.ofNat n)

/-- A jump to an address just moved into a scratch register. -/
def scratchRegisterJump : StubForm where
  opcode := [0x49, 0xBB]
  width := 8
  ending := [0x41, 0xFF, 0xE3]
  target _ n := .direct (UInt64.ofNat n)

end StubForm

open StubForm in
/-- The forms known for an instruction set. -/
def stubForms : Abi → List StubForm
  | .x86 => [nearJump, shortJump, absoluteSlotJump, pushReturn]
  | .x86_64 => [nearJump, shortJump, relativeSlotJump, registerJump, scratchRegisterJump]
  | .other => []

/-- Where the stub that `code`, found at `address`, begins with leads. -/
def matchStub (abi : Abi) (address : Address) (code : Bytes) : Option StubTarget :=
  (stubForms abi).findSome? fun f => (f.operand? code).map (f.target address)

/-! ## Following stubs -/

/-- Bytes looked at to recognise a stub. -/
def stubPrefixLength : Nat := 16

/-- The pointer stored at `slot`, if all its bytes are readable. -/
def readPointer? (read : CodeReader) (abi : Abi) (slot : Address) : Option Address :=
  let bytes := read slot abi.pointerSize
  if bytes.length < abi.pointerSize then none else some (UInt64.ofNat (ofLittleEndian bytes))

/-- Where the stub at `address` leads, if there is one and it leads to somewhere else. Address zero
is nowhere. -/
def hop? (read : CodeReader) (abi : Abi) (address : Address) : Option Address :=
  let target? :=
    match matchStub abi address (read address stubPrefixLength) with
    | some (.direct target) => some target
    | some (.indirect slot) => readPointer? read abi slot
    | none => none
  target?.filter fun target => target != 0 && target != address

/-- The address that is reached from `address` by following stubs, at most `hops` of them. -/
def resolveJump (read : CodeReader) (abi : Abi) : (hops : Nat) → (address : Address) → Address
  | 0, address => address
  | hops + 1, address =>
    match hop? read abi address with
    | some target => resolveJump read abi hops target
    | none => address

end ScriptDiag
