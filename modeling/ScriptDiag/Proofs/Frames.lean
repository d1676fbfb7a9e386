import ScriptDiag.Proofs.Act

/-!
# Frames in memory

What the stack operations of a machine do, as functions on machines. Making a frame pushes its three
cells and may fail before any of them; giving one up reads two of them back.

All of them change registers and memory only: `Machine.SameModule` is what they leave as it is.
-/

namespace ScriptDiag

namespace Machine

/-! ## Machines after an operation -/

/-- Whether one more cell on the stack would meet the heap. -/
def IsFull (m : Machine) : Prop :=
  m.registers.stk < cellSize ∨ m.registers.stk - cellSize < m.registers.hea

instance (m : Machine) : Decidable m.IsFull :=
  inferInstanceAs (Decidable (_ ∨ _))

/-- The machine with one more cell on its stack. -/
def pushed (m : Machine) (value : Cell) : Machine :=
  let stk := m.registers.stk - cellSize
  { m with
    registers := { m.registers with stk }
    memory := (m.memory.write? stk value).getD m.memory }

/-- The machine with the frame of one more call. -/
def entered (m : Machine) (address returnAddress : UCell) : Machine :=
  let m := ((m.pushed 0).pushed returnAddress.toInt32).pushed m.registers.frm.toInt32
  { m with registers := { m.registers with frm := m.registers.stk, cip := address } }

def withRegisters (m : Machine) (registers : Registers) : Machine :=
  { m with registers }

/-- The machine without the frame at `frm`. -/
def left (m : Machine) (frm caller returnAddress : UCell) : Machine :=
  m.withRegisters { m.registers with
    stk := frm + frameLinkSize, frm := caller, cip := returnAddress }

/-- Two machines that differ at most in registers, memory and their instruction count. -/
structure SameModule (m m' : Machine) : Prop where
  handle : m'.handle = m.handle
  natives : m'.natives = m.natives
  publics : m'.publics = m.publics
  main : m'.main = m.main
  path : m'.path = m.path
  debugBlock : m'.debugBlock = m.debugBlock
  slots : m'.slots = m.slots

theorem SameModule.refl (m : Machine) : m.SameModule m :=
  ⟨rfl, rfl, rfl, rfl, rfl, rfl, rfl⟩

theorem SameModule.trans {m m' m'' : Machine} (h : m.SameModule m') (h' : m'.SameModule m'') :
    m.SameModule m'' :=
  ⟨h'.handle.trans h.handle, h'.natives.trans h.natives, h'.publics.trans h.publics,
    h'.main.trans h.main, h'.path.trans h.path, h'.debugBlock.trans h.debugBlock,
    h'.slots.trans h.slots⟩

theorem SameModule.nativeBody?_eq {m m' : Machine} (h : m.SameModule m') (index : Cell) :
    m'.nativeBody? index = m.nativeBody? index := by
  rw [nativeBody?, nativeBody?, h.natives]

theorem SameModule.entryPoint?_eq {m m' : Machine} (h : m.SameModule m') (index : Cell) :
    m'.entryPoint? index = m.entryPoint? index := by
  rw [entryPoint?, entryPoint?, h.main, h.publics]

theorem sameModule_pushed (m : Machine) (value : Cell) : m.SameModule (m.pushed value) :=
  ⟨rfl, rfl, rfl, rfl, rfl, rfl, rfl⟩

theorem sameModule_entered (m : Machine) (address returnAddress : UCell) :
    m.SameModule (m.entered address returnAddress) :=
  ⟨rfl, rfl, rfl, rfl, rfl, rfl, rfl⟩

theorem sameModule_withRegisters (m : Machine) (registers : Registers) :
    m.SameModule (m.withRegisters registers) :=
  ⟨rfl, rfl, rfl, rfl, rfl, rfl, rfl⟩

end Machine

namespace MachineM

open Act

/-! ## Equations -/

theorem modifyRegisters_apply (f : Registers → Registers) (m : Machine) :
    modifyRegisters f m = .ok () (m.withRegisters (f m.registers)) := rfl

theorem push_apply (value : Cell) (m : Machine) :
    push value m = if m.IsFull then .error .stackCollision m else .ok () (m.pushed value) := by
  rw [push, bind_of_ok (get_apply m)]
  by_cases h : m.IsFull
  · rw [if_pos h]
    exact (congrFun (if_pos h) m).trans (bind_of_error (throw_apply _ m))
  · rw [if_neg h]
    exact congrFun (if_neg h) m

theorem push_of_full {m : Machine} (h : m.IsFull) (value : Cell) :
    push value m = .error .stackCollision m := by
  rw [push_apply, if_pos h]

theorem push_of_not_full {m : Machine} (h : ¬ m.IsFull) (value : Cell) :
    push value m = .ok () (m.pushed value) := by
  rw [push_apply, if_neg h]

/-- A frame is made, or the stack collides with the heap before one of its cells is pushed. -/
theorem enterFrame_cases (address returnAddress : UCell) (m : Machine) :
    (¬ m.IsFull ∧ ¬ (m.pushed 0).IsFull ∧ ¬ ((m.pushed 0).pushed returnAddress.toInt32).IsFull ∧
        enterFrame address returnAddress m = .ok () (m.entered address returnAddress)) ∨
      ∃ m', enterFrame address returnAddress m = .error .stackCollision m' ∧
        (m' = m ∨ (¬ m.IsFull ∧ m' = m.pushed 0) ∨
          (¬ m.IsFull ∧ ¬ (m.pushed 0).IsFull ∧
            m' = (m.pushed 0).pushed returnAddress.toInt32)) := by
  rw [enterFrame]
  by_cases h₁ : m.IsFull
  · exact .inr ⟨m, bind_of_error (push_of_full h₁ 0), .inl rfl⟩
  rw [bind_of_ok (push_of_not_full h₁ 0)]
  by_cases h₂ : (m.pushed 0).IsFull
  · exact .inr ⟨_, bind_of_error (push_of_full h₂ _), .inr (.inl ⟨h₁, rfl⟩)⟩
  rw [bind_of_ok (push_of_not_full h₂ _), bind_of_ok (get_apply _)]
  by_cases h₃ : ((m.pushed 0).pushed returnAddress.toInt32).IsFull
  · exact .inr ⟨_, bind_of_error (push_of_full h₃ _), .inr (.inr ⟨h₁, h₂, rfl⟩)⟩
  rw [bind_of_ok (push_of_not_full h₃ _)]
  exact .inl ⟨h₁, h₂, h₃, rfl⟩

theorem load_of_some {m : Machine} {address : UCell} {value : Cell}
    (h : m.memory.read? address = some value) : load address m = .ok value.toUInt32 m := by
  rw [load, bind_of_ok (get_apply m), h]
  rfl

theorem load_of_none {m : Machine} {address : UCell} (h : m.memory.read? address = none) :
    load address m = .error .memoryAccess m := by
  rw [load, bind_of_ok (get_apply m), h]
  rfl

/-- A frame is given up, unless its links cannot be read. -/
theorem leaveFrame_cases (frm : UCell) (m : Machine) :
    (∃ caller returnAddress, m.memory.read? frm = some caller ∧
        m.memory.read? (frm + cellSize) = some returnAddress ∧
        leaveFrame frm m = .ok () (m.left frm caller.toUInt32 returnAddress.toUInt32)) ∨
      leaveFrame frm m = .error .memoryAccess m := by
  rw [leaveFrame]
  cases h₁ : m.memory.read? frm with
  | none => exact .inr (bind_of_error (load_of_none h₁))
  | some caller =>
      rw [bind_of_ok (load_of_some h₁)]
      cases h₂ : m.memory.read? (frm + cellSize) with
      | none => exact .inr (bind_of_error (load_of_none h₂))
      | some returnAddress =>
          rw [bind_of_ok (load_of_some h₂)]
          exact .inl ⟨caller, returnAddress, rfl, rfl, rfl⟩

theorem store_cases (address : UCell) (value : Cell) (m : Machine) :
    (∃ memory, m.memory.write? address value = some memory ∧
        store address value m = .ok true { m with memory }) ∨
      store address value m = .ok false m := by
  rw [store, bind_of_ok (get_apply m)]
  cases h : m.memory.write? address value with
  | none => exact .inr rfl
  | some memory => exact .inl ⟨memory, rfl, rfl⟩

end MachineM

end ScriptDiag
