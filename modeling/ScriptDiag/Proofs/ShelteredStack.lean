import ScriptDiag.Proofs.Layout
import ScriptDiag.Proofs.StillActs

/-!
# What lies on the stack is sheltered

Whatever is called works below the stack pointer that it finds. `Machine.Shelters m m'` says so of a
machine before and after: the cells from the stack pointer of `m` on are as they were, the stack has
not been popped, and it has not met the heap. Pushing cells and making a frame are of this kind,
also if the stack is full before the frame is complete (`shelters_enterFrame`). So a frame made in
`m` can be given up in `m'`, and then the registers are those from before it was made
(`leaveFrame_of_shelters`).
-/

namespace ScriptDiag.Machine

/-! ## Stacks that lie in the memory -/

/-- The stack is in the data memory, and does not reach into the heap. -/
structure HasStack (m : Machine) : Prop where
  stk : m.registers.stk.toNat ≤ m.memory.size
  hea : m.registers.hea ≤ m.registers.stk

instance (m : Machine) : Decidable m.HasStack :=
  decidable_of_iff (m.registers.stk.toNat ≤ m.memory.size ∧ m.registers.hea ≤ m.registers.stk)
    ⟨fun h => ⟨h.1, h.2⟩, fun h => ⟨h.stk, h.hea⟩⟩

/-- So it is with a new machine. -/
theorem hasStack_ofSize (handle : VmHandle) (dataSize : Nat) :
    (ofSize handle dataSize).HasStack := by
  refine ⟨?_, UInt32.le_iff_toNat_le.mpr (Nat.zero_le _)⟩
  show (UInt32.ofNat dataSize).toNat ≤ (Array.replicate dataSize (0 : UInt8)).size
  rw [UInt32.toNat_ofNat', Array.size_replicate]
  exact Nat.mod_le _ _

/-! ## Sheltering -/

/-- From one machine to the other what lies on the stack is kept, and the code behind the tables.
The stack may have grown. -/
structure Shelters (m m' : Machine) : Prop where
  size : m'.memory.size = m.memory.size
  hea : m'.registers.hea = m.registers.hea
  stk : m'.registers.stk ≤ m.registers.stk
  room : m.registers.hea ≤ m.registers.stk → m'.registers.hea ≤ m'.registers.stk
  above : ∀ address, m.registers.stk ≤ address →
    m'.memory.read? address = m.memory.read? address
  natives : m'.natives = m.natives
  publics : m'.publics = m.publics
  main : m'.main = m.main

section

variable {m m' m'' : Machine}

theorem Shelters.refl (m : Machine) : m.Shelters m :=
  ⟨rfl, rfl, UInt32.le_refl _, id, fun _ _ => rfl, rfl, rfl, rfl⟩

theorem Shelters.trans (h : m.Shelters m') (h' : m'.Shelters m'') : m.Shelters m'' where
  size := h'.size.trans h.size
  hea := h'.hea.trans h.hea
  stk := UInt32.le_trans h'.stk h.stk
  room := fun hroom => h'.room (h.room hroom)
  above := fun a ha => (h'.above a (UInt32.le_trans h.stk ha)).trans (h.above a ha)
  natives := h'.natives.trans h.natives
  publics := h'.publics.trans h.publics
  main := h'.main.trans h.main

theorem Shelters.hasStack (h : m.Shelters m') (hm : m.HasStack) : m'.HasStack := by
  refine ⟨?_, h.room hm.hea⟩
  rw [h.size]
  exact Nat.le_trans (UInt32.le_iff_toNat_le.mp h.stk) hm.stk

theorem shelters_of_core (h : m'.core = m.core) : m.Shelters m' := by
  have hmemory := memory_eq_of_core h
  have hregisters := registers_eq_of_core h
  have hnatives := congrArg natives h
  have hpublics := congrArg publics h
  have hmain := congrArg main h
  refine ⟨by rw [hmemory], by rw [hregisters], ?_, ?_, fun a _ => by rw [hmemory], hnatives,
    hpublics, hmain⟩
  · rw [hregisters]
    exact UInt32.le_refl _
  · rw [hregisters]
    exact id

theorem shelters_withRegisters {registers : Registers} (hstk : registers.stk = m.registers.stk)
    (hhea : registers.hea = m.registers.hea) : m.Shelters (m.withRegisters registers) where
  size := rfl
  hea := hhea
  stk := UInt32.le_of_eq hstk
  room := fun h => by
    show registers.hea ≤ registers.stk
    rwa [hstk, hhea]
  above := fun _ _ => rfl
  natives := rfl
  publics := rfl
  main := rfl

/-- The registers are put back. -/
theorem Shelters.withRegisters (h : m.Shelters m') :
    m.Shelters (m'.withRegisters m.registers) where
  size := h.size
  hea := rfl
  stk := UInt32.le_refl _
  room := id
  above := h.above
  natives := h.natives
  publics := h.publics
  main := h.main

/-! ## Making a frame -/

theorem shelters_pushed (h : ¬ m.IsFull) (hm : m.HasStack) (value : Cell) :
    m.Shelters (m.pushed value) := by
  have hl := lowers_pushed h hm.stk value
  refine ⟨hl.size, rfl, UInt32.le_iff_toNat_le.mpr hl.stk, fun _ => ?_,
    fun a ha => hl.above a (UInt32.le_iff_toNat_le.mp ha), rfl, rfl, rfl⟩
  exact UInt32.not_lt.mp fun hlt => h (.inr hlt)

theorem shelters_entered {address returnAddress : UCell} (h₁ : ¬ m.IsFull)
    (h₂ : ¬ (m.pushed 0).IsFull) (h₃ : ¬ ((m.pushed 0).pushed returnAddress.toInt32).IsFull)
    (hm : m.HasStack) : m.Shelters (m.entered address returnAddress) := by
  have hs₁ := shelters_pushed h₁ hm 0
  have hs₂ := hs₁.trans (shelters_pushed h₂ (hs₁.hasStack hm) returnAddress.toInt32)
  have hs₃ := hs₂.trans (shelters_pushed h₃ (hs₂.hasStack hm) m.registers.frm.toInt32)
  exact hs₃.trans (shelters_withRegisters rfl rfl)

/-- A frame is made, or cells are pushed until the stack collides with the heap, and the machine
stays in the frame that it was in. -/
theorem shelters_enterFrame (address returnAddress : UCell) (hm : m.HasStack) :
    (∃ m', MachineM.enterFrame address returnAddress m = .ok () m' ∧ m.Shelters m' ∧
        m.Enters address returnAddress m') ∨
      ∃ e m', MachineM.enterFrame address returnAddress m = .error e m' ∧ m.Shelters m' ∧
        m'.registers.frm = m.registers.frm := by
  rcases MachineM.enterFrame_cases address returnAddress m with
    ⟨h₁, h₂, h₃, hok⟩ | ⟨m', herr, rfl | ⟨h₁, rfl⟩ | ⟨h₁, h₂, rfl⟩⟩
  · exact .inl ⟨_, hok, shelters_entered h₁ h₂ h₃ hm, enters_entered h₁ h₂ h₃ hm.stk⟩
  · exact .inr ⟨_, _, herr, .refl _, rfl⟩
  · exact .inr ⟨_, _, herr, shelters_pushed h₁ hm 0, rfl⟩
  · have hs₁ := shelters_pushed h₁ hm 0
    exact .inr ⟨_, _, herr, hs₁.trans (shelters_pushed h₂ (hs₁.hasStack hm) _), rfl⟩

/-! ## Giving a frame up -/

/-- A frame links to the same place as long as it is sheltered. -/
theorem Shelters.hasLink {target : Place} (h : m.Shelters m')
    (hframe : m.registers.frm = m.registers.stk)
    (hlt : m.registers.frm.toNat + linkBytes < UInt32.size)
    (hlink : m.memory.HasLink m.registers.frm target) :
    m'.memory.HasLink m.registers.frm target := by
  refine LiveCall.hasLink_of_eq_above hlink hlt fun a ha => h.above a ?_
  rw [← hframe]
  exact UInt32.le_iff_toNat_le.mpr ha

/-- The frame of a function called by `m` is given up after its body has run, in `m₂`: the registers
are those of `m` again. -/
theorem leaveFrame_of_shelters {m₁ m₂ : Machine} {address : UCell}
    (h₁ : m.Enters address m.registers.cip m₁) (hhea : m₁.registers.hea = m.registers.hea)
    (h₂ : m₁.Shelters m₂) :
    MachineM.leaveFrame m₁.registers.frm m₂ = .ok () (m₂.withRegisters m.registers) := by
  have hstk := h₁.stk
  have hbound := m.registers.stk.toNat_lt
  rw [← h₁.frm] at hstk
  have hlink := h₂.hasLink h₁.frm (by show _ < 2 ^ 32; omega) h₁.link
  have hsize : m₁.registers.frm + frameLinkSize = m.registers.stk := by
    apply UInt32.toNat_inj.mp
    rw [toNat_add_of_lt (by show m₁.registers.frm.toNat + linkBytes < 2 ^ 32; omega)]
    exact hstk
  rw [MachineM.leaveFrame, Act.bind_of_ok (MachineM.load_of_some hlink.caller),
    Act.bind_of_ok (MachineM.load_of_some hlink.returnAddress), MachineM.modifyRegisters_apply,
    hsize, h₂.hea, hhea]
  rfl

end

end ScriptDiag.Machine
