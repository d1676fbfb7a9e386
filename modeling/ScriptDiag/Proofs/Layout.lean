import ScriptDiag.Proofs.Activations
import ScriptDiag.Proofs.Frames

/-!
# The frames of what is in flight

The functions in flight have their frames in the data memory, each below the frame that it returns
to, and linked to it; the function that a public starts with is linked to where the public was
called, with no address to return to. `Linked` says so of all calls in flight. It depends only on
the memory from `floor` on, so it stays when the machine pushes cells below (`Linked.of_eq_above`),
and making a frame links one function more (`Linked.push`).
-/

namespace ScriptDiag

/-! ## Links -/

theorem toNat_add_of_lt {a b : UCell} (h : a.toNat + b.toNat < UInt32.size) :
    (a + b).toNat = a.toNat + b.toNat := by
  rw [UInt32.toNat_add]
  exact Nat.mod_eq_of_lt h

/-- The cells at `frm` link a frame to the place that it returns to. -/
structure Memory.HasLink (memory : Memory) (frm : UCell) (target : Place) : Prop where
  caller : memory.read? frm = some target.frm.toInt32
  returnAddress : memory.read? (frm + cellSize) = some target.cip.toInt32
  argBytes : memory.read? (frm + 2 * cellSize) = some 0

def linkBytes : Nat := 12

namespace LiveCall

/-- Where the machine is, while `g` are in flight; at `start` if there are none. -/
def placeOf (start : Place) : List LiveCall → Place
  | [] => start
  | c :: _ => c.place

/-- The lowest of the frames of some functions, or `bound` if there are none. -/
def lowest (bound : Nat) : List Place → Nat
  | [] => bound
  | p :: _ => p.frm.toNat

/-- The lowest of the frames of the functions in flight, or `bound` if there are none. -/
def floor (bound : Nat) : List LiveCall → Nat
  | [] => bound
  | c :: g => lowest (floor bound g) c.functions

/-- The place to which the innermost function returns; the outermost one was called by the host at
`origin`. -/
def returnPlace (origin : Place) : List Place → Place
  | [] => { origin with cip := 0 }
  | p :: _ => p

/-- Each function has its frame below the ones outside it, and linked to where it returns. -/
def FunctionsLinked (memory : Memory) (origin : Place) (bound : Nat) : List Place → Prop
  | [] => True
  | p :: ps =>
    p.frm.toNat + linkBytes ≤ lowest bound ps ∧ memory.HasLink p.frm (returnPlace origin ps) ∧
      FunctionsLinked memory origin bound ps

/-- A script function is running. -/
def RunsScript (g : List LiveCall) : Prop :=
  ∃ c g', g = c :: g' ∧ c.call.kind = .toPublic ∧ c.functions ≠ []

/-- A native is running. -/
def RunsNative (g : List LiveCall) : Prop :=
  ∃ c g', g = c :: g' ∧ c.call.kind = .toNative

/-- What is in flight without the innermost natives: the script that they run for, and what is
outside it. -/
def host (g : List LiveCall) : List LiveCall :=
  g.dropWhile fun c => c.call.kind == .toNative

/-- A script function is running, or a native that runs for one. -/
def Hosted (g : List LiveCall) : Prop :=
  RunsScript (host g)

/-- All that is in flight has its frames in memory, and was called from where the calls outside it
are. A native has no functions and runs for one. -/
def Linked (memory : Memory) (start : Place) (bound : Nat) : List LiveCall → Prop
  | [] => True
  | c :: g =>
    c.origin = placeOf start g ∧ (c.call.kind = .toNative → c.functions = [] ∧ Hosted g) ∧
      FunctionsLinked memory c.origin (floor bound g) c.functions ∧ Linked memory start bound g

/-! ## Natives and their scripts -/

section

variable {c : LiveCall} {g : List LiveCall}

theorem host_native (hc : c.call.kind = .toNative) (g : List LiveCall) :
    host (c :: g) = host g :=
  List.dropWhile_cons_of_pos (by rw [hc]; rfl)

theorem host_public (hc : c.call.kind = .toPublic) (g : List LiveCall) :
    host (c :: g) = c :: g :=
  List.dropWhile_cons_of_neg (by rw [hc]; decide)

theorem Hosted.cons (h : Hosted g) (hc : c.call.kind = .toNative) : Hosted (c :: g) := by
  rw [Hosted, host_native hc]
  exact h

theorem RunsScript.hosted (h : RunsScript g) : Hosted g := by
  obtain ⟨c, g', rfl, hkind, hne⟩ := h
  rw [Hosted, host_public hkind]
  exact ⟨c, g', rfl, hkind, hne⟩

end

/-! ## Where frames are -/

variable {memory memory' : Memory} {start : Place} {bound : Nat} {g : List LiveCall}

theorem FunctionsLinked.lowest_le {origin : Place} {ps : List Place}
    (h : FunctionsLinked memory origin bound ps) : lowest bound ps ≤ bound := by
  induction ps with
  | nil => exact Nat.le_refl _
  | cons p ps ih =>
      have hps := ih h.2.2
      have hp : p.frm.toNat + linkBytes ≤ lowest bound ps := h.1
      rw [lowest]
      omega

theorem Linked.floor_le (h : Linked memory start bound g) : floor bound g ≤ bound := by
  induction g with
  | nil => exact Nat.le_refl _
  | cons c g ih => exact Nat.le_trans h.2.2.1.lowest_le (ih h.2.2.2)

/-- The machine is in the lowest frame, or in none. -/
theorem Linked.floor_le_place (h : Linked memory start bound g)
    (hstart : start.frm = 0 ∨ bound ≤ start.frm.toNat) :
    (placeOf start g).frm = 0 ∨ floor bound g ≤ (placeOf start g).frm.toNat := by
  induction g with
  | nil => exact hstart
  | cons c g ih =>
      obtain ⟨horigin, -, -, hg⟩ := h
      rw [placeOf, place, floor]
      cases hfs : c.functions with
      | nil =>
          rw [List.headD_nil, horigin]
          exact ih hg
      | cons p ps => exact .inr (Nat.le_refl _)

/-! ## Changes of the memory -/

theorem hasLink_of_eq_above {frm : UCell} {target : Place} (h : memory.HasLink frm target)
    (hfrm : frm.toNat + linkBytes < UInt32.size)
    (heq : ∀ a : UCell, frm.toNat ≤ a.toNat → memory'.read? a = memory.read? a) :
    memory'.HasLink frm target := by
  have hone : (frm + cellSize).toNat = frm.toNat + 4 :=
    toNat_add_of_lt (Nat.lt_trans (Nat.add_lt_add_left (by decide) _) hfrm)
  have htwo : (frm + 2 * cellSize).toNat = frm.toNat + 8 :=
    toNat_add_of_lt (Nat.lt_trans (Nat.add_lt_add_left (by decide) _) hfrm)
  refine ⟨?_, ?_, ?_⟩
  · rw [heq _ (Nat.le_refl _)]
    exact h.caller
  · rw [heq _ (by omega)]
    exact h.returnAddress
  · rw [heq _ (by omega)]
    exact h.argBytes

theorem FunctionsLinked.of_eq_above {origin : Place} {ps : List Place}
    (h : FunctionsLinked memory origin bound ps) (hbound : bound < UInt32.size)
    (heq : ∀ a : UCell, lowest bound ps ≤ a.toNat → memory'.read? a = memory.read? a) :
    FunctionsLinked memory' origin bound ps := by
  induction ps with
  | nil => trivial
  | cons p ps ih =>
      obtain ⟨hle, hlink, hps⟩ := h
      have hlowest := hps.lowest_le
      have hlow : lowest bound (p :: ps) = p.frm.toNat := rfl
      simp only [linkBytes] at hle
      refine ⟨hle, ?_, ih hps fun a ha => heq a (by omega)⟩
      exact hasLink_of_eq_above hlink (by simp only [linkBytes]; omega)
        fun a ha => heq a (by omega)

/-- What is below the frames does not matter. -/
theorem Linked.of_eq_above (h : Linked memory start bound g) (hbound : bound < UInt32.size)
    (heq : ∀ a : UCell, floor bound g ≤ a.toNat → memory'.read? a = memory.read? a) :
    Linked memory' start bound g := by
  induction g with
  | nil => trivial
  | cons c g ih =>
      obtain ⟨horigin, hnative, hfunctions, hg⟩ := h
      have hfloor := hg.floor_le
      have hlowest := hfunctions.lowest_le
      have hlow : floor bound (c :: g) = lowest (floor bound g) c.functions := rfl
      refine ⟨horigin, hnative, ?_, ih hg fun a ha => heq a (by omega)⟩
      exact hfunctions.of_eq_above (by omega) heq

/-- The registers of a machine that is where the calls in flight are, with its stack below their
frames. -/
structure AtPlace (start : Place) (bound : Nat) (g : List LiveCall) (regs : Registers) : Prop where
  frm : regs.frm = (placeOf start g).frm
  cip : regs.cip = (placeOf start g).cip
  stk : regs.stk.toNat ≤ floor bound g

end LiveCall

/-! ## Reading links -/

theorem frameLink?_of_hasLink {m : Machine} {frm : UCell} {target : Place}
    (h : m.memory.HasLink frm target) (hfrm : frm.toNat + linkBytes < UInt32.size) (hne : frm ≠ 0) :
    m.view.frameLink? frm = some ⟨target.frm, target.cip, 0⟩ := by
  have habove : ∀ (cells : Nat) (address : UCell) (value : Cell), cells < 3 →
      frm + UInt32.ofNat (cellSize.toNat * cells) = address →
      m.memory.read? address = some value →
      m.view.cellAbove? frm cells = some value.toUInt32 := by
    intro cells address value hcells haddress hvalue
    have hlt : frm.toNat + cellSize.toNat * cells < UInt32.size := by
      simp only [linkBytes, show cellSize.toNat = 4 from rfl] at hfrm ⊢
      omega
    have hread : m.view.readCell (UInt32.ofNat (frm.toNat + cellSize.toNat * cells)) =
        some value := by
      rw [UInt32.ofNat_add, UInt32.ofNat_toNat, haddress]
      exact hvalue
    rw [VmView.cellAbove?, if_pos hlt, hread]
    rfl
  rw [VmView.frameLink?, if_neg hne, habove 0 frm _ (by decide) (UInt32.add_zero frm) h.caller,
    habove 1 _ _ (by decide) rfl h.returnAddress, habove 2 _ _ (by decide) rfl h.argBytes]
  rfl

/-! ## Pushing cells -/

namespace Machine

/-- From one machine to the other cells are pushed, if anything. -/
structure Lowers (m m' : Machine) : Prop where
  frm : m'.registers.frm = m.registers.frm
  cip : m'.registers.cip = m.registers.cip
  stk : m'.registers.stk.toNat ≤ m.registers.stk.toNat
  size : m'.memory.size = m.memory.size
  above : ∀ a : UCell, m.registers.stk.toNat ≤ a.toNat → m'.memory.read? a = m.memory.read? a

theorem Lowers.refl (m : Machine) : m.Lowers m :=
  ⟨rfl, rfl, Nat.le_refl _, rfl, fun _ _ => rfl⟩

theorem Lowers.trans {m m' m'' : Machine} (h : m.Lowers m') (h' : m'.Lowers m'') :
    m.Lowers m'' :=
  ⟨h'.frm.trans h.frm, h'.cip.trans h.cip, Nat.le_trans h'.stk h.stk, h'.size.trans h.size,
    fun a ha => (h'.above a (Nat.le_trans h.stk ha)).trans (h.above a ha)⟩

variable {m : Machine}

theorem stk_pushed (h : ¬ m.IsFull) (value : Cell) :
    (m.pushed value).registers.stk.toNat + 4 = m.registers.stk.toNat := by
  have hle : cellSize.toNat ≤ m.registers.stk.toNat := by
    rw [← UInt32.le_iff_toNat_le, ← UInt32.not_lt]
    exact fun hlt => h (.inl hlt)
  have hsub : (m.registers.stk - cellSize).toNat = m.registers.stk.toNat - cellSize.toNat :=
    UInt32.toNat_sub_of_le _ _ (UInt32.le_iff_toNat_le.mpr hle)
  have hcell : cellSize.toNat = 4 := rfl
  show (m.registers.stk - cellSize).toNat + 4 = _
  omega

/-- A push writes one cell below the stack, if the stack is in the data memory. -/
theorem write?_pushed (h : ¬ m.IsFull) (hstk : m.registers.stk.toNat ≤ m.memory.size)
    (value : Cell) :
    m.memory.write? (m.pushed value).registers.stk value = some (m.pushed value).memory := by
  have hs := stk_pushed h value
  have hb : m.memory.inBounds (m.pushed value).registers.stk = true :=
    Memory.inBounds_iff.mpr (by omega)
  have hwrite : m.memory.write? (m.registers.stk - cellSize) value =
      some (m.memory.setBytes (m.registers.stk - cellSize).toNat (Encode.i32 value)) := if_pos hb
  show _ = some ((m.memory.write? (m.registers.stk - cellSize) value).getD m.memory)
  rw [hwrite]
  exact hwrite

theorem lowers_pushed (h : ¬ m.IsFull) (hstk : m.registers.stk.toNat ≤ m.memory.size)
    (value : Cell) : m.Lowers (m.pushed value) := by
  have hs := stk_pushed h value
  have hw := write?_pushed h hstk value
  refine ⟨rfl, rfl, by omega, Memory.size_write? hw, fun a ha => ?_⟩
  exact Memory.read?_write?_of_disjoint hw (by omega)

theorem read?_pushed (h : ¬ m.IsFull) (hstk : m.registers.stk.toNat ≤ m.memory.size)
    (value : Cell) :
    (m.pushed value).memory.read? (m.pushed value).registers.stk = some value :=
  Memory.read?_write? (write?_pushed h hstk value)

/-! ## Making a frame -/

/-- From one machine to the other the frame of a function at `address` is made. -/
structure Enters (m : Machine) (address returnAddress : UCell) (m' : Machine) : Prop where
  frm : m'.registers.frm = m'.registers.stk
  cip : m'.registers.cip = address
  stk : m'.registers.stk.toNat + linkBytes = m.registers.stk.toNat
  size : m'.memory.size = m.memory.size
  above : ∀ a : UCell, m.registers.stk.toNat ≤ a.toNat → m'.memory.read? a = m.memory.read? a
  link : m'.memory.HasLink m'.registers.frm ⟨m.registers.frm, returnAddress⟩

theorem enters_entered {address returnAddress : UCell} (h₁ : ¬ m.IsFull)
    (h₂ : ¬ (m.pushed 0).IsFull) (h₃ : ¬ ((m.pushed 0).pushed returnAddress.toInt32).IsFull)
    (hstk : m.registers.stk.toNat ≤ m.memory.size) :
    m.Enters address returnAddress (m.entered address returnAddress) := by
  have hl₁ := lowers_pushed h₁ hstk 0
  have hs₁ := stk_pushed h₁ 0
  have hstk₁ : (m.pushed 0).registers.stk.toNat ≤ (m.pushed 0).memory.size := by
    rw [hl₁.size]
    omega
  have hl₂ := lowers_pushed h₂ hstk₁ returnAddress.toInt32
  have hs₂ := stk_pushed h₂ returnAddress.toInt32
  have hstk₂ : ((m.pushed 0).pushed returnAddress.toInt32).registers.stk.toNat ≤
      ((m.pushed 0).pushed returnAddress.toInt32).memory.size := by
    rw [hl₂.size]
    omega
  have hl₃ := lowers_pushed h₃ hstk₂ m.registers.frm.toInt32
  have hs₃ := stk_pushed h₃ m.registers.frm.toInt32
  have hl := (hl₁.trans hl₂).trans hl₃
  have hone : (m.entered address returnAddress).registers.frm + cellSize =
      ((m.pushed 0).pushed returnAddress.toInt32).registers.stk := UInt32.sub_add_cancel _ _
  have htwo : (m.entered address returnAddress).registers.frm + 2 * cellSize =
      (m.pushed 0).registers.stk := by
    show (m.pushed 0).registers.stk - cellSize - cellSize + 2 * cellSize = _
    rw [show (2 : UInt32) * cellSize = cellSize + cellSize from rfl, ← UInt32.add_assoc,
      UInt32.sub_add_cancel, UInt32.sub_add_cancel]
  refine ⟨rfl, rfl, ?_, hl.size, hl.above, ?_, ?_, ?_⟩
  · show (((m.pushed 0).pushed returnAddress.toInt32).pushed
      m.registers.frm.toInt32).registers.stk.toNat + 12 = _
    omega
  · exact read?_pushed h₃ hstk₂ m.registers.frm.toInt32
  · rw [hone]
    exact (hl₃.above _ (Nat.le_refl _)).trans (read?_pushed h₂ hstk₁ returnAddress.toInt32)
  · rw [htwo]
    refine (hl₃.above _ hl₂.stk).trans ((hl₂.above _ (Nat.le_refl _)).trans ?_)
    exact read?_pushed h₁ hstk 0

/-- A frame is made, or cells are pushed until the stack collides with the heap. -/
theorem enterFrame_spec (address returnAddress : UCell)
    (hstk : m.registers.stk.toNat ≤ m.memory.size) :
    (∃ m', MachineM.enterFrame address returnAddress m = .ok () m' ∧ m.SameModule m' ∧
        m.Enters address returnAddress m') ∨
      ∃ e m', MachineM.enterFrame address returnAddress m = .error e m' ∧ m.SameModule m' ∧
        m.Lowers m' := by
  rcases MachineM.enterFrame_cases address returnAddress m with
    ⟨h₁, h₂, h₃, hok⟩ | ⟨m', herr, rfl | ⟨h₁, rfl⟩ | ⟨h₁, h₂, rfl⟩⟩
  · exact .inl ⟨_, hok, m.sameModule_entered _ _, enters_entered h₁ h₂ h₃ hstk⟩
  · exact .inr ⟨_, _, herr, .refl _, .refl _⟩
  · exact .inr ⟨_, _, herr, m.sameModule_pushed 0, lowers_pushed h₁ hstk 0⟩
  · have hl₁ := lowers_pushed h₁ hstk 0
    have hs₁ := stk_pushed h₁ 0
    have hstk₁ : (m.pushed 0).registers.stk.toNat ≤ (m.pushed 0).memory.size := by
      rw [hl₁.size]
      omega
    exact .inr ⟨_, _, herr, (m.sameModule_pushed 0).trans ((m.pushed 0).sameModule_pushed _),
      hl₁.trans (lowers_pushed h₂ hstk₁ _)⟩

end Machine

namespace LiveCall

/-! ## Functions called and returned from -/

section

variable {m m' : Machine} {c : LiveCall} {start : Place} {bound : Nat} {g : List LiveCall}

theorem AtPlace.lowers (h : AtPlace start bound g m.registers) (hl : m.Lowers m') :
    AtPlace start bound g m'.registers :=
  ⟨hl.frm.trans h.frm, hl.cip.trans h.cip, Nat.le_trans hl.stk h.stk⟩

theorem Linked.above (h : Linked m.memory start bound g) (hat : AtPlace start bound g m.registers)
    (hbound : bound < UInt32.size)
    (heq : ∀ a : UCell, m.registers.stk.toNat ≤ a.toNat → m'.memory.read? a = m.memory.read? a) :
    Linked m'.memory start bound g :=
  h.of_eq_above hbound fun a ha => heq a (Nat.le_trans hat.stk ha)

theorem Linked.enter {address returnAddress : UCell} (h : Linked m.memory start bound (c :: g))
    (hat : AtPlace start bound (c :: g) m.registers) (hpublic : c.call.kind = .toPublic)
    (hbound : bound < UInt32.size) (he : m.Enters address returnAddress m')
    (hto : returnPlace c.origin c.functions = ⟨m.registers.frm, returnAddress⟩) :
    let c' : LiveCall := ⟨c.call, ⟨m'.registers.frm, address⟩ :: c.functions⟩
    Linked m'.memory start bound (c' :: g) ∧ AtPlace start bound (c' :: g) m'.registers := by
  have hkept := h.above hat hbound he.above
  obtain ⟨horigin, -, hfunctions, hg⟩ := hkept
  refine ⟨⟨horigin, fun hnative => ?_, ⟨?_, ?_, hfunctions⟩, hg⟩, rfl, he.cip, ?_⟩
  · rw [hpublic] at hnative
    cases hnative
  · have hstk := he.stk
    rw [← he.frm] at hstk
    exact Nat.le_trans (Nat.le_of_eq hstk) hat.stk
  · show m'.memory.HasLink m'.registers.frm (returnPlace c.origin c.functions)
    rw [hto]
    exact he.link
  · rw [← he.frm]
    exact Nat.le_refl _

/-- Giving up the frame of a function takes the machine back to where it was called. -/
theorem Linked.leave {p q : Place} {ps : List Place} {call : CallRecord}
    (h : Linked m.memory start bound (⟨call, p :: q :: ps⟩ :: g)) (hbound : bound < UInt32.size) :
    Linked m.memory start bound (⟨call, q :: ps⟩ :: g) ∧
      MachineM.leaveFrame p.frm m = .ok () (m.left p.frm q.frm q.cip) ∧
      AtPlace start bound (⟨call, q :: ps⟩ :: g) (m.left p.frm q.frm q.cip).registers := by
  obtain ⟨horigin, hnative, ⟨hle, hlink, hq⟩, hg⟩ := h
  have hlowest := hq.lowest_le
  have hfloor := hg.floor_le
  have hlow : lowest (floor bound g) (q :: ps) = q.frm.toNat := rfl
  simp only [linkBytes] at hle
  refine ⟨⟨horigin, fun hk => ?_, hq, hg⟩, ?_, rfl, rfl, ?_⟩
  · cases (hnative hk).1
  · rw [MachineM.leaveFrame, Act.bind_of_ok (MachineM.load_of_some hlink.caller),
      Act.bind_of_ok (MachineM.load_of_some hlink.returnAddress)]
    rfl
  · have hsize : (p.frm + Machine.frameLinkSize).toNat = p.frm.toNat + 12 :=
      toNat_add_of_lt (by show p.frm.toNat + 12 < _; omega)
    show (p.frm + Machine.frameLinkSize).toNat ≤ q.frm.toNat
    omega

end

end LiveCall

end ScriptDiag
