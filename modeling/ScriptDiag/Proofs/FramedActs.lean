import ScriptDiag.Proofs.FrameChains
import ScriptDiag.Proofs.Runs
import ScriptDiag.Proofs.ShelteredStack

/-!
# Acts on a machine whose frames are linked

A body is tidy if it writes neither registers nor memory by itself, and a machine if all bodies
behind its tables are. From an `Outset` on, the frames in flight on a tidy machine are followed:
`Outset.On` says that they are linked in its memory, above the stack, and that the machine is in the
innermost of them.

An act respects a machine (`Act.Respects`) if it shelters what lies on the stack, and if it goes on
from linked frames to linked frames: to the same ones where it succeeds, and to those of the
functions that failed besides, where it fails. Once a body has caught an error, of the frames
nothing is said any more. Here this is shown for the ways to combine acts and for interceptors,
whatever they forward to.
-/

namespace ScriptDiag

/-! ## Tidy bodies -/

/-- Whether a statement writes neither registers nor memory. -/
def Stmt.isTidy : Stmt → Bool
  | .setRegisters _ _ _ _ | .write _ _ | .writeFrame _ _ => false
  | .setCip _ | .noteRegisters | .emit _ | .read _ | .call _ _ | .recurse _ _ _ _ | .native _ _
  | .exec _ | .execOn _ _ | .step | .attempt _ | .times _ _ | .fail _ | .finish _ | .finishWithSum
  | .panic | .crash _ _ | .runtimeError _ _ _ | .interrupt _ | .trace _ | .probe _ | .attach _
  | .detach _ => true

/-- Whether a body writes neither registers nor memory, and runs none that does. -/
def Body.isTidy : Body → Bool :=
  Body.all Stmt.isTidy

/-- A machine with its stack in place, and with tidy bodies behind its tables. -/
structure Machine.IsTidy (m : Machine) : Prop where
  stack : m.HasStack
  bodies : m.allBodies (fun _ => Body.isTidy) = true

instance (m : Machine) : Decidable m.IsTidy :=
  decidable_of_iff (m.HasStack ∧ m.allBodies (fun _ => Body.isTidy) = true)
    ⟨fun h => ⟨h.1, h.2⟩, fun h => ⟨h.stack, h.bodies⟩⟩

theorem Machine.Shelters.isTidy {m m' : Machine} (h : m.Shelters m') (hm : m.IsTidy) :
    m'.IsTidy := by
  refine ⟨h.hasStack hm.stack, ?_⟩
  rw [Machine.allBodies, h.natives, h.publics, h.main]
  exact hm.bodies

/-! ## Following the frames -/

/-- A moment from which on frames are followed: the frame that the machine is in, the end of its
stack, and what has happened. -/
structure Outset where
  start : UCell
  bound : UCell
  journal : List Event

namespace Outset

/-- The machine is in the innermost of the frames `fs`, which were made since. -/
structure On (O : Outset) (vm : Nat) (fs : List LiveFrame) (m : Machine) (w : World) : Prop where
  machine : w.machines[vm]? = some m
  tidy : m.IsTidy
  journal : ∃ es, w.journal = es ++ O.journal ∧ liveFrames vm es = fs
  linked : LiveFrame.Linked m.memory O.start O.bound.toNat fs
  frm : m.registers.frm = LiveFrame.innermost O.start fs
  stk : m.registers.stk.toNat ≤ LiveFrame.lowest O.bound.toNat fs

/-- A body has caught an error since. -/
def Caught (O : Outset) (w : World) : Prop :=
  ∃ es, w.journal = es ++ O.journal ∧ es.any Event.isCatch = true

/-- The frames `fs` are in flight, unless an error was caught. -/
def Holds (O : Outset) (vm : Nat) (fs : List LiveFrame) (w : World) : Prop :=
  (∃ m, O.On vm fs m w) ∨ O.Caught w

/-- The present moment, with no frames made yet. -/
def now (m : Machine) (w : World) : Outset where
  start := m.registers.frm
  bound := m.registers.stk
  journal := w.journal

variable {O : Outset} {vm : Nat} {fs : List LiveFrame} {m m' : Machine} {w w' : World}

theorem on_now (hm : w.machines[vm]? = some m) (ht : m.IsTidy) : (now m w).On vm [] m w :=
  ⟨hm, ht, ⟨[], rfl, rfl⟩, trivial, rfl, Nat.le_refl _⟩

theorem Caught.of_suffix (h : O.Caught w) (hw : w.journal <:+ w'.journal) : O.Caught w' := by
  obtain ⟨es, hes, hcatch⟩ := h
  obtain ⟨new, hnew⟩ := hw
  refine ⟨new ++ es, by rw [← hnew, hes, List.append_assoc], ?_⟩
  rw [List.any_append, hcatch, Bool.or_true]

theorem Holds.exists_append (h : O.Holds vm fs w) : ∃ es, w.journal = es ++ O.journal := by
  rcases h with ⟨m, h⟩ | ⟨es, hes, -⟩
  · obtain ⟨es, hes, -⟩ := h.journal
    exact ⟨es, hes⟩
  · exact ⟨es, hes⟩

/-- The frames stay linked as long as they are sheltered and none is made or given up. -/
theorem On.shelters (h : O.On vm fs m w) (hm : w'.machines[vm]? = some m') (hs : m.Shelters m')
    (hfrm : m'.registers.frm = m.registers.frm)
    (hw : w.GrowsBy (fun e => e.isFraming vm = false) w') : O.On vm fs m' w' := by
  obtain ⟨es, hes, hfs⟩ := h.journal
  obtain ⟨new, hnew, hstill⟩ := hw
  refine ⟨hm, hs.isTidy h.tidy, ⟨new ++ es, ?_, ?_⟩, ?_, hfrm.trans h.frm, ?_⟩
  · rw [hnew, hes, List.append_assoc]
  · rw [liveFrames_append hstill, hfs]
  · refine h.linked.of_eq_above O.bound.toNat_lt fun a ha => hs.above a ?_
    exact UInt32.le_iff_toNat_le.mpr (Nat.le_trans h.stk ha)
  · exact Nat.le_trans (UInt32.le_iff_toNat_le.mp hs.stk) h.stk

/-- A function is called, and its frame is the innermost then. -/
theorem On.enter {address returnAddress : UCell} {entry : Bool} (h : O.On vm fs m w)
    (hs : m.Shelters m') (he : m.Enters address returnAddress m')
    (hentry : entry = true → returnAddress = 0) (hm : w'.machines[vm]? = some m')
    (hw : w'.journal = .called vm m'.registers.frm address entry :: w.journal) :
    O.On vm (⟨m'.registers.frm, entry⟩ :: fs) m' w' := by
  obtain ⟨es, hes, hfs⟩ := h.journal
  have hstk := he.stk
  rw [← he.frm] at hstk
  refine ⟨hm, hs.isTidy h.tidy, ⟨.called vm m'.registers.frm address entry :: es, ?_, ?_⟩,
    ⟨?_, ⟨returnAddress, ?_, hentry⟩, ?_⟩, rfl, ?_⟩
  · rw [hw, hes]
    rfl
  · rw [liveFrames, hfs]
    exact if_pos rfl
  · exact Nat.le_trans (Nat.le_of_eq hstk) h.stk
  · show m'.memory.HasLink m'.registers.frm _
    rw [← h.frm]
    exact he.link
  · exact h.linked.of_eq_above O.bound.toNat_lt fun a ha => he.above a (Nat.le_trans h.stk ha)
  · rw [← he.frm]
    exact Nat.le_refl _

/-- The innermost function returns, to where the machine was in `m`. -/
theorem On.leave {f : LiveFrame} {m₂ : Machine} {w₂ : World} (h : O.On vm fs m w)
    (h₂ : O.On vm (f :: fs) m₂ w₂) (hs : m.Shelters (m₂.withRegisters m.registers))
    (hm : w'.machines[vm]? = some (m₂.withRegisters m.registers))
    (hw : w'.journal = .returned vm :: w₂.journal) :
    O.On vm fs (m₂.withRegisters m.registers) w' := by
  obtain ⟨es, hes, hfs⟩ := h₂.journal
  refine ⟨hm, hs.isTidy h.tidy, ⟨.returned vm :: es, ?_, ?_⟩, h₂.linked.2.2, h.frm, h.stk⟩
  · rw [hw, hes]
    rfl
  · rw [liveFrames, hfs]
    exact if_pos rfl

/-- Where no error was caught, the frames of the innermost public are visited. -/
theorem Holds.visits {es : List Event} {ps : List LiveFrame} (h : O.Holds vm fs w)
    (hm : w.machines[vm]? = some m) (hes : w.journal = es ++ O.journal)
    (hcatch : es.any Event.isCatch = false) (hps : publicFrames? (liveFrames vm es) = some ps)
    (hne : ∀ f ∈ ps, f.frm ≠ 0) : m.view.Visits ps := by
  rcases h with ⟨m', h⟩ | ⟨es', hes', hcatch'⟩
  · obtain ⟨es', hes', hfs⟩ := h.journal
    cases List.append_cancel_right (hes'.symm.trans hes)
    cases Option.some.inj (h.machine.symm.trans hm)
    rw [hfs] at hps
    exact LiveFrame.visits_of_linked h.linked O.bound.toNat_lt h.frm hps hne
  · cases List.append_cancel_right (hes'.symm.trans hes)
    rw [hcatch] at hcatch'
    cases hcatch'

end Outset

/-! ## Worlds between which frames are kept -/

namespace World

/-- The machine `vm` exists and is tidy. -/
def IsTidyAt (w : World) (vm : Nat) : Prop :=
  ∃ m, w.machines[vm]? = some m ∧ m.IsTidy

/-- From one world to the other what lies on the stack of `vm` is sheltered. -/
structure SheltersAt (vm : Nat) (w w' : World) : Prop where
  journal : w.journal <:+ w'.journal
  machine : ∀ {m}, w.machines[vm]? = some m → ∃ m', w'.machines[vm]? = some m' ∧ m.Shelters m'

/-- The frames in flight on `vm` are linked as before. -/
structure KeepsFrames (vm : Nat) (w w' : World) : Prop where
  shelters : w.SheltersAt vm w'
  holds : ∀ {O : Outset} {fs : List LiveFrame}, O.Holds vm fs w → O.Holds vm fs w'

/-- The frames in flight on `vm` are linked, those of functions that failed included. -/
structure LeavesFrames (vm : Nat) (w w' : World) : Prop where
  shelters : w.SheltersAt vm w'
  holds : ∀ {O : Outset} {fs : List LiveFrame}, O.Holds vm fs w → ∃ fs', O.Holds vm fs' w'

/-- A function is called on `vm`, in the frame `f`. -/
structure MakesFrame (vm : Nat) (f : LiveFrame) (w w' : World) : Prop where
  shelters : w.SheltersAt vm w'
  holds : ∀ {O : Outset} {fs : List LiveFrame}, O.Holds vm fs w → O.Holds vm (f :: fs) w'

variable {vm : Nat} {f : LiveFrame} {m m' : Machine} {w w' w'' : World}

theorem SheltersAt.of_eq (hm : w.machines[vm]? = some m)
    (hm' : w'.machines[vm]? = some m') (hs : m.Shelters m') (hw : w.journal <:+ w'.journal) :
    w.SheltersAt vm w' := by
  refine ⟨hw, fun hm₁ => ⟨m', hm', ?_⟩⟩
  cases Option.some.inj (hm.symm.trans hm₁)
  exact hs

theorem SheltersAt.trans (h : w.SheltersAt vm w') (h' : w'.SheltersAt vm w'') :
    w.SheltersAt vm w'' := by
  refine ⟨h.journal.trans h'.journal, fun hm => ?_⟩
  obtain ⟨m', hm', hs⟩ := h.machine hm
  obtain ⟨m'', hm'', hs'⟩ := h'.machine hm'
  exact ⟨m'', hm'', hs.trans hs'⟩

theorem SheltersAt.isTidyAt (h : w.SheltersAt vm w') (hw : w.IsTidyAt vm) : w'.IsTidyAt vm := by
  obtain ⟨m, hm, ht⟩ := hw
  obtain ⟨m', hm', hs⟩ := h.machine hm
  exact ⟨m', hm', hs.isTidy ht⟩

theorem KeepsFrames.leaves (h : w.KeepsFrames vm w') : w.LeavesFrames vm w' :=
  ⟨h.shelters, fun hw => ⟨_, h.holds hw⟩⟩

theorem KeepsFrames.trans (h : w.KeepsFrames vm w') (h' : w'.KeepsFrames vm w'') :
    w.KeepsFrames vm w'' :=
  ⟨h.shelters.trans h'.shelters, fun hw => h'.holds (h.holds hw)⟩

theorem LeavesFrames.after_keeps (h' : w'.LeavesFrames vm w'') (h : w.KeepsFrames vm w') :
    w.LeavesFrames vm w'' :=
  ⟨h.shelters.trans h'.shelters, fun hw => h'.holds (h.holds hw)⟩

theorem LeavesFrames.then_keeps (h : w.LeavesFrames vm w') (h' : w'.KeepsFrames vm w'') :
    w.LeavesFrames vm w'' := by
  refine ⟨h.shelters.trans h'.shelters, fun hw => ?_⟩
  obtain ⟨fs', hw'⟩ := h.holds hw
  exact ⟨fs', h'.holds hw'⟩

/-- The machine goes from `m` to `m'`, in the same frame, and no function is called or returns. -/
theorem keepsFrames_of_shelters (hm : w.machines[vm]? = some m) (hm' : w'.machines[vm]? = some m')
    (hs : m.Shelters m') (hfrm : m'.registers.frm = m.registers.frm)
    (hw : w.GrowsBy (fun e => e.isFraming vm = false) w') : w.KeepsFrames vm w' := by
  refine ⟨.of_eq hm hm' hs hw.suffix, fun hholds => ?_⟩
  rcases hholds with ⟨m₁, hon⟩ | hcaught
  · cases Option.some.inj (hm.symm.trans hon.machine)
    exact .inl ⟨m', hon.shelters hm' hs hfrm hw⟩
  · exact .inr (hcaught.of_suffix hw.suffix)

theorem StillAt.keepsFrames (h : w.StillAt vm w') (hw : w.IsTidyAt vm) : w.KeepsFrames vm w' := by
  obtain ⟨m, hm, -⟩ := hw
  obtain ⟨m', hm', hcore⟩ := h.machine hm
  exact keepsFrames_of_shelters hm hm' (Machine.shelters_of_core hcore)
    (by rw [Machine.registers_eq_of_core hcore]) h.journal

theorem machine_modifyMachine (h : w.machines[vm]? = some m) (m' : Machine) :
    (w.modifyMachine vm fun _ => m').machines[vm]? = some m' := by
  rw [getElem?_modifyMachine, if_pos rfl, h]
  rfl

theorem makesFrame_of_enters {address returnAddress : UCell} {entry : Bool}
    (hm : w.machines[vm]? = some m) (hm' : w'.machines[vm]? = some m') (hs : m.Shelters m')
    (he : m.Enters address returnAddress m') (hentry : entry = true → returnAddress = 0)
    (hw : w'.journal = .called vm m'.registers.frm address entry :: w.journal) :
    w.MakesFrame vm ⟨m'.registers.frm, entry⟩ w' := by
  have hsuffix : w.journal <:+ w'.journal := hw ▸ List.suffix_cons _ _
  refine ⟨.of_eq hm hm' hs hsuffix, fun hholds => ?_⟩
  rcases hholds with ⟨m₁, hon⟩ | hcaught
  · cases Option.some.inj (hm.symm.trans hon.machine)
    exact .inl ⟨m', hon.enter hs he hentry hm' hw⟩
  · exact .inr (hcaught.of_suffix hsuffix)

/-- The function fails, and its frame stays. -/
theorem MakesFrame.then_leaves (h : w.MakesFrame vm f w') (h' : w'.LeavesFrames vm w'') :
    w.LeavesFrames vm w'' :=
  ⟨h.shelters.trans h'.shelters, fun hholds => h'.holds (h.holds hholds)⟩

/-- The function returns, and the registers are put back. -/
theorem MakesFrame.then_returns {m₂ : Machine} {w₁ w₂ : World} (h : w.MakesFrame vm f w₁)
    (h' : w₁.KeepsFrames vm w₂) (hm : w.machines[vm]? = some m) (hm₂ : w₂.machines[vm]? = some m₂)
    (hm' : w'.machines[vm]? = some (m₂.withRegisters m.registers))
    (hw : w'.journal = .returned vm :: w₂.journal) : w.KeepsFrames vm w' := by
  have hbetween := h.shelters.trans h'.shelters
  have hsuffix : w₂.journal <:+ w'.journal := hw ▸ List.suffix_cons _ _
  have hs : m.Shelters (m₂.withRegisters m.registers) := by
    obtain ⟨m₁, hm₁, hs⟩ := hbetween.machine hm
    cases Option.some.inj (hm₂.symm.trans hm₁)
    exact hs.withRegisters
  refine ⟨.of_eq hm hm' hs (hbetween.journal.trans hsuffix), fun hholds => ?_⟩
  rcases hholds with ⟨m₁, hon⟩ | hcaught
  · cases Option.some.inj (hm.symm.trans hon.machine)
    rcases h'.holds (h.holds (.inl ⟨m, hon⟩)) with ⟨m₁, hon₂⟩ | hcaught
    · cases Option.some.inj (hm₂.symm.trans hon₂.machine)
      exact .inl ⟨_, hon.leave hon₂ hs hm' hw⟩
    · exact .inr (hcaught.of_suffix hsuffix)
  · exact .inr (hcaught.of_suffix (hbetween.journal.trans hsuffix))

/-- How an act that was run in `w` has ended. -/
def Respects {α : Type} (vm : Nat) (w : World) : EStateM.Result Stop World α → Prop
  | .ok _ w' => w.KeepsFrames vm w'
  | .error _ w' => w.LeavesFrames vm w'

theorem Respects.after_keeps {α : Type} {result : EStateM.Result Stop World α}
    (h : w'.Respects vm result) (hw : w.KeepsFrames vm w') : w.Respects vm result := by
  cases result with
  | ok a w'' => exact hw.trans h
  | error s w'' => exact LeavesFrames.after_keeps h hw

end World

namespace Act

variable {α β : Type} {vm : Nat} {m : Machine} {w w' : World}

/-! ## Acts that respect a machine -/

/-- If the machine `vm` is tidy, the act respects it. -/
def Respects (vm : Nat) (x : Act α) (w : World) : Prop :=
  w.IsTidyAt vm → w.Respects vm (x w)

theorem Respects.leaves {x : Act α} (h : Respects vm x w) (hw : w.IsTidyAt vm) :
    w.LeavesFrames vm (x.after w) := by
  have h := h hw
  rw [after]
  cases hr : x w with
  | ok a w' =>
      rw [hr] at h
      exact World.KeepsFrames.leaves h
  | error s w' =>
      rw [hr] at h
      exact h

theorem respects_of_keeps {x : Act α} (h : w.IsTidyAt vm → w.KeepsFrames vm (x.after w)) :
    Respects vm x w := by
  intro hw
  have h := h hw
  rw [after] at h
  cases hr : x w with
  | ok a w' =>
      rw [hr] at h
      exact h
  | error s w' =>
      rw [hr] at h
      exact h.leaves

theorem respects_of_still {x : Act α} (hx : Still vm x) : Respects vm x w :=
  respects_of_keeps (hx w).keepsFrames

/-! ## One act after another -/

theorem Respects.bind {x : Act α} {f : α → Act β} (hx : Respects vm x w)
    (hf : ∀ a w', Respects vm (f a) w') : Respects vm (x >>= f) w := by
  intro hw
  have h := hx hw
  rw [bind_apply]
  cases hr : x w with
  | ok a w' =>
      rw [hr] at h
      exact (hf a w' (h.shelters.isTidyAt hw)).after_keeps h
  | error s w' =>
      rw [hr] at h
      exact h

theorem Respects.then_still {x : Act α} {f : α → Act β} (hx : Respects vm x w)
    (hf : ∀ a, Still vm (f a)) : Respects vm (x >>= f) w :=
  hx.bind fun a _ => respects_of_still (hf a)

theorem Still.then_respects {x : Act α} {f : α → Act β} (hx : Still vm x)
    (hf : ∀ a w', Respects vm (f a) w') : Respects vm (x >>= f) w :=
  (respects_of_still hx).bind hf

/-- The machine read is tidy if it is `vm`. -/
theorem respects_machine_bind {vm' : Nat} {f : Machine → Act α}
    (hf : ∀ m, w.machines[vm']? = some m → (vm' = vm → m.IsTidy) → Respects vm (f m) w) :
    Respects vm (machine vm' >>= f) w := by
  intro hw
  cases hm' : w.machines[vm']? with
  | none =>
      have hstill : Respects vm (machine vm') w := respects_of_still (still_machine vm')
      have h := hstill hw
      rw [machine_of_none hm'] at h
      rw [bind_of_error (machine_of_none hm')]
      exact h
  | some m' =>
      rw [bind_of_ok (machine_of_some hm')]
      refine hf m' hm' ?_ hw
      rintro rfl
      obtain ⟨m, hm, ht⟩ := hw
      cases Option.some.inj (hm.symm.trans hm')
      exact ht

theorem Respects.ensuring {x : Act α} {f : World → World} (hx : Respects vm x w)
    (hf : ∀ w : World, w.StillAt vm (f w)) : Respects vm (ensuring x f) w := by
  intro hw
  have h := hx hw
  rw [Act.ensuring]
  cases hr : x w with
  | ok a w' =>
      rw [hr] at h
      exact World.KeepsFrames.trans h ((hf w').keepsFrames (h.shelters.isTidyAt hw))
  | error s w' =>
      rw [hr] at h
      exact World.LeavesFrames.then_keeps h ((hf w').keepsFrames (h.shelters.isTidyAt hw))

/-! ## Errors passed on -/

/-- An act fails, or the journal tells that a body has caught an error. -/
def PassesOn (x : Act α) (w : World) : Prop :=
  (∃ s w', x w = .error s w') ∨
    ∃ es, (x.after w).journal = es ++ w.journal ∧ es.any Event.isCatch = true

theorem passesOn_throw (s : Stop) (w : World) : PassesOn (throw s : Act α) w :=
  .inl ⟨s, w, rfl⟩

theorem bind_throw_apply (β : Type) (x : Act α) (s : Stop) (w : World) :
    ∃ s' w', (x >>= fun _ => (throw s : Act β)) w = .error s' w' := by
  cases h : x w with
  | ok a w' => exact ⟨s, w', bind_of_ok h⟩
  | error s' w' => exact ⟨s', w', bind_of_error h⟩

/-- What is done about an error leaves the frames where the error did, if the error is passed on. -/
theorem respects_of_passesOn {y : Act β} (h : w.LeavesFrames vm w') (hw : w.IsTidyAt vm)
    (hy : Still vm y) (hend : PassesOn y w') : w.Respects vm (y w') := by
  have hkept := (hy w').keepsFrames (h.shelters.isTidyAt hw)
  rcases hend with ⟨s, w'', hs⟩ | ⟨es, hes, hcatch⟩
  · rw [after_of_error hs] at hkept
    rw [hs]
    exact h.then_keeps hkept
  · have hcaught : w.KeepsFrames vm (y.after w') := by
      refine ⟨h.shelters.trans hkept.shelters, fun hholds => .inr ?_⟩
      obtain ⟨fs', hholds⟩ := h.holds hholds
      obtain ⟨past, hpast⟩ := hholds.exists_append
      refine ⟨es ++ past, by rw [hes, hpast, List.append_assoc], ?_⟩
      rw [List.any_append, hcatch, Bool.true_or]
    rw [after] at hcaught
    cases hr : y w' with
    | ok b w'' =>
        rw [hr] at hcaught
        exact hcaught
    | error s w'' =>
        rw [hr] at hcaught
        exact hcaught.leaves

theorem Respects.attempt_bind {x : Act α} {f : Except VmError α → Act β}
    (hx : Respects vm x w) (hok : ∀ a w', Respects vm (f (.ok a)) w')
    (herror : ∀ e, Still vm (f (.error e))) (hend : ∀ e w', PassesOn (f (.error e)) w') :
    Respects vm (attempt x >>= f) w := by
  intro hw
  have h := hx hw
  cases hr : x w with
  | ok a w' =>
      rw [hr] at h
      rw [bind_of_ok (attempt_of_ok hr)]
      exact (hok a w' (h.shelters.isTidyAt hw)).after_keeps h
  | error s w' =>
      rw [hr] at h
      cases s with
      | error e =>
          rw [bind_of_ok (attempt_of_error hr)]
          exact respects_of_passesOn h hw (herror e) (hend e w')
      | panic =>
          rw [bind_of_error (attempt_of_stop hr nofun)]
          exact h
      | outOfFuel =>
          rw [bind_of_error (attempt_of_stop hr nofun)]
          exact h

/-! ## Interceptors and layers -/

theorem respects_tracked {d id vm' : Nat} {kind : CallKind} {index : Cell} {body : Act α}
    (hbody : ∀ w, Respects vm body w) :
    Respects vm (tracked d id vm' kind index body) w :=
  (still_enterCall kind index).then_respects fun call w' =>
    (hbody w').ensuring fun w => stillAt_leaveCall call.seq w

theorem still_faultNative {d id vm' : Nat} (index : Cell) (fault : NativeFault) (e : VmError) :
    Still vm (faultNative d id vm' index fault e) :=
  (still_onNativeFault index fault).bind fun _ => still_throw _

theorem respects_interceptNative {d id vm' : Nat} {index : Cell} {next : Option (Act Cell)}
    (hnext : ∀ x, next = some x → ∀ w, Respects vm x w) :
    Respects vm (interceptNative d id vm' index next) w := by
  refine respects_tracked fun w => (still_machine vm').then_respects fun m w => ?_
  split
  · exact respects_of_still (still_faultNative index _ _)
  · split
    · exact respects_of_still (still_faultNative index _ _)
    · cases next with
      | none => exact respects_of_still (still_faultNative index _ _)
      | some x =>
          refine (hnext x rfl w).attempt_bind (fun _ _ => respects_of_still (still_pure _))
            (fun e => ?_) (fun e w => ?_)
          · cases e with
            | exit => exact still_throw _
            | _ => exact still_faultNative index _ _
          · cases e with
            | exit => exact passesOn_throw _ _
            | _ => exact .inl (bind_throw_apply _ _ _ _)

theorem respects_interceptExec {d id vm' : Nat} {index : Cell} {next : Option (Act Cell)}
    (hnext : ∀ w, Respects vm (next.getD (fail .notInitialized)) w) :
    Respects vm (interceptExec d id vm' index next) w := by
  refine still_clearLatchIfIdle.then_respects fun _ _ => respects_tracked fun w => ?_
  refine (hnext w).attempt_bind (fun _ _ => respects_of_still (still_pure _)) (fun e => ?_)
    (fun e w => ?_)
  · exact (still_onRuntimeError index e).bind fun _ => still_throw _
  · exact .inl (bind_throw_apply _ _ _ _)

theorem respects_layer {number : Nat} {mode : LayerMode} {success : α} {next : Act α}
    (hnext : ∀ w, Respects vm next w) :
    Respects vm (Run.layer number mode success next) w := by
  refine (still_record rfl).then_respects fun _ w => ?_
  cases mode with
  | forward => exact hnext w
  | drop => exact respects_of_still (still_pure _)
  | fail e => exact respects_of_still (still_throw _)

/-! ## Acts that restore the registers -/

/-- If the act succeeds, the registers of the machine `vm` are those from before, provided that the
machine was tidy. -/
def Restores (vm : Nat) (x : Act α) (w : World) : Prop :=
  ∀ m, w.machines[vm]? = some m → m.IsTidy → ∀ a w', x w = .ok a w' →
    ∃ m', w'.machines[vm]? = some m' ∧ m'.registers = m.registers

theorem restores_of_still {x : Act α} (hx : Still vm x) : Restores vm x w := by
  intro m hm ht a w' hok
  obtain ⟨m', hm', hcore⟩ := (hx w).machine hm
  rw [after_of_ok hok] at hm'
  exact ⟨m', hm', Machine.registers_eq_of_core hcore⟩

theorem restores_throw (s : Stop) : Restores vm (throw s : Act α) w :=
  restores_of_still (still_throw s)

theorem Still.then_restores {x : Act α} {f : α → Act β} (hx : Still vm x)
    (hf : ∀ a w', Restores vm (f a) w') : Restores vm (x >>= f) w := by
  intro m hm ht b w'' hok
  cases h : x w with
  | error s w' =>
      rw [bind_of_error h] at hok
      cases hok
  | ok a w' =>
      obtain ⟨m', hm', hcore⟩ := (hx w).machine hm
      rw [after_of_ok h] at hm'
      rw [bind_of_ok h] at hok
      obtain ⟨m'', hm'', hregs⟩ :=
        hf a w' m' hm' ((Machine.shelters_of_core hcore).isTidy ht) b w'' hok
      exact ⟨m'', hm'', hregs.trans (Machine.registers_eq_of_core hcore)⟩

theorem restores_machine_bind {f : Machine → Act α}
    (hf : ∀ m, w.machines[vm]? = some m → m.IsTidy → Restores vm (f m) w) :
    Restores vm (machine vm >>= f) w := by
  intro m hm ht a w' hok
  rw [bind_of_ok (machine_of_some hm)] at hok
  exact hf m hm ht m hm ht a w' hok

theorem Restores.ensuring {x : Act α} {f : World → World} (hx : Restores vm x w)
    (hf : ∀ w : World, w.StillAt vm (f w)) : Restores vm (ensuring x f) w := by
  intro m hm ht a w'' hok
  cases h : x w with
  | error s w' =>
      rw [ensuring_of_error h] at hok
      cases hok
  | ok b w' =>
      rw [ensuring_of_ok h] at hok
      cases hok
      obtain ⟨m', hm', hregs⟩ := hx m hm ht _ w' h
      obtain ⟨m'', hm'', hcore⟩ := (hf w').machine hm'
      exact ⟨m'', hm'', (Machine.registers_eq_of_core hcore).trans hregs⟩

theorem restores_tracked {d id vm' : Nat} {kind : CallKind} {index : Cell} {body : Act α}
    (hbody : ∀ w, Restores vm body w) : Restores vm (tracked d id vm' kind index body) w :=
  (still_enterCall kind index).then_restores fun call w' =>
    (hbody w').ensuring fun w => stillAt_leaveCall call.seq w

theorem restores_interceptExec {d id vm' : Nat} {index : Cell} {next : Option (Act Cell)}
    (hnext : ∀ w, Restores vm (next.getD (fail .notInitialized)) w) :
    Restores vm (interceptExec d id vm' index next) w := by
  refine still_clearLatchIfIdle.then_restores fun _ w => restores_tracked fun w => ?_
  intro m hm ht value w'' hok
  rw [answerPublic] at hok
  cases h : next.getD (fail .notInitialized) w with
  | ok b w' =>
      rw [bind_of_ok (attempt_of_ok h)] at hok
      cases hok
      exact hnext w m hm ht _ _ h
  | error s w' =>
      cases s with
      | error e =>
          rw [bind_of_ok (attempt_of_error h)] at hok
          obtain ⟨s, w₂, herror⟩ := bind_throw_apply Cell
            (onRuntimeError d id vm' index e) (.error e) w'
          exact absurd (hok.symm.trans herror) nofun
      | panic =>
          rw [bind_of_error (attempt_of_stop h nofun)] at hok
          cases hok
      | outOfFuel =>
          rw [bind_of_error (attempt_of_stop h nofun)] at hok
          cases hok

theorem restores_layer {number : Nat} {mode : LayerMode} {success : α} {next : Act α}
    (hnext : ∀ w, Restores vm next w) : Restores vm (Run.layer number mode success next) w := by
  refine (still_record rfl).then_restores fun _ w => ?_
  cases mode with
  | forward => exact hnext w
  | drop => exact restores_of_still (still_pure _)
  | fail e => exact restores_throw _

end Act

end ScriptDiag
