import ScriptDiag.Proofs.Rewiring

/-!
# Attaching and detaching compose

Each instance remembers what the slots held before it, so detectors that are attached to a machine
one after the other form a stack (`Stacked`). A detach that takes away the topmost leaves what was
below, and what happens on other machines does not matter. Hence attaches and detaches that are
properly nested (`Rewiring.nestedOn`) leave the slots as they were. `attach_and_detach_compose` puts
this together with what a detector knows of the machines it is attached to.
-/

namespace ScriptDiag

open Act

variable {w w' w₀ : World} {d id vm : Nat} {det : Detector} {m : Machine} {handle : VmHandle}

/-! ## Stacks of detectors -/

/-- What the slots of the machine with a handle hold: at the bottom what they held at the start, and
above it the interceptors of detectors attached one after the other, latest first. -/
inductive Stacked (start : Slots) (handle : VmHandle) (w : World) : List Nat → Slots → Prop where
  | nil : Stacked start handle w [] start
  | cons {d id : Nat} {opened : List Nat} {det : Detector} {i : Instance}
      (rest : Stacked start handle w opened i.previous) (fresh : d ∉ opened)
      (detector : w.detectors[d]? = some det)
      (registered : det.registry.find? handle = some id)
      (installed : det.installed.find? handle = some id)
      (exist : det.registry.instance? id = some i) :
      Stacked start handle w (d :: opened) (i.previous.install (.interceptor d id))

variable {start slots : Slots} {opened : List Nat}

theorem Stacked.isAttached (h : Stacked start handle w opened slots) (hd : d ∈ opened) :
    w.isAttached d handle = true := by
  induction h with
  | nil => cases hd
  | cons _ _ hdet hregistered _ _ ih =>
      rcases List.mem_cons.mp hd with rfl | hd
      · rw [World.isAttached, hdet, Option.any_some, Registry.contains, hregistered]
        rfl
      · exact ih hd

/-- What a detector knows about the machine with a handle stays as it is. -/
def World.KeepsWiring (w : World) (d : Nat) (handle : VmHandle) (w' : World) : Prop :=
  ∀ det id i, w.detectors[d]? = some det → det.registry.find? handle = some id →
    det.installed.find? handle = some id → det.registry.instance? id = some i →
    ∃ det', w'.detectors[d]? = some det' ∧ det'.registry.find? handle = some id ∧
      det'.installed.find? handle = some id ∧ det'.registry.instance? id = some i

theorem Stacked.mono (h : Stacked start handle w opened slots)
    (hkeep : ∀ d ∈ opened, w.KeepsWiring d handle w') : Stacked start handle w' opened slots := by
  induction h with
  | nil => exact .nil
  | cons _ hfresh hdet hregistered hinstalled hi ih =>
      obtain ⟨det', hdet', hregistered', hinstalled', hi'⟩ :=
        hkeep _ List.mem_cons_self _ _ _ hdet hregistered hinstalled hi
      exact .cons (ih fun d hd => hkeep d (List.mem_cons_of_mem _ hd)) hfresh hdet' hregistered'
        hinstalled' hi'

/-- A detector forgets a machine only when it is detached from it. -/
theorem Rewired.keepsWiring {op : Rewiring} (h : Rewired w op w') (hd : w.DistinctHandles)
    (hm : w.machines[vm]? = some m) (hnot : op ≠ .detach d vm) :
    w.KeepsWiring d m.handle w' := by
  intro det id i hdet hregistered hinstalled hi
  cases h with
  | @attach _ d₀ vm₀ det₀ m₀ i₀ hdet₀ hm₀ hfree _ hdetectors _ =>
      rw [hdetectors, World.detectors_attach hdet₀]
      by_cases hdd : d₀ = d
      · subst hdd
        obtain rfl := Option.some.inj (hdet.symm.trans hdet₀)
        have hne : m.handle ≠ m₀.handle := by
          intro heq
          rw [Registry.contains, ← heq, hregistered] at hfree
          cases hfree
        refine ⟨_, if_pos rfl, ?_, ?_, ?_⟩
        · exact (HandleMap.find?_insert _ _ _ _).trans ((if_neg hne).trans hregistered)
        · exact (HandleMap.find?_insert _ _ _ _).trans ((if_neg hne).trans hinstalled)
        · exact (List.getElem?_append_left (List.getElem?_eq_some_iff.mp hi).1).trans hi
      · exact ⟨det, (if_neg hdd).trans hdet, hregistered, hinstalled, hi⟩
  | @detach _ d₀ id₀ vm₀ det₀ m₀ hdet₀ hm₀ _ hdetectors _ =>
      rw [hdetectors, World.detectors_detach hdet₀]
      by_cases hdd : d₀ = d
      · subst hdd
        obtain rfl := Option.some.inj (hdet.symm.trans hdet₀)
        have hne : m.handle ≠ m₀.handle := fun heq => hnot (by rw [hd.eq hm hm₀ heq])
        refine ⟨_, if_pos rfl, ?_, ?_, hi⟩
        · exact (HandleMap.find?_erase _ _ _).trans ((if_neg hne).trans hregistered)
        · exact (HandleMap.find?_erase _ _ _).trans ((if_neg hne).trans hinstalled)
      · exact ⟨det, (if_neg hdd).trans hdet, hregistered, hinstalled, hi⟩
  | install hdetectors _ => exact ⟨det, hdetectors ▸ hdet, hregistered, hinstalled, hi⟩

/-- An attach puts one more detector on the stack. -/
theorem Stacked.attach (h : Stacked start m.handle w opened m.slots)
    (hr : Rewired w (.attach d vm) w') (hd : w.DistinctHandles)
    (hm : w.machines[vm]? = some m) :
    ∃ slots, w'.machines[vm]? = some { m with slots } ∧
      Stacked start m.handle w' (d :: opened) slots := by
  have hrest : Stacked start m.handle w' opened m.slots :=
    h.mono fun d' _ => hr.keepsWiring hd hm nofun
  cases hr with
  | @attach _ _ _ det m₀ i hdet hm₀ hfree hprevious hdetectors hmachines =>
      obtain rfl := Option.some.inj (hm.symm.trans hm₀)
      have hfresh : d ∉ opened := by
        intro hmem
        have hattached := h.isAttached hmem
        rw [World.isAttached, hdet, Option.any_some, hfree] at hattached
        cases hattached
      refine ⟨m.slots.install (.interceptor d det.registry.instances.length), ?_, ?_⟩
      · rw [hmachines, World.attach, World.machines_record, World.getElem?_modifyMachine,
          if_pos rfl, World.machines_modifyDetector, hm]
        rfl
      · rw [← hprevious] at hrest ⊢
        refine .cons hrest hfresh ((congrArg (·[d]?) hdetectors).trans
          ((World.detectors_attach hdet d).trans (if_pos rfl))) ?_ ?_ ?_
        · exact (HandleMap.find?_insert _ _ _ _).trans (if_pos rfl)
        · exact (HandleMap.find?_insert _ _ _ _).trans (if_pos rfl)
        · exact List.getElem?_concat_length ..

/-- A detach of the topmost detector leaves what was below. -/
theorem Stacked.detach (h : Stacked start m.handle w (d :: opened) m.slots)
    (hr : Rewired w (.detach d vm) w') (hd : w.DistinctHandles)
    (hm : w.machines[vm]? = some m) :
    ∃ slots, w'.machines[vm]? = some { m with slots } ∧
      Stacked start m.handle w' opened slots := by
  generalize hslots : m.slots = s at h
  cases h with
  | @cons _ id _ det i hrest hfresh hdet hregistered hinstalled hi =>
      have hrest : Stacked start m.handle w' opened i.previous :=
        hrest.mono fun d' hd' => hr.keepsWiring hd hm
          fun heq => hfresh ((Rewiring.detach.inj heq).1 ▸ hd')
      cases hr with
      | @detach _ _ id₀ _ det₀ m₀ hdet₀ hm₀ hid₀ _ hmachines =>
          obtain rfl := Option.some.inj (hm.symm.trans hm₀)
          obtain rfl := Option.some.inj (hdet.symm.trans hdet₀)
          obtain rfl := Option.some.inj (hregistered.symm.trans hid₀)
          refine ⟨i.previous, ?_, hrest⟩
          have hrestored : det.restored d id m = i.previous := by
            simp only [Detector.restored, hinstalled, hi, hslots, Option.map_some,
              Option.getD_some, Slots.restore_install]
          rw [hmachines, World.getElem?_modifyMachine, if_pos rfl, hm, Option.map_some, hrestored]

/-! ## Nested steps -/

namespace Rewiring

/-- The detectors with an open attach, latest first, after a step on the machine: a detach undoes
the latest, and no other party may change the slots. -/
def reopen : (opened : List Nat) → Rewiring → Option (List Nat)
  | opened, attach d _ => some (d :: opened)
  | d' :: opened, detach d _ => if d' = d then some opened else none
  | [], detach _ _ => none
  | _, install _ _ _ => none

/-- Whether the steps on a machine are properly nested, and no attach is open in the end. Steps that
fail do not count. -/
def nestedOn (vm : Nat) : (opened : List Nat) → List Rewiring → World → Bool
  | opened, [], _ => opened.isEmpty
  | opened, op :: ops, w =>
    if op.succeeds w && op.target == vm then
      (reopen opened op).any fun opened => nestedOn vm opened ops (op.act.after w)
    else nestedOn vm opened ops (op.act.after w)

end Rewiring

/-- Properly nested steps take off the stack what they put on it. -/
theorem Rewiring.slots_of_nestedOn (ops : List Rewiring) (hd : w.DistinctHandles)
    (hm : w.machines[vm]? = some m) (h : Stacked start m.handle w opened m.slots)
    (hnested : nestedOn vm opened ops w = true) :
    ∃ m', (run ops w).machines[vm]? = some m' ∧ m'.slots = start := by
  induction ops generalizing w m opened with
  | nil =>
      obtain rfl := List.isEmpty_iff.mp hnested
      refine ⟨m, hm, ?_⟩
      generalize m.slots = s at h
      cases h
      rfl
  | cons op ops ih =>
      rw [nestedOn] at hnested
      rcases op.cases w with ⟨hfails, hafter⟩ | ⟨hsucceeds, hr⟩
      · simp only [hfails, Bool.false_and, Bool.false_eq_true, if_false] at hnested
        rw [run, hafter] at *
        exact ih hd hm h hnested
      · have hd' := hr.distinctHandles hd
        rw [hsucceeds, Bool.true_and] at hnested
        by_cases htarget : op.target = vm
        · rw [if_pos (beq_iff_eq.mpr htarget)] at hnested
          obtain ⟨opened', hreopen, hnested⟩ := (Option.any_eq_true _ _).mp hnested
          cases op with
          | attach d vm₀ =>
              obtain rfl : vm₀ = vm := htarget
              obtain ⟨slots, hm', h'⟩ := h.attach hr hd hm
              exact ih hd' hm' (Option.some.inj hreopen ▸ h') hnested
          | detach d vm₀ =>
              obtain rfl : vm₀ = vm := htarget
              cases opened with
              | nil => cases hreopen
              | cons d' opened =>
                  obtain ⟨rfl, heq⟩ := Option.ite_none_right_eq_some.mp hreopen
                  obtain rfl := Option.some.inj heq
                  obtain ⟨slots, hm', h'⟩ := h.detach hr hd hm
                  exact ih hd' hm' h' hnested
          | install => cases opened <;> cases hreopen
        · rw [if_neg (by simpa using htarget)] at hnested
          obtain ⟨slots, hm', hslots⟩ := hr.machine hm
          obtain rfl := hslots htarget
          refine ih hd' hm' (h.mono fun d _ => hr.keepsWiring hd hm ?_) hnested
          rintro rfl
          exact htarget rfl

/-! ## Composition -/

/-- A detach that succeeds changes only slots in which the interceptor of the detector comes
first. -/
theorem Detector.restored_of_ne {slot : SlotName}
    (h : (det.restored d id m).get slot ≠ m.slots.get slot) :
    ∃ ours, det.installed.find? m.handle = some ours ∧
      Slots.holds (.interceptor d ours) (m.slots.get slot) = true := by
  rw [restored] at h
  cases hours : det.installed.find? m.handle with
  | none => simp [hours] at h
  | some ours =>
      refine ⟨ours, rfl, Bool.not_eq_false _ ▸ fun hholds => h ?_⟩
      simp only [hours]
      cases slot <;> exact if_neg (Bool.eq_false_iff.mp hholds)

theorem World.isAttached_of_some (hdet : w.detectors[d]? = some det) :
    w.isAttached d handle = det.registry.contains handle := by
  rw [isAttached, hdet, Option.any_some]

theorem attach_error_iff (hdet : w.detectors[d]? = some det) (hm : w.machines[vm]? = some m)
    (e : DiagError) (w' : World) :
    attach d vm w = .ok (.error e) w' ↔
      w.isAttached d m.handle = true ∧ e = .alreadyAttached m.handle ∧ w' = w := by
  rw [World.isAttached_of_some hdet]
  cases hc : det.registry.contains m.handle with
  | true =>
      rw [attach_of_registered hdet hm hc]
      constructor
      · intro h
        obtain ⟨he, rfl⟩ := EStateM.Result.ok.inj h
        exact ⟨rfl, (Except.error.inj he).symm, rfl⟩
      · rintro ⟨-, rfl, rfl⟩
        rfl
  | false =>
      obtain ⟨w₁, hok, -⟩ := attach_of_free hdet hm hc
      rw [hok]
      exact ⟨fun h => (by cases h), fun h => (by cases h.1)⟩

theorem detach_error_iff (hdet : w.detectors[d]? = some det) (hm : w.machines[vm]? = some m)
    (e : DiagError) (w' : World) :
    detach d vm w = .ok (.error e) w' ↔
      w.isAttached d m.handle = false ∧ e = .notAttached m.handle ∧ w' = w := by
  rw [World.isAttached_of_some hdet, Registry.contains]
  cases hid : det.registry.find? m.handle with
  | none =>
      rw [detach_of_free hdet hm hid]
      constructor
      · intro h
        obtain ⟨he, rfl⟩ := EStateM.Result.ok.inj h
        exact ⟨rfl, (Except.error.inj he).symm, rfl⟩
      · rintro ⟨-, rfl, rfl⟩
        rfl
  | some id =>
      obtain ⟨w₁, hok, -⟩ := detach_of_registered hdet hm hid
      rw [hok]
      exact ⟨fun h => (by cases h), fun h => (by cases h.1)⟩

/-- A detach changes a slot only of its own machine, and only one in which the interceptor of the
detector comes first. -/
theorem after_detach (d vm : Nat) {vm' : Nat} {m' : Machine} (hm' : w.machines[vm']? = some m') :
    ∃ slots, ((detach d vm).after w).machines[vm']? = some { m' with slots } ∧
      ∀ slot, slots.get slot ≠ m'.slots.get slot → vm' = vm ∧
        ∃ det ours, w.detectors[d]? = some det ∧ det.installed.find? m'.handle = some ours ∧
          Slots.holds (.interceptor d ours) (m'.slots.get slot) = true := by
  rcases (Rewiring.detach d vm).cases w with ⟨-, hafter⟩ | ⟨-, hr⟩
  · refine ⟨m'.slots, ?_, fun slot hne => absurd rfl hne⟩
    rw [show (detach d vm).after w = w from hafter]
    exact hm'
  · change Rewired w _ ((detach d vm).after w) at hr
    cases hr with
    | @detach _ _ id _ det m hdet hm hid _ hmachines =>
        rw [hmachines, World.getElem?_modifyMachine, hm']
        by_cases hvm : vm = vm'
        · rw [if_pos hvm]
          refine ⟨_, rfl, fun slot hne => ⟨hvm.symm, det, ?_⟩⟩
          obtain ⟨ours, hours, hholds⟩ := Detector.restored_of_ne hne
          exact ⟨ours, hdet, hours, hholds⟩
        · rw [if_neg hvm]
          exact ⟨m'.slots, rfl, fun slot hne => absurd rfl hne⟩

theorem World.Fresh.isAttached_eq (hw : w.Fresh) (d : Nat) (handle : VmHandle) :
    w.isAttached d handle = false := by
  cases hdet : w.detectors[d]? with
  | none => rw [isAttached, hdet, Option.any_none]
  | some det =>
      rw [World.isAttached_of_some hdet, hw.registries det (List.mem_of_getElem? hdet)]
      rfl

/-- **Attaching and detaching compose.** A host begins with detectors that were not used and
machines with different handles, and attaches, detaches and changes slots in any order. At every
moment a detector has an instance registered for a handle exactly if it knows interceptors for it,
and exactly if the last attach or detach of that machine that succeeded was an attach. An attach
fails exactly if the machine is attached, a detach exactly if it is not, and then nothing at all
changes. A detach changes slots of its own machine only, and only those in which the interceptor of
the detector comes first. And whatever steps come next, if those on a machine are properly nested,
its slots hold in the end what they hold now. -/
theorem attach_and_detach_compose (hw₀ : w₀.Fresh)
    (hinstalled : ∀ det ∈ w₀.detectors, det.installed = []) (hd : w₀.DistinctHandles)
    (ops : List Rewiring) :
    let w := Rewiring.run ops w₀
    (∀ d handle, w.isAttached d handle = w.hasInstalled d handle) ∧
      (∀ d vm m, w₀.machines[vm]? = some m →
        (w.isAttached d m.handle = true ↔
          Rewiring.lastWiring d vm ops w₀ = some (.attach d vm))) ∧
      (∀ d det vm m, w.detectors[d]? = some det → w.machines[vm]? = some m → ∀ e w',
        (attach d vm w = .ok (.error e) w' ↔
          w.isAttached d m.handle = true ∧ e = .alreadyAttached m.handle ∧ w' = w) ∧
        (detach d vm w = .ok (.error e) w' ↔
          w.isAttached d m.handle = false ∧ e = .notAttached m.handle ∧ w' = w)) ∧
      (∀ d vm vm' m', w.machines[vm']? = some m' →
        ∃ slots, ((detach d vm).after w).machines[vm']? = some { m' with slots } ∧
          ∀ slot, slots.get slot ≠ m'.slots.get slot → vm' = vm ∧
            ∃ det ours, w.detectors[d]? = some det ∧ det.installed.find? m'.handle = some ours ∧
              Slots.holds (.interceptor d ours) (m'.slots.get slot) = true) ∧
      ∀ vm m more, w.machines[vm]? = some m → Rewiring.nestedOn vm [] more w = true →
        ∃ m', (Rewiring.run more w).machines[vm]? = some m' ∧ m'.slots = m.slots := by
  have hwired : w₀.InstalledIsRegistered := fun d det hdet => by
    have hmem := List.mem_of_getElem? hdet
    rw [hinstalled det hmem, hw₀.registries det hmem]
  have hwired := Rewiring.run_induction Rewired.installedIsRegistered ops hwired
  have hd' := Rewiring.run_induction Rewired.distinctHandles ops hd
  refine ⟨hwired.isAttached_eq, fun d vm m hm => ?_, fun d det vm m hdet hm e w' =>
    ⟨attach_error_iff hdet hm e w', detach_error_iff hdet hm e w'⟩,
    fun d vm vm' m' hm' => after_detach d vm hm',
    fun vm m more hm hnested => Rewiring.slots_of_nestedOn more hd' hm .nil hnested⟩
  rw [Rewiring.isAttached_run ops hd hm d, hw₀.isAttached_eq, Rewiring.lastWiring_isAttach_iff]

/-- A host with two machines and two detectors. -/
def stackedHost : World where
  machines := [Machine.ofSize ⟨1⟩ 64, Machine.ofSize ⟨2⟩ 64]
  detectors := [{}, {}]

theorem stackedHost_fresh : stackedHost.Fresh :=
  World.fresh_of_arePlain rfl (by simp [stackedHost]) rfl

/-- The second detector is attached to the first machine above the first detector, which is attached
to the second machine meanwhile. -/
def stackedSteps : List Rewiring :=
  [.attach 0 0, .attach 1 0, .attach 0 1, .install 1 .exec fun chain => .layer 0 .forward :: chain,
    .detach 0 1, .attach 0 0, .detach 1 0, .detach 0 0]

/-- On the first machine the steps are properly nested, and its slots hold what they held. -/
theorem stackedHost_restores :
    stackedHost.Fresh ∧ (∀ det ∈ stackedHost.detectors, det.installed = []) ∧
      stackedHost.DistinctHandles ∧ Rewiring.nestedOn 0 [] stackedSteps stackedHost = true ∧
      ∃ m', (Rewiring.run stackedSteps stackedHost).machines[0]? = some m' ∧
        m'.slots = (Machine.ofSize ⟨1⟩ 64).slots := by
  have hinstalled : ∀ det ∈ stackedHost.detectors, det.installed = [] := by simp [stackedHost]
  have hd : stackedHost.DistinctHandles := by decide +kernel
  have hnested : Rewiring.nestedOn 0 [] stackedSteps stackedHost = true := by decide +kernel
  obtain ⟨-, -, -, -, h⟩ := attach_and_detach_compose stackedHost_fresh hinstalled hd []
  exact ⟨stackedHost_fresh, hinstalled, hd, hnested, h 0 _ stackedSteps rfl hnested⟩

/-- On the second machine another party put a layer in front, which stays. -/
example : ((Rewiring.run stackedSteps stackedHost).machines[1]?.map fun m => m.slots.exec) =
    some [.layer 0 .forward, .interceptor 0 1, .base] := by
  decide +kernel

end ScriptDiag
