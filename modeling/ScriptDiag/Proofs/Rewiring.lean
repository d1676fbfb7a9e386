import ScriptDiag.Proofs.Tracking

/-!
# Attaching and detaching

Detectors are attached to machines and detached from them in whatever order, and other parties
change the slots in between. A step of this kind either fails and changes nothing, or does what
`Rewired` says (`Rewiring.cases`); all else is read off that. A detector is attached to those
machines of which the last of its attaches and detaches that succeeded was an attach
(`Rewiring.isAttached_run`).
-/

namespace ScriptDiag

open Act

variable {w w' : World} {d id vm : Nat} {det : Detector} {m : Machine} {handle : VmHandle}

/-! ## Steps -/

/-- A step that changes what is in the slots of a machine: a detector is attached or detached, or
some other party changes what a slot holds. -/
inductive Rewiring where
  | attach (detector vm : Nat)
  | detach (detector vm : Nat)
  | install (vm : Nat) (slot : SlotName) (change : Chain → Chain)

namespace Rewiring

def act : Rewiring → Act (Except DiagError Unit)
  | attach d vm => Act.attach d vm
  | detach d vm => Act.detach d vm
  | install vm slot change => Session.setSlot vm slot change *> pure (.ok ())

/-- The machine that a step is about. -/
def target : Rewiring → Nat
  | attach _ vm | detach _ vm | install vm _ _ => vm

/-- Whether a step attaches this detector to this machine, or detaches it. -/
def concerns (d vm : Nat) : Rewiring → Bool
  | attach d' vm' | detach d' vm' => d' == d && vm' == vm
  | install _ _ _ => false

def isAttach : Rewiring → Bool
  | attach _ _ => true
  | detach _ _ | install _ _ _ => false

def succeeds (op : Rewiring) (w : World) : Bool :=
  match op.act w with
  | .ok (.ok ()) _ => true
  | _ => false

/-- The world after some steps, whether they succeed or not. -/
def run : List Rewiring → World → World
  | [], w => w
  | op :: ops, w => run ops (op.act.after w)

/-- Those of some steps that succeed. -/
def successes : List Rewiring → World → List Rewiring
  | [], _ => []
  | op :: ops, w =>
    let rest := successes ops (op.act.after w)
    if op.succeeds w then op :: rest else rest

/-- The last successful attach or detach of a machine by a detector. -/
def lastWiring (d vm : Nat) (ops : List Rewiring) (w : World) : Option Rewiring :=
  ((successes ops w).filter (concerns d vm)).getLast?

end Rewiring

/-! ## What a step does -/

/-- The slots of a machine after the instance numbered `id` is no longer registered for it. -/
def Detector.restored (det : Detector) (d id : Nat) (m : Machine) : Slots :=
  match det.installed.find? m.handle with
  | none => m.slots
  | some ours => m.slots.restore (.interceptor d ours)
      (((det.registry.instance? id).map Instance.previous).getD Slots.none)

/-- What a step that succeeds does to the detectors and the machines. -/
inductive Rewired (w : World) : Rewiring → World → Prop where
  | attach {w' : World} {d vm : Nat} {det : Detector} {m : Machine} {i : Instance}
      (detector : w.detectors[d]? = some det) (machine : w.machines[vm]? = some m)
      (free : det.registry.contains m.handle = false) (previous : i.previous = m.slots)
      (detectors : w'.detectors = (w.attach d vm det m.handle i).detectors)
      (machines : w'.machines = (w.attach d vm det m.handle i).machines) :
      Rewired w (.attach d vm) w'
  | detach {w' : World} {d id vm : Nat} {det : Detector} {m : Machine}
      (detector : w.detectors[d]? = some det) (machine : w.machines[vm]? = some m)
      (registered : det.registry.find? m.handle = some id)
      (detectors : w'.detectors = (w.detach d id vm m.handle).detectors)
      (machines : w'.machines = (w.modifyMachine vm fun m =>
        { m with slots := det.restored d id m }).machines) :
      Rewired w (.detach d vm) w'
  | install {w' : World} {vm : Nat} {slot : SlotName} {change : Chain → Chain}
      (detectors : w'.detectors = w.detectors)
      (machines : w'.machines = (w.modifyMachine vm fun m =>
        { m with slots := m.slots.set slot (change (m.slots.get slot)) }).machines) :
      Rewired w (.install vm slot change) w'

theorem attach_of_registered (hdet : w.detectors[d]? = some det) (hm : w.machines[vm]? = some m)
    (hc : det.registry.contains m.handle = true) :
    attach d vm w = .ok (.error (.alreadyAttached m.handle)) w := by
  rw [attach, bind_of_ok (machine_of_some hm), bind_of_ok (detector_of_some hdet), if_pos hc,
    pure_apply]

theorem attach_of_free (hdet : w.detectors[d]? = some det) (hm : w.machines[vm]? = some m)
    (hc : det.registry.contains m.handle = false) :
    ∃ w', attach d vm w = .ok (.ok ()) w' ∧ Rewired w (.attach d vm) w' := by
  rw [attach, bind_of_ok (machine_of_some hm), bind_of_ok (detector_of_some hdet),
    if_neg (Bool.eq_false_iff.mp hc), bind_of_ok (forM_log_apply _ w),
    bind_of_ok (loadInstance_apply m _)]
  obtain ⟨line, hok⟩ := install_apply vm m (Instance.load w.files m.view m.slots).1
    (w := (w.logAll (emptySlotWarnings m)).logAll (Instance.load w.files m.view m.slots).2) hdet hc
  exact ⟨_, hok, .attach hdet hm hc rfl rfl rfl⟩

theorem detach_of_free (hdet : w.detectors[d]? = some det) (hm : w.machines[vm]? = some m)
    (hid : det.registry.find? m.handle = none) :
    detach d vm w = .ok (.error (.notAttached m.handle)) w := by
  rw [detach, bind_of_ok (machine_of_some hm), bind_of_ok (detector_of_some hdet), Registry.remove,
    hid]
  rfl

theorem restoreSlots_apply (w : World) (d vm : Nat) (m : Machine) (before : Slots)
    (ours : Option Nat) :
    ∃ w', restoreSlots d vm m before ours w = .ok () w' ∧ w'.detectors = w.detectors ∧
      w'.machines = (w.modifyMachine vm fun m => { m with slots :=
        match ours with
        | none => m.slots
        | some ours => m.slots.restore (.interceptor d ours) before }).machines := by
  cases ours with
  | none => exact ⟨w, rfl, rfl, (List.modify_id vm w.machines).symm⟩
  | some ours =>
      rw [restoreSlots, bind_of_ok (modify_apply _ w)]
      split
      · exact ⟨_, log_apply _ _ _, rfl, rfl⟩
      · exact ⟨_, rfl, rfl, rfl⟩

theorem detach_of_registered (hdet : w.detectors[d]? = some det) (hm : w.machines[vm]? = some m)
    (hid : det.registry.find? m.handle = some id) :
    ∃ w', detach d vm w = .ok (.ok ()) w' ∧ Rewired w (.detach d vm) w' := by
  have hworld : (w.modifyDetector d fun det' => { det' with
      registry := det.registry.dismiss m.handle
      installed := det'.installed.erase m.handle }).record (.detached d id vm) =
      w.detach d id vm m.handle :=
    congrArg (World.record · _) (World.modifyDetector_congr hdet rfl)
  obtain ⟨w', hok, hdetectors, hmachines⟩ := restoreSlots_apply (w.detach d id vm m.handle) d vm m
    ((((det.registry.dismiss m.handle).instance? id).map Instance.previous).getD Slots.none)
    (det.installed.find? m.handle)
  have hdetach : detach d vm w = .ok (.ok ()) (w'.record
      (.log { level := .debug, message := s!"detached from {m.handle.text}" })) := by
    rw [detach, bind_of_ok (machine_of_some hm), bind_of_ok (detector_of_some hdet),
      Registry.remove, hid]
    show (modify _ >>= fun _ => record _ >>= fun _ => restoreSlots _ _ _ _ _ >>= fun _ => _) w = _
    rw [bind_of_ok (modify_apply _ w), bind_of_ok (record_apply _ _)]
    rw [← hworld] at hok
    exact (bind_of_ok hok).trans (bind_of_ok (log_apply _ _ _))
  refine ⟨_, hdetach, .detach hdet hm hid hdetectors (hmachines.trans ?_)⟩
  exact World.modify_congr hm rfl

/-- A step changes nothing, or succeeds and does what it should. -/
theorem Rewiring.cases (op : Rewiring) (w : World) :
    op.succeeds w = false ∧ op.act.after w = w ∨
      op.succeeds w = true ∧ Rewired w op (op.act.after w) := by
  have hfails : ∀ {r : EStateM.Result Stop World (Except DiagError Unit)}, op.act w = r →
      (∃ s, r = .error s w) ∨ (∃ e, r = .ok (.error e) w) →
      op.succeeds w = false ∧ op.act.after w = w := by
    rintro r h (⟨s, rfl⟩ | ⟨e, rfl⟩)
    · exact ⟨by rw [succeeds, h], after_of_error h⟩
    · exact ⟨by rw [succeeds, h], after_of_ok h⟩
  have hsucceeds : ∀ {w' : World}, op.act w = .ok (.ok ()) w' → Rewired w op w' →
      op.succeeds w = true ∧ Rewired w op (op.act.after w) := by
    intro w' h hr
    exact ⟨by rw [succeeds, h], (after_of_ok h).symm ▸ hr⟩
  cases hm : w.machines[op.target]? with
  | none =>
      refine .inl (hfails (r := .error .panic w) ?_ (.inl ⟨_, rfl⟩))
      cases op with
      | attach d vm | detach d vm => exact bind_of_error (machine_of_none hm)
      | install vm slot change => exact bind_of_error (bind_of_error (machine_of_none hm))
  | some m =>
      cases op with
      | attach d vm =>
          cases hdet : w.detectors[d]? with
          | none =>
              refine .inl (hfails ((bind_of_ok (machine_of_some hm)).trans
                (bind_of_error (detector_of_none hdet))) (.inl ⟨_, rfl⟩))
          | some det =>
              cases hc : det.registry.contains m.handle with
              | true => exact .inl (hfails (attach_of_registered hdet hm hc) (.inr ⟨_, rfl⟩))
              | false =>
                  obtain ⟨w', hok, hr⟩ := attach_of_free hdet hm hc
                  exact .inr (hsucceeds hok hr)
      | detach d vm =>
          cases hdet : w.detectors[d]? with
          | none =>
              refine .inl (hfails ((bind_of_ok (machine_of_some hm)).trans
                (bind_of_error (detector_of_none hdet))) (.inl ⟨_, rfl⟩))
          | some det =>
              cases hid : det.registry.find? m.handle with
              | none => exact .inl (hfails (detach_of_free hdet hm hid) (.inr ⟨_, rfl⟩))
              | some id =>
                  obtain ⟨w', hok, hr⟩ := detach_of_registered hdet hm hid
                  exact .inr (hsucceeds hok hr)
      | install vm slot change =>
          have hset : Session.setSlot vm slot change w = .ok () (w.modifyMachine vm fun m =>
              { m with slots := m.slots.set slot (change (m.slots.get slot)) }) :=
            bind_of_ok (machine_of_some hm)
          exact .inr (hsucceeds (bind_of_ok hset) (.install rfl rfl))

/-! ## Machines after a step -/

/-- No two machines have the same handle. -/
def World.DistinctHandles (w : World) : Prop :=
  (w.machines.map Machine.handle).Nodup

instance World.decidableDistinctHandles (w : World) : Decidable w.DistinctHandles :=
  inferInstanceAs (Decidable (w.machines.map Machine.handle).Nodup)

theorem World.DistinctHandles.eq {vm vm' : Nat} {m m' : Machine} (h : w.DistinctHandles)
    (hm : w.machines[vm]? = some m) (hm' : w.machines[vm']? = some m')
    (heq : m.handle = m'.handle) : vm = vm' := by
  have hmap : ∀ {vm : Nat} {m : Machine}, w.machines[vm]? = some m →
      (w.machines.map Machine.handle)[vm]? = some m.handle := fun hm => by
    rw [List.getElem?_map, hm, Option.map_some]
  have hlt : vm < (w.machines.map Machine.handle).length :=
    (List.getElem?_eq_some_iff.mp (hmap hm)).1
  exact (List.getElem?_inj hlt h).mp ((hmap hm).trans (heq ▸ (hmap hm').symm))

/-- A step that succeeds changes the slots of the machine that it is about, and no other machine. -/
theorem Rewired.machine {op : Rewiring} (h : Rewired w op w') (hm : w.machines[vm]? = some m) :
    ∃ slots, w'.machines[vm]? = some { m with slots } ∧ (op.target ≠ vm → slots = m.slots) := by
  have hmodify : ∀ {f : Machine → Slots},
      w'.machines = (w.modifyMachine op.target fun m => { m with slots := f m }).machines →
      ∃ slots, w'.machines[vm]? = some { m with slots } ∧ (op.target ≠ vm → slots = m.slots) := by
    intro f hf
    rw [hf, World.getElem?_modifyMachine, hm]
    split
    case isTrue heq => exact ⟨_, rfl, fun hne => absurd heq hne⟩
    case isFalse => exact ⟨m.slots, rfl, fun _ => rfl⟩
  cases h with
  | attach _ _ _ _ _ hmachines => exact hmodify hmachines
  | detach _ _ _ _ hmachines => exact hmodify hmachines
  | install _ hmachines => exact hmodify hmachines

theorem Rewired.length_machines {op : Rewiring} (h : Rewired w op w') :
    w'.machines.length = w.machines.length := by
  cases h with
  | attach _ _ _ _ _ hmachines | detach _ _ _ _ hmachines | install _ hmachines =>
      rw [hmachines]
      exact List.length_modify ..

theorem Rewired.handles_eq {op : Rewiring} (h : Rewired w op w') :
    w'.machines.map Machine.handle = w.machines.map Machine.handle := by
  apply List.ext_getElem?
  intro n
  rw [List.getElem?_map, List.getElem?_map]
  cases hm : w.machines[n]? with
  | some m =>
      obtain ⟨slots, hm', -⟩ := h.machine hm
      rw [hm']
      rfl
  | none =>
      rw [List.getElem?_eq_none_iff, ← h.length_machines, ← List.getElem?_eq_none_iff] at hm
      rw [hm]

theorem Rewired.distinctHandles {op : Rewiring} (h : Rewired w op w')
    (hd : w.DistinctHandles) : w'.DistinctHandles := by
  rw [World.DistinctHandles, h.handles_eq]
  exact hd

/-! ## Detectors after a step -/

/-- Whether a detector has an instance registered for a handle. -/
def World.isAttached (w : World) (d : Nat) (handle : VmHandle) : Bool :=
  w.detectors[d]?.any fun det => det.registry.contains handle

/-- Whether a detector knows interceptors that it put into the machine with a handle. -/
def World.hasInstalled (w : World) (d : Nat) (handle : VmHandle) : Bool :=
  w.detectors[d]?.any fun det : Detector => (det.installed.find? handle).isSome

/-- What a detector knows of its interceptors is what is registered. -/
def World.InstalledIsRegistered (w : World) : Prop :=
  ∀ (d : Nat) (det : Detector), w.detectors[d]? = some det → det.installed = det.registry.registered

theorem World.InstalledIsRegistered.isAttached_eq (h : w.InstalledIsRegistered) (d : Nat)
    (handle : VmHandle) : w.isAttached d handle = w.hasInstalled d handle := by
  rw [isAttached, hasInstalled]
  cases hdet : w.detectors[d]? with
  | none => rfl
  | some det =>
      rw [Option.any_some, Option.any_some, h d det hdet, Registry.contains, Registry.find?]

/-- The detectors after an attach. -/
theorem World.detectors_attach {i : Instance} (hdet : w.detectors[d]? = some det)
    (d' : Nat) :
    (w.attach d vm det handle i).detectors[d']? =
      if d = d' then some { det with
        registry := det.registry.enroll handle i
        installed := det.installed.insert handle det.registry.instances.length }
      else w.detectors[d']? := by
  rw [attach, detectors_record, detectors_modifyMachine, getElem?_modifyDetector]
  split
  case isTrue heq => rw [← heq, hdet]; rfl
  case isFalse => rfl

/-- The detectors after a detach. -/
theorem World.detectors_detach (hdet : w.detectors[d]? = some det) (d' : Nat) :
    (w.detach d id vm handle).detectors[d']? =
      if d = d' then some { det with
        registry := det.registry.dismiss handle, installed := det.installed.erase handle }
      else w.detectors[d']? := by
  rw [detach, detectors_record, getElem?_modifyDetector]
  split
  case isTrue heq => rw [← heq, hdet]; rfl
  case isFalse => rfl

theorem Rewired.installedIsRegistered {op : Rewiring} (h : Rewired w op w')
    (hw : w.InstalledIsRegistered) : w'.InstalledIsRegistered := by
  intro d' det' hdet'
  cases h with
  | attach hdet _ _ _ hdetectors _ =>
      rw [hdetectors, World.detectors_attach hdet] at hdet'
      split at hdet'
      · obtain rfl := Option.some.inj hdet'
        exact congrArg (HandleMap.insert · _ _) (hw _ _ hdet)
      · exact hw d' det' hdet'
  | detach hdet _ _ hdetectors _ =>
      rw [hdetectors, World.detectors_detach hdet] at hdet'
      split at hdet'
      · obtain rfl := Option.some.inj hdet'
        exact congrArg (HandleMap.erase · _) (hw _ _ hdet)
      · exact hw d' det' hdet'
  | install hdetectors _ => exact hw d' det' (hdetectors ▸ hdet')

theorem World.isAttached_of_change {d₀ : Nat} {det' : Detector} {b : Bool}
    (hdet : w.detectors[d₀]? = some det)
    (hchange : ∀ d, w'.detectors[d]? = if d₀ = d then some det' else w.detectors[d]?)
    (hcontains : ∀ other, det'.registry.contains other =
      if other = handle then b else det.registry.contains other) (d : Nat) (other : VmHandle) :
    w'.isAttached d other = if d₀ = d ∧ other = handle then b else w.isAttached d other := by
  rw [isAttached, isAttached, hchange]
  by_cases hd : d₀ = d
  · subst hd
    rw [if_pos rfl, hdet, Option.any_some, Option.any_some, hcontains]
    simp only [true_and]
  · rw [if_neg hd, if_neg fun h => hd h.1]

theorem Registry.contains_enroll (r : Registry) (handle other : VmHandle) (i : Instance) :
    (r.enroll handle i).contains other = if other = handle then true else r.contains other := by
  rw [contains, Registry.find?, enroll, HandleMap.find?_insert]
  split <;> rfl

theorem Registry.contains_dismiss (r : Registry) (handle other : VmHandle) :
    (r.dismiss handle).contains other = if other = handle then false else r.contains other := by
  rw [contains, Registry.find?, dismiss, HandleMap.find?_erase]
  split <;> rfl

/-- Only an attach or a detach of this machine by this detector changes whether it is attached. -/
theorem Rewired.isAttached_eq {op : Rewiring} (h : Rewired w op w') (hd : w.DistinctHandles)
    (hm : w.machines[vm]? = some m) (d : Nat) :
    w'.isAttached d m.handle =
      if op.concerns d vm then op.isAttach else w.isAttached d m.handle := by
  have hsame : ∀ {d₀ vm₀ : Nat} {m₀ : Machine}, w.machines[vm₀]? = some m₀ →
      ((d₀ = d ∧ m.handle = m₀.handle) ↔ (d₀ == d && vm₀ == vm) = true) := by
    intro d₀ vm₀ m₀ hm₀
    rw [Bool.and_eq_true, beq_iff_eq, beq_iff_eq]
    refine and_congr_right fun _ => ⟨fun heq => (hd.eq hm hm₀ heq).symm, ?_⟩
    rintro rfl
    rw [Option.some.inj (hm.symm.trans hm₀)]
  cases h with
  | attach hdet hm₀ _ _ hdetectors _ =>
      rw [World.isAttached_of_change hdet (fun d => hdetectors ▸ World.detectors_attach hdet d)
        (fun _ => Registry.contains_enroll _ _ _ _) d, if_congr (hsame hm₀) rfl rfl]
      rfl
  | detach hdet hm₀ _ hdetectors _ =>
      rw [World.isAttached_of_change hdet (fun d => hdetectors ▸ World.detectors_detach hdet d)
        (fun _ => Registry.contains_dismiss _ _ _) d, if_congr (hsame hm₀) rfl rfl]
      rfl
  | install hdetectors _ =>
      rw [World.isAttached, hdetectors]
      rfl

/-! ## Any number of steps -/

namespace Rewiring

/-- What each step that succeeds preserves, and a step that fails, holds after all of them. -/
theorem run_induction {p : World → Prop} (hstep : ∀ {w w' : World} {op : Rewiring},
    Rewired w op w' → p w → p w') (ops : List Rewiring) (hw : p w) : p (run ops w) := by
  induction ops generalizing w with
  | nil => exact hw
  | cons op ops ih =>
      rcases op.cases w with ⟨-, hafter⟩ | ⟨-, hr⟩
      · rw [run, hafter]
        exact ih hw
      · exact ih (hstep hr hw)

/-- A detector is attached to a machine if the last step of this kind that succeeded was an
attach. -/
theorem isAttached_run (ops : List Rewiring) (hd : w.DistinctHandles)
    (hm : w.machines[vm]? = some m) (d : Nat) :
    (run ops w).isAttached d m.handle =
      ((lastWiring d vm ops w).map isAttach).getD (w.isAttached d m.handle) := by
  induction ops generalizing w m with
  | nil => rfl
  | cons op ops ih =>
      rw [run, lastWiring, successes]
      rcases op.cases w with ⟨hfails, hafter⟩ | ⟨hsucceeds, hr⟩
      · simp only [hfails, Bool.false_eq_true, if_false, hafter]
        exact ih hd hm
      · obtain ⟨slots, hm', -⟩ := hr.machine hm
        have hrest := ih (hr.distinctHandles hd) hm'
        rw [hr.isAttached_eq hd hm] at hrest
        rw [hrest, lastWiring]
        simp only [hsucceeds, if_true]
        cases hc : op.concerns d vm with
        | false =>
            rw [List.filter_cons_of_neg (Bool.eq_false_iff.mp hc), if_neg Bool.false_ne_true]
        | true =>
            rw [List.filter_cons_of_pos hc, List.getLast?_cons, if_pos rfl]
            cases ((successes ops (op.act.after w)).filter (concerns d vm)).getLast? <;> rfl

theorem eq_attach_of_concerns {op : Rewiring} (hc : op.concerns d vm = true)
    (ha : op.isAttach = true) : op = .attach d vm := by
  cases op with
  | attach d' vm' =>
      simp only [concerns, Bool.and_eq_true, beq_iff_eq] at hc
      rw [hc.1, hc.2]
  | detach | install => cases ha

theorem lastWiring_isAttach_iff {ops : List Rewiring} :
    ((lastWiring d vm ops w).map isAttach).getD false = true ↔
      lastWiring d vm ops w = some (.attach d vm) := by
  cases h : lastWiring d vm ops w with
  | none => simp
  | some op =>
      have hmem : op ∈ (successes ops w).filter (concerns d vm) := List.mem_of_getLast? h
      have hc := (List.mem_filter.mp hmem).2
      constructor
      · exact fun ha => congrArg some (eq_attach_of_concerns hc ha)
      · intro heq
        rw [Option.some.inj heq]
        rfl

end Rewiring

end ScriptDiag
