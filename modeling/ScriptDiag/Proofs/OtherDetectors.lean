import ScriptDiag.Proofs.Rewiring
import ScriptDiag.Proofs.Twins

/-!
# What passes a detector by

What one detector does leaves the others as they are, and a call goes only to the interceptors that
the slots of its machine lead to. So if no slot of some machines leads to a detector, and no body
behind their tables names it, whatever these machines do passes it by (`World.Spares`): it is as
before, and the journal tells nothing of it. It stays so, since a detach puts back only what a slot
held before, and that led nowhere either (`World.Avoids`).

This is shown here for what other detectors do, with their interceptors, whatever these forward to;
`ScriptDiag.Proofs.SparedRuns` shows it for chains and bodies.
-/

namespace ScriptDiag

open Act

variable {w w' w'' : World} {d d₀ : Nat} {vms : List Nat}

/-! ## What leads to a detector -/

/-- The detector that an event is about. -/
def Event.detector? : Event → Option Nat
  | .entered d _ _ | .left d _ _ | .failed d _ _ _ | .latchArmed d | .latchCleared d | .report d _
  | .terminate d _ _ | .crashed d | .interruptRequested d | .interruptTaken d | .attached d _ _
  | .detached d _ _ => some d
  | .log _ | .note _ | .layer _ | .base _ _ | .called _ _ _ _ | .returned _ | .moved _ _ => none

/-- The instance of a detector whose interceptor is the first that a call gets to, if all links
before pass the call on. -/
def Chain.leadsTo? (d : Nat) : Chain → Option Nat
  | [] | .base :: _ => none
  | .layer _ mode :: chain => if mode = .forward then Chain.leadsTo? d chain else none
  | .interceptor d' id :: chain => if d' = d then some id else Chain.leadsTo? d chain

/-- A call through the chain does not get to detector `d`. -/
def Chain.Avoids (d : Nat) (chain : Chain) : Prop :=
  Chain.leadsTo? d chain = none

/-- No slot leads to detector `d`. -/
def Slots.Avoid (s : Slots) (d : Nat) : Prop :=
  ∀ slot, Chain.Avoids d (s.get slot)

/-- Whether a statement tells detector `d` of nothing, neither attaches nor detaches it, and runs
none but the machines `vms`. -/
def Stmt.avoids (d : Nat) (vms : List Nat) : Stmt → Bool
  | .execOn vm _ => vms.contains vm
  | .crash d' _ | .runtimeError d' _ _ | .interrupt d' | .attach d' | .detach d' => d' != d
  | .setCip _ | .setRegisters _ _ _ _ | .noteRegisters | .emit _ | .write _ _ | .writeFrame _ _
  | .read _ | .call _ _ | .recurse _ _ _ _ | .native _ _ | .exec _ | .step | .attempt _
  | .times _ _ | .fail _ | .finish _ | .finishWithSum | .panic | .trace _ | .probe _ => true

def Body.avoids (d : Nat) (vms : List Nat) : Body → Bool :=
  Body.all (Stmt.avoids d vms)

/-- The machine has nothing to do with detector `d`. -/
structure Machine.Avoids (m : Machine) (d : Nat) (vms : List Nat) : Prop where
  slots : m.slots.Avoid d
  bodies : m.allBodies (fun _ => Body.avoids d vms) = true

/-- The machines `vms` have nothing to do with detector `d`, now and after other detectors are
detached from them. -/
structure World.Avoids (w : World) (d : Nat) (vms : List Nat) : Prop where
  machines : ∀ vm ∈ vms, ∀ m, w.machines[vm]? = some m → m.Avoids d vms
  previous : ∀ vm ∈ vms, ∀ m, w.machines[vm]? = some m → ∀ d' r, d' ≠ d →
    w.registryAt? d' = some r → ∀ id i, (m.handle, id) ∈ r.registered →
      r.instance? id = some i → i.previous.Avoid d

theorem Chain.avoids_nil : Chain.Avoids d [] :=
  rfl

theorem Chain.Avoids.cons {chain : Chain} (h : Chain.Avoids d chain) (hne : d₀ ≠ d) (id : Nat) :
    Chain.Avoids d (.interceptor d₀ id :: chain) :=
  (if_neg hne).trans h

theorem Chain.Avoids.restoreChain {chain before : Chain} (h : Chain.Avoids d chain)
    (hb : Chain.Avoids d before) (link : Link) :
    Chain.Avoids d (Slots.restoreChain link chain before) := by
  rw [Slots.restoreChain]
  split
  · exact hb
  · exact h

theorem Slots.Avoid.install {s : Slots} (h : s.Avoid d) (hne : d₀ ≠ d) (id : Nat) :
    (s.install (.interceptor d₀ id)).Avoid d
  | .hook => (h .hook).cons hne id
  | .dispatcher => (h .dispatcher).cons hne id
  | .exec => (h .exec).cons hne id

theorem Slots.Avoid.restore {s before : Slots} (h : s.Avoid d) (hb : before.Avoid d)
    (link : Link) : (s.restore link before).Avoid d
  | .hook => (h .hook).restoreChain (hb .hook) link
  | .dispatcher => (h .dispatcher).restoreChain (hb .dispatcher) link
  | .exec => (h .exec).restoreChain (hb .exec) link

theorem Slots.avoid_none : Slots.none.Avoid d
  | .hook | .dispatcher | .exec => Chain.avoids_nil

theorem Machine.Avoids.of_sameModule {m m' : Machine} (h : m.Avoids d vms)
    (hsame : m.SameModule m') : m'.Avoids d vms := by
  refine ⟨hsame.slots ▸ h.slots, ?_⟩
  rw [allBodies, hsame.natives, hsame.publics, hsame.main]
  exact h.bodies

/-- What avoids a detector goes on to, if machines keep their handles and the bodies behind their
tables, and other detectors register nothing. -/
theorem World.Avoids.mono (h : w.Avoids d vms)
    (hm : ∀ vm ∈ vms, ∀ m', w'.machines[vm]? = some m' →
      ∃ m, w.machines[vm]? = some m ∧ m'.handle = m.handle ∧ m'.Avoids d vms)
    (hr : ∀ d' r', d' ≠ d → w'.registryAt? d' = some r' → ∃ r, w.registryAt? d' = some r ∧
      r'.registered ⊆ r.registered ∧
        r'.instances.map Instance.previous = r.instances.map Instance.previous) :
    w'.Avoids d vms := by
  refine ⟨fun vm hvm m' hm' => ?_, fun vm hvm m' hm' d' r' hne hr' id i' hid hi' => ?_⟩
  · obtain ⟨m, -, -, h'⟩ := hm vm hvm m' hm'
    exact h'
  · obtain ⟨m, hm₁, hhandle, -⟩ := hm vm hvm m' hm'
    obtain ⟨r, hr₁, hsub, hprevious⟩ := hr d' r' hne hr'
    have hmap : (r.instances.map Instance.previous)[id]? = some i'.previous := by
      rw [← hprevious, List.getElem?_map]
      exact congrArg (Option.map Instance.previous) hi'
    rw [List.getElem?_map] at hmap
    obtain ⟨i, hi, hsame⟩ := Option.map_eq_some_iff.mp hmap
    rw [hhandle] at hid
    exact hsame ▸ h.previous vm hvm m hm₁ d' r hne hr₁ id i (hsub hid) hi

theorem World.Avoids.of_changesBy (h : w.Avoids d vms) (hm : w'.machines = w.machines)
    {f : Registry → Registry} (hc : w.ChangesBy d₀ f w') (hf : Registry.IsMild f) :
    w'.Avoids d vms := by
  refine h.mono (fun vm hvm m hm' => ?_) fun d' r' _ hr' => ?_
  · rw [hm] at hm'
    exact ⟨m, hm', rfl, h.machines vm hvm m hm'⟩
  · rw [hc] at hr'
    split at hr'
    · obtain ⟨r, hr, rfl⟩ := Option.map_eq_some_iff.mp hr'
      exact ⟨r, hr, (hf.registered r).subset, hf.previous r⟩
    · exact ⟨r', hr', List.Subset.refl _, rfl⟩

theorem World.Avoids.modifyMachine (h : w.Avoids d vms) (vm : Nat) {f : Machine → Machine}
    (hf : ∀ m, w.machines[vm]? = some m → m.SameModule (f m)) :
    (w.modifyMachine vm f).Avoids d vms := by
  refine h.mono (fun vm' hvm' m' hm' => ?_) fun d' r' _ hr' =>
    ⟨r', hr', List.Subset.refl _, rfl⟩
  rw [World.getElem?_modifyMachine] at hm'
  split at hm'
  case isTrue heq =>
    subst heq
    obtain ⟨m, hm, rfl⟩ := Option.map_eq_some_iff.mp hm'
    exact ⟨m, hm, (hf m hm).handle, (h.machines vm hvm' m hm).of_sameModule (hf m hm)⟩
  case isFalse => exact ⟨m', hm', rfl, h.machines vm' hvm' m' hm'⟩

/-- No machine at all is to avoid the detector. -/
theorem World.avoids_nil (w : World) (d : Nat) : w.Avoids d [] :=
  ⟨nofun, nofun⟩

/-! ## Worlds in which a detector is spared -/

/-- Detector `d` is as it was, no event is about it, and the machines `vms` still avoid it. -/
structure World.Spares (w : World) (d : Nat) (vms : List Nat) (w' : World) : Prop where
  detector : w'.detectors[d]? = w.detectors[d]?
  journal : w.GrowsBy (fun e => e.detector? ≠ some d) w'
  avoids : w'.Avoids d vms

theorem World.Avoids.spares (h : w.Avoids d vms) : w.Spares d vms w :=
  ⟨rfl, .of_eq rfl, h⟩

theorem World.Spares.trans (h : w.Spares d vms w') (h' : w'.Spares d vms w'') :
    w.Spares d vms w'' :=
  ⟨h'.detector.trans h.detector, h.journal.trans h'.journal, h'.avoids⟩

theorem World.Avoids.spares_record (h : w.Avoids d vms) {e : Event} (he : e.detector? ≠ some d) :
    w.Spares d vms (w.record e) :=
  ⟨rfl, .one rfl he, h.machines, h.previous⟩

theorem World.Avoids.spares_modifyMachine (h : w.Avoids d vms) (vm : Nat) {f : Machine → Machine}
    (hf : ∀ m, w.machines[vm]? = some m → m.SameModule (f m)) :
    w.Spares d vms (w.modifyMachine vm f) :=
  ⟨rfl, .of_eq rfl, h.modifyMachine vm hf⟩

theorem World.Avoids.spares_modifyDetector (h : w.Avoids d vms) (hne : d₀ ≠ d)
    {f : Detector → Detector} (hf : ∀ det, (f det).registry = det.registry) :
    w.Spares d vms (w.modifyDetector d₀ f) := by
  refine ⟨?_, .of_eq rfl, h.of_changesBy rfl (World.changesBy_id d₀ fun d' =>
    w.registryAt?_modifyDetector d₀ d' hf) Registry.keepsCalls_id.isMild⟩
  rw [World.getElem?_modifyDetector, if_neg hne]

theorem World.Avoids.spares_modifyRegistry (h : w.Avoids d vms) (hne : d₀ ≠ d)
    {f : Registry → Registry} (hf : Registry.IsMild f) :
    w.Spares d vms (w.modifyRegistry d₀ f) := by
  refine ⟨?_, .of_eq rfl, h.of_changesBy rfl (w.registryAt?_modifyRegistry d₀ · f) hf⟩
  rw [World.getElem?_modifyRegistry, if_neg hne]

theorem World.Avoids.spares_logAll (h : w.Avoids d vms) (lines : List LogLine) :
    w.Spares d vms (w.logAll lines) := by
  refine ⟨rfl, ⟨_, w.journal_logAll lines, fun e he => ?_⟩, h.machines, h.previous⟩
  obtain ⟨line, -, rfl⟩ := List.mem_map.mp (List.mem_reverse.mp he)
  exact nofun

/-! ## Attaching and detaching other detectors -/

/-- An instance that is registered after an attach was so before, or is the new one. -/
theorem Registry.of_mem_enroll {r : Registry} {handle handle' : VmHandle} {i j : Instance}
    {id : Nat} (hid : (handle', id) ∈ (r.enroll handle i).registered)
    (hj : (r.enroll handle i).instance? id = some j) :
    j = i ∨ (handle', id) ∈ r.registered ∧ r.instance? id = some j := by
  rw [instance?, enroll] at hj
  rcases Nat.lt_trichotomy id r.instances.length with hlt | rfl | hgt
  · rw [List.getElem?_append_left hlt] at hj
    rcases List.mem_cons.mp hid with heq | hmem
    · exact absurd (Prod.mk.inj heq).2 (Nat.ne_of_lt hlt)
    · exact .inr ⟨(List.mem_filter.mp hmem).1, hj⟩
  · rw [List.getElem?_concat_length] at hj
    exact .inl (Option.some.inj hj).symm
  · rw [List.getElem?_append_right (Nat.le_of_lt hgt), List.getElem?_singleton,
      if_neg (Nat.sub_ne_zero_of_lt hgt)] at hj
    cases hj

/-- A step changes no detector but the one that it is about. -/
theorem Rewired.detectors_eq {op : Rewiring} (h : Rewired w op w')
    (hop : ∀ vm, op.concerns d vm = false) : w'.detectors[d]? = w.detectors[d]? := by
  have hne : ∀ {d₀ vm : Nat}, (d₀ == d && vm == vm) = false → d₀ ≠ d := by
    rintro d₀ vm h rfl
    simp at h
  cases h with
  | @attach _ d₀ vm det m i hdet _ _ _ hdetectors _ =>
      rw [hdetectors, World.detectors_attach hdet, if_neg (hne (hop vm))]
  | @detach _ d₀ id vm det m hdet _ _ hdetectors _ =>
      rw [hdetectors, World.detectors_detach hdet, if_neg (hne (hop vm))]
  | install hdetectors _ => rw [hdetectors]

section

variable {vm : Nat} (hne : d₀ ≠ d)
include hne

/-- The interceptors of another detector stand in front, and lead to what was there. -/
theorem Rewired.avoids_attach (h : Rewired w (.attach d₀ vm) w') (hvm : vm ∈ vms)
    (hw : w.Avoids d vms) : w'.Avoids d vms := by
  cases h with
  | @attach _ _ _ det m₀ i hdet hm₀ _ hprevious hdetectors hmachines =>
      have hback : ∀ vm' ∈ vms, ∀ m', w'.machines[vm']? = some m' →
          ∃ m, w.machines[vm']? = some m ∧ m'.handle = m.handle ∧ m'.Avoids d vms := by
        intro vm' hvm' m' hm'
        rw [hmachines, World.attach, World.machines_record, World.getElem?_modifyMachine,
          World.machines_modifyDetector] at hm'
        split at hm'
        · obtain ⟨m, hm, rfl⟩ := Option.map_eq_some_iff.mp hm'
          have hold := hw.machines vm' hvm' m hm
          exact ⟨m, hm, rfl, hold.slots.install hne _, hold.bodies⟩
        · exact ⟨m', hm', rfl, hw.machines vm' hvm' m' hm'⟩
      refine ⟨fun vm' hvm' m' hm' => ?_, fun vm' hvm' m' hm' d' r' hd' hr' id j hid hj => ?_⟩
      · obtain ⟨m, -, -, h⟩ := hback vm' hvm' m' hm'
        exact h
      · obtain ⟨m, hm, hhandle, -⟩ := hback vm' hvm' m' hm'
        rw [World.registryAt?, hdetectors, ← World.registryAt?, w.changesBy_attach] at hr'
        rw [hhandle] at hid
        split at hr'
        · obtain ⟨r, hr, rfl⟩ := Option.map_eq_some_iff.mp hr'
          rcases Registry.of_mem_enroll hid hj with rfl | ⟨hid, hj⟩
          · exact hprevious ▸ (hw.machines vm hvm m₀ hm₀).slots
          · exact hw.previous vm' hvm' m hm d' r hd' hr id j hid hj
        · exact hw.previous vm' hvm' m hm d' r' hd' hr' id j hid hj

/-- What a detach puts back leads to no more than what was there. -/
theorem Rewired.avoids_detach (h : Rewired w (.detach d₀ vm) w') (hw : w.Avoids d vms) :
    w'.Avoids d vms := by
  cases h with
  | @detach _ _ id₀ _ det m₀ hdet hm₀ hid₀ hdetectors hmachines =>
      refine hw.mono (fun vm' hvm' m' hm' => ?_) fun d' r' _ hr' => ?_
      · rw [hmachines, World.getElem?_modifyMachine] at hm'
        split at hm'
        case isFalse => exact ⟨m', hm', rfl, hw.machines vm' hvm' m' hm'⟩
        case isTrue heq =>
          subst heq
          rw [hm₀] at hm'
          obtain rfl := Option.some.inj hm'
          have hold := hw.machines vm hvm' m₀ hm₀
          have hbefore : (((det.registry.instance? id₀).map Instance.previous).getD
              Slots.none).Avoid d := by
            cases hi : det.registry.instance? id₀ with
            | none => exact Slots.avoid_none
            | some i =>
                exact hw.previous vm hvm' m₀ hm₀ d₀ _ hne (World.registryAt?_of_some hdet) id₀ i
                  (HandleMap.mem_of_find? hid₀) hi
          refine ⟨m₀, hm₀, rfl, ?_, hold.bodies⟩
          show (det.restored d₀ id₀ m₀).Avoid d
          rw [Detector.restored]
          split
          · exact hold.slots
          · exact hold.slots.restore hbefore _
      · rw [World.registryAt?, hdetectors, ← World.registryAt?, w.changesBy_detach] at hr'
        split at hr'
        · obtain ⟨r, hr, rfl⟩ := Option.map_eq_some_iff.mp hr'
          exact ⟨r, hr, (Registry.keepsCalls_dismiss _).registered r |>.subset, rfl⟩
        · exact ⟨r', hr', List.Subset.refl _, rfl⟩

end

namespace Act

variable {α β : Type}

/-- Where the machines `vms` avoid detector `d`, the act spares it. -/
def Spares (d : Nat) (vms : List Nat) (x : Act α) : Prop :=
  ∀ w : World, w.Avoids d vms → w.Spares d vms (x.after w)

/-! ## One act after another -/

theorem spares_pure (a : α) : Spares d vms (pure a : Act α) :=
  fun _ h => h.spares

theorem spares_throw (s : Stop) : Spares d vms (throw s : Act α) :=
  fun _ h => h.spares

theorem Spares.bind {x : Act α} {f : α → Act β} (hx : Spares d vms x)
    (hf : ∀ a, Spares d vms (f a)) : Spares d vms (x >>= f) := by
  intro w hw
  have hx := hx w hw
  cases h : x w with
  | ok a w' =>
      rw [after_of_ok h] at hx
      rw [after_bind_of_ok h]
      exact hx.trans (hf a w' hx.avoids)
  | error s w' =>
      rw [after_of_error h] at hx
      rwa [after_bind_of_error h]

theorem Spares.attempt {x : Act α} (hx : Spares d vms x) : Spares d vms (attempt x) := by
  intro w hw
  rw [after_attempt]
  exact hx w hw

theorem Spares.ensuring {x : Act α} {f : World → World} (hx : Spares d vms x)
    (hf : ∀ w : World, w.Avoids d vms → w.Spares d vms (f w)) :
    Spares d vms (ensuring x f) := by
  intro w hw
  rw [after_ensuring]
  exact (hx w hw).trans (hf _ (hx w hw).avoids)

theorem spares_ofExcept (result : Except VmError α) : Spares d vms (ofExcept result) := by
  cases result with
  | ok a => exact spares_pure a
  | error e => exact spares_throw (.error e)

theorem spares_record {e : Event} (he : e.detector? ≠ some d) : Spares d vms (record e) :=
  fun _ h => h.spares_record he

theorem spares_machine_bind {vm : Nat} {f : Machine → Act β}
    (hf : ∀ m, (vm ∈ vms → m.Avoids d vms) → Spares d vms (f m)) :
    Spares d vms (machine vm >>= f) := by
  intro w hw
  cases h : w.machines[vm]? with
  | none =>
      rw [after_bind_of_error (machine_of_none h)]
      exact hw.spares
  | some m =>
      rw [after_bind_of_ok (machine_of_some h)]
      exact hf m (fun hvm => hw.machines vm hvm m h) w hw

theorem spares_detector_bind {f : Detector → Act β} (hf : ∀ det, Spares d vms (f det)) :
    Spares d vms (detector d₀ >>= f) := by
  intro w hw
  cases h : w.detectors[d₀]? with
  | none =>
      rw [after_bind_of_error (detector_of_none h)]
      exact hw.spares
  | some det =>
      rw [after_bind_of_ok (detector_of_some h)]
      exact hf det w hw

/-- A computation on a machine that changes registers and memory only. -/
theorem spares_onMachine {vm : Nat} {x : MachineM α} (hx : x.Blind) :
    Spares d vms (onMachine vm x) := by
  intro w hw
  cases hm : w.machines[vm]? with
  | none =>
      rw [onMachine, after_bind_of_error (machine_of_none hm)]
      exact hw.spares
  | some m =>
      have hsame : ∀ {m'}, m.SameModule m' → w.Spares d vms (w.modifyMachine vm fun _ => m') :=
        fun h => hw.spares_modifyMachine vm fun m₁ hm₁ => Option.some.inj (hm.symm.trans hm₁) ▸ h
      rcases hx m with ⟨a, m', h, -, h'⟩ | ⟨e, m', h, -, h'⟩
      · rw [after_of_ok (onMachine_of_ok hm h)]
        exact hsame h'
      · rw [after_of_error (onMachine_of_error hm h)]
        exact hsame h'

/-! ## What another detector does -/

theorem detector?_ne_of_none {e : Event} (he : e.detector? = none) : e.detector? ≠ some d := by
  rw [he]
  exact nofun

theorem spares_trace (vm : Nat) : Spares d vms (trace d₀ vm) :=
  spares_machine_bind fun _ _ => spares_detector_bind fun _ => spares_pure _

theorem spares_probe (vm : Nat) : Spares d vms (probe d₀ vm) :=
  spares_machine_bind fun _ _ => spares_detector_bind fun _ => spares_pure _

theorem spares_findMachine? (handle : VmHandle) (among : List Nat) :
    Spares d vms (findMachine? handle among) := by
  induction among with
  | nil => exact spares_pure none
  | cons vm among ih =>
      refine spares_machine_bind fun m _ => ?_
      split
      · exact spares_pure _
      · exact ih

theorem spares_crashReport (among : List Nat) (first : Bool) :
    Spares d vms (crashReport d₀ among first) := by
  refine spares_detector_bind fun det => ?_
  split
  · split
    · refine Spares.bind ?_ fun _ => spares_pure _
      split
      · exact spares_findMachine? _ _
      · exact spares_pure _
    · exact spares_throw _
  · exact spares_pure _

section

variable {id vm : Nat} (hne : d₀ ≠ d)
include hne

theorem detector?_ne_of_some {e : Event} (he : e.detector? = some d₀) : e.detector? ≠ some d := by
  rw [he]
  exact fun h => hne (Option.some.inj h)

theorem spares_modifyDetector {f : Detector → Detector}
    (hf : ∀ det, (f det).registry = det.registry) :
    Spares d vms (modify fun w => w.modifyDetector d₀ f) :=
  fun _ h => h.spares_modifyDetector hne hf

theorem spares_setLatch (armed : Bool) :
    Spares d vms (modify fun w => w.modifyRegistry d₀ fun r => { r with latchArmed := armed }) :=
  fun _ h => h.spares_modifyRegistry hne (Registry.keepsCalls_setLatch fun _ => armed).isMild

theorem spares_armLatch : Spares d vms (armLatch d₀) := by
  refine spares_detector_bind fun det => ?_
  split
  · exact spares_pure _
  · exact (spares_setLatch hne true).bind fun _ =>
      (spares_record (detector?_ne_of_some hne rfl)).bind fun _ => spares_pure _

theorem spares_clearLatchIfIdle : Spares d vms (clearLatchIfIdle d₀) := by
  refine spares_detector_bind fun det => ?_
  split
  · exact (spares_setLatch hne false).bind fun _ => spares_record (detector?_ne_of_some hne rfl)
  · exact spares_pure _

theorem spares_emit (r : Report) : Spares d vms (emit d₀ r) := by
  refine spares_detector_bind fun det => ?_
  split
  refine Spares.bind (spares_modifyDetector hne ?_) fun _ =>
    (spares_record (detector?_ne_of_some hne rfl)).bind fun _ w hw => ?_
  · exact fun _ => rfl
  · rw [after_of_ok (forM_log_apply _ w)]
    exact hw.spares_logAll _

theorem spares_report (kind : FailureKind) (headline : String) :
    Spares d vms (report d₀ id vm kind headline) := by
  refine spares_detector_bind fun det => spares_machine_bind fun m _ => ?_
  split
  · exact spares_emit hne _
  · exact spares_throw _

theorem spares_terminate (kind : FailureKind) : Spares d vms (terminate d₀ kind) := by
  refine spares_detector_bind fun _ => Spares.bind ?_ fun _ =>
    (spares_record (detector?_ne_of_some hne rfl)).bind fun _ => spares_pure _
  exact spares_modifyDetector hne fun _ => rfl

theorem spares_onRuntimeError (index : Cell) (e : VmError) :
    Spares d vms (onRuntimeError d₀ id vm index e) := by
  rw [onRuntimeError]
  split
  · exact spares_pure _
  refine (spares_record (detector?_ne_of_some hne rfl)).bind fun _ =>
    (spares_armLatch hne).bind fun first => ?_
  split
  · refine (spares_report hne _ _).bind fun _ => spares_detector_bind fun det => ?_
    split
    · exact spares_terminate hne _
    · exact spares_pure _
  · exact spares_detector_bind fun det =>
      (spares_record (detector?_ne_of_none rfl)).bind fun _ => spares_pure _

theorem spares_onNativeFault (index : Cell) (fault : NativeFault) :
    Spares d vms (onNativeFault d₀ id vm index fault) := by
  refine (spares_record (detector?_ne_of_some hne rfl)).bind fun _ =>
    (spares_armLatch hne).bind fun first => ?_
  split
  · exact spares_machine_bind fun m _ => (spares_report hne _ _).bind fun _ => spares_pure _
  · exact spares_pure _

theorem spares_crash (among : List Nat) : Spares d vms (crash d₀ among) :=
  (spares_armLatch hne).bind fun first =>
    (spares_record (detector?_ne_of_some hne rfl)).bind fun _ =>
      (spares_crashReport among first).bind fun r => (spares_emit hne r).bind fun _ =>
        spares_terminate hne _

theorem spares_runtimeError (index : Cell) (e : VmError) :
    Spares d vms (runtimeError d₀ vm index e) := by
  refine spares_machine_bind fun m _ => spares_detector_bind fun det => ?_
  split
  · exact spares_onRuntimeError hne index e
  · exact (spares_record (detector?_ne_of_none rfl)).bind fun _ => spares_pure _

theorem spares_setInterrupt (pending : Bool) :
    Spares d vms (modify fun w => w.modifyDetector d₀ fun det =>
      { det with interruptPending := pending }) :=
  spares_modifyDetector hne fun _ => rfl

theorem spares_requestInterrupt : Spares d vms (requestInterrupt d₀) :=
  spares_detector_bind fun _ => (spares_setInterrupt hne true).bind fun _ =>
    spares_record (detector?_ne_of_some hne rfl)

theorem spares_takeInterrupt : Spares d vms (takeInterrupt d₀) := by
  refine spares_detector_bind fun det => ?_
  split
  · exact (spares_setInterrupt hne false).bind fun _ =>
      (spares_record (detector?_ne_of_some hne rfl)).bind fun _ => spares_pure _
  · exact spares_pure _

theorem spares_onInterrupt : Spares d vms (onInterrupt d₀ id vm) := by
  refine spares_detector_bind fun det => ?_
  split
  · exact spares_pure _
  · exact (spares_report hne _ _).bind fun _ => spares_pure _

/-! ## Attaching and detaching another detector -/

omit hne in
/-- A step about another detector is not noticed if it leaves slots behind that avoid this one. -/
theorem spares_rewiring (op : Rewiring) (hop : ∀ vm, op.concerns d vm = false)
    (hadds : Adds (fun e => e.detector? ≠ some d) op.act)
    (havoids : ∀ w w' : World, Rewired w op w' → w.Avoids d vms → w'.Avoids d vms) :
    Spares d vms op.act := by
  intro w hw
  rcases op.cases w with ⟨-, hafter⟩ | ⟨-, hr⟩
  · rw [hafter]
    exact hw.spares
  · exact ⟨hr.detectors_eq hop, hadds w, havoids w _ hr hw⟩

theorem concerns_eq_false (vm' : Nat) : (d₀ == d && vm == vm') = false := by
  rw [beq_false_of_ne hne, Bool.false_and]

theorem spares_attach (hvm : vm ∈ vms) : Spares d vms (attach d₀ vm) :=
  spares_rewiring (.attach d₀ vm) (concerns_eq_false hne)
    (adds_attach (fun _ => nofun) fun _ => detector?_ne_of_some hne rfl)
    fun _ _ hr => hr.avoids_attach hne hvm

theorem spares_detach : Spares d vms (detach d₀ vm) :=
  spares_rewiring (.detach d₀ vm) (concerns_eq_false hne)
    (adds_detach (fun _ => nofun) fun _ => detector?_ne_of_some hne rfl)
    fun _ _ hr => hr.avoids_detach hne

/-! ## Interceptors of another detector -/

theorem spares_enterCall (kind : CallKind) (index : Cell) :
    Spares d vms (enterCall d₀ id vm kind index) := by
  refine spares_machine_bind fun m _ => spares_detector_bind fun det => Spares.bind ?_ fun _ =>
    (spares_record (detector?_ne_of_some hne rfl)).bind fun _ => spares_pure _
  exact fun w hw => hw.spares_modifyRegistry hne (Registry.isMild_enter id _)

theorem spares_leaveCall (seq : Nat) (w : World) (hw : w.Avoids d vms) :
    w.Spares d vms (leaveCall d₀ id seq w) := by
  rw [leaveCall_eq]
  have hlog := hw.spares_logAll (w.leaveLog d₀ id seq)
  have hleave := hlog.avoids.spares_modifyRegistry hne (Registry.isMild_leaveCall id seq)
  exact (hlog.trans hleave).trans (hleave.avoids.spares_record (detector?_ne_of_some hne rfl))

theorem spares_tracked (kind : CallKind) (index : Cell) {body : Act α}
    (hbody : Spares d vms body) : Spares d vms (tracked d₀ id vm kind index body) :=
  (spares_enterCall hne kind index).bind fun call =>
    hbody.ensuring (spares_leaveCall hne call.seq)

theorem spares_noticeInterrupt : Spares d vms (noticeInterrupt d₀ id vm) := by
  refine (spares_takeInterrupt hne).bind fun taken => ?_
  split
  · exact (spares_onInterrupt hne).bind fun _ => spares_pure _
  · exact spares_pure _

theorem spares_interceptHook {next : Act Unit} (hnext : Spares d vms next) :
    Spares d vms (interceptHook d₀ id vm next) := by
  rw [interceptHook_eq]
  exact (spares_noticeInterrupt hne).bind fun _ => hnext

theorem spares_faultNative (index : Cell) (fault : NativeFault) (e : VmError) :
    Spares d vms (faultNative d₀ id vm index fault e) :=
  (spares_onNativeFault hne index fault).bind fun _ => spares_throw _

theorem spares_settleNative (index : Cell) (result : Except VmError Cell) :
    Spares d vms (settleNative d₀ id vm index result) := by
  rw [settleNative.eq_def]
  split
  · exact spares_pure _
  · exact spares_throw _
  · exact spares_faultNative hne index _ _

theorem spares_interceptNative (index : Cell) {next : Option (Act Cell)}
    (hnext : ∀ x, next = some x → Spares d vms x) :
    Spares d vms (interceptNative d₀ id vm index next) := by
  refine spares_tracked hne .toNative index (spares_machine_bind fun m _ => ?_)
  split
  · exact spares_faultNative hne index _ _
  · split
    · exact spares_faultNative hne index _ _
    · cases next with
      | none => exact spares_faultNative hne index _ _
      | some x => exact (hnext x rfl).attempt.bind (spares_settleNative hne index)

theorem spares_interceptExec (index : Cell) {next : Option (Act Cell)}
    (hnext : Spares d vms (next.getD (fail .notInitialized))) :
    Spares d vms (interceptExec d₀ id vm index next) := by
  refine (spares_clearLatchIfIdle hne).bind fun _ =>
    spares_tracked hne .toPublic index (hnext.attempt.bind fun result => ?_)
  cases result with
  | ok value => exact spares_ofExcept _
  | error e => exact (spares_onRuntimeError hne index e).bind fun _ => spares_ofExcept _

end

end Act

end ScriptDiag
