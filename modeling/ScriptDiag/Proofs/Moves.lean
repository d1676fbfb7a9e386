import Mathlib.Logic.Relation
import ScriptDiag.Proofs.Operations

/-!
# The moves of a run

Seen from the detectors, a run is a sequence of moves: a call is entered, the innermost call
leaves, a failure is reported or suppressed, a detector is attached or detached, and in between the
machines do what they do. `Move` lists them. `Moves` are a run from one world to another, and
`ScriptDiag.Proofs.BalancedActs` shows that all that machines and hosts do is made of them; so what
every move preserves holds at every moment of every run.

The calls in flight are read off the journal: `openCalls` are the calls entered that did not leave.
A world is `Valid` if its slots name only instances that exist, and so do the slots that instances
remember; `Moves.valid` says that it stays so.
-/

namespace ScriptDiag

/-! ## Calls in flight -/

/-- A call in flight on an instance of a detector. -/
structure OpenCall where
  detector : Nat
  instanceId : Nat
  call : CallRecord
deriving DecidableEq, Repr, Inhabited

/-- Whether this is the call of an instance that has the given number. -/
def OpenCall.matches (o : OpenCall) (d id seq : Nat) : Bool :=
  o.detector == d && o.instanceId == id && o.call.seq == seq

/-- The calls in flight after the events of a journal, innermost first. -/
def openCalls : List Event → List OpenCall
  | [] => []
  | .entered d id call :: past => ⟨d, id, call⟩ :: openCalls past
  | .left d id seq :: past => (openCalls past).eraseP fun o => o.matches d id seq
  | _ :: past => openCalls past

/-- Whether an event is no concern of a detector: it tells what machines and bodies do, or is a line
of the log. -/
def Event.isNeutral : Event → Bool
  | .log _ | .note _ | .layer _ | .base _ _ | .called _ _ _ _ | .returned _ | .moved _ _ => true
  | _ => false

theorem openCalls_append_of_neutral {es : List Event} (h : ∀ e ∈ es, e.isNeutral = true)
    (past : List Event) : openCalls (es ++ past) = openCalls past := by
  induction es with
  | nil => rfl
  | cons e es ih =>
    have hes := ih fun e' he' => h e' (List.mem_cons_of_mem _ he')
    have he := h e List.mem_cons_self
    cases e <;> first | exact hes | cases he

theorem openCalls_leave {past : List Event} {d id : Nat} {call : CallRecord}
    {rest : List OpenCall} (h : openCalls past = ⟨d, id, call⟩ :: rest) :
    openCalls (.left d id call.seq :: past) = rest := by
  rw [openCalls, h, List.eraseP_cons_of_pos]
  simp [OpenCall.matches]

theorem isNeutral_of_mem_log {lines : List LogLine} :
    ∀ e ∈ (lines.map Event.log).reverse, e.isNeutral = true := by
  intro e he
  rw [List.mem_reverse, List.mem_map] at he
  obtain ⟨line, -, rfl⟩ := he
  rfl

/-! ## Valid worlds -/

/-- Whether a detector has an instance of the given number. -/
def World.HasInstance (w : World) (d id : Nat) : Prop :=
  ∃ r, w.registryAt? d = some r ∧ id < r.instances.length

/-- The interceptors of a chain belong to instances that exist. -/
def Chain.ExistsIn (chain : Chain) (w : World) : Prop :=
  ∀ d id, Link.interceptor d id ∈ chain → w.HasInstance d id

/-- The interceptors in the slots belong to instances that exist. -/
structure Slots.ExistIn (s : Slots) (w : World) : Prop where
  hook : Chain.ExistsIn s.hook w
  dispatcher : Chain.ExistsIn s.dispatcher w
  exec : Chain.ExistsIn s.exec w

/-- A world that names no instance that does not exist, and registers one at most for a handle. -/
structure World.Valid (w : World) : Prop where
  slots : ∀ m ∈ w.machines, m.slots.ExistIn w
  previous : ∀ d r, w.registryAt? d = some r → ∀ i ∈ r.instances, i.previous.ExistIn w
  registered : ∀ d r, w.registryAt? d = some r → ∀ e ∈ r.registered, e.2 < r.instances.length
  keys : ∀ d r, w.registryAt? d = some r → (r.registered.map Prod.fst).Nodup

/-- All instances of one world are there in the other. -/
def World.KeepsInstances (w w' : World) : Prop :=
  ∀ d r, w.registryAt? d = some r →
    ∃ r', w'.registryAt? d = some r' ∧ r.instances.length ≤ r'.instances.length

variable {w w' w'' : World}

theorem World.HasInstance.mono {d id : Nat} (h : w.HasInstance d id) (hk : w.KeepsInstances w') :
    w'.HasInstance d id := by
  obtain ⟨r, hr, hid⟩ := h
  obtain ⟨r', hr', hle⟩ := hk d r hr
  exact ⟨r', hr', Nat.lt_of_lt_of_le hid hle⟩

instance World.decidableHasInstance (w : World) (d id : Nat) : Decidable (w.HasInstance d id) :=
  decidable_of_iff ((w.registryAt? d).any (fun r => decide (id < r.instances.length)) = true) <| by
    simp only [Option.any_eq_true, decide_eq_true_eq, HasInstance]

theorem Chain.ExistsIn.mono {chain : Chain} (h : Chain.ExistsIn chain w)
    (hk : w.KeepsInstances w') : Chain.ExistsIn chain w' :=
  fun d id hmem => (h d id hmem).mono hk

theorem Slots.ExistIn.mono {s : Slots} (h : s.ExistIn w) (hk : w.KeepsInstances w') :
    s.ExistIn w' :=
  ⟨h.hook.mono hk, h.dispatcher.mono hk, h.exec.mono hk⟩

theorem Chain.ExistsIn.tail {link : Link} {chain : Chain}
    (h : Chain.ExistsIn (link :: chain) w) : Chain.ExistsIn chain w :=
  fun d id hmem => h d id (List.mem_cons_of_mem _ hmem)

theorem Slots.existIn_none : Slots.none.ExistIn w :=
  ⟨fun _ _ h => (by cases h), fun _ _ h => (by cases h), fun _ _ h => (by cases h)⟩

theorem HandleMap.mem_of_find? {map : HandleMap} {handle : VmHandle} {id : Nat}
    (h : map.find? handle = some id) : (handle, id) ∈ map := by
  obtain ⟨before, after, rfl, -⟩ := List.lookup_eq_some_iff.mp h
  simp

theorem World.Valid.hasInstance {d id : Nat} {det : Detector} {handle : VmHandle} (hv : w.Valid)
    (hdet : w.detectors[d]? = some det) (hid : det.registry.find? handle = some id) :
    w.HasInstance d id :=
  ⟨_, registryAt?_of_some hdet,
    hv.registered d _ (registryAt?_of_some hdet) _ (HandleMap.mem_of_find? hid)⟩

/-! ## Attaching and detaching -/

/-- The registry with one more instance, registered for `handle`. -/
def Registry.enroll (r : Registry) (handle : VmHandle) (i : Instance) : Registry :=
  { r with
    instances := r.instances ++ [i]
    registered := r.registered.insert handle r.instances.length }

/-- The registry with no instance registered for `handle`. -/
def Registry.dismiss (r : Registry) (handle : VmHandle) : Registry :=
  { r with registered := r.registered.erase handle }

/-- The world in which the detector `det`, numbered `d`, is attached to a machine. -/
def World.attach (w : World) (d vm : Nat) (det : Detector) (handle : VmHandle) (i : Instance) :
    World :=
  let id := det.registry.instances.length
  ((w.modifyDetector d fun det => { det with
      registry := det.registry.enroll handle i
      installed := det.installed.insert handle id }).modifyMachine vm fun m =>
      { m with slots := m.slots.install (.interceptor d id) }).record (.attached d id vm)

/-- The world in which a detector is detached from the machine with a handle. -/
def World.detach (w : World) (d id vm : Nat) (handle : VmHandle) : World :=
  (w.modifyDetector d fun det => { det with
    registry := det.registry.dismiss handle
    installed := det.installed.erase handle }).record (.detached d id vm)

/-! ## Moves -/

/-- One move of a run. -/
inductive Move : World → World → Prop where
  /-- No detector takes part. -/
  | quiet {w w' : World} (detectors : w'.detectors = w.detectors)
      (machines : w'.machines.length = w.machines.length)
      (slots : ∀ m ∈ w'.machines, m.slots.ExistIn w)
      (journal : ∃ es, w'.journal = es ++ w.journal ∧ ∀ e ∈ es, e.isNeutral = true) : Move w w'
  /-- A native is called. -/
  | enterNative {w : World} {d id vm : Nat} {det : Detector} {m : Machine} (index : Cell)
      (detector : w.detectors[d]? = some det) (machine : w.machines[vm]? = some m)
      (exist : id < det.registry.instances.length) :
      Move w (w.enter d id (det.registry.nextCall m .toNative index))
  /-- A public is called. It may clear the latch first. -/
  | enterPublic {w : World} {d id vm : Nat} {det : Detector} {m : Machine} (index : Cell)
      (detector : w.detectors[d]? = some det) (machine : w.machines[vm]? = some m)
      (exist : id < det.registry.instances.length) :
      Move w ((w.clearIfIdle d).enter d id (det.registry.nextCall m .toPublic index))
  /-- The innermost call in flight leaves. -/
  | leave {w : World} {d id : Nat} {call : CallRecord} {rest : List OpenCall}
      (innermost : openCalls w.journal = ⟨d, id, call⟩ :: rest) :
      Move w (Act.leaveCall d id call.seq w)
  /-- A failure finds the latch armed. -/
  | suppressFailure {w : World} {d : Nat} {det : Detector} (id vm : Nat) (f : Failure)
      (detector : w.detectors[d]? = some det) (armed : det.registry.latchArmed = true) :
      Move w (w.record (.failed d id vm f))
  /-- A failure finds the latch clear. -/
  | reportFailure {w : World} {d id vm : Nat} {det : Detector} {m : Machine} {i : Instance}
      (f : Failure) (detector : w.detectors[d]? = some det)
      (clear : det.registry.latchArmed = false) (machine : w.machines[vm]? = some m)
      (exist : det.registry.instance? id = some i) :
      Move w (w.reportFailure d id vm det m i f)
  /-- After a report, the process is to be ended. -/
  | terminate {w : World} {d : Nat} {det : Detector} (kind : FailureKind) (pending : Nat)
      (detector : w.detectors[d]? = some det) (armed : det.registry.latchArmed = true) :
      Move w (w.endProcess d kind pending)
  /-- The host crashes, and the latch is armed already. -/
  | crashAgain {w : World} {d : Nat} {det : Detector} (detector : w.detectors[d]? = some det)
      (armed : det.registry.latchArmed = true) : Move w (w.record (.crashed d))
  /-- The host crashes. -/
  | crash {w : World} {d : Nat} {det : Detector} (detector : w.detectors[d]? = some det)
      (clear : det.registry.latchArmed = false) : Move w ((w.arm d).record (.crashed d))
  /-- A report that is not about a failure of a script. -/
  | report {w : World} {d : Nat} {det : Detector} {r : Report}
      (detector : w.detectors[d]? = some det) (other : r.isFailure = false) :
      Move w (w.send d det r)
  /-- An interrupt is requested, or the request is taken. -/
  | interrupt {w : World} (d : Nat) (pending : Bool) : Move w (w.setInterrupt d pending)
  /-- A detector is attached to a machine that it was not attached to. -/
  | attach {w : World} {d vm : Nat} {det : Detector} {m : Machine} {i : Instance}
      (detector : w.detectors[d]? = some det) (machine : w.machines[vm]? = some m)
      (free : det.registry.contains m.handle = false) (idle : i.calls = [])
      (previous : i.previous = m.slots) :
      Move w (w.attach d vm det m.handle i)
  /-- A detector is detached from a machine. What the machine's slots hold stays for now. -/
  | detach {w : World} {d id vm : Nat} {det : Detector} {m : Machine}
      (detector : w.detectors[d]? = some det) (machine : w.machines[vm]? = some m)
      (registered : det.registry.find? m.handle = some id) :
      Move w (w.detach d id vm m.handle)

/-- A run from one world to another, as a sequence of moves. -/
abbrev Moves : World → World → Prop :=
  Relation.ReflTransGen Move

/-! ## Registries and journals after a move -/

/-- From one world to the other, the registry of detector `d` changes by `f`, and no other. -/
def World.ChangesBy (d : Nat) (f : Registry → Registry) (w w' : World) : Prop :=
  ∀ d', w'.registryAt? d' = if d = d' then (w.registryAt? d').map f else w.registryAt? d'

theorem World.changesBy_id (d : Nat) (h : ∀ d', w'.registryAt? d' = w.registryAt? d') :
    w.ChangesBy d id w' := by
  intro d'
  rw [h, Option.map_id, id, ite_self]

theorem World.changesBy_clearIfIdle (w : World) (d : Nat) :
    w.ChangesBy d (fun r => { r with latchArmed := r.latchArmed && !w.clearsLatch d })
      (w.clearIfIdle d) := by
  intro d'
  rw [clearIfIdle]
  cases w.clearsLatch d with
  | true => simpa using w.registryAt?_disarm d d'
  | false => simp

theorem World.changesBy_enter (w : World) (d id : Nat) (call : CallRecord) :
    w.ChangesBy d (fun r => r.nextSeq.2.enterCall id call) (w.enter d id call) :=
  w.registryAt?_enter d id call

theorem World.changesBy_leaveCall (w : World) (d id seq : Nat) :
    w.ChangesBy d (fun r => r.leaveCall id seq) (Act.leaveCall d id seq w) := by
  intro d'
  rw [Act.leaveCall_eq, registryAt?_record, registryAt?_modifyRegistry, registryAt?_logAll]

theorem World.changesBy_detach (w : World) (d id vm : Nat) (handle : VmHandle) :
    w.ChangesBy d (fun r => r.dismiss handle) (w.detach d id vm handle) := by
  intro d'
  rw [detach, registryAt?_record, registryAt?, getElem?_modifyDetector, registryAt?]
  split
  · rw [Option.map_map, Option.map_map]
    rfl
  · rfl

theorem World.changesBy_attach (w : World) (d vm : Nat) (det : Detector) (handle : VmHandle)
    (i : Instance) :
    w.ChangesBy d (fun r => r.enroll handle i) (w.attach d vm det handle i) := by
  intro d'
  rw [attach, registryAt?_record, registryAt?_modifyMachine, registryAt?, getElem?_modifyDetector,
    registryAt?]
  split
  · rw [Option.map_map, Option.map_map]
    rfl
  · rfl

theorem World.ChangesBy.trans {d : Nat} {f g : Registry → Registry} (h : w.ChangesBy d f w')
    (h' : w'.ChangesBy d g w'') : w.ChangesBy d (g ∘ f) w'' := by
  intro d'
  rw [h', h]
  split
  · rw [Option.map_map]
  · rfl

/-- A change to a registry that makes no instance and registers none. -/
structure Registry.IsMild (f : Registry → Registry) : Prop where
  previous : ∀ r, (f r).instances.map Instance.previous = r.instances.map Instance.previous
  registered : ∀ r, (f r).registered.Sublist r.registered

theorem Registry.isMild_modifyInstance (id : Nat) {g : Instance → Instance}
    (hg : ∀ i, (g i).previous = i.previous) : IsMild fun r => r.modifyInstance id g := by
  refine ⟨fun r => ?_, fun r => List.Sublist.refl _⟩
  apply List.ext_getElem?
  intro n
  simp only [modifyInstance, List.getElem?_map, List.getElem?_modify]
  cases r.instances[n]? with
  | none => rfl
  | some i => by_cases h : id = n <;> simp [h, hg]

/-- A change to a registry that leaves its instances and the calls on them as they are, and
registers none. -/
structure Registry.KeepsCalls (f : Registry → Registry) : Prop where
  instances : ∀ r, (f r).instances = r.instances
  registered : ∀ r, (f r).registered.Sublist r.registered
  lastSeq : ∀ r, (f r).lastSeq = r.lastSeq

theorem Registry.KeepsCalls.isMild {f : Registry → Registry} (hf : KeepsCalls f) : IsMild f :=
  ⟨fun r => by rw [hf.instances], hf.registered⟩

theorem Registry.keepsCalls_id : KeepsCalls id :=
  ⟨fun _ => rfl, fun _ => List.Sublist.refl _, fun _ => rfl⟩

theorem Registry.keepsCalls_setLatch (g : Registry → Bool) :
    KeepsCalls fun r => { r with latchArmed := g r } :=
  ⟨fun _ => rfl, fun _ => List.Sublist.refl _, fun _ => rfl⟩

theorem Registry.keepsCalls_dismiss (handle : VmHandle) : KeepsCalls fun r => r.dismiss handle :=
  ⟨fun _ => rfl, fun _ => List.filter_sublist, fun _ => rfl⟩

theorem Registry.isMild_enter (id : Nat) (call : CallRecord) :
    IsMild fun r => r.nextSeq.2.enterCall id call := by
  have h := isMild_modifyInstance id (g := fun i => { i with calls := i.calls.enter call })
    fun _ => rfl
  exact ⟨fun r => h.previous r.nextSeq.2, fun r => h.registered r.nextSeq.2⟩

theorem Registry.isMild_leaveCall (id seq : Nat) : IsMild fun r => r.leaveCall id seq :=
  isMild_modifyInstance id fun _ => rfl

theorem Registry.IsMild.comp {f g : Registry → Registry} (hg : IsMild g) (hf : IsMild f) :
    IsMild (g ∘ f) :=
  ⟨fun r => (hg.previous (f r)).trans (hf.previous r),
    fun r => (hg.registered (f r)).trans (hf.registered r)⟩

theorem Registry.IsMild.length {f : Registry → Registry} (hf : IsMild f) (r : Registry) :
    (f r).instances.length = r.instances.length := by
  simpa using congrArg List.length (hf.previous r)

theorem World.keepsInstances_of_changesBy {d : Nat} {f : Registry → Registry}
    (hc : w.ChangesBy d f w') (hf : ∀ r, r.instances.length ≤ (f r).instances.length) :
    w.KeepsInstances w' := by
  intro d' r hr
  rw [hc, hr]
  split
  · exact ⟨f r, rfl, hf r⟩
  · exact ⟨r, rfl, Nat.le_refl _⟩

theorem World.Valid.of_mild {d : Nat} {f : Registry → Registry} (hv : w.Valid)
    (hm : ∀ m ∈ w'.machines, m.slots.ExistIn w') (hc : w.ChangesBy d f w')
    (hf : Registry.IsMild f) : w'.Valid := by
  have hk : w.KeepsInstances w' :=
    keepsInstances_of_changesBy hc fun r => Nat.le_of_eq (hf.length r).symm
  refine ⟨hm, fun d' r' hr' i hi => ?_, fun d' r' hr' e he => ?_, fun d' r' hr' => ?_⟩
  · rw [hc] at hr'
    split at hr'
    · obtain ⟨r, hr, rfl⟩ := Option.map_eq_some_iff.mp hr'
      obtain ⟨i₀, hi₀, hprev⟩ : ∃ i₀ ∈ r.instances, i₀.previous = i.previous := by
        rw [← List.mem_map, ← hf.previous r]
        exact List.mem_map_of_mem hi
      exact hprev ▸ (hv.previous d' r hr i₀ hi₀).mono hk
    · exact (hv.previous d' r' hr' i hi).mono hk
  · rw [hc] at hr'
    split at hr'
    · obtain ⟨r, hr, rfl⟩ := Option.map_eq_some_iff.mp hr'
      rw [hf.length]
      exact hv.registered d' r hr e ((hf.registered r).subset he)
    · exact hv.registered d' r' hr' e he
  · rw [hc] at hr'
    split at hr'
    · obtain ⟨r, hr, rfl⟩ := Option.map_eq_some_iff.mp hr'
      exact (hv.keys d' r hr).sublist ((hf.registered r).map Prod.fst)
    · exact hv.keys d' r' hr'

theorem Slots.ExistIn.install {s : Slots} {d id : Nat} (h : s.ExistIn w)
    (hid : w.HasInstance d id) : (s.install (.interceptor d id)).ExistIn w := by
  have hcons : ∀ chain : Chain, Chain.ExistsIn chain w →
      Chain.ExistsIn (.interceptor d id :: chain) w := by
    intro chain hchain d' id' hmem
    rcases List.mem_cons.mp hmem with heq | hmem
    · obtain ⟨rfl, rfl⟩ := Link.interceptor.inj heq
      exact hid
    · exact hchain d' id' hmem
  exact ⟨hcons _ h.hook, hcons _ h.dispatcher, hcons _ h.exec⟩

theorem World.keepsInstances_attach (w : World) (d vm : Nat) (det : Detector) (handle : VmHandle)
    (i : Instance) : w.KeepsInstances (w.attach d vm det handle i) :=
  keepsInstances_of_changesBy (w.changesBy_attach d vm det handle i) fun r => by
    simp [Registry.enroll]

/-- Attaching puts an interceptor of the new instance into the slots, and the new instance
remembers what they held. -/
theorem World.Valid.attach {d vm : Nat} {det : Detector} {m : Machine} {i : Instance}
    (hv : w.Valid) (hdet : w.detectors[d]? = some det) (hm : w.machines[vm]? = some m)
    (hprev : i.previous = m.slots) : (w.attach d vm det m.handle i).Valid := by
  have hk := w.keepsInstances_attach d vm det m.handle i
  have hc := w.changesBy_attach d vm det m.handle i
  have hreg : (w.attach d vm det m.handle i).registryAt? d =
      some (det.registry.enroll m.handle i) := by
    rw [hc, if_pos rfl, registryAt?_of_some hdet]
    rfl
  have hnew : (w.attach d vm det m.handle i).HasInstance d det.registry.instances.length :=
    ⟨_, hreg, by simp [Registry.enroll]⟩
  refine ⟨fun m' hmem => ?_, fun d' r' hr' i' hi' => ?_, fun d' r' hr' e he => ?_,
    fun d' r' hr' => ?_⟩
  · obtain ⟨vm', hvm'⟩ := List.mem_iff_getElem?.mp hmem
    rw [World.attach, machines_record, getElem?_modifyMachine] at hvm'
    split at hvm'
    · obtain ⟨m₀, hm₀, rfl⟩ := Option.map_eq_some_iff.mp hvm'
      exact ((hv.slots m₀ (List.mem_of_getElem? hm₀)).mono hk).install hnew
    · exact (hv.slots m' (List.mem_of_getElem? hvm')).mono hk
  · by_cases hd : d = d'
    · subst hd
      obtain rfl := Option.some.inj (hreg.symm.trans hr')
      rcases List.mem_append.mp hi' with hi' | hi'
      · exact (hv.previous d _ (registryAt?_of_some hdet) i' hi').mono hk
      · rw [List.mem_singleton.mp hi', hprev]
        exact (hv.slots m (List.mem_of_getElem? hm)).mono hk
    · rw [hc, if_neg hd] at hr'
      exact (hv.previous d' r' hr' i' hi').mono hk
  · by_cases hd : d = d'
    · subst hd
      obtain rfl := Option.some.inj (hreg.symm.trans hr')
      have hlen : (det.registry.enroll m.handle i).instances.length =
          det.registry.instances.length + 1 := by simp [Registry.enroll]
      rcases List.mem_cons.mp he with rfl | he
      · rw [hlen]
        exact Nat.lt_succ_self _
      · have := hv.registered d _ (registryAt?_of_some hdet) e (List.mem_filter.mp he).1
        omega
    · rw [hc, if_neg hd] at hr'
      exact hv.registered d' r' hr' e he
  · by_cases hd : d = d'
    · subst hd
      obtain rfl := Option.some.inj (hreg.symm.trans hr')
      refine List.nodup_cons.mpr ⟨fun hmem => ?_, ?_⟩
      · obtain ⟨e, he, heq⟩ := List.mem_map.mp hmem
        exact absurd heq (by simpa using (List.mem_filter.mp he).2)
      · exact (hv.keys d _ (registryAt?_of_some hdet)).sublist (List.filter_sublist.map Prod.fst)
    · rw [hc, if_neg hd] at hr'
      exact hv.keys d' r' hr'

/-- What a move can do to the instances of a world and to the calls in flight. -/
inductive Effect (w : World) : World → Prop where
  /-- It changes neither. -/
  | keep {w' : World} {d : Nat} {f : Registry → Registry}
      (machines : w'.machines = w.machines ∨
        w'.machines.length = w.machines.length ∧ ∀ m ∈ w'.machines, m.slots.ExistIn w)
      (calls : openCalls w'.journal = openCalls w.journal) (changes : w.ChangesBy d f w')
      (keeps : Registry.KeepsCalls f) (registered : ∀ r, (f r).registered = r.registered) :
      Effect w w'
  /-- It enters a call, with the registers that a machine has at this moment. -/
  | enter (w₁ : World) {d id vm : Nat} {f : Registry → Registry} {det : Detector} {m : Machine}
      {call : CallRecord} (machines : w₁.machines = w.machines)
      (calls : openCalls w₁.journal = openCalls w.journal) (changes : w.ChangesBy d f w₁)
      (keeps : Registry.KeepsCalls f) (registered : ∀ r, (f r).registered = r.registered)
      (detector : w.detectors[d]? = some det)
      (exist : id < det.registry.instances.length) (seq : call.seq = det.registry.lastSeq + 1)
      (machine : w.machines[vm]? = some m) (frm : call.frm = m.registers.frm)
      (cip : call.cip = m.registers.cip) : Effect w (w₁.enter d id call)
  /-- It lets the innermost call leave. -/
  | leave {d id : Nat} {call : CallRecord} {rest : List OpenCall}
      (innermost : openCalls w.journal = ⟨d, id, call⟩ :: rest) :
      Effect w (Act.leaveCall d id call.seq w)
  /-- It makes an instance. -/
  | attach {d vm : Nat} {det : Detector} {m : Machine} {i : Instance}
      (detector : w.detectors[d]? = some det) (machine : w.machines[vm]? = some m)
      (free : det.registry.contains m.handle = false) (idle : i.calls = [])
      (previous : i.previous = m.slots) : Effect w (w.attach d vm det m.handle i)
  /-- It registers one instance less. -/
  | detach {d id vm : Nat} {det : Detector} {m : Machine} (detector : w.detectors[d]? = some det)
      (registered : det.registry.find? m.handle = some id) :
      Effect w (w.detach d id vm m.handle)

theorem World.openCalls_send (d : Nat) (det : Detector) (r : Report) :
    openCalls (w.send d det r).journal = openCalls w.journal :=
  openCalls_append_of_neutral isNeutral_of_mem_log _

theorem Move.effect (h : Move w w') : Effect w w' := by
  cases h with
  | quiet hdet hlen hslots hes =>
      obtain ⟨es, hes, hneutral⟩ := hes
      refine .keep (d := 0) (.inr ⟨hlen, hslots⟩) ?_ (World.changesBy_id 0 fun d => ?_)
        Registry.keepsCalls_id fun _ => rfl
      · rw [hes, openCalls_append_of_neutral hneutral]
      · rw [World.registryAt?, World.registryAt?, hdet]
  | enterNative index hdet hm hid =>
      exact .enter w rfl rfl (World.changesBy_id _ fun _ => rfl) Registry.keepsCalls_id
        (fun _ => rfl) hdet hid rfl hm rfl rfl
  | @enterPublic d id vm det m index hdet hm hid =>
      refine .enter (w.clearIfIdle d) (w.machines_clearIfIdle d) ?_ (w.changesBy_clearIfIdle d)
        (Registry.keepsCalls_setLatch _) (fun _ => rfl) hdet hid rfl hm rfl rfl
      rw [World.clearIfIdle]
      split <;> rfl
  | leave hinner => exact .leave hinner
  | @suppressFailure d det id vm f _ _ =>
      exact .keep (d := d) (.inl rfl) rfl (World.changesBy_id d fun _ => rfl)
        Registry.keepsCalls_id fun _ => rfl
  | @reportFailure d id vm det m i f _ _ _ _ =>
      refine .keep (d := d) (.inl rfl) (World.openCalls_send _ _ _) (fun d' => ?_)
        (Registry.keepsCalls_setLatch fun _ => true) fun _ => rfl
      rw [World.reportFailure, World.registryAt?_send, World.registryAt?_arm]
      rfl
  | @terminate d det kind pending _ _ =>
      exact .keep (.inl rfl) rfl
        (World.changesBy_id d fun d' => w.registryAt?_endProcess d kind pending d')
        Registry.keepsCalls_id fun _ => rfl
  | @crashAgain d _ _ _ =>
      exact .keep (.inl rfl) rfl (World.changesBy_id d fun _ => rfl) Registry.keepsCalls_id
        fun _ => rfl
  | @crash d _ _ _ =>
      refine .keep (d := d) (.inl rfl) rfl (fun d' => ?_)
        (Registry.keepsCalls_setLatch fun _ => true) fun _ => rfl
      rw [World.registryAt?_record, World.registryAt?_arm]
  | @report d det r _ _ =>
      exact .keep (.inl rfl) (World.openCalls_send _ _ _)
        (World.changesBy_id d fun d' => w.registryAt?_send d det r d') Registry.keepsCalls_id
        fun _ => rfl
  | interrupt d pending =>
      refine .keep (.inl rfl) ?_
        (World.changesBy_id d fun d' => w.registryAt?_setInterrupt d pending d')
        Registry.keepsCalls_id fun _ => rfl
      cases pending <;> rfl
  | attach hdet hm hfree hidle hprev => exact .attach hdet hm hfree hidle hprev
  | detach hdet _ hid => exact .detach hdet hid

theorem World.keepsInstances_of_mild {d : Nat} {f : Registry → Registry} (hc : w.ChangesBy d f w')
    (hf : Registry.IsMild f) : w.KeepsInstances w' :=
  keepsInstances_of_changesBy hc fun r => Nat.le_of_eq (hf.length r).symm

theorem World.keepsInstances_enter (w : World) (d id : Nat) (call : CallRecord) :
    w.KeepsInstances (w.enter d id call) :=
  keepsInstances_of_mild (w.changesBy_enter d id call) (Registry.isMild_enter id call)

theorem World.keepsInstances_leaveCall (w : World) (d id seq : Nat) :
    w.KeepsInstances (Act.leaveCall d id seq w) :=
  keepsInstances_of_mild (w.changesBy_leaveCall d id seq) (Registry.isMild_leaveCall id seq)

theorem World.KeepsInstances.trans (h : w.KeepsInstances w') (h' : w'.KeepsInstances w'') :
    w.KeepsInstances w'' := by
  intro d r hr
  obtain ⟨r₁, hr₁, hle₁⟩ := h d r hr
  obtain ⟨r₂, hr₂, hle₂⟩ := h' d r₁ hr₁
  exact ⟨r₂, hr₂, Nat.le_trans hle₁ hle₂⟩

theorem Move.keepsInstances (h : Move w w') : w.KeepsInstances w' := by
  cases h.effect with
  | keep _ _ hc hf _ => exact World.keepsInstances_of_mild hc hf.isMild
  | enter _ _ _ hc hf _ _ _ _ _ _ _ =>
      exact (World.keepsInstances_of_mild hc hf.isMild).trans (World.keepsInstances_enter _ _ _ _)
  | leave _ => exact w.keepsInstances_leaveCall _ _ _
  | attach _ _ _ _ _ => exact w.keepsInstances_attach _ _ _ _ _
  | @detach d id vm _ m _ _ =>
      exact World.keepsInstances_of_mild (w.changesBy_detach d id vm m.handle)
        (Registry.keepsCalls_dismiss m.handle).isMild

theorem Move.machines_length (h : Move w w') : w'.machines.length = w.machines.length := by
  cases h.effect with
  | keep hm _ _ _ _ =>
      rcases hm with hm | ⟨hlen, -⟩
      · rw [hm]
      · exact hlen
  | enter _ hm _ _ _ _ _ _ _ _ _ _ => exact congrArg List.length hm
  | leave _ => rw [Act.machines_leaveCall]
  | detach _ _ => rfl
  | attach _ _ _ _ _ => simp [World.attach, World.modifyMachine]

theorem Move.valid (h : Move w w') (hv : w.Valid) : w'.Valid := by
  have hk := h.keepsInstances
  cases h.effect with
  | keep hm _ hc hf _ =>
      have hslots : ∀ m ∈ w'.machines, m.slots.ExistIn w := by
        rcases hm with hm | ⟨-, hslots⟩
        · exact hm ▸ hv.slots
        · exact hslots
      exact hv.of_mild (fun m hmem => (hslots m hmem).mono hk) hc hf.isMild
  | @enter w₁ d id _ _ _ _ call hm _ hc hf _ _ _ _ _ _ _ =>
      have hc' := hc.trans (w₁.changesBy_enter d id call)
      refine hv.of_mild (fun m hmem => (hv.slots m (hm ▸ hmem)).mono hk) hc' ?_
      exact (Registry.isMild_enter id call).comp hf.isMild
  | @leave d id call rest _ =>
      refine hv.of_mild (fun m hmem => ?_) (w.changesBy_leaveCall d id call.seq)
        (Registry.isMild_leaveCall id call.seq)
      exact (hv.slots m (Act.machines_leaveCall d id call.seq w ▸ hmem)).mono hk
  | attach hdet hm _ _ hprev => exact hv.attach hdet hm hprev
  | @detach d id vm _ m _ _ =>
      exact hv.of_mild (fun m' hmem => (hv.slots m' hmem).mono hk)
        (w.changesBy_detach d id vm m.handle) (Registry.keepsCalls_dismiss m.handle).isMild

theorem Move.journal (h : Move w w') : w.journal <:+ w'.journal := by
  cases h with
  | quiet _ _ _ hes =>
      obtain ⟨es, hes, -⟩ := hes
      exact ⟨es, hes.symm⟩
  | enterPublic index _ _ _ =>
      rw [World.enter, World.journal_record, World.journal_modifyRegistry, World.clearIfIdle]
      split
      · exact (List.suffix_cons _ _).trans (List.suffix_cons _ _)
      · exact List.suffix_cons _ _
  | leave _ =>
      rw [Act.journal_leaveCall]
      exact (List.suffix_append _ _).trans (List.suffix_cons _ _)
  | reportFailure _ _ _ _ _ =>
      rw [World.journal_reportFailure]
      refine List.IsSuffix.trans ?_ (List.suffix_append _ _)
      exact (((List.suffix_cons _ _).trans (List.suffix_cons _ _)).trans (List.suffix_cons _ _))
  | report _ _ =>
      rw [World.journal_send]
      exact (List.suffix_cons _ _).trans (List.suffix_append _ _)
  | crash _ _ => exact (List.suffix_cons _ _).trans (List.suffix_cons _ _)
  | enterNative | suppressFailure | terminate | crashAgain | interrupt | attach | detach =>
      exact List.suffix_cons _ _

/-! ## Runs -/

theorem Moves.keepsInstances (h : Moves w w') : w.KeepsInstances w' := by
  induction h with
  | refl => exact fun d r hr => ⟨r, hr, Nat.le_refl _⟩
  | tail _ hmove ih => exact ih.trans hmove.keepsInstances

theorem Moves.machines_length (h : Moves w w') : w'.machines.length = w.machines.length := by
  induction h with
  | refl => rfl
  | tail _ hmove ih => rw [hmove.machines_length, ih]

theorem Moves.valid (h : Moves w w') (hv : w.Valid) : w'.Valid := by
  induction h with
  | refl => exact hv
  | tail _ hmove ih => exact hmove.valid ih

theorem Moves.journal (h : Moves w w') : w.journal <:+ w'.journal := by
  induction h with
  | refl => exact List.suffix_refl _
  | tail _ hmove ih => exact ih.trans hmove.journal

end ScriptDiag
