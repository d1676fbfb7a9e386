import ScriptDiag.Proofs.Runs

/-!
# Worlds that differ in what detectors do

`Twin w w₀` says that `w₀` is `w` without interceptors: the machines are the same but for the
interceptors in their slots, and so are the journals but for what detectors wrote into them. What
the detectors know may differ in any way.

An act and another one are mirrors (`Mirrors`) if from twins they lead to twins and end alike. The
second may also give up, by `Stop.outOfFuel`, and then nothing is said about the first. Mirrors are
closed under the ways to combine acts, and an act that only detectors see can stand in front of
the first one alone (`Mirrors.unseen`).
-/

namespace ScriptDiag

open Act

variable {α β : Type} {w w' w₀ w₀' : World}

/-! ## Without interceptors -/

def Chain.bare : Chain → Chain
  | [] => []
  | .interceptor _ _ :: chain => Chain.bare chain
  | .base :: chain => .base :: Chain.bare chain
  | .layer number mode :: chain => .layer number mode :: Chain.bare chain

def Slots.bare (s : Slots) : Slots where
  hook := Chain.bare s.hook
  dispatcher := Chain.bare s.dispatcher
  exec := Chain.bare s.exec

def Machine.bare (m : Machine) : Machine :=
  { m with slots := m.slots.bare }

/-- Whether an event tells what machines, layers and bodies do, and not what a detector did or
answered. -/
def Event.isVisible : Event → Bool
  | .layer _ | .base _ _ | .called _ _ _ _ | .returned _ | .moved _ _ => true
  | .note (.crash _) | .note (.runtimeError _) | .note (.trace _) | .note (.probe _)
  | .note (.attach _) | .note (.detach _) => false
  | .note _ => true
  | _ => false

/-- What is visible without detectors, latest first. -/
def World.visible (w : World) : List Event :=
  w.journal.filter Event.isVisible

theorem World.visible_record (w : World) (e : Event) :
    (w.record e).visible = if e.isVisible then e :: w.visible else w.visible :=
  List.filter_cons

theorem World.visible_logAll (w : World) (lines : List LogLine) :
    (w.logAll lines).visible = w.visible := by
  have hnone : (lines.map Event.log).reverse.filter Event.isVisible = [] := by
    rw [List.filter_eq_nil_iff]
    intro e he
    obtain ⟨line, -, rfl⟩ := List.mem_map.mp (List.mem_reverse.mp he)
    exact Bool.false_ne_true
  rw [visible, journal_logAll, List.filter_append, hnone]
  rfl

/-! ## Bodies that do not consult detectors -/

/-- Whether a statement asks nothing of a detector and attaches none. It may tell a detector of an
error, or request an interrupt. -/
def Stmt.isDiscreet : Stmt → Bool
  | .crash _ _ | .trace _ | .probe _ | .attach _ | .detach _ => false
  | .setCip _ | .setRegisters _ _ _ _ | .noteRegisters | .emit _ | .write _ _ | .writeFrame _ _
  | .read _ | .call _ _ | .recurse _ _ _ _ | .native _ _ | .exec _ | .execOn _ _ | .step
  | .attempt _ | .times _ _ | .fail _ | .finish _ | .finishWithSum | .panic | .runtimeError _ _ _
  | .interrupt _ => true

def Body.isDiscreet : Body → Bool :=
  Body.all Stmt.isDiscreet

def Machine.isDiscreet : Machine → Bool :=
  Machine.allBodies fun _ => Body.isDiscreet

/-! ## Twins -/

structure Twin (w w₀ : World) : Prop where
  valid : w.Valid
  valid₀ : w₀.Valid
  machines : w₀.machines = w.machines.map Machine.bare
  detectors : ∀ d, (w₀.registryAt? d).isSome = (w.registryAt? d).isSome
  journal : w.visible = w₀.visible
  discreet : ∀ m ∈ w₀.machines, m.isDiscreet = true

theorem Move.isSome_registryAt? (h : Move w w') (d : Nat) :
    (w'.registryAt? d).isSome = (w.registryAt? d).isSome := by
  have hchange : ∀ {d' : Nat} {f : Registry → Registry} {w w' : World}, w.ChangesBy d' f w' →
      (w'.registryAt? d).isSome = (w.registryAt? d).isSome := by
    intro d' f w w' hc
    rw [hc d]
    split
    · exact Option.isSome_map
    · rfl
  cases h.effect with
  | keep _ _ hc _ _ => exact hchange hc
  | enter w₁ _ _ hc _ _ _ _ _ _ _ _ =>
      exact (hchange (w₁.changesBy_enter _ _ _)).trans (hchange hc)
  | leave _ => exact hchange (w.changesBy_leaveCall _ _ _)
  | attach _ _ _ _ _ => exact hchange (w.changesBy_attach _ _ _ _ _)
  | detach _ _ => exact hchange (w.changesBy_detach _ _ _ _)

theorem Moves.isSome_registryAt? (h : Moves w w') (d : Nat) :
    (w'.registryAt? d).isSome = (w.registryAt? d).isSome := by
  induction h with
  | refl => rfl
  | tail _ hmove ih => exact (hmove.isSome_registryAt? d).trans ih

/-- Both worlds go on. -/
theorem Twin.both (h : Twin w w₀) (hp : Moves w w') (hp₀ : Moves w₀ w₀')
    (hm : w₀'.machines = w'.machines.map Machine.bare) (hj : w'.visible = w₀'.visible)
    (hd : ∀ m ∈ w₀'.machines, m.isDiscreet = true) : Twin w' w₀' where
  valid := hp.valid h.valid
  valid₀ := hp₀.valid h.valid₀
  machines := hm
  detectors d := by
    rw [hp.isSome_registryAt?, hp₀.isSome_registryAt?, h.detectors]
  journal := hj
  discreet := hd

/-- Only the world with interceptors goes on, and nothing but detectors sees it. -/
theorem Twin.unseen (h : Twin w w₀) (hp : Moves w w')
    (hm : w'.machines.map Machine.bare = w.machines.map Machine.bare)
    (hj : w'.visible = w.visible) : Twin w' w₀ :=
  h.both hp .refl (h.machines.trans hm.symm) (hj.trans h.journal) h.discreet

theorem Twin.record (h : Twin w w₀) {e : Event} (he : e.isNeutral = true) :
    Twin (w.record e) (w₀.record e) := by
  refine h.both (BalancedDeeds.record h.valid he).moves (BalancedDeeds.record h.valid₀ he).moves
    h.machines ?_ h.discreet
  rw [World.visible_record, World.visible_record, h.journal]

theorem Twin.machine₀ (h : Twin w w₀) (vm : Nat) :
    w₀.machines[vm]? = w.machines[vm]?.map Machine.bare := by
  rw [h.machines, List.getElem?_map]

theorem Twin.detector₀ (h : Twin w w₀) (d : Nat) :
    (∃ det det₀, w.detectors[d]? = some det ∧ w₀.detectors[d]? = some det₀) ∨
      w.detectors[d]? = none ∧ w₀.detectors[d]? = none := by
  have hsome := h.detectors d
  rw [World.registryAt?, World.registryAt?, Option.isSome_map, Option.isSome_map] at hsome
  cases hd : w.detectors[d]? with
  | none =>
      rw [hd] at hsome
      exact .inr ⟨rfl, Option.not_isSome_iff_eq_none.mp (Bool.eq_false_iff.mp hsome)⟩
  | some det =>
      rw [hd] at hsome
      obtain ⟨det₀, hd₀⟩ := Option.isSome_iff_exists.mp hsome
      exact .inl ⟨det, det₀, rfl, hd₀⟩

theorem Twin.isDiscreet (h : Twin w w₀) {vm : Nat} {m : Machine} (hm : w.machines[vm]? = some m) :
    m.isDiscreet = true := by
  have hm₀ := h.machine₀ vm
  rw [hm] at hm₀
  exact h.discreet m.bare (List.mem_of_getElem? hm₀)

/-! ## Mirrors -/

/-- How two acts can end, from `w` and from `w₀`. -/
inductive Mirrored (x x₀ : Act α) (w w₀ : World) : Prop where
  | ok {a : α} {w' w₀' : World} (left : x w = .ok a w') (right : x₀ w₀ = .ok a w₀')
      (balanced : BalancedDeeds w w') (twin : Twin w' w₀')
  | stop {s : Stop} {w' w₀' : World} (left : x w = .error s w') (right : x₀ w₀ = .error s w₀')
      (balanced : BalancedDeeds w w') (twin : Twin w' w₀')
  | givesUp {w₀' : World} (right : x₀ w₀ = .error .outOfFuel w₀')

def Mirrors (x x₀ : Act α) (w w₀ : World) : Prop :=
  Twin w w₀ → Mirrored x x₀ w w₀

theorem Mirrors.of_twin {x x₀ : Act α} (h : Twin w w₀ → Mirrors x x₀ w w₀) : Mirrors x x₀ w w₀ :=
  fun ht => h ht ht

/-- What the acts do from these two worlds is all that counts. -/
theorem Mirrors.of_eq {x x' x₀ x₀' : Act α} (hx : x w = x' w) (hx₀ : x₀ w₀ = x₀' w₀)
    (h : Mirrors x' x₀' w w₀) : Mirrors x x₀ w w₀ := by
  intro ht
  cases h ht with
  | ok left right balanced twin => exact .ok (hx.trans left) (hx₀.trans right) balanced twin
  | stop left right balanced twin => exact .stop (hx.trans left) (hx₀.trans right) balanced twin
  | givesUp right => exact .givesUp (hx₀.trans right)

theorem mirrors_pure (a : α) : Mirrors (pure a) (pure a) w w₀ :=
  fun ht => .ok rfl rfl (.refl w) ht

theorem mirrors_throw (s : Stop) : Mirrors (throw s : Act α) (throw s) w w₀ :=
  fun ht => .stop rfl rfl (.refl w) ht

theorem Mirrors.bind {x x₀ : Act α} {f f₀ : α → Act β} (hx : Mirrors x x₀ w w₀)
    (hf : ∀ a w' w₀', Moves w w' → Mirrors (f a) (f₀ a) w' w₀') :
    Mirrors (x >>= f) (x₀ >>= f₀) w w₀ := by
  intro ht
  cases hx ht with
  | givesUp right => exact .givesUp (bind_of_error right)
  | stop left right balanced twin =>
      exact .stop (bind_of_error left) (bind_of_error right) balanced twin
  | @ok a w₁ w₁₀ left right balanced twin =>
      cases hf a w₁ w₁₀ balanced.moves twin with
      | givesUp right' => exact .givesUp ((bind_of_ok right).trans right')
      | stop left' right' balanced' twin' =>
          exact .stop ((bind_of_ok left).trans left') ((bind_of_ok right).trans right')
            (balanced.trans balanced') twin'
      | ok left' right' balanced' twin' =>
          exact .ok ((bind_of_ok left).trans left') ((bind_of_ok right).trans right')
            (balanced.trans balanced') twin'

/-- The act succeeds, and only detectors see what it does. -/
def Unseen (x : Act α) (w : World) : Prop :=
  ∃ a w', x w = .ok a w' ∧ w'.machines = w.machines ∧ w'.visible = w.visible

theorem Twin.after_unseen (h : Twin w w₀) {x : Act α} (hx : Unseen x w) (hp : Balanced x w) :
    ∃ a w', x w = .ok a w' ∧ BalancedDeeds w w' ∧ Twin w' w₀ := by
  obtain ⟨a, w', hok, hm, hj⟩ := hx
  have hp := hp h.valid
  rw [after_of_ok hok] at hp
  exact ⟨a, w', hok, hp, h.unseen hp.moves (congrArg _ hm) hj⟩

theorem Twin.after_unseen₀ (h : Twin w w₀) {x₀ : Act α} (hx₀ : Unseen x₀ w₀)
    (hp₀ : Balanced x₀ w₀) : ∃ a w₀', x₀ w₀ = .ok a w₀' ∧ Twin w w₀' := by
  obtain ⟨a, w₀', hok, hm, hj⟩ := hx₀
  have hp₀ := hp₀ h.valid₀
  rw [after_of_ok hok] at hp₀
  refine ⟨a, w₀', hok, h.both .refl hp₀.moves (hm.trans h.machines) (h.journal.trans hj.symm) ?_⟩
  rw [hm]
  exact h.discreet

/-- In front of the first act alone stands one that only detectors see. -/
theorem Mirrors.unseen {x : Act α} {f : α → Act β} {y₀ : Act β} (hx : Unseen x w)
    (hp : Balanced x w) (hf : ∀ a w', Moves w w' → Mirrors (f a) y₀ w' w₀) :
    Mirrors (x >>= f) y₀ w w₀ := by
  intro ht
  obtain ⟨a, w₁, hok, hbalanced, ht₁⟩ := ht.after_unseen hx hp
  cases hf a w₁ hbalanced.moves ht₁ with
  | givesUp right => exact .givesUp right
  | stop left right balanced twin =>
      exact .stop ((bind_of_ok hok).trans left) right (hbalanced.trans balanced) twin
  | ok left right balanced twin =>
      exact .ok ((bind_of_ok hok).trans left) right (hbalanced.trans balanced) twin

/-- In front of each act stands one that only detectors see, and what these two give may differ. -/
theorem Mirrors.unseen_both {x x₀ : Act α} {f f₀ : α → Act β} (hx : Unseen x w) (hp : Balanced x w)
    (hx₀ : Unseen x₀ w₀) (hp₀ : Balanced x₀ w₀)
    (hf : ∀ a a₀ w' w₀', Moves w w' → Mirrors (f a) (f₀ a₀) w' w₀') :
    Mirrors (x >>= f) (x₀ >>= f₀) w w₀ := by
  refine .of_twin fun ht => ?_
  obtain ⟨a₀, w₀', hok, ht'⟩ := ht.after_unseen₀ hx₀ hp₀
  refine fun _ => ?_
  have hmir : Mirrors (x >>= f) (f₀ a₀) w w₀' := .unseen hx hp fun a w' h => hf a a₀ w' w₀' h
  cases hmir ht' with
  | givesUp right => exact .givesUp ((bind_of_ok hok).trans right)
  | stop left right balanced twin => exact .stop left ((bind_of_ok hok).trans right) balanced twin
  | ok left right balanced twin => exact .ok left ((bind_of_ok hok).trans right) balanced twin

theorem Mirrors.attempt {x x₀ : Act α} (hx : Mirrors x x₀ w w₀) :
    Mirrors (attempt x) (attempt x₀) w w₀ := by
  intro ht
  cases hx ht with
  | ok left right balanced twin =>
      exact .ok (attempt_of_ok left) (attempt_of_ok right) balanced twin
  | givesUp right =>
      exact .givesUp (attempt_of_stop right fun e => nofun)
  | @stop s w₁ w₁₀ left right balanced twin =>
      cases s with
      | error e => exact .ok (attempt_of_error left) (attempt_of_error right) balanced twin
      | panic =>
          exact .stop (attempt_of_stop left fun e => nofun) (attempt_of_stop right fun e => nofun)
            balanced twin
      | outOfFuel => exact .givesUp (attempt_of_stop right fun e => nofun)

theorem mirrors_record {e : Event} (he : e.isNeutral = true) :
    Mirrors (record e) (record e) w w₀ :=
  fun ht => .ok rfl rfl (.record ht.valid he) (ht.record he)

theorem Mirrors.record_bind {e : Event} (he : e.isNeutral = true) {x x₀ : Act α}
    (h : Moves w (w.record e) → Mirrors x x₀ (w.record e) (w₀.record e)) :
    Mirrors (record e >>= fun _ => x) (record e >>= fun _ => x₀) w w₀ := by
  intro ht
  have hp := BalancedDeeds.record ht.valid he
  have left := bind_of_ok (f := fun _ => x) (record_apply e w)
  have right := bind_of_ok (f := fun _ => x₀) (record_apply e w₀)
  cases h hp.moves (ht.record he) with
  | givesUp right' => exact .givesUp (right.trans right')
  | stop left' right' balanced twin =>
      exact .stop (left.trans left') (right.trans right') (hp.trans balanced) twin
  | ok left' right' balanced twin =>
      exact .ok (left.trans left') (right.trans right') (hp.trans balanced) twin

theorem mirrors_note (n : Note) : Mirrors (note n) (note n) w w₀ :=
  mirrors_record rfl

theorem Mirrors.machine_bind {vm : Nat} {f f₀ : Machine → Act β}
    (hf : ∀ m, w.machines[vm]? = some m → Mirrors (f m) (f₀ m.bare) w w₀) :
    Mirrors (machine vm >>= f) (machine vm >>= f₀) w w₀ := by
  refine .of_twin fun ht => ?_
  have hm₀ := ht.machine₀ vm
  cases hm : w.machines[vm]? with
  | none =>
      rw [hm] at hm₀
      exact .of_eq (bind_of_error (machine_of_none hm)) (bind_of_error (machine_of_none hm₀))
        (mirrors_throw .panic)
  | some m =>
      rw [hm] at hm₀
      exact .of_eq (bind_of_ok (machine_of_some hm)) (bind_of_ok (machine_of_some hm₀)) (hf m hm)

/-! ## Computations on machines -/

/-- The computation does not look at the interceptors, and changes registers and memory only. -/
def MachineM.Blind (x : MachineM α) : Prop :=
  ∀ m, (∃ a m', x m = .ok a m' ∧ x m.bare = .ok a m'.bare ∧ m.SameModule m') ∨
    ∃ e m', x m = .error e m' ∧ x m.bare = .error e m'.bare ∧ m.SameModule m'

namespace MachineM

theorem blind_pure (a : α) : Blind (pure a) :=
  fun m => .inl ⟨a, m, rfl, rfl, .refl m⟩

theorem blind_throw (e : VmError) : Blind (throw e : MachineM α) :=
  fun m => .inr ⟨e, m, rfl, rfl, .refl m⟩

theorem Blind.bind {x : MachineM α} {f : α → MachineM β} (hx : Blind x) (hf : ∀ a, Blind (f a)) :
    Blind (x >>= f) := by
  intro m
  rcases hx m with ⟨a, m₁, h, h₀, hsame⟩ | ⟨e, m₁, h, h₀, hsame⟩
  · rcases hf a m₁ with ⟨b, m₂, h', h₀', hsame'⟩ | ⟨e, m₂, h', h₀', hsame'⟩
    · exact .inl ⟨b, m₂, (bind_of_ok h).trans h', (bind_of_ok h₀).trans h₀', hsame.trans hsame'⟩
    · exact .inr ⟨e, m₂, (bind_of_ok h).trans h', (bind_of_ok h₀).trans h₀', hsame.trans hsame'⟩
  · exact .inr ⟨e, m₁, bind_of_error h, bind_of_error h₀, hsame⟩

theorem Blind.get_bind {f : Machine → MachineM β} (hbare : ∀ m, f m.bare = f m)
    (hf : ∀ m, Blind (f m)) : Blind (get >>= f) := by
  intro m
  rw [bind_of_ok (get_apply m), bind_of_ok (get_apply m.bare), hbare]
  exact hf m m

theorem blind_modifyRegisters (f : Registers → Registers) : Blind (modifyRegisters f) :=
  fun m => .inl ⟨(), _, rfl, rfl, m.sameModule_withRegisters _⟩

theorem blind_push (value : Cell) : Blind (push value) := by
  intro m
  by_cases h : m.IsFull
  · have h₀ : m.bare.IsFull := h
    exact .inr ⟨_, m, push_of_full h value, push_of_full h₀ value, .refl m⟩
  · have h₀ : ¬ m.bare.IsFull := h
    exact .inl ⟨(), _, push_of_not_full h value, push_of_not_full h₀ value,
      m.sameModule_pushed value⟩

theorem blind_load (address : UCell) : Blind (load address) := by
  refine .get_bind (fun m => rfl) fun m => ?_
  split
  · exact blind_pure _
  · exact blind_throw _

theorem blind_enterFrame (address returnAddress : UCell) :
    Blind (enterFrame address returnAddress) := by
  refine (blind_push 0).bind fun _ => ?_
  refine (blind_push returnAddress.toInt32).bind fun _ => ?_
  refine .get_bind (fun m => rfl) fun m => ?_
  exact (blind_push m.registers.frm.toInt32).bind fun _ => blind_modifyRegisters _

theorem blind_leaveFrame (frm : UCell) : Blind (leaveFrame frm) :=
  (blind_load frm).bind fun _ => (blind_load (frm + cellSize)).bind fun _ =>
    blind_modifyRegisters _

theorem blind_store (address : UCell) (value : Cell) : Blind (store address value) := by
  intro m
  have hmemory : m.bare.memory = m.memory := rfl
  rw [store, bind_of_ok (get_apply m), bind_of_ok (get_apply m.bare), hmemory]
  cases m.memory.write? address value with
  | none => exact .inl ⟨false, m, rfl, rfl, .refl m⟩
  | some memory => exact .inl ⟨true, _, rfl, rfl, ⟨rfl, rfl, rfl, rfl, rfl, rfl, rfl⟩⟩

end MachineM

theorem Machine.SameModule.isDiscreet_eq {m m' : Machine} (h : m.SameModule m') :
    m'.isDiscreet = m.isDiscreet := by
  rw [isDiscreet, allBodies, allBodies, h.natives, h.publics, h.main]

theorem Twin.modifyMachine (h : Twin w w₀) {vm : Nat} {m m' : Machine}
    (hm : w.machines[vm]? = some m) (hsame : m.SameModule m') :
    BalancedDeeds w (w.modifyMachine vm fun _ => m') ∧
      Twin (w.modifyMachine vm fun _ => m') (w₀.modifyMachine vm fun _ => m'.bare) := by
  have hm₀ : w₀.machines[vm]? = some m.bare := by
    rw [h.machine₀, hm]
    rfl
  have hmem : m.bare ∈ w₀.machines := List.mem_of_getElem? hm₀
  have hslots : m'.slots.ExistIn w := hsame.slots ▸ h.valid.slots m (List.mem_of_getElem? hm)
  have hslots₀ : m'.bare.slots.ExistIn w₀ := by
    have heq : m'.bare.slots = m.bare.slots := congrArg Slots.bare hsame.slots
    exact heq ▸ h.valid₀.slots _ hmem
  have hp : BalancedDeeds w (w.modifyMachine vm fun _ => m') :=
    .modifyMachine h.valid vm fun _ _ => hslots
  have hp₀ : BalancedDeeds w₀ (w₀.modifyMachine vm fun _ => m'.bare) :=
    .modifyMachine h.valid₀ vm fun _ _ => hslots₀
  refine ⟨hp, h.both hp.moves hp₀.moves ?_ h.journal ?_⟩
  · apply List.ext_getElem?
    intro k
    rw [World.getElem?_modifyMachine, List.getElem?_map, World.getElem?_modifyMachine, h.machine₀]
    split <;> simp [Function.comp_def]
  · intro m₁ hm₁
    obtain ⟨k, hk⟩ := List.mem_iff_getElem?.mp hm₁
    rw [World.getElem?_modifyMachine] at hk
    split at hk
    · obtain ⟨m₂, -, rfl⟩ := Option.map_eq_some_iff.mp hk
      have hdiscreet : m'.bare.isDiscreet = m.bare.isDiscreet := hsame.isDiscreet_eq
      exact hdiscreet.trans (h.discreet m.bare hmem)
    · exact h.discreet _ (List.mem_of_getElem? hk)

theorem mirrors_onMachine {vm : Nat} {x : MachineM α} (hx : x.Blind) :
    Mirrors (onMachine vm x) (onMachine vm x) w w₀ := by
  intro ht
  have hm₀ := ht.machine₀ vm
  cases hm : w.machines[vm]? with
  | none =>
      rw [hm] at hm₀
      exact .stop (bind_of_error (machine_of_none hm)) (bind_of_error (machine_of_none hm₀))
        (.refl w) ht
  | some m =>
      rw [hm] at hm₀
      rcases hx m with ⟨a, m', h, h₀, hsame⟩ | ⟨e, m', h, h₀, hsame⟩
      · obtain ⟨balanced, twin⟩ := ht.modifyMachine hm hsame
        exact .ok (onMachine_of_ok hm h) (onMachine_of_ok hm₀ h₀) balanced twin
      · obtain ⟨balanced, twin⟩ := ht.modifyMachine hm hsame
        exact .stop (onMachine_of_error hm h) (onMachine_of_error hm₀ h₀) balanced twin

end ScriptDiag
