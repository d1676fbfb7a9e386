import ScriptDiag.Session

/-!
# Running acts

An act takes a world to a result: a value and a world, or the reason why it stopped early and the
world it stopped in. Here are the equations for running the acts of `ScriptDiag.World` and for
running one act after another, and what the changes to a world leave as it was. Proofs about the
library's acts rewrite with these equations, one act after the other, and do not unfold the monad.

`after` is the world that an act leaves behind, however it ends.
-/

namespace ScriptDiag

/-! ## Changes to a world -/

namespace World

@[simp] theorem machines_record (w : World) (e : Event) : (w.record e).machines = w.machines := rfl

@[simp] theorem detectors_record (w : World) (e : Event) :
    (w.record e).detectors = w.detectors := rfl

@[simp] theorem journal_record (w : World) (e : Event) : (w.record e).journal = e :: w.journal :=
  rfl

@[simp] theorem machines_modifyDetector (w : World) (d : Nat) (f : Detector → Detector) :
    (w.modifyDetector d f).machines = w.machines := rfl

@[simp] theorem journal_modifyDetector (w : World) (d : Nat) (f : Detector → Detector) :
    (w.modifyDetector d f).journal = w.journal := rfl

theorem getElem?_modifyDetector (w : World) (d d' : Nat) (f : Detector → Detector) :
    (w.modifyDetector d f).detectors[d']? =
      if d = d' then w.detectors[d']?.map f else w.detectors[d']? := by
  rw [modifyDetector, List.getElem?_modify]
  split <;> simp_all

/-- Only what a change does to the element there is matters. -/
theorem modify_congr {α : Type} {xs : List α} {n : Nat} {x : α} {f g : α → α}
    (h : xs[n]? = some x) (hfg : f x = g x) : xs.modify n f = xs.modify n g := by
  apply List.ext_getElem?
  intro k
  rw [List.getElem?_modify, List.getElem?_modify]
  by_cases hk : n = k
  · subst hk
    simp [h, hfg]
  · simp [hk]

theorem modifyDetector_congr {w : World} {d : Nat} {det : Detector} {f g : Detector → Detector}
    (h : w.detectors[d]? = some det) (hfg : f det = g det) :
    w.modifyDetector d f = w.modifyDetector d g := by
  rw [modifyDetector, modifyDetector, modify_congr h hfg]

theorem modifyMachine_congr {w : World} {vm : Nat} {m : Machine} {f g : Machine → Machine}
    (h : w.machines[vm]? = some m) (hfg : f m = g m) :
    w.modifyMachine vm f = w.modifyMachine vm g := by
  rw [modifyMachine, modifyMachine, modify_congr h hfg]

@[simp] theorem machines_modifyRegistry (w : World) (d : Nat) (f : Registry → Registry) :
    (w.modifyRegistry d f).machines = w.machines := rfl

@[simp] theorem journal_modifyRegistry (w : World) (d : Nat) (f : Registry → Registry) :
    (w.modifyRegistry d f).journal = w.journal := rfl

theorem getElem?_modifyRegistry (w : World) (d d' : Nat) (f : Registry → Registry) :
    (w.modifyRegistry d f).detectors[d']? =
      if d = d' then w.detectors[d']?.map fun det => { det with registry := f det.registry }
      else w.detectors[d']? :=
  w.getElem?_modifyDetector d d' _

@[simp] theorem detectors_modifyMachine (w : World) (vm : Nat) (f : Machine → Machine) :
    (w.modifyMachine vm f).detectors = w.detectors := rfl

@[simp] theorem journal_modifyMachine (w : World) (vm : Nat) (f : Machine → Machine) :
    (w.modifyMachine vm f).journal = w.journal := rfl

theorem getElem?_modifyMachine (w : World) (vm vm' : Nat) (f : Machine → Machine) :
    (w.modifyMachine vm f).machines[vm']? =
      if vm = vm' then w.machines[vm']?.map f else w.machines[vm']? := by
  rw [modifyMachine, List.getElem?_modify]
  split <;> simp_all

/-- The world with lines written to the log, the first one first. -/
def logAll (w : World) (lines : List LogLine) : World :=
  { w with journal := (lines.map Event.log).reverse ++ w.journal }

@[simp] theorem machines_logAll (w : World) (lines : List LogLine) :
    (w.logAll lines).machines = w.machines := rfl

@[simp] theorem detectors_logAll (w : World) (lines : List LogLine) :
    (w.logAll lines).detectors = w.detectors := rfl

@[simp] theorem journal_logAll (w : World) (lines : List LogLine) :
    (w.logAll lines).journal = (lines.map Event.log).reverse ++ w.journal := rfl

end World

namespace Act

/-! ## One computation after another

What a world is to an act, a machine is to a computation on it, so this is about both. -/

section

variable {ε σ α β : Type} {s s' : σ}

theorem bind_apply (x : EStateM ε σ α) (f : α → EStateM ε σ β) (s : σ) :
    (x >>= f) s =
      match x s with
      | .ok a s' => f a s'
      | .error e s' => .error e s' := by
  show EStateM.bind x f s = _
  unfold EStateM.bind
  split <;> simp_all

theorem bind_of_ok {x : EStateM ε σ α} {f : α → EStateM ε σ β} {a : α} (h : x s = .ok a s') :
    (x >>= f) s = f a s' := by
  rw [bind_apply, h]

theorem bind_of_error {x : EStateM ε σ α} {f : α → EStateM ε σ β} {e : ε}
    (h : x s = .error e s') : (x >>= f) s = .error e s' := by
  rw [bind_apply, h]

theorem map_apply (f : α → β) (x : EStateM ε σ α) (s : σ) :
    (f <$> x) s =
      match x s with
      | .ok a s' => .ok (f a) s'
      | .error e s' => .error e s' := by
  show EStateM.map f x s = _
  unfold EStateM.map
  split <;> simp_all

theorem pure_apply (a : α) (s : σ) : (pure a : EStateM ε σ α) s = .ok a s := rfl

theorem get_apply (s : σ) : (get : EStateM ε σ σ) s = .ok s s := rfl

theorem throw_apply (e : ε) (s : σ) : (throw e : EStateM ε σ α) s = .error e s := rfl

theorem modify_apply (f : σ → σ) (s : σ) : (modify f : EStateM ε σ PUnit) s = .ok () (f s) := rfl

end

variable {α β : Type} {w w' : World}

/-! ## Basic acts -/

theorem fail_apply (e : VmError) (w : World) : (fail e : Act α) w = .error (.error e) w := rfl

theorem record_apply (e : Event) (w : World) : record e w = .ok () (w.record e) := rfl

theorem log_apply (level : LogLevel) (message : String) (w : World) :
    log level message w = .ok () (w.record (.log { level, message })) := rfl

theorem forM_log_apply (lines : List LogLine) (w : World) :
    (lines.forM fun line => record (.log line)) w = .ok () (w.logAll lines) := by
  induction lines generalizing w with
  | nil => rfl
  | cons line lines ih =>
    show (record (.log line) >>= fun _ => lines.forM fun line => record (.log line)) w = _
    rw [bind_of_ok (record_apply _ _), ih]
    simp [World.logAll, World.record]

theorem machine_of_some {vm : Nat} {m : Machine} (h : w.machines[vm]? = some m) :
    machine vm w = .ok m w := by
  rw [machine, bind_of_ok (get_apply w), h]
  rfl

theorem machine_of_none {vm : Nat} (h : w.machines[vm]? = none) :
    machine vm w = .error .panic w := by
  rw [machine, bind_of_ok (get_apply w), h]
  rfl

theorem detector_of_some {d : Nat} {det : Detector} (h : w.detectors[d]? = some det) :
    detector d w = .ok det w := by
  rw [detector, bind_of_ok (get_apply w), h]
  rfl

theorem detector_of_none {d : Nat} (h : w.detectors[d]? = none) :
    detector d w = .error .panic w := by
  rw [detector, bind_of_ok (get_apply w), h]
  rfl

theorem onMachine_of_ok {vm : Nat} {m m' : Machine} {x : MachineM α} {a : α}
    (hm : w.machines[vm]? = some m) (hx : x m = .ok a m') :
    onMachine vm x w = .ok a (w.modifyMachine vm fun _ => m') := by
  rw [onMachine, bind_of_ok (machine_of_some hm), hx]
  exact bind_of_ok (modify_apply _ _)

theorem onMachine_of_error {vm : Nat} {m m' : Machine} {x : MachineM α} {e : VmError}
    (hm : w.machines[vm]? = some m) (hx : x m = .error e m') :
    onMachine vm x w = .error (.error e) (w.modifyMachine vm fun _ => m') := by
  rw [onMachine, bind_of_ok (machine_of_some hm), hx]
  exact bind_of_ok (modify_apply _ _)

/-! Only what an act does in a world matters there. -/

theorem bind_congr_left {x y : Act α} (h : x w = y w') (f : α → Act β) :
    (x >>= f) w = (y >>= f) w' := by
  rw [bind_apply, bind_apply, h]

theorem map_congr {x y : Act α} (h : x w = y w') (f : α → β) : (f <$> x) w = (f <$> y) w' := by
  rw [map_apply, map_apply, h]

theorem attempt_congr {x y : Act α} (h : x w = y w') : attempt x w = attempt y w' := by
  rw [attempt, attempt, h]

theorem ensuring_congr {x y : Act α} (h : x w = y w') (f : World → World) :
    ensuring x f w = ensuring y f w' := by
  rw [ensuring, ensuring, h]

theorem attempt_of_ok {x : Act α} {a : α} (h : x w = .ok a w') :
    attempt x w = .ok (.ok a) w' := by
  rw [attempt, h]

theorem attempt_of_error {x : Act α} {e : VmError} (h : x w = .error (.error e) w') :
    attempt x w = .ok (.error e) w' := by
  rw [attempt, h]

theorem attempt_of_stop {x : Act α} {s : Stop} (h : x w = .error s w') (hs : ∀ e, s ≠ .error e) :
    attempt x w = .error s w' := by
  rw [attempt, h]
  cases s with
  | error e => exact absurd rfl (hs e)
  | panic => rfl
  | outOfFuel => rfl

theorem ensuring_of_ok {x : Act α} {a : α} (h : x w = .ok a w') (f : World → World) :
    ensuring x f w = .ok a (f w') := by
  rw [ensuring, h]

theorem ensuring_of_error {x : Act α} {s : Stop} (h : x w = .error s w') (f : World → World) :
    ensuring x f w = .error s (f w') := by
  rw [ensuring, h]

/-- What a chain forwards to is what is given for its rest. -/
theorem eq_of_rest_eq_some {chain : Chain} {x y : Act α} (h : Run.rest chain x = some y) :
    y = x := by
  rw [Run.rest] at h
  split at h
  · cases h
  · exact (Option.some.inj h).symm

/-! ## The world left behind -/

/-- The world that an act leaves behind, however it ends. -/
def after (x : Act α) (w : World) : World :=
  match x w with
  | .ok _ w => w
  | .error _ w => w

theorem after_of_ok {x : Act α} {a : α} (h : x w = .ok a w') : x.after w = w' := by
  rw [after, h]

theorem after_of_error {x : Act α} {s : Stop} (h : x w = .error s w') : x.after w = w' := by
  rw [after, h]

theorem after_bind_of_ok {x : Act α} {f : α → Act β} {a : α} (h : x w = .ok a w') :
    (x >>= f).after w = (f a).after w' := by
  rw [after, bind_of_ok h, after]

theorem after_bind_of_error {x : Act α} {f : α → Act β} {s : Stop} (h : x w = .error s w') :
    (x >>= f).after w = w' :=
  after_of_error (bind_of_error h)

theorem after_congr {x y : Act α} (h : x w = y w') : x.after w = y.after w' := by
  rw [after, after, h]

theorem after_map (f : α → β) (x : Act α) (w : World) : (f <$> x).after w = x.after w := by
  rw [after, after, map_apply]
  cases x w <;> rfl

theorem after_ensuring (x : Act α) (f : World → World) (w : World) :
    (ensuring x f).after w = f (x.after w) := by
  rw [after, after, ensuring]
  cases x w <;> rfl

theorem after_attempt (x : Act α) (w : World) : (attempt x).after w = x.after w := by
  rw [after, after, attempt]
  rcases x w with ⟨a, w'⟩ | ⟨_ | _ | _, w'⟩ <;> rfl

end Act

end ScriptDiag
