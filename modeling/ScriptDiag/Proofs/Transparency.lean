import ScriptDiag.Proofs.Tracking
import ScriptDiag.Proofs.Twins

/-!
# Attaching is transparent

A machine with detectors attached does what the same machine does without them
(`attaching_is_transparent`): a public has the same result, the machines are left the same, and the
same handlers and functions are called in the same order.

This needs natives that are there and do not fail, except by a forced exit, since an interceptor
turns any other failure of a native into one and the same error. Which natives fail must not be
asked of the detectors. So `Run.strictWith` runs bodies like `Run.runWith`, without detectors taking
part, and gives up where a native is missing or fails. The proof compares runs of an attached
machine with strict runs of its twin (`mirrors_runWith`), call by call along the chains, statement
by statement, and by induction on the depth to which bodies are nested.
-/

namespace ScriptDiag

open Act

variable {α β : Type} {w w' w₀ : World} {d id vm : Nat} {index : Cell}

/-! ## Runs with natives that succeed -/

namespace Run

/-- Run `x`, and give up if it fails, except by a forced exit. -/
def orGiveUp (x : Act Cell) : Act Cell := do
  match ← attempt x with
  | .ok value => return value
  | .error .exit => fail .exit
  | .error _ => throw .outOfFuel

/-- Call a native, and give up if there is no function behind it or it fails. -/
def strictNative (run : Runner) (a : Activation) (index : Cell) (params : List Cell) :
    Act Cell := do
  if ((← machine a.vm).nativeBody? index).isSome then
    orGiveUp (callNative run a index params)
  else throw .outOfFuel

def strictStmt (run : Runner) (a : Activation) : Stmt → Act Flow
  | .native index params => do
    return .next (some (← strictNative run a index params))
  | s => stmt run a s

def strictStmts (run : Runner) (a : Activation) (last : Cell) : List Stmt → Act Cell
  | [] => return last
  | s :: rest => do
    match ← strictStmt run a s with
    | .next value => strictStmts run a (value.getD last) rest
    | .finish value => return value

/-- Run a body, and give up where a native is missing or fails. -/
def strictWith : (fuel : Nat) → Runner
  | 0 => fun _ _ => throw .outOfFuel
  | fuel + 1 => fun a body => strictStmts (strictWith fuel) a 0 body

/-- Whether running the public `index` comes to an end with every native called being there, and
succeeding or stopping the script by a forced exit. -/
def nativesSucceed (fuel vm : Nat) (index : Cell) (w : World) : Bool :=
  match callPublic (strictWith fuel) { vm } index w with
  | .error .outOfFuel _ => false
  | _ => true

theorem orGiveUp_of_ok {x : Act Cell} {value : Cell} (h : x w = .ok value w') :
    orGiveUp x w = .ok value w' := by
  rw [orGiveUp, bind_of_ok (attempt_of_ok h)]
  rfl

theorem orGiveUp_of_error {x : Act Cell} {e : VmError} (h : x w = .error (.error e) w') :
    orGiveUp x w = .error (if e = .exit then .error .exit else .outOfFuel) w' := by
  rw [orGiveUp, bind_of_ok (attempt_of_error h)]
  cases e <;> rfl

theorem orGiveUp_of_stop {x : Act Cell} {s : Stop} (h : x w = .error s w')
    (hs : ∀ e, s ≠ .error e) : orGiveUp x w = .error s w' := by
  rw [orGiveUp]
  exact bind_of_error (attempt_of_stop h hs)

theorem orGiveUp_congr {x x' : Act Cell} (h : x w = x' w') : orGiveUp x w = orGiveUp x' w' :=
  bind_congr_left (attempt_congr h) _

theorem orGiveUp_record_bind (e : Event) (x : Act Cell) :
    orGiveUp (record e >>= fun _ => x) = record e >>= fun _ => orGiveUp x := by
  funext w
  have hleft := orGiveUp_congr (bind_of_ok (f := fun _ => x) (record_apply e w))
  have hright := bind_of_ok (f := fun _ => orGiveUp x) (record_apply e w)
  exact hleft.trans hright.symm

/-- A forced exit is the only error that is left. -/
theorem eq_exit_of_orGiveUp {x : Act Cell} {e : VmError}
    (h : orGiveUp x w = .error (.error e) w') : e = .exit := by
  cases hx : x w with
  | ok value w₁ =>
      rw [orGiveUp_of_ok hx] at h
      cases h
  | error s w₁ =>
      cases s with
      | error e' =>
          rw [orGiveUp_of_error hx] at h
          split at h <;> cases h
          rfl
      | panic | outOfFuel =>
          rw [orGiveUp_of_stop hx fun e => nofun] at h
          cases h

end Run

open Run

theorem Mirrors.orGiveUp {x x₀ : Act Cell} (hx : Mirrors x x₀ w w₀) :
    Mirrors x (orGiveUp x₀) w w₀ := by
  intro ht
  cases hx ht with
  | ok left right balanced twin => exact .ok left (orGiveUp_of_ok right) balanced twin
  | givesUp right => exact .givesUp (orGiveUp_of_stop right fun e => nofun)
  | @stop s w₁ w₁₀ left right balanced twin =>
      cases s with
      | error e =>
          have right := orGiveUp_of_error right
          by_cases he : e = .exit
          · rw [if_pos he] at right
            exact .stop (he ▸ left) right balanced twin
          · rw [if_neg he] at right
            exact .givesUp right
      | panic | outOfFuel =>
          exact .stop left (orGiveUp_of_stop right fun e => nofun) balanced twin

/-! ## What only detectors see -/

theorem World.visible_send (w : World) (d : Nat) (det : Detector) (r : Report) :
    (w.send d det r).visible = w.visible :=
  visible_logAll _ _

theorem World.visible_reportFailure (w : World) (d id vm : Nat) (det : Detector) (m : Machine)
    (i : Instance) (f : Failure) : (w.reportFailure d id vm det m i f).visible = w.visible :=
  visible_send _ _ _ _

theorem unseen_onRuntimeError (hid : w.HasInstance d id) (hvm : vm < w.machines.length)
    (index : Cell) (e : VmError) : Unseen (onRuntimeError d id vm index e) w := by
  obtain ⟨det, i, hdet, hi, -⟩ := hid.detector
  have hm : w.machines[vm]? = some w.machines[vm] := List.getElem?_eq_getElem hvm
  cases hh : isHarmless index e with
  | true => exact ⟨_, _, onRuntimeError_of_harmless hh w, rfl, rfl⟩
  | false =>
      cases ha : det.registry.latchArmed with
      | true =>
          obtain ⟨line, hok⟩ := onRuntimeError_of_armed hh hdet ha id vm
          exact ⟨_, _, hok, rfl, rfl⟩
      | false =>
          have hok := onRuntimeError_of_clear hh hdet ha hm hi
          have hj := w.visible_reportFailure d id vm det w.machines[vm] i (.runtime index e)
          by_cases hdie : det.settings.dieOnError = true
          · rw [if_pos hdie] at hok
            exact ⟨_, _, hok, rfl, hj⟩
          · rw [if_neg hdie] at hok
            exact ⟨_, _, hok, rfl, hj⟩

theorem unseen_noticeInterrupt (hid : w.HasInstance d id) (hvm : vm < w.machines.length) :
    Unseen (noticeInterrupt d id vm) w := by
  obtain ⟨det, i, hdet, hi, -⟩ := hid.detector
  obtain ⟨w', hok, ⟨-, rfl⟩ | ⟨-, -, rfl⟩ | ⟨-, -, r, -, rfl⟩⟩ :=
    noticeInterrupt_cases hdet (List.getElem?_eq_getElem hvm) hi
  · exact ⟨_, _, hok, rfl, rfl⟩
  · exact ⟨_, _, hok, rfl, rfl⟩
  · exact ⟨_, _, hok, rfl, World.visible_send _ _ _ _⟩

theorem unseen_requestInterrupt {det : Detector} (hdet : w.detectors[d]? = some det) :
    Unseen (requestInterrupt d) w :=
  ⟨_, _, requestInterrupt_apply hdet, rfl, rfl⟩

theorem unseen_runtimeError {det : Detector} {m : Machine} (hv : w.Valid)
    (hdet : w.detectors[d]? = some det) (hm : w.machines[vm]? = some m) (index : Cell)
    (e : VmError) : Unseen (runtimeError d vm index e) w := by
  have hvm : vm < w.machines.length := (List.getElem?_eq_some_iff.mp hm).1
  unfold Unseen runtimeError
  rw [bind_of_ok (machine_of_some hm), bind_of_ok (detector_of_some hdet)]
  cases hid : det.registry.find? m.handle with
  | some id => exact unseen_onRuntimeError (hv.hasInstance hdet hid) hvm index e
  | none => exact ⟨_, _, rfl, rfl, rfl⟩

/-! ## Interceptors -/

theorem World.Admits.visible_eq {w₁ : World} {call : CallRecord} (h : w.Admits d id call w₁) :
    w₁.visible = w.visible := by
  rw [World.visible, World.visible]
  rcases h.journal with hj | hj <;> rw [hj] <;> rfl

/-- A call that an interceptor admits. What it is answered with runs until the call leaves. -/
theorem Mirrors.admitted {x body y₀ : Act α} {w₁ : World} {call : CallRecord}
    (hadmits : w.Admits d id call w₁) (hx : x w = ensuring body (leaveCall d id call.seq) w₁)
    (hbody : Mirrors body y₀ w₁ w₀) : Mirrors x y₀ w w₀ := by
  intro ht
  have hleave : ∀ {w₂ w₀' : World}, BalancedDeeds w₁ w₂ → Twin w₂ w₀' →
      BalancedDeeds w (leaveCall d id call.seq w₂) ∧ Twin (leaveCall d id call.seq w₂) w₀' := by
    intro w₂ w₀' hp ht₂
    have hinner : openCalls w₂.journal = ⟨d, id, call⟩ :: openCalls w.journal :=
      hp.open_eq.trans hadmits.open_eq
    refine ⟨hadmits.balanced hp, ht₂.unseen (.single (.leave hinner)) ?_ ?_⟩
    · rw [machines_leaveCall]
    · rw [leaveCall_eq, World.visible_record]
      exact World.visible_logAll _ _
  cases hbody (ht.unseen (.single hadmits.move) (congrArg _ hadmits.machines)
    hadmits.visible_eq) with
  | givesUp right => exact .givesUp right
  | stop left right balanced twin =>
      obtain ⟨balanced, twin⟩ := hleave balanced twin
      exact .stop (hx.trans (ensuring_of_error left _)) right balanced twin
  | ok left right balanced twin =>
      obtain ⟨balanced, twin⟩ := hleave balanced twin
      exact .ok (hx.trans (ensuring_of_ok left _)) right balanced twin

theorem Machine.native?_of_nativeBody? {m : Machine} (h : (m.nativeBody? index).isSome = true) :
    ∃ entry, m.view.native? index = some entry ∧ entry.isRegistered = true := by
  obtain ⟨body, hbody⟩ := Option.isSome_iff_exists.mp h
  rw [nativeBody?, Option.map_eq_some_iff] at hbody
  obtain ⟨f, hf, -⟩ := hbody
  obtain ⟨n, hn, hf⟩ := Option.bind_eq_some_iff.mp hf
  obtain ⟨i, hi, hn⟩ := Option.bind_eq_some_iff.mp hn
  refine ⟨{ name := n.name, address := n.function.map HostFunction.address }, ?_, ?_⟩
  · simp [VmView.native?, entryAt?, view, hi, hn]
  · simp [NativeEntry.isRegistered, hf]

theorem mirrors_interceptNative {m : Machine} {next y₀ : Act Cell} (hid : w.HasInstance d id)
    (hm : w.machines[vm]? = some m) (hbody : (m.nativeBody? index).isSome = true)
    (hnext : ∀ w', Moves w w' → w'.machines = w.machines → Mirrors next (orGiveUp y₀) w' w₀) :
    Mirrors (interceptNative d id vm index (some next)) (orGiveUp y₀) w w₀ := by
  obtain ⟨entry, hentry, hregistered⟩ := m.native?_of_nativeBody? hbody
  obtain ⟨seq, w₁, hadmits, happly⟩ := interceptNative_admits hid hm index
  refine .admitted hadmits (happly (some next)) ?_
  have hanswer :=
    answerNative_of_registered (hadmits.machine hm) hentry hregistered d id next
  refine .of_eq hanswer rfl fun ht => ?_
  cases hnext w₁ (.single hadmits.move) hadmits.machines ht with
  | givesUp right => exact .givesUp right
  | ok left right balanced twin => exact .ok (bind_of_ok (attempt_of_ok left)) right balanced twin
  | @stop s w₂ w₀' left right balanced twin =>
      cases s with
      | error e =>
          obtain rfl := eq_exit_of_orGiveUp right
          exact .stop (bind_of_ok (attempt_of_error left)) right balanced twin
      | panic | outOfFuel =>
          exact .stop (bind_of_error (attempt_of_stop left fun e => nofun)) right balanced twin

theorem attempt_bind_ofExcept (x : Act α) : attempt x >>= ofExcept = x := by
  funext w
  cases h : x w with
  | ok a w' => exact bind_of_ok (attempt_of_ok h)
  | error s w' =>
      cases s with
      | error e => exact bind_of_ok (attempt_of_error h)
      | panic | outOfFuel => exact bind_of_error (attempt_of_stop h fun e => nofun)

theorem mirrors_interceptExec {next : Option (Act Cell)} {y₀ : Act Cell}
    (hid : w.HasInstance d id) (hvm : vm < w.machines.length)
    (hnext : ∀ w', Moves w w' → Mirrors (next.getD (fail .notInitialized)) y₀ w' w₀) :
    Mirrors (interceptExec d id vm index next) y₀ w w₀ := by
  obtain ⟨seq, w₁, hadmits, happly⟩ :=
    interceptExec_admits hid (List.getElem?_eq_getElem hvm) index
  refine .admitted hadmits (happly next) ?_
  rw [← attempt_bind_ofExcept y₀]
  refine (hnext w₁ (.single hadmits.move)).attempt.bind fun result w₂ w₀' h₂ => ?_
  cases result with
  | ok value => exact mirrors_pure value
  | error e =>
      have hid₂ := (hadmits.hasInstance hid).mono h₂.keepsInstances
      have hvm₂ : vm < w₂.machines.length := h₂.machines_length.symm ▸ hadmits.lt_machines hvm
      exact .unseen (unseen_onRuntimeError hid₂ hvm₂ index e)
        (balanced_onRuntimeError hid₂ hvm₂ index e) fun _ _ _ => mirrors_throw _

theorem mirrors_interceptHook {next y₀ : Act Unit} (hid : w.HasInstance d id)
    (hvm : vm < w.machines.length)
    (hnext : ∀ w', Moves w w' → Mirrors next y₀ w' w₀) :
    Mirrors (interceptHook d id vm next) y₀ w w₀ := by
  rw [interceptHook_eq]
  exact .unseen (unseen_noticeInterrupt hid hvm) (balanced_noticeInterrupt hid hvm)
    fun _ w' h => hnext w' h

/-! ## Chains

A chain and its bare form do the same, link by link; the interceptors have no counterpart. -/

theorem mirrors_layer {number : Nat} {mode : LayerMode} {success : α} {next next₀ : Act α}
    (hnext : Moves w (w.record (.layer number)) →
      Mirrors next next₀ (w.record (.layer number)) (w₀.record (.layer number))) :
    Mirrors (layer number mode success next) (layer number mode success next₀) w w₀ := by
  refine .record_bind rfl fun hp => ?_
  cases mode with
  | forward => exact hnext hp
  | drop => exact mirrors_pure success
  | fail e => exact mirrors_throw _

theorem mirrors_baseHook (a : Activation) (hvm : a.vm < w.machines.length) :
    Mirrors (baseHook a) (baseHook a) w w₀ := by
  refine .record_bind rfl fun _ ht => ?_
  let count (m : Machine) : Machine := { m with counted := m.counted.map (· + 1) }
  obtain ⟨m, hm⟩ : ∃ m, (w.record (.base a.vm .hook)).machines[a.vm]? = some m :=
    ⟨_, List.getElem?_eq_getElem hvm⟩
  have hm₀ := ht.machine₀ a.vm
  rw [hm] at hm₀
  have hsame : m.SameModule (count m) := ⟨rfl, rfl, rfl, rfl, rfl, rfl, rfl⟩
  obtain ⟨balanced, twin⟩ := ht.modifyMachine hm hsame
  exact .ok ((modify_apply _ _).trans (congrArg _ (World.modifyMachine_congr hm rfl)))
    ((modify_apply _ _).trans (congrArg _ (World.modifyMachine_congr hm₀ rfl))) balanced twin

theorem mirrors_hook (a : Activation) (chain : Chain) (hchain : Chain.ExistsIn chain w)
    (hvm : a.vm < w.machines.length) :
    Mirrors (hook a chain) (hook a (Chain.bare chain)) w w₀ := by
  induction chain generalizing w w₀ with
  | nil => exact mirrors_pure ()
  | cons link chain ih =>
      have hrest : ∀ w' w₀', Moves w w' →
          Mirrors (hook a chain) (hook a (Chain.bare chain)) w' w₀' :=
        fun w' w₀' h => ih (hchain.tail.mono h.keepsInstances) (h.machines_length.symm ▸ hvm)
      cases link with
      | base => exact mirrors_baseHook a hvm
      | layer number mode => exact mirrors_layer fun h => hrest _ _ h
      | interceptor d id =>
          exact mirrors_interceptHook (hchain d id List.mem_cons_self) hvm fun w' h => hrest w' w₀ h

theorem mirrors_step (a : Activation) : Mirrors (step a) (step a) w w₀ :=
  .of_twin fun ht => .machine_bind fun m hm =>
    mirrors_hook a m.slots.hook (ht.valid.slots m (List.mem_of_getElem? hm)).hook
      (List.getElem?_eq_some_iff.mp hm).1

/-! ## Scripts -/

theorem mirrors_moveTo (vm : Nat) (cip : UCell) : Mirrors (moveTo vm cip) (moveTo vm cip) w w₀ :=
  (mirrors_onMachine (MachineM.blind_modifyRegisters _)).bind fun _ _ _ _ => mirrors_record rfl

theorem mirrors_enterFunction (vm : Nat) (address returnAddress : UCell) (entry : Bool) :
    Mirrors (enterFunction vm address returnAddress entry)
      (enterFunction vm address returnAddress entry) w w₀ :=
  (mirrors_onMachine (MachineM.blind_enterFrame address returnAddress)).bind fun _ _ _ _ =>
    .machine_bind fun _ _ => (mirrors_record rfl).bind fun _ _ _ _ => mirrors_pure _

variable {run run₀ : Runner}

section

variable {body body₀ : Act Cell} (hbody : ∀ w w₀, Mirrors body body₀ w w₀)

include hbody

theorem mirrors_callFunction (vm : Nat) (address : UCell) :
    Mirrors (callFunction vm address body) (callFunction vm address body₀) w w₀ :=
  .machine_bind fun m _ => (mirrors_enterFunction vm address m.registers.cip false).bind
    fun frm _ _ _ => (hbody _ _).bind fun _ _ _ _ =>
      (mirrors_onMachine (MachineM.blind_leaveFrame frm)).bind fun _ _ _ _ =>
        (mirrors_record rfl).bind fun _ _ _ _ => mirrors_pure _

theorem mirrors_recurse (vm : Nat) (address cip : UCell) (depth : Nat) :
    Mirrors (recurse vm address cip body depth) (recurse vm address cip body₀ depth) w w₀ := by
  induction depth generalizing w w₀ with
  | zero => exact hbody w w₀
  | succ depth ih =>
      exact mirrors_callFunction (fun w w₀ => (mirrors_moveTo vm cip).bind fun _ _ _ _ => ih)
        vm address

theorem mirrors_times (count : Nat) (last : Cell) :
    Mirrors (times body count last) (times body₀ count last) w w₀ := by
  induction count generalizing w w₀ last with
  | zero => exact mirrors_pure last
  | succ count ih => exact (hbody w w₀).bind fun value _ _ _ => ih value

end

/-! ## Statements -/

theorem Mirrors.then_next {x x₀ : Act α} (hx : Mirrors x x₀ w w₀) :
    Mirrors (x >>= fun _ => pure (Flow.next none)) (x₀ >>= fun _ => pure (Flow.next none)) w w₀ :=
  hx.bind fun _ _ _ _ => mirrors_pure _

theorem Mirrors.then_value {x x₀ : Act Cell} (hx : Mirrors x x₀ w w₀) :
    Mirrors (x >>= fun value => pure (Flow.next (some value)))
      (x₀ >>= fun value => pure (Flow.next (some value))) w w₀ :=
  hx.bind fun _ _ _ _ => mirrors_pure _

theorem Mirrors.then_note {x x₀ : Act α} (hx : Mirrors x x₀ w w₀) (f : α → Note) :
    Mirrors (x >>= fun a => note (f a) >>= fun _ => pure (Flow.next none))
      (x₀ >>= fun a => note (f a) >>= fun _ => pure (Flow.next none)) w w₀ :=
  hx.bind fun _ _ _ _ => (mirrors_note _).then_next

/-- A body may tell a detector of an error: what the detector makes of it has no effect. -/
theorem mirrors_runtimeError (d vm : Nat) (index : Cell) (e : VmError) :
    Mirrors
      (runtimeError d vm index e >>= fun r => note (.runtimeError r) >>= fun _ =>
        pure (Flow.next none))
      (runtimeError d vm index e >>= fun r => note (.runtimeError r) >>= fun _ =>
        pure (Flow.next none)) w w₀ := by
  refine .of_twin fun ht => ?_
  have hm₀ := ht.machine₀ vm
  cases hm : w.machines[vm]? with
  | none =>
      rw [hm] at hm₀
      exact .of_eq (bind_of_error (bind_of_error (machine_of_none hm)))
        (bind_of_error (bind_of_error (machine_of_none hm₀))) (mirrors_throw .panic)
  | some m =>
      rw [hm] at hm₀
      rcases ht.detector₀ d with ⟨det, det₀, hdet, hdet₀⟩ | ⟨hdet, hdet₀⟩
      · refine .unseen_both (unseen_runtimeError ht.valid hdet hm index e)
          (balanced_runtimeError d vm index e) (unseen_runtimeError ht.valid₀ hdet₀ hm₀ index e)
          (balanced_runtimeError d vm index e) fun r r₀ w' w₀' _ => ?_
        exact .unseen_both ⟨_, _, rfl, rfl, rfl⟩ (balanced_note _) ⟨_, _, rfl, rfl, rfl⟩
          (balanced_note _) fun _ _ _ _ _ => mirrors_pure _
      · have hpanic : runtimeError d vm index e w = .error .panic w :=
          (bind_of_ok (machine_of_some hm)).trans (bind_of_error (detector_of_none hdet))
        have hpanic₀ : runtimeError d vm index e w₀ = .error .panic w₀ :=
          (bind_of_ok (machine_of_some hm₀)).trans (bind_of_error (detector_of_none hdet₀))
        exact .of_eq (bind_of_error hpanic) (bind_of_error hpanic₀) (mirrors_throw .panic)

theorem mirrors_requestInterrupt (d : Nat) :
    Mirrors (requestInterrupt d >>= fun _ => pure (Flow.next none))
      (requestInterrupt d >>= fun _ => pure (Flow.next none)) w w₀ := by
  refine .of_twin fun ht => ?_
  rcases ht.detector₀ d with ⟨det, det₀, hdet, hdet₀⟩ | ⟨hdet, hdet₀⟩
  · exact .unseen_both (unseen_requestInterrupt hdet) (balanced_requestInterrupt d)
      (unseen_requestInterrupt hdet₀) (balanced_requestInterrupt d)
      fun _ _ _ _ _ => mirrors_pure _
  · exact .of_eq (bind_of_error (bind_of_error (detector_of_none hdet)))
      (bind_of_error (bind_of_error (detector_of_none hdet₀))) (mirrors_throw .panic)

/-! ## The machine's own handlers, and calls through a chain -/

variable (hrun : ∀ a body w w₀, Body.isDiscreet body = true →
  Mirrors (run a body) (run₀ a body) w w₀)

include hrun

theorem mirrors_baseNative (a : Activation) (index : Cell) (params : List Cell) :
    Mirrors (baseNative run a index params) (baseNative run₀ a index params) w w₀ := by
  refine .record_bind rfl fun _ => .of_twin fun ht => .machine_bind fun m hm => ?_
  have hsame : m.bare.nativeBody? index = m.nativeBody? index := rfl
  rw [hsame]
  cases hbody : m.nativeBody? index with
  | none => exact mirrors_throw _
  | some body => exact hrun _ body _ _ (Machine.allBodies_native (ht.isDiscreet hm) hbody)

theorem mirrors_baseExec (a : Activation) (index : Cell) :
    Mirrors (baseExec run a index) (baseExec run₀ a index) w w₀ := by
  refine .record_bind rfl fun _ => .of_twin fun ht => .machine_bind fun m hm => ?_
  have hsame : m.bare.entryPoint? index = m.entryPoint? index := rfl
  rw [hsame]
  cases hentry : m.entryPoint? index with
  | none => exact mirrors_throw _
  | some entry =>
      obtain ⟨address, body⟩ := entry
      have hbody := Machine.allBodies_public (ht.isDiscreet hm) hentry
      refine (mirrors_enterFunction a.vm address 0 true).bind fun _ _ _ _ => ?_
      refine (hrun _ body _ _ hbody).bind fun value _ _ _ => ?_
      refine (mirrors_onMachine (MachineM.blind_modifyRegisters _)).bind fun _ _ _ _ => ?_
      exact (mirrors_record rfl).bind fun _ _ _ _ => mirrors_pure value

theorem mirrors_dispatch (a : Activation) (index : Cell) (params : List Cell) {m : Machine}
    (chain : Chain) (hchain : Chain.ExistsIn chain w) (hm : w.machines[a.vm]? = some m)
    (hbody : (m.nativeBody? index).isSome = true) :
    Mirrors (dispatch run a index params chain)
      (orGiveUp (dispatch run₀ a index params (Chain.bare chain))) w w₀ := by
  induction chain generalizing w w₀ with
  | nil => exact fun _ => .givesUp (orGiveUp_of_error rfl)
  | cons link chain ih =>
      have hrest : ∀ w' w₀', Moves w w' → w'.machines = w.machines →
          Mirrors (dispatch run a index params chain)
            (orGiveUp (dispatch run₀ a index params (Chain.bare chain))) w' w₀' :=
        fun w' w₀' h hsame => ih (hchain.tail.mono h.keepsInstances) (hsame ▸ hm)
      cases link with
      | base => exact (mirrors_baseNative hrun a index params).orGiveUp
      | layer number mode =>
          have hlayer : orGiveUp (dispatch run₀ a index params
              (Chain.bare (.layer number mode :: chain))) = _ := orGiveUp_record_bind _ _
          rw [hlayer]
          refine .record_bind rfl fun h => ?_
          cases mode with
          | forward => exact hrest _ _ h rfl
          | drop => exact (mirrors_pure 0).orGiveUp
          | fail e => exact (mirrors_throw _).orGiveUp
      | interceptor d id =>
          cases chain with
          | nil => exact fun _ => .givesUp (orGiveUp_of_error rfl)
          | cons link chain =>
              exact mirrors_interceptNative (hchain d id List.mem_cons_self) hm hbody
                fun w' h hsame => hrest w' w₀ h hsame

theorem mirrors_exec (a : Activation) (index : Cell) (chain : Chain)
    (hchain : Chain.ExistsIn chain w) (hvm : a.vm < w.machines.length) :
    Mirrors (exec run a index chain) (exec run₀ a index (Chain.bare chain)) w w₀ := by
  induction chain generalizing w w₀ with
  | nil => exact mirrors_throw _
  | cons link chain ih =>
      have hrest : ∀ w' w₀', Moves w w' →
          Mirrors (exec run a index chain) (exec run₀ a index (Chain.bare chain)) w' w₀' :=
        fun w' w₀' h => ih (hchain.tail.mono h.keepsInstances) (h.machines_length.symm ▸ hvm)
      cases link with
      | base => exact mirrors_baseExec hrun a index
      | layer number mode => exact mirrors_layer fun h => hrest _ _ h
      | interceptor d id =>
          refine mirrors_interceptExec (hchain d id List.mem_cons_self) hvm fun w' h => ?_
          cases chain with
          | nil => exact mirrors_throw _
          | cons link chain => exact hrest w' w₀ h

theorem mirrors_callNative (a : Activation) (index : Cell) (params : List Cell) :
    Mirrors (callNative run a index params) (strictNative run₀ a index params) w w₀ := by
  refine .of_twin fun ht => ?_
  have hm₀ := ht.machine₀ a.vm
  refine .machine_bind fun m hm => ?_
  rw [hm] at hm₀
  cases hbody : (m.bare.nativeBody? index).isSome with
  | false => exact fun _ => .givesUp rfl
  | true =>
      have hslots := (ht.valid.slots m (List.mem_of_getElem? hm)).dispatcher
      refine .of_eq rfl (orGiveUp_congr (bind_of_ok (machine_of_some hm₀))) ?_
      exact mirrors_dispatch hrun a index params m.slots.dispatcher hslots hm hbody

theorem mirrors_callPublic (a : Activation) (index : Cell) :
    Mirrors (callPublic run a index) (callPublic run₀ a index) w w₀ :=
  .of_twin fun ht => .machine_bind fun m hm =>
    mirrors_exec hrun a index m.slots.exec (ht.valid.slots m (List.mem_of_getElem? hm)).exec
      (List.getElem?_eq_some_iff.mp hm).1

/-! ## Bodies -/

theorem mirrors_stmt (a : Activation) (s : Stmt) (hs : s.all Stmt.isDiscreet = true) :
    Mirrors (stmt run a s) (strictStmt run₀ a s) w w₀ := by
  cases s with
  | setCip cip => exact (mirrors_moveTo a.vm cip).then_next
  | setRegisters frm cip stk hea =>
      exact (mirrors_onMachine (MachineM.blind_modifyRegisters _)).then_next
  | noteRegisters => exact .machine_bind fun m _ => (mirrors_note _).then_next
  | emit payload => exact (mirrors_note _).then_next
  | write address value =>
      exact (mirrors_onMachine (MachineM.blind_store address value)).then_note _
  | writeFrame offset value =>
      exact .machine_bind fun m _ => (mirrors_onMachine (MachineM.blind_store _ value)).then_note _
  | read address => exact .machine_bind fun m _ => (mirrors_note _).then_next
  | call address body =>
      exact (mirrors_callFunction (fun w w₀ => hrun a body w w₀ hs) a.vm address).then_value
  | recurse address cip depth body =>
      exact (mirrors_recurse (fun w w₀ => hrun a body w w₀ hs) a.vm address cip depth).then_value
  | native index params => exact (mirrors_callNative hrun a index params).then_value
  | exec index => exact (mirrors_callPublic hrun a index).then_value
  | execOn vm index =>
      rw [strictStmt, stmt, stmt]
      split
      · exact (mirrors_note _).bind fun _ _ _ _ => mirrors_throw _
      · exact (mirrors_callPublic hrun _ index).then_value
      · intro index params h
        cases h
  | step => exact (mirrors_step a).then_next
  | attempt body => exact (hrun a body w w₀ hs).attempt.then_note _
  | times count body =>
      exact (mirrors_times (fun w w₀ => hrun a body w w₀ hs) count 0).then_value
  | fail e => exact mirrors_throw _
  | finish value => exact mirrors_pure _
  | finishWithSum => exact mirrors_pure _
  | panic => exact mirrors_throw _
  | runtimeError d index e => exact mirrors_runtimeError d a.vm index e
  | interrupt d => exact mirrors_requestInterrupt d
  | crash d vms | trace d | probe d | attach d | detach d => cases hs

theorem mirrors_stmts (a : Activation) (last : Cell) (body : List Stmt)
    (hbody : Body.isDiscreet body = true) :
    Mirrors (stmts run a last body) (strictStmts run₀ a last body) w w₀ := by
  induction body generalizing w w₀ last with
  | nil => exact mirrors_pure last
  | cons s rest ih =>
      rw [Body.isDiscreet, Body.all_cons] at hbody
      refine (mirrors_stmt hrun a s hbody.1).bind fun flow _ _ _ => ?_
      cases flow with
      | next value => exact ih _ hbody.2
      | finish value => exact mirrors_pure value

omit hrun in
/-- A body runs among detectors as it runs strictly without them, unless it gives up there. -/
theorem mirrors_runWith (fuel : Nat) (a : Activation) (body : Body)
    (hbody : Body.isDiscreet body = true) :
    Mirrors (runWith fuel a body) (strictWith fuel a body) w w₀ := by
  induction fuel generalizing a body w w₀ with
  | zero => exact mirrors_throw _
  | succ fuel ih => exact mirrors_stmts (fun a body w w₀ h => ih a body h) a 0 body hbody

/-! ## Attaching -/

omit hrun

theorem World.map_bare_modifyMachine (w : World) (vm : Nat) {f : Machine → Machine}
    (hf : ∀ m, (f m).bare = m.bare) :
    (w.modifyMachine vm f).machines.map Machine.bare = w.machines.map Machine.bare := by
  apply List.ext_getElem?
  intro k
  rw [List.getElem?_map, getElem?_modifyMachine, List.getElem?_map]
  split
  · cases w.machines[k]? with
    | none => rfl
    | some m => exact congrArg some (hf m)
  · rfl

/-- Attaching a detector changes nothing but what detectors know and the interceptors. -/
theorem twin_attach (h : Twin w w₀) (d vm : Nat) : Twin ((attach d vm).after w) w₀ := by
  have hp := balanced_attach d vm h.valid
  cases hm : w.machines[vm]? with
  | none =>
      have hend : (attach d vm).after w = w := after_bind_of_error (machine_of_none hm)
      rwa [hend]
  | some m =>
  rw [attach, after_bind_of_ok (machine_of_some hm)] at hp ⊢
  cases hdet : w.detectors[d]? with
  | none => rwa [after_bind_of_error (detector_of_none hdet)]
  | some det =>
  rw [after_bind_of_ok (detector_of_some hdet)] at hp ⊢
  by_cases hc : det.registry.contains m.handle = true
  · rwa [if_pos hc]
  · rw [if_neg hc, after_bind_of_ok (forM_log_apply _ w),
      after_bind_of_ok (loadInstance_apply m _)] at hp ⊢
    obtain ⟨line, hinstall⟩ := install_apply vm m
      (Instance.load (w.logAll (emptySlotWarnings m)).files m.view m.slots).1
      (w := (w.logAll (emptySlotWarnings m)).logAll _) hdet (Bool.eq_false_iff.mpr hc)
    rw [after_of_ok hinstall] at hp ⊢
    refine h.unseen hp.moves (w.map_bare_modifyMachine vm fun m => rfl) ?_
    exact (World.visible_logAll _ _).trans (w.visible_logAll _)

theorem twin_attaches (h : Twin w w₀) (fuel : Nat) (attaches : List (Nat × Nat)) :
    Twin (Session.performAll fuel (attaches.map fun p => .attach p.1 p.2) w).2 w₀ := by
  induction attaches generalizing w with
  | nil => exact h
  | cons p attaches ih =>
      have hstep : (Session.perform fuel (.attach p.1 p.2) w).2 = (attach p.1 p.2).after w :=
        (Session.perform_snd fuel _ w).trans (after_map Answer.done _ w)
      have htwin := twin_attach h p.1 p.2
      rw [← hstep] at htwin
      exact ih htwin

theorem World.Valid.twin (hv : w.Valid) (hbare : ∀ m ∈ w.machines, m.bare = m)
    (hdiscreet : ∀ m ∈ w.machines, m.isDiscreet = true) : Twin w w where
  valid := hv
  valid₀ := hv
  machines := ((List.map_congr_left hbare).trans (List.map_id _)).symm
  detectors _ := rfl
  journal := rfl
  discreet := hdiscreet

theorem Session.perform_exec_of_ok {fuel : Nat} {value : Cell}
    (h : callPublic (runWith fuel) { vm } index w = .ok value w') :
    perform fuel (.exec vm index) w = (.result (.ok value), w') := by
  rw [perform, step, map_apply, attempt, h]

/-- What stops a public decides on the answer, whatever the world. -/
theorem Session.exists_perform_exec_of_error (fuel vm : Nat) (index : Cell) (s : Stop) :
    ∃ answer, ∀ w w' : World, callPublic (runWith fuel) { vm } index w = .error s w' →
      perform fuel (.exec vm index) w = (answer, w') := by
  rcases s with e | _ | _
  · exact ⟨.result (.error e), fun w w' h => by rw [perform, step, map_apply, attempt, h]⟩
  · exact ⟨.panic, fun w w' h => by rw [perform, step, map_apply, attempt, h]⟩
  · exact ⟨.outOfFuel, fun w w' h => by rw [perform, step, map_apply, attempt, h]⟩

/-- Two worlds in which everything is the same but what detectors know, did and installed. -/
structure World.AlikeBut (w w' : World) : Prop where
  machines : w.machines.map Machine.bare = w'.machines.map Machine.bare
  visible : w.visible = w'.visible

/-- Two acts that one and the same act mirrors, which does not give up. -/
theorem Mirrored.agree {x x' x₀ : Act α} (h : Mirrored x x₀ w w₀) (h' : Mirrored x' x₀ w' w₀)
    (hends : ∀ u, x₀ w₀ ≠ .error .outOfFuel u) :
    (∃ a u u', x w = .ok a u ∧ x' w' = .ok a u' ∧ u.AlikeBut u') ∨
      ∃ s u u', x w = .error s u ∧ x' w' = .error s u' ∧ u.AlikeBut u' := by
  have halike : ∀ {u u' u₀ : World}, Twin u u₀ → Twin u' u₀ → u.AlikeBut u' :=
    fun ht ht' => ⟨ht.machines.symm.trans ht'.machines, ht.journal.trans ht'.journal.symm⟩
  cases h with
  | givesUp right => exact absurd right (hends _)
  | ok left right balanced twin =>
      cases h' with
      | givesUp right' => exact absurd right' (hends _)
      | stop left' right' => cases right.symm.trans right'
      | ok left' right' balanced' twin' =>
          cases right.symm.trans right'
          exact .inl ⟨_, _, _, left, left', halike twin twin'⟩
  | stop left right balanced twin =>
      cases h' with
      | givesUp right' => exact absurd right' (hends _)
      | ok left' right' => cases right.symm.trans right'
      | stop left' right' balanced' twin' =>
          cases right.symm.trans right'
          exact .inr ⟨_, _, _, left, left', halike twin twin'⟩

/-- Attach any detectors to machines that have none, in any order and as often as one likes. If no
body consults a detector, and the natives called are there and do not fail except by a forced exit,
then to run a public gives what it gives without detectors; it leaves all machines the same but for
the interceptors in their slots; and the same calls of natives, publics, layers, hooks and script
functions are made in the same order, with the same effects seen by the bodies. -/
theorem attaching_is_transparent (hv : w₀.Valid) (hbare : ∀ m ∈ w₀.machines, m.bare = m)
    (hdiscreet : ∀ m ∈ w₀.machines, m.isDiscreet = true) (attaches : List (Nat × Nat))
    {fuel vm : Nat} {index : Cell} (hnatives : nativesSucceed fuel vm index w₀ = true) :
    let w := (Session.performAll fuel (attaches.map fun p => .attach p.1 p.2) w₀).2
    let attached := Session.perform fuel (.exec vm index) w
    let plain := Session.perform fuel (.exec vm index) w₀
    attached.1 = plain.1 ∧
      attached.2.machines.map Machine.bare = plain.2.machines.map Machine.bare ∧
      attached.2.visible = plain.2.visible := by
  intro w attached plain
  have ht₀ : Twin w₀ w₀ := hv.twin hbare hdiscreet
  have ht : Twin w w₀ := twin_attaches ht₀ fuel attaches
  have hmirrors : ∀ {u : World}, Twin u w₀ → Mirrored (callPublic (runWith fuel) { vm } index)
      (callPublic (strictWith fuel) { vm } index) u w₀ :=
    mirrors_callPublic (fun a body _ _ hb => mirrors_runWith fuel a body hb) _ _
  have hends : ∀ u, callPublic (strictWith fuel) { vm } index w₀ ≠ .error .outOfFuel u := by
    intro u hu
    rw [nativesSucceed, hu] at hnatives
    cases hnatives
  rcases (hmirrors ht).agree (hmirrors ht₀) hends with
    ⟨value, u, u', left, left', halike⟩ | ⟨s, u, u', left, left', halike⟩
  · have ha : attached = (.result (.ok value), u) := Session.perform_exec_of_ok left
    have hp : plain = (.result (.ok value), u') := Session.perform_exec_of_ok left'
    rw [ha, hp]
    exact ⟨rfl, halike.machines, halike.visible⟩
  · obtain ⟨answer, hanswer⟩ := Session.exists_perform_exec_of_error fuel vm index s
    have ha : attached = (answer, u) := hanswer w u left
    have hp : plain = (answer, u') := hanswer w₀ u' left'
    rw [ha, hp]
    exact ⟨rfl, halike.machines, halike.visible⟩

/-- A host with a hook and a layer of its own. Its public calls natives that call a public, that
stop the script, and that tell a detector of an error, and fails in a function in the end.
Interrupts are pending from the start. -/
def busyHost : World where
  machines := [{ Machine.ofSize ⟨1⟩ 128 with
    natives := [
      { name := "callback", function := some
          { address := 0x1000, body := [.exec 1, .interrupt 0] } },
      { name := "stop", function := some
          { address := 0x2000, body := [.runtimeError 1 0 .general, .fail .exit] } }]
    publics := [
      { name := "Main", address := 64, body :=
          [.setCip 72, .step, .native 0 [3], .attempt [.native 1 []], .attempt [.exec 5], .step,
            .write 8 7, .call 96 [.fail .divideByZero]] },
      { name := "Inner", address := 128, body := [.step, .call 160 [.finish 4]] }]
    slots := { hook := [.layer 0 .forward, .base] }
    counted := some 0 }]
  detectors := [{ settings := { dieOnError := true }, interruptPending := true },
    { interruptPending := true }]

theorem busyHost_fresh : busyHost.Fresh :=
  World.fresh_of_arePlain rfl (by simp [busyHost]) rfl

/-- Two detectors make four reports among them while the public of the busy host runs, and one of
them demands the end of the process; without them it runs the same. -/
theorem busyHost_runs_alike :
    let w := (Session.performAll 8 [.attach 0 0, .attach 1 0] busyHost).2
    let attached := Session.perform 8 (.exec 0 0) w
    let plain := Session.perform 8 (.exec 0 0) busyHost
    busyHost.Valid ∧ (∀ m ∈ busyHost.machines, m.bare = m) ∧
      (∀ m ∈ busyHost.machines, m.isDiscreet = true) ∧ nativesSucceed 8 0 0 busyHost = true ∧
      (attached.2.detectors.map fun det => (det.sink.reports.length, det.terminating)) =
        [(2, true), (2, false)] ∧
      attached.1 = plain.1 ∧
      attached.2.machines.map Machine.bare = plain.2.machines.map Machine.bare ∧
      attached.2.visible = plain.2.visible := by
  have hbare : ∀ m ∈ busyHost.machines, m.bare = m := by
    intro m hm
    rw [List.mem_singleton.mp hm]
    rfl
  have hdiscreet : ∀ m ∈ busyHost.machines, m.isDiscreet = true := by decide +kernel
  have hnatives : nativesSucceed 8 0 0 busyHost = true := by decide +kernel
  have hreports : ((Session.perform 8 (.exec 0 0)
      (Session.performAll 8 [.attach 0 0, .attach 1 0] busyHost).2).2.detectors.map fun det =>
        (det.sink.reports.length, det.terminating)) = [(2, true), (2, false)] := by
    decide +kernel
  have halike := attaching_is_transparent busyHost_fresh.valid hbare hdiscreet
    [(0, 0), (1, 0)] hnatives
  simp only [List.map_cons, List.map_nil] at halike
  exact ⟨busyHost_fresh.valid, hbare, hdiscreet, hnatives, hreports, halike⟩

end ScriptDiag
