import ScriptDiag.Proofs.Growth
import ScriptDiag.Proofs.Operations

/-!
# Acts that leave a machine alone

An act leaves the machine `vm` alone (`Still`) if it changes no register and no memory of it, and
no function of it is called or returns. Slots and the instruction count may change: they are not
part of `Machine.core`. So it is with all that detectors and interceptors do by themselves, with
hooks, and with whatever is done to another machine.
-/

namespace ScriptDiag

/-! ## Worlds that agree on a machine -/

/-- What the code of a machine works on: the machine without its handlers and its instruction count.
-/
def Machine.core (m : Machine) : Machine :=
  { m with slots := {}, counted := none }

theorem Machine.registers_eq_of_core {m m' : Machine} (h : m'.core = m.core) :
    m'.registers = m.registers := by
  have hregisters := congrArg Machine.registers h
  exact hregisters

theorem Machine.memory_eq_of_core {m m' : Machine} (h : m'.core = m.core) :
    m'.memory = m.memory := by
  have hmemory := congrArg Machine.memory h
  exact hmemory

def World.coreAt? (w : World) (vm : Nat) : Option Machine :=
  w.machines[vm]?.map Machine.core

/-- Whether a function of a machine is called or returns. -/
def Event.isFraming (vm : Nat) : Event → Bool
  | .called vm' _ _ _ | .returned vm' => vm' == vm
  | _ => false

/-- From one world to the other the machine `vm` is left alone. -/
structure World.StillAt (vm : Nat) (w w' : World) : Prop where
  core : w'.coreAt? vm = w.coreAt? vm
  journal : w.GrowsBy (fun e => e.isFraming vm = false) w'

section

variable {vm : Nat} {w w' w'' : World}

theorem World.StillAt.refl (vm : Nat) (w : World) : w.StillAt vm w :=
  ⟨rfl, .of_eq rfl⟩

theorem World.StillAt.trans (h : w.StillAt vm w') (h' : w'.StillAt vm w'') : w.StillAt vm w'' :=
  ⟨h'.core.trans h.core, h.journal.trans h'.journal⟩

theorem World.StillAt.machine {m : Machine} (h : w.StillAt vm w')
    (hm : w.machines[vm]? = some m) : ∃ m', w'.machines[vm]? = some m' ∧ m'.core = m.core := by
  have hcore := h.core
  rw [coreAt?, coreAt?, hm] at hcore
  exact Option.map_eq_some_iff.mp hcore

theorem World.stillAt_record {e : Event} (he : e.isFraming vm = false) :
    w.StillAt vm (w.record e) :=
  ⟨rfl, .one rfl he⟩

theorem World.stillAt_modifyMachine {vm' : Nat} {f : Machine → Machine}
    (hf : vm' = vm → ∀ m, (f m).core = m.core) : w.StillAt vm (w.modifyMachine vm' f) := by
  refine ⟨?_, .of_eq rfl⟩
  rw [coreAt?, getElem?_modifyMachine]
  split
  next heq =>
    rw [Option.map_map]
    exact congrArg (fun g => w.machines[vm]?.map g) (funext (hf heq))
  next => rfl

end

/-- Whether a statement calls nothing, runs no body, and changes neither registers nor memory. -/
def Stmt.isStill : Stmt → Bool
  | .noteRegisters | .emit _ | .read _ | .step | .fail _ | .finish _ | .finishWithSum | .panic
  | .crash _ _ | .runtimeError _ _ _ | .interrupt _ | .trace _ | .probe _ | .attach _
  | .detach _ => true
  | _ => false

namespace Act

variable {α β : Type} {vm : Nat}

/-- The act leaves the machine `vm` alone. -/
def Still (vm : Nat) (x : Act α) : Prop :=
  ∀ w : World, w.StillAt vm (x.after w)

theorem Still.grows {x : Act α} (h : Still vm x) : Grows x := by
  intro w
  obtain ⟨es, hes, -⟩ := (h w).journal
  exact ⟨es, hes, fun _ _ => trivial⟩

/-! ## One act after another -/

theorem still_of_eq {x : Act α} (h : ∀ w, x.after w = w) : Still vm x := by
  intro w
  rw [h]
  exact .refl vm w

theorem still_pure (a : α) : Still vm (pure a : Act α) :=
  still_of_eq fun _ => rfl

theorem still_throw (s : Stop) : Still vm (throw s : Act α) :=
  still_of_eq fun _ => rfl

theorem Still.bind {x : Act α} {f : α → Act β} (hx : Still vm x) (hf : ∀ a, Still vm (f a)) :
    Still vm (x >>= f) := by
  intro w
  have hx := hx w
  cases h : x w with
  | ok a w' =>
      rw [after_of_ok h] at hx
      rw [after_bind_of_ok h]
      exact hx.trans (hf a w')
  | error s w' =>
      rw [after_of_error h] at hx
      rwa [after_bind_of_error h]

theorem Still.then_pure {x : Act α} (hx : Still vm x) {f : α → β} :
    Still vm (x >>= fun a => pure (f a)) :=
  hx.bind fun _ => still_pure _

theorem still_record {e : Event} (he : e.isFraming vm = false) : Still vm (record e) :=
  fun _ => World.stillAt_record he

theorem still_modifyMachine {vm' : Nat} {f : Machine → Machine}
    (hf : vm' = vm → ∀ m, (f m).core = m.core) : Still vm (modify fun w => w.modifyMachine vm' f) :=
  fun _ => World.stillAt_modifyMachine hf

theorem still_modifySlots (vm' : Nat) (slots : Machine → Slots) :
    Still vm (modify fun w => w.modifyMachine vm' fun m => { m with slots := slots m }) :=
  still_modifyMachine fun _ _ => rfl

theorem still_modifyDetector (d : Nat) (f : Detector → Detector) :
    Still vm (modify fun w => w.modifyDetector d f) :=
  fun _ => ⟨rfl, .of_eq rfl⟩

theorem still_modifyRegistry (d : Nat) (f : Registry → Registry) :
    Still vm (modify fun w => w.modifyRegistry d f) :=
  still_modifyDetector d _

theorem still_machine (vm' : Nat) : Still vm (machine vm') := by
  refine still_of_eq fun w => ?_
  cases h : w.machines[vm']? with
  | none => exact after_of_error (machine_of_none h)
  | some m => exact after_of_ok (machine_of_some h)

theorem still_detector (d : Nat) : Still vm (detector d) := by
  refine still_of_eq fun w => ?_
  cases h : w.detectors[d]? with
  | none => exact after_of_error (detector_of_none h)
  | some det => exact after_of_ok (detector_of_some h)

/-- Whatever is done to another machine. -/
theorem still_onMachine {vm' : Nat} (hne : vm' ≠ vm) (x : MachineM α) :
    Still vm (onMachine vm' x) := by
  have hmodify : ∀ m', Still vm (modify fun w => w.modifyMachine vm' fun _ => m') :=
    fun m' => still_modifyMachine fun heq => absurd heq hne
  refine (still_machine vm').bind fun m => ?_
  split
  · exact (hmodify _).then_pure
  · exact (hmodify _).bind fun _ => still_throw _

/-! ## What a detector does -/

theorem still_forM_log (lines : List LogLine) :
    Still vm (lines.forM fun line => record (.log line)) := by
  intro w
  rw [after_of_ok (forM_log_apply lines w)]
  refine ⟨rfl, _, w.journal_logAll lines, fun e he => ?_⟩
  obtain ⟨line, -, rfl⟩ := List.mem_map.mp (List.mem_reverse.mp he)
  rfl

variable {d id vm' : Nat}

theorem still_armLatch : Still vm (armLatch d) := by
  refine (still_detector d).bind fun det => ?_
  split
  · exact still_pure _
  · exact (still_modifyRegistry d _).bind fun _ => (still_record rfl).then_pure

theorem still_clearLatchIfIdle : Still vm (clearLatchIfIdle d) := by
  refine (still_detector d).bind fun det => ?_
  split
  · exact (still_modifyRegistry d _).bind fun _ => still_record rfl
  · exact still_pure _

theorem still_emit (r : Report) : Still vm (emit d r) := by
  refine (still_detector d).bind fun det => ?_
  split
  exact (still_modifyDetector d _).bind fun _ => (still_record rfl).bind fun _ => still_forM_log _

theorem still_terminate (kind : FailureKind) : Still vm (terminate d kind) :=
  (still_detector d).bind fun _ => (still_modifyDetector d _).bind fun _ =>
    (still_record rfl).then_pure

theorem still_report (kind : FailureKind) (headline : String) :
    Still vm (report d id vm' kind headline) := by
  refine (still_detector d).bind fun det => (still_machine vm').bind fun m => ?_
  split
  · exact still_emit _
  · exact still_throw _

theorem still_onRuntimeError (index : Cell) (e : VmError) :
    Still vm (onRuntimeError d id vm' index e) := by
  rw [onRuntimeError]
  split
  · exact still_pure _
  refine (still_record rfl).bind fun _ => still_armLatch.bind fun first => ?_
  split
  · refine (still_report _ _).bind fun _ => (still_detector d).bind fun det => ?_
    split
    · exact still_terminate _
    · exact still_pure _
  · exact (still_detector d).bind fun det => (still_record rfl).then_pure

theorem still_onNativeFault (index : Cell) (fault : NativeFault) :
    Still vm (onNativeFault d id vm' index fault) := by
  refine (still_record rfl).bind fun _ => still_armLatch.bind fun first => ?_
  split
  · exact (still_machine vm').bind fun m => (still_report _ _).then_pure
  · exact still_pure _

theorem still_onInterrupt : Still vm (onInterrupt d id vm') := by
  refine (still_detector d).bind fun det => ?_
  split
  · exact still_pure _
  · exact (still_report _ _).then_pure

theorem still_runtimeError (index : Cell) (e : VmError) :
    Still vm (runtimeError d vm' index e) := by
  refine (still_machine vm').bind fun m => (still_detector d).bind fun det => ?_
  split
  · exact still_onRuntimeError index e
  · exact (still_record rfl).then_pure

theorem still_findMachine? (handle : VmHandle) (vms : List Nat) :
    Still vm (findMachine? handle vms) := by
  induction vms with
  | nil => exact still_pure none
  | cons vm' vms ih =>
      refine (still_machine vm').bind fun m => ?_
      split
      · exact still_pure _
      · exact ih

theorem still_crashReport (vms : List Nat) (first : Bool) :
    Still vm (crashReport d vms first) := by
  refine (still_detector d).bind fun det => ?_
  split
  · split
    · refine Still.then_pure ?_
      split
      · exact still_findMachine? _ _
      · exact still_pure _
    · exact still_throw _
  · exact still_pure _

theorem still_crash (vms : List Nat) : Still vm (crash d vms) :=
  still_armLatch.bind fun first => (still_record rfl).bind fun _ =>
    (still_crashReport vms first).bind fun r => (still_emit r).bind fun _ => still_terminate _

theorem still_requestInterrupt : Still vm (requestInterrupt d) :=
  (still_detector d).bind fun _ => (still_modifyDetector d _).bind fun _ => still_record rfl

theorem still_takeInterrupt : Still vm (takeInterrupt d) := by
  refine (still_detector d).bind fun det => ?_
  split
  · exact (still_modifyDetector d _).bind fun _ => (still_record rfl).then_pure
  · exact still_pure _

theorem still_trace : Still vm (trace d vm') :=
  (still_machine vm').bind fun _ => (still_detector d).then_pure

theorem still_probe : Still vm (probe d vm') :=
  (still_machine vm').bind fun _ => (still_detector d).then_pure

theorem still_attach : Still vm (attach d vm') := by
  refine (still_machine vm').bind fun m => (still_detector d).bind fun det => ?_
  split
  · exact still_pure _
  · have hload : Still vm (loadInstance m) :=
      Still.bind (still_of_eq fun _ => rfl) fun _ => (still_forM_log _).then_pure
    refine (still_forM_log _).bind fun _ => hload.bind fun i => ?_
    rw [install]
    split
    split
    · exact still_pure _
    · exact (still_modifyDetector d _).bind fun _ =>
        (still_modifySlots vm' _).bind fun _ => (still_record rfl).bind fun _ =>
          (still_record rfl).then_pure

theorem still_restoreSlots (m : Machine) (before : Slots) (ours : Option Nat) :
    Still vm (restoreSlots d vm' m before ours) := by
  cases ours with
  | none => exact still_pure _
  | some ours =>
      refine (still_modifySlots vm' _).bind fun _ => ?_
      split
      · exact still_record rfl
      · exact still_pure _

theorem still_detach : Still vm (detach d vm') := by
  refine (still_machine vm').bind fun m => (still_detector d).bind fun det => ?_
  split
  · exact still_pure _
  · exact (still_modifyDetector d _).bind fun _ => (still_record rfl).bind fun _ =>
      (still_restoreSlots m _ _).bind fun _ => (still_record rfl).then_pure

/-! ## Interceptors and hooks -/

theorem still_interceptHook {next : Act Unit} (hnext : Still vm next) :
    Still vm (interceptHook d id vm' next) := by
  refine still_takeInterrupt.bind fun taken => ?_
  split
  · exact still_onInterrupt.bind fun _ => hnext
  · exact hnext

theorem still_enterCall (kind : CallKind) (index : Cell) :
    Still vm (enterCall d id vm' kind index) :=
  (still_machine vm').bind fun _ => (still_detector d).bind fun _ =>
    (still_modifyRegistry d _).bind fun _ => (still_record rfl).then_pure

theorem stillAt_leaveCall (seq : Nat) (w : World) : w.StillAt vm (leaveCall d id seq w) := by
  have hlog : w.GrowsBy (fun e => e.isFraming vm = false) (w.logAll (w.leaveLog d id seq)) := by
    refine ⟨_, w.journal_logAll _, fun e he => ?_⟩
    obtain ⟨line, -, rfl⟩ := List.mem_map.mp (List.mem_reverse.mp he)
    rfl
  rw [leaveCall_eq]
  exact ⟨rfl, hlog.trans (.one rfl rfl)⟩

open Run in
theorem still_hook (a : Activation) (chain : Chain) : Still vm (hook a chain) := by
  induction chain with
  | nil => exact still_pure _
  | cons link chain ih =>
      cases link with
      | base => exact (still_record rfl).bind fun _ => still_modifyMachine fun _ _ => rfl
      | layer number mode =>
          refine (still_record rfl).bind fun _ => ?_
          cases mode with
          | forward => exact ih
          | drop => exact still_pure _
          | fail e => exact still_throw _
      | interceptor d id => exact still_interceptHook ih

theorem still_step (a : Activation) : Still vm (Run.step a) :=
  (still_machine a.vm).bind fun m => still_hook a m.slots.hook

/-! ## Statements -/

theorem Still.then_note {x : Act α} (hx : Still vm x) {f : α → Note} :
    Still vm (x >>= fun a => note (f a) >>= fun _ => pure (Run.Flow.next none)) :=
  hx.bind fun _ => (still_record rfl).then_pure

theorem still_stmt {run : Runner} {a : Activation} {s : Stmt} (h : s.isStill = true) :
    Still vm (Run.stmt run a s) := by
  cases s with
  | noteRegisters => exact (still_machine a.vm).then_note
  | emit payload => exact (still_record rfl).then_pure
  | read address => exact (still_machine a.vm).then_note
  | step => exact (still_step a).then_pure
  | fail e => exact still_throw _
  | finish value => exact still_pure _
  | finishWithSum => exact still_pure _
  | panic => exact still_throw _
  | crash d vms => exact (still_crash _).then_note
  | runtimeError d index e => exact (still_runtimeError index e).then_note
  | interrupt d => exact still_requestInterrupt.then_pure
  | trace d => exact still_trace.then_note
  | probe d => exact still_probe.then_note
  | attach d => exact still_attach.then_note
  | detach d => exact still_detach.then_note
  | _ => cases h

end Act

end ScriptDiag
