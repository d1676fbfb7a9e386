import ScriptDiag.Proofs.Act

/-!
# The journal grows

Nothing is taken out of the journal: an act that fails or succeeds leaves it with events on top, if
it changes it at all (`Adds`). So it is for all ways to combine acts, for what a detector does, and
for whatever bodies do (`grows_runWith`).

Which events these are matters here only for failures. Most acts tell no detector of one: they are
`Untold`.
-/

namespace ScriptDiag

/-! ## Growing journals -/

/-- From one world to the other the journal grows, by events that `p` allows. -/
def World.GrowsBy (p : Event → Prop) (w w' : World) : Prop :=
  ∃ es, w'.journal = es ++ w.journal ∧ ∀ e ∈ es, p e

section

variable {p : Event → Prop} {w w' w'' : World}

theorem World.GrowsBy.of_eq (h : w'.journal = w.journal) : w.GrowsBy p w' :=
  ⟨[], h, fun _ he => (by cases he)⟩

theorem World.GrowsBy.one {e : Event} (h : w'.journal = e :: w.journal) (he : p e) :
    w.GrowsBy p w' :=
  ⟨[e], h, fun _ hmem => List.mem_singleton.mp hmem ▸ he⟩

theorem World.GrowsBy.trans (h : w.GrowsBy p w') (h' : w'.GrowsBy p w'') : w.GrowsBy p w'' := by
  obtain ⟨es, hes, hp⟩ := h
  obtain ⟨es', hes', hp'⟩ := h'
  refine ⟨es' ++ es, by rw [hes', hes, List.append_assoc], fun e he => ?_⟩
  exact (List.mem_append.mp he).elim (hp' e) (hp e)

theorem World.GrowsBy.suffix (h : w.GrowsBy p w') : w.journal <:+ w'.journal := by
  obtain ⟨es, hes, -⟩ := h
  exact ⟨es, hes.symm⟩

end

/-- Whether an event is that a detector is told of a failure. -/
def Event.isFailed : Event → Bool
  | .failed _ _ _ _ => true
  | _ => false

/-- Whether a statement calls nothing, runs no body and tells no detector of an error. -/
def Stmt.isPlain : Stmt → Bool
  | .call _ _ | .recurse _ _ _ _ | .native _ _ | .exec _ | .execOn _ _ | .attempt _ | .times _ _
  | .runtimeError _ _ _ => false
  | _ => true

namespace Act

variable {α β : Type} {p : Event → Prop} {w w' : World}

/-- The act leaves in the journal what was there, and adds events that `p` allows. -/
def Adds (p : Event → Prop) (x : Act α) : Prop :=
  ∀ w : World, w.GrowsBy p (x.after w)

/-- The act leaves in the journal what was there. -/
abbrev Grows (x : Act α) : Prop :=
  Adds (fun _ => True) x

/-- The act tells no detector of a failure. -/
abbrev Untold (x : Act α) : Prop :=
  Adds (fun e => e.isFailed = false) x

theorem Untold.grows {x : Act α} (h : Untold x) : Grows x := by
  intro w
  obtain ⟨es, hes, -⟩ := h w
  exact ⟨es, hes, fun _ _ => trivial⟩

/-! ## One act after another -/

theorem adds_of_eq {x : Act α} (h : ∀ w, (x.after w).journal = w.journal) : Adds p x :=
  fun w => .of_eq (h w)

theorem adds_pure (a : α) : Adds p (pure a : Act α) :=
  adds_of_eq fun _ => rfl

theorem adds_throw (s : Stop) : Adds p (throw s : Act α) :=
  adds_of_eq fun _ => rfl

theorem Adds.after_bind {x : Act α} {f : α → Act β} (hf : ∀ a, Adds p (f a)) (w : World) :
    (x.after w).GrowsBy p ((x >>= f).after w) := by
  cases h : x w with
  | ok a w' =>
      rw [after_of_ok h, after_bind_of_ok h]
      exact hf a w'
  | error s w' =>
      have hstopped : (x >>= f).after w = x.after w :=
        (after_bind_of_error h).trans (after_of_error h).symm
      exact .of_eq (hstopped ▸ rfl)

theorem Adds.bind {x : Act α} {f : α → Act β} (hx : Adds p x) (hf : ∀ a, Adds p (f a)) :
    Adds p (x >>= f) :=
  fun w => (hx w).trans (after_bind hf w)

theorem Grows.suffix_bind {x : Act α} {f : α → Act β} (hf : ∀ a, Grows (f a)) (w : World) :
    (x.after w).journal <:+ ((x >>= f).after w).journal :=
  (Adds.after_bind hf w).suffix

theorem Adds.map {x : Act α} (hx : Adds p x) (f : α → β) : Adds p (f <$> x) := by
  intro w
  rw [after_map]
  exact hx w

theorem Adds.attempt {x : Act α} (hx : Adds p x) : Adds p (attempt x) := by
  intro w
  rw [after_attempt]
  exact hx w

theorem Adds.ensuring {x : Act α} {f : World → World} (hx : Adds p x)
    (hf : ∀ w : World, w.GrowsBy p (f w)) : Adds p (ensuring x f) := by
  intro w
  rw [after_ensuring]
  exact (hx w).trans (hf _)

theorem adds_ofExcept (result : Except VmError α) : Adds p (ofExcept result) := by
  cases result with
  | ok a => exact adds_pure a
  | error e => exact adds_throw (.error e)

theorem adds_record {e : Event} (he : p e) : Adds p (record e) :=
  fun _ => .one rfl he

theorem grows_record (e : Event) : Grows (record e) :=
  adds_record trivial

theorem untold_record {e : Event} (he : e.isFailed = false) : Untold (record e) :=
  adds_record he

theorem adds_modifyMachine (vm : Nat) (f : Machine → Machine) :
    Adds p (modify fun w => w.modifyMachine vm f) :=
  adds_of_eq fun _ => rfl

theorem adds_modifyDetector (d : Nat) (f : Detector → Detector) :
    Adds p (modify fun w => w.modifyDetector d f) :=
  adds_of_eq fun _ => rfl

theorem adds_modifyRegistry (d : Nat) (f : Registry → Registry) :
    Adds p (modify fun w => w.modifyRegistry d f) :=
  adds_modifyDetector d _

theorem adds_machine (vm : Nat) : Adds p (machine vm) := by
  refine adds_of_eq fun w => ?_
  cases h : w.machines[vm]? with
  | none => rw [after_of_error (machine_of_none h)]
  | some m => rw [after_of_ok (machine_of_some h)]

theorem adds_detector (d : Nat) : Adds p (detector d) := by
  refine adds_of_eq fun w => ?_
  cases h : w.detectors[d]? with
  | none => rw [after_of_error (detector_of_none h)]
  | some det => rw [after_of_ok (detector_of_some h)]

theorem adds_onMachine (vm : Nat) (x : MachineM α) : Adds p (onMachine vm x) := by
  refine (adds_machine vm).bind fun m => ?_
  split
  · exact (adds_modifyMachine vm _).bind fun _ => adds_pure _
  · exact (adds_modifyMachine vm _).bind fun _ => adds_throw _

/-! ## What a detector does -/

theorem adds_forM_log (hlog : ∀ line, p (.log line)) (lines : List LogLine) :
    Adds p (lines.forM fun line => record (.log line)) := by
  intro w
  rw [after_of_ok (forM_log_apply lines w)]
  refine ⟨_, w.journal_logAll lines, fun e he => ?_⟩
  obtain ⟨line, -, rfl⟩ := List.mem_map.mp (List.mem_reverse.mp he)
  exact hlog line

theorem untold_forM_log (lines : List LogLine) :
    Untold (lines.forM fun line => record (.log line)) :=
  adds_forM_log (fun _ => rfl) lines

variable {d id vm : Nat}

theorem untold_armLatch : Untold (armLatch d) := by
  refine (adds_detector d).bind fun det => ?_
  split
  · exact adds_pure _
  · exact (adds_modifyRegistry d _).bind fun _ => (untold_record rfl).bind fun _ => adds_pure _

theorem untold_clearLatchIfIdle : Untold (clearLatchIfIdle d) := by
  refine (adds_detector d).bind fun det => ?_
  split
  · exact (adds_modifyRegistry d _).bind fun _ => untold_record rfl
  · exact adds_pure _

theorem untold_emit (r : Report) : Untold (emit d r) := by
  refine (adds_detector d).bind fun det => ?_
  split
  exact (adds_modifyDetector d _).bind fun _ => (untold_record rfl).bind fun _ => untold_forM_log _

theorem untold_terminate (kind : FailureKind) : Untold (terminate d kind) :=
  (adds_detector d).bind fun _ => (adds_modifyDetector d _).bind fun _ =>
    (untold_record rfl).bind fun _ => adds_pure _

theorem untold_report (kind : FailureKind) (headline : String) :
    Untold (report d id vm kind headline) := by
  refine (adds_detector d).bind fun det => (adds_machine vm).bind fun m => ?_
  split
  · exact untold_emit _
  · exact adds_throw _

theorem grows_onRuntimeError (index : Cell) (e : VmError) :
    Grows (onRuntimeError d id vm index e) := by
  rw [onRuntimeError]
  split
  · exact adds_pure _
  refine (grows_record _).bind fun _ => untold_armLatch.grows.bind fun first => ?_
  split
  · refine (untold_report _ _).grows.bind fun _ => (adds_detector d).bind fun det => ?_
    split
    · exact (untold_terminate _).grows
    · exact adds_pure _
  · exact (adds_detector d).bind fun det => (grows_record _).bind fun _ => adds_pure _

theorem grows_onNativeFault (index : Cell) (fault : NativeFault) :
    Grows (onNativeFault d id vm index fault) := by
  refine (grows_record _).bind fun _ => untold_armLatch.grows.bind fun first => ?_
  split
  · exact (adds_machine vm).bind fun m => (untold_report _ _).grows.bind fun _ => adds_pure _
  · exact adds_pure _

theorem untold_onInterrupt : Untold (onInterrupt d id vm) := by
  refine (adds_detector d).bind fun det => ?_
  split
  · exact adds_pure _
  · exact (untold_report _ _).bind fun _ => adds_pure _

theorem grows_runtimeError (index : Cell) (e : VmError) : Grows (runtimeError d vm index e) := by
  refine (adds_machine vm).bind fun m => (adds_detector d).bind fun det => ?_
  split
  · exact grows_onRuntimeError index e
  · exact (grows_record _).bind fun _ => adds_pure _

theorem untold_findMachine? (handle : VmHandle) (vms : List Nat) :
    Untold (findMachine? handle vms) := by
  induction vms with
  | nil => exact adds_pure none
  | cons vm vms ih =>
      refine (adds_machine vm).bind fun m => ?_
      split
      · exact adds_pure _
      · exact ih

theorem untold_crashReport (vms : List Nat) (first : Bool) : Untold (crashReport d vms first) := by
  refine (adds_detector d).bind fun det => ?_
  split
  · split
    · refine Adds.bind ?_ fun _ => adds_pure _
      split
      · exact untold_findMachine? _ _
      · exact adds_pure _
    · exact adds_throw _
  · exact adds_pure _

theorem untold_crash (vms : List Nat) : Untold (crash d vms) :=
  untold_armLatch.bind fun first => (untold_record rfl).bind fun _ =>
    (untold_crashReport vms first).bind fun r => (untold_emit r).bind fun _ => untold_terminate _

theorem untold_requestInterrupt : Untold (requestInterrupt d) :=
  (adds_detector d).bind fun _ => (adds_modifyDetector d _).bind fun _ => untold_record rfl

theorem untold_takeInterrupt : Untold (takeInterrupt d) := by
  refine (adds_detector d).bind fun det => ?_
  split
  · exact (adds_modifyDetector d _).bind fun _ => (untold_record rfl).bind fun _ => adds_pure _
  · exact adds_pure _

theorem untold_trace : Untold (trace d vm) :=
  (adds_machine vm).bind fun _ => (adds_detector d).bind fun _ => adds_pure _

theorem untold_probe : Untold (probe d vm) :=
  (adds_machine vm).bind fun _ => (adds_detector d).bind fun _ => adds_pure _

theorem adds_attach (hlog : ∀ line, p (.log line)) (hattached : ∀ id, p (.attached d id vm)) :
    Adds p (attach d vm) := by
  refine (adds_machine vm).bind fun m => (adds_detector d).bind fun det => ?_
  split
  · exact adds_pure _
  · have hload : Adds p (loadInstance m) :=
      Adds.bind (adds_of_eq fun _ => rfl) fun _ =>
        (adds_forM_log hlog _).bind fun _ => adds_pure _
    refine (adds_forM_log hlog _).bind fun _ => hload.bind fun i => ?_
    rw [install]
    split
    split
    · exact adds_pure _
    · exact (adds_modifyDetector d _).bind fun _ => (adds_modifyMachine vm _).bind fun _ =>
        (adds_record (hattached _)).bind fun _ => (adds_record (hlog _)).bind fun _ => adds_pure _

theorem untold_attach : Untold (attach d vm) :=
  adds_attach (fun _ => rfl) fun _ => rfl

theorem adds_restoreSlots (hlog : ∀ line, p (.log line)) (m : Machine) (before : Slots)
    (ours : Option Nat) : Adds p (restoreSlots d vm m before ours) := by
  cases ours with
  | none => exact adds_pure _
  | some ours =>
      refine (adds_modifyMachine vm _).bind fun _ => ?_
      split
      · exact adds_record (hlog _)
      · exact adds_pure _

theorem adds_detach (hlog : ∀ line, p (.log line)) (hdetached : ∀ id, p (.detached d id vm)) :
    Adds p (detach d vm) := by
  refine (adds_machine vm).bind fun m => (adds_detector d).bind fun det => ?_
  split
  · exact adds_pure _
  · exact (adds_modifyDetector d _).bind fun _ => (adds_record (hdetached _)).bind fun _ =>
      (adds_restoreSlots hlog m _ _).bind fun _ => (adds_record (hlog _)).bind fun _ => adds_pure _

theorem untold_detach : Untold (detach d vm) :=
  adds_detach (fun _ => rfl) fun _ => rfl

/-! ## Interceptors -/

theorem untold_interceptHook {next : Act Unit} (hnext : Untold next) :
    Untold (interceptHook d id vm next) := by
  refine untold_takeInterrupt.bind fun taken => ?_
  split
  · exact untold_onInterrupt.bind fun _ => hnext
  · exact hnext

theorem untold_enterCall (kind : CallKind) (index : Cell) :
    Untold (enterCall d id vm kind index) :=
  (adds_machine vm).bind fun _ => (adds_detector d).bind fun _ =>
    (adds_modifyRegistry d _).bind fun _ => (untold_record rfl).bind fun _ => adds_pure _

theorem growsBy_leaveCall (hp : ∀ e : Event, e.isFailed = false → p e) (seq : Nat) (w : World) :
    w.GrowsBy p (leaveCall d id seq w) := by
  have hlog : ∀ (w : World) (line : LogLine), w.GrowsBy p (w.record (.log line)) :=
    fun _ _ => .one rfl (hp _ rfl)
  have hleft : ∀ w' : World, w'.GrowsBy p ((w'.modifyRegistry d fun r => r.leaveCall id seq).record
      (.left d id seq)) := fun _ => .one rfl (hp _ rfl)
  rw [leaveCall]
  split
  · exact (hlog _ _).trans (hleft _)
  · exact hleft _

theorem suffix_leaveCall (seq : Nat) (w : World) :
    w.journal <:+ (leaveCall d id seq w).journal :=
  (growsBy_leaveCall (p := fun _ => True) (fun _ _ => trivial) seq w).suffix

theorem grows_tracked (kind : CallKind) (index : Cell) {body : Act α} (hbody : Grows body) :
    Grows (tracked d id vm kind index body) := by
  refine (untold_enterCall kind index).grows.bind fun call => ?_
  exact hbody.ensuring (growsBy_leaveCall (fun _ _ => trivial) call.seq)

theorem grows_faultNative (index : Cell) (fault : NativeFault) (e : VmError) :
    Grows (faultNative d id vm index fault e) :=
  (grows_onNativeFault index fault).bind fun _ => adds_throw _

theorem grows_settleNative (index : Cell) (result : Except VmError Cell) :
    Grows (settleNative d id vm index result) := by
  rw [settleNative.eq_def]
  split
  · exact adds_pure _
  · exact adds_throw _
  · exact grows_faultNative index _ _

theorem grows_interceptNative (index : Cell) {next : Option (Act Cell)}
    (hnext : ∀ x, next = some x → Grows x) : Grows (interceptNative d id vm index next) := by
  refine grows_tracked .toNative index ((adds_machine vm).bind fun m => ?_)
  split
  · exact grows_faultNative index _ _
  · split
    · exact grows_faultNative index _ _
    · cases next with
      | none => exact grows_faultNative index _ _
      | some x => exact (hnext x rfl).attempt.bind (grows_settleNative index)

theorem grows_interceptExec (index : Cell) {next : Option (Act Cell)}
    (hnext : ∀ x, next = some x → Grows x) : Grows (interceptExec d id vm index next) := by
  have hrest : Grows (next.getD (fail .notInitialized)) := by
    cases next with
    | none => exact adds_throw _
    | some x => exact hnext x rfl
  refine untold_clearLatchIfIdle.grows.bind fun _ => ?_
  refine grows_tracked .toPublic index (hrest.attempt.bind fun result => ?_)
  cases result with
  | ok value => exact adds_pure _
  | error e => exact (grows_onRuntimeError index e).bind fun _ => adds_ofExcept _

/-! ## Scripts -/

section

open Run

theorem untold_moveTo (cip : UCell) : Untold (moveTo vm cip) :=
  (adds_onMachine vm _).bind fun _ => untold_record rfl

theorem untold_enterFunction (address returnAddress : UCell) (entry : Bool) :
    Untold (enterFunction vm address returnAddress entry) :=
  (adds_onMachine vm _).bind fun _ => (adds_machine vm).bind fun _ =>
    (untold_record rfl).bind fun _ => adds_pure _

/-- What is done when a function returns. -/
theorem untold_return (x : MachineM Unit) (value : α) :
    Untold (onMachine vm x >>= fun _ => record (.returned vm) >>= fun _ => pure value) :=
  (adds_onMachine vm x).bind fun _ => (untold_record rfl).bind fun _ => adds_pure _

theorem grows_callFunction (address : UCell) {body : Act Cell} (hbody : Grows body) :
    Grows (callFunction vm address body) :=
  (adds_machine vm).bind fun _ => (untold_enterFunction address _ false).grows.bind fun _ =>
    hbody.bind fun value => (untold_return _ value).grows

theorem grows_recurse (address cip : UCell) {body : Act Cell} (hbody : Grows body)
    (depth : Nat) : Grows (recurse vm address cip body depth) := by
  induction depth with
  | zero => exact hbody
  | succ depth ih => exact grows_callFunction address ((untold_moveTo cip).grows.bind fun _ => ih)

theorem grows_times {body : Act Cell} (hbody : Grows body) (count : Nat) (last : Cell) :
    Grows (times body count last) := by
  induction count generalizing last with
  | zero => exact adds_pure last
  | succ count ih => exact hbody.bind fun value => ih value

/-! ## Chains -/

variable {run : Runner} {a : Activation}

theorem adds_layer {number : Nat} {mode : LayerMode} {success : α} {next : Act α}
    (he : p (.layer number)) (hnext : Adds p next) : Adds p (layer number mode success next) := by
  refine (adds_record he).bind fun _ => ?_
  cases mode with
  | forward => exact hnext
  | drop => exact adds_pure _
  | fail e => exact adds_throw _

theorem untold_hook (chain : Chain) : Untold (hook a chain) := by
  induction chain with
  | nil => exact adds_pure _
  | cons link chain ih =>
      cases link with
      | base => exact (untold_record rfl).bind fun _ => adds_modifyMachine a.vm _
      | layer number mode => exact adds_layer rfl ih
      | interceptor d id => exact untold_interceptHook ih

theorem untold_step : Untold (step a) :=
  (adds_machine a.vm).bind fun m => untold_hook m.slots.hook

/-! ## Plain statements -/

theorem Adds.then_next {x : Act α} (hx : Adds p x) :
    Adds p (x >>= fun _ => pure (Flow.next none)) :=
  hx.bind fun _ => adds_pure _

theorem Adds.then_value {x : Act Cell} (hx : Adds p x) :
    Adds p (x >>= fun value => pure (Flow.next (some value))) :=
  hx.bind fun _ => adds_pure _

theorem Adds.then_note {x : Act α} {f : α → Note} (hx : Adds p x) (hp : ∀ n, p (.note n)) :
    Adds p (x >>= fun a => note (f a) >>= fun _ => pure (Flow.next none)) :=
  hx.bind fun _ => (adds_record (hp _)).then_next

theorem untold_stmt {s : Stmt} (h : s.isPlain = true) : Untold (stmt run a s) := by
  have hnote : ∀ n : Note, (Event.note n).isFailed = false := fun _ => rfl
  cases s with
  | setCip cip => exact (untold_moveTo cip).then_next
  | setRegisters frm cip stk hea => exact Adds.then_next (adds_onMachine a.vm _)
  | noteRegisters => exact (adds_machine a.vm).bind fun m => (untold_record rfl).then_next
  | emit payload => exact (untold_record rfl).then_next
  | write address value => exact Adds.then_note (adds_onMachine a.vm _) hnote
  | writeFrame offset value =>
      exact (adds_machine a.vm).bind fun m => Adds.then_note (adds_onMachine a.vm _) hnote
  | read address => exact (adds_machine a.vm).bind fun m => (untold_record rfl).then_next
  | step => exact untold_step.then_next
  | fail e => exact adds_throw _
  | finish value => exact adds_pure _
  | finishWithSum => exact adds_pure _
  | panic => exact adds_throw _
  | crash d vms => exact (untold_crash _).then_note hnote
  | interrupt d => exact untold_requestInterrupt.then_next
  | trace d => exact untold_trace.then_note hnote
  | probe d => exact untold_probe.then_note hnote
  | attach d => exact untold_attach.then_note hnote
  | detach d => exact untold_detach.then_note hnote
  | _ => cases h

/-! ## Calls and bodies -/

section

variable (hrun : ∀ a body, Grows (run a body))

include hrun

theorem grows_baseNative (index : Cell) (params : List Cell) :
    Grows (baseNative run a index params) := by
  refine (grows_record _).bind fun _ => (adds_machine a.vm).bind fun m => ?_
  split
  · exact hrun _ _
  · exact adds_throw _

theorem grows_baseExec (index : Cell) : Grows (baseExec run a index) := by
  refine (grows_record _).bind fun _ => (adds_machine a.vm).bind fun m => ?_
  split
  · exact adds_throw _
  · exact (untold_enterFunction _ _ _).grows.bind fun _ => (hrun _ _).bind fun _ =>
      (untold_return _ _).grows

theorem grows_dispatch (index : Cell) (params : List Cell) (chain : Chain) :
    Grows (dispatch run a index params chain) := by
  induction chain with
  | nil => exact adds_throw _
  | cons link chain ih =>
      cases link with
      | base => exact grows_baseNative hrun index params
      | layer number mode => exact adds_layer trivial ih
      | interceptor d id =>
          exact grows_interceptNative index fun x hx => eq_of_rest_eq_some hx ▸ ih

theorem grows_exec (index : Cell) (chain : Chain) : Grows (exec run a index chain) := by
  induction chain with
  | nil => exact adds_throw _
  | cons link chain ih =>
      cases link with
      | base => exact grows_baseExec hrun index
      | layer number mode => exact adds_layer trivial ih
      | interceptor d id =>
          exact grows_interceptExec index fun x hx => eq_of_rest_eq_some hx ▸ ih

theorem grows_callPublic (index : Cell) : Grows (callPublic run a index) :=
  (adds_machine a.vm).bind fun m => grows_exec hrun index m.slots.exec

theorem grows_stmt (s : Stmt) : Grows (stmt run a s) := by
  cases hplain : s.isPlain with
  | true => exact (untold_stmt hplain).grows
  | false =>
      cases s with
      | call address body => exact (grows_callFunction address (hrun a body)).then_value
      | recurse address cip depth body =>
          exact (grows_recurse address cip (hrun a body) depth).then_value
      | native index params =>
          exact Adds.then_value ((adds_machine a.vm).bind fun m =>
            grows_dispatch hrun index params m.slots.dispatcher)
      | exec index => exact (grows_callPublic hrun index).then_value
      | execOn vm index =>
          rw [stmt]
          split
          · exact (grows_record _).bind fun _ => adds_throw _
          · exact (grows_callPublic hrun index).then_value
      | attempt body => exact (hrun a body).attempt.then_note fun _ => trivial
      | times count body => exact (grows_times (hrun a body) count 0).then_value
      | runtimeError d index e => exact (grows_runtimeError index e).then_note fun _ => trivial
      | _ => cases hplain

theorem grows_stmts (last : Cell) (body : List Stmt) : Grows (stmts run a last body) := by
  induction body generalizing last with
  | nil => exact adds_pure last
  | cons s rest ih =>
      refine (grows_stmt hrun s).bind fun flow => ?_
      cases flow with
      | next value => exact ih _
      | finish value => exact adds_pure value

end

/-- Whatever a body does, what happened before stays in the journal. -/
theorem grows_runWith (fuel : Nat) (a : Activation) (body : Body) :
    Grows (runWith fuel a body) := by
  induction fuel generalizing a body with
  | zero => exact adds_throw _
  | succ fuel ih => exact grows_stmts ih 0 body

end

end Act

end ScriptDiag
