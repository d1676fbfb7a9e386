import ScriptDiag.Proofs.Act

/-!
# What a detector does to a world

The acts of `ScriptDiag.Diagnosis` look at a world, change it, and write what they did into the
journal. Here the change that each of them makes is a function on worlds, and the act is shown to
make it. A failure is handled in one of two ways, by the latch: `onNativeFault_of_armed` and
`onRuntimeError_of_armed` say that nothing is reported once the latch is armed, and
`onNativeFault_of_clear` and `onRuntimeError_of_clear` that otherwise the latch is armed and exactly
the report `Detector.failureReport` goes to the sink.

What happens to the registries of a world is stated for `World.registryAt?`, one lemma for each
change.
-/

namespace ScriptDiag

/-! ## Failures and their reports -/

def Failure.kind : Failure → FailureKind
  | .native _ _ => .nativeCallFailure
  | .runtime _ _ => .runtimeError

/-- The first line of the report on a failure of a machine. -/
def Failure.headline (vm : VmView) : Failure → String
  | .native index fault => Act.nativeFaultHeadline vm index fault
  | .runtime _ e => Act.runtimeErrorHeadline e

/-- The report on an instance, with the stack of a machine. -/
def Detector.reportOn (det : Detector) (m : Machine) (i : Instance) (kind : FailureKind)
    (headline : String) : Report where
  kind
  module := some i.name
  path := i.path
  headline
  trace := some (det.trace m.view i)

def Detector.failureReport (det : Detector) (m : Machine) (i : Instance) (f : Failure) : Report :=
  det.reportOn m i f.kind (f.headline m.view)

def Detector.armed (det : Detector) : Detector :=
  { det with registry := { det.registry with latchArmed := true } }

/-- Whether a report is about a failure of a script: a runtime error, or a native call that did not
complete. -/
def Report.isFailure (r : Report) : Bool :=
  r.kind == .runtimeError || r.kind == .nativeCallFailure

theorem Detector.isFailure_failureReport (det : Detector) (m : Machine) (i : Instance)
    (f : Failure) : (det.failureReport m i f).isFailure = true := by
  cases f <;> rfl

/-- The record of a call that is entered now, with the registers of the machine. -/
def Registry.nextCall (r : Registry) (m : Machine) (kind : CallKind) (index : Cell) : CallRecord :=
  { kind, index, frm := m.registers.frm, cip := m.registers.cip, seq := r.lastSeq + 1 }

namespace World

/-! ## Changes to a world -/

def registryAt? (w : World) (d : Nat) : Option Registry :=
  w.detectors[d]?.map Detector.registry

def arm (w : World) (d : Nat) : World :=
  (w.modifyRegistry d fun r => { r with latchArmed := true }).record (.latchArmed d)

def disarm (w : World) (d : Nat) : World :=
  (w.modifyRegistry d fun r => { r with latchArmed := false }).record (.latchCleared d)

/-- Whether a public that is entered now clears the latch. -/
def clearsLatch (w : World) (d : Nat) : Bool :=
  w.detectors[d]?.any fun det =>
    det.registry.latchArmed && !det.terminating && det.registry.allIdle

/-- The world in which a public is about to be entered. -/
def clearIfIdle (w : World) (d : Nat) : World :=
  if w.clearsLatch d then w.disarm d else w

/-- The world after a report of the detector `det`, numbered `d`. -/
def send (w : World) (d : Nat) (det : Detector) (r : Report) : World :=
  ((w.modifyDetector d fun det' => { det' with sink := (det.sink.emit r).1 }).record
    (.report d r)).logAll (det.sink.emit r).2

/-- The world in which the process is to be ended, with so many reports in the sink. -/
def endProcess (w : World) (d : Nat) (kind : FailureKind) (pending : Nat) : World :=
  (w.modifyDetector d fun det => { det with terminating := true }).record
    (.terminate d kind pending)

/-- The world after a failure that finds the latch of the detector `det` clear. -/
def reportFailure (w : World) (d id vm : Nat) (det : Detector) (m : Machine) (i : Instance)
    (f : Failure) : World :=
  ((w.record (.failed d id vm f)).arm d).send d det (det.failureReport m i f)

/-- The world after a call is entered. -/
def enter (w : World) (d id : Nat) (call : CallRecord) : World :=
  (w.modifyRegistry d fun r => r.nextSeq.2.enterCall id call).record (.entered d id call)

def instance? (w : World) (d id : Nat) : Option Instance :=
  (w.registryAt? d).bind fun r => r.instance? id

/-- The calls in flight on an instance, as its detector keeps them. -/
def calls? (w : World) (d id : Nat) : Option CallStack :=
  (w.instance? d id).map Instance.calls

/-- What is written to the log when a call leaves: a warning if it is not the innermost. -/
def leaveLog (w : World) (d id seq : Nat) : List LogLine :=
  (((w.calls? d id).bind fun calls => calls.leaveWarning? seq).map fun warning =>
    { level := .warn, message := warning.message }).toList

/-- The world with the request for an interrupt made or taken. -/
def setInterrupt (w : World) (d : Nat) (pending : Bool) : World :=
  (w.modifyDetector d fun det => { det with interruptPending := pending }).record
    (if pending then .interruptRequested d else .interruptTaken d)

/-! ## Detectors after a change -/

theorem detectors_arm (w : World) {d : Nat} {det : Detector} (h : w.detectors[d]? = some det) :
    (w.arm d).detectors[d]? = some det.armed := by
  rw [arm, detectors_record, getElem?_modifyRegistry, if_pos rfl, h]
  rfl

@[simp] theorem machines_clearIfIdle (w : World) (d : Nat) :
    (w.clearIfIdle d).machines = w.machines := by
  rw [clearIfIdle]
  split <;> rfl

theorem detectors_clearIfIdle (w : World) {d : Nat} {det : Detector}
    (h : w.detectors[d]? = some det) :
    (w.clearIfIdle d).detectors[d]? = some { det with
      registry := { det.registry with
        latchArmed := det.registry.latchArmed && !w.clearsLatch d } } := by
  rw [clearIfIdle]
  cases w.clearsLatch d with
  | true =>
      rw [if_pos rfl, disarm, detectors_record, getElem?_modifyRegistry, if_pos rfl, h]
      simp
  | false =>
      rw [if_neg Bool.false_ne_true, h]
      simp

theorem detectors_send {w : World} {d : Nat} {det : Detector} (h : w.detectors[d]? = some det)
    (r : Report) :
    (w.send d det r).detectors[d]? = some { det with sink := (det.sink.emit r).1 } := by
  rw [send, detectors_logAll, detectors_record, getElem?_modifyDetector, if_pos rfl, h]
  rfl

theorem detectors_reportFailure {w : World} {d : Nat} {det : Detector}
    (h : w.detectors[d]? = some det) (id vm : Nat) (m : Machine) (i : Instance) (f : Failure) :
    (w.reportFailure d id vm det m i f).detectors[d]? =
      some { det.armed with sink := (det.sink.emit (det.failureReport m i f)).1 } := by
  have h : (w.record (.failed d id vm f)).detectors[d]? = some det := h
  exact detectors_send (detectors_arm _ h) (det.failureReport m i f)

/-! ## Registries after a change -/

theorem registryAt?_of_some {w : World} {d : Nat} {det : Detector}
    (h : w.detectors[d]? = some det) :
    w.registryAt? d = some det.registry := by
  rw [registryAt?, h]
  rfl

@[simp] theorem registryAt?_record (w : World) (e : Event) (d : Nat) :
    (w.record e).registryAt? d = w.registryAt? d := rfl

@[simp] theorem registryAt?_logAll (w : World) (lines : List LogLine) (d : Nat) :
    (w.logAll lines).registryAt? d = w.registryAt? d := rfl

@[simp] theorem registryAt?_modifyMachine (w : World) (vm : Nat) (f : Machine → Machine) (d : Nat) :
    (w.modifyMachine vm f).registryAt? d = w.registryAt? d := rfl

theorem registryAt?_modifyDetector (w : World) (d d' : Nat) {f : Detector → Detector}
    (hf : ∀ det, (f det).registry = det.registry) :
    (w.modifyDetector d f).registryAt? d' = w.registryAt? d' := by
  rw [registryAt?, getElem?_modifyDetector]
  split
  · rw [Option.map_map, registryAt?]
    congr 1
    exact funext hf
  · rfl

theorem registryAt?_modifyRegistry (w : World) (d d' : Nat) (f : Registry → Registry) :
    (w.modifyRegistry d f).registryAt? d' =
      if d = d' then (w.registryAt? d').map f else w.registryAt? d' := by
  rw [registryAt?, getElem?_modifyRegistry]
  split
  · rw [Option.map_map, registryAt?, Option.map_map]
    rfl
  · rfl

theorem registryAt?_arm (w : World) (d d' : Nat) :
    (w.arm d).registryAt? d' =
      if d = d' then (w.registryAt? d').map fun r => { r with latchArmed := true }
      else w.registryAt? d' := by
  rw [arm, registryAt?_record, registryAt?_modifyRegistry]

theorem registryAt?_disarm (w : World) (d d' : Nat) :
    (w.disarm d).registryAt? d' =
      if d = d' then (w.registryAt? d').map fun r => { r with latchArmed := false }
      else w.registryAt? d' := by
  rw [disarm, registryAt?_record, registryAt?_modifyRegistry]

@[simp] theorem registryAt?_send (w : World) (d : Nat) (det : Detector) (r : Report) (d' : Nat) :
    (w.send d det r).registryAt? d' = w.registryAt? d' :=
  w.registryAt?_modifyDetector d d' fun _ => rfl

@[simp] theorem registryAt?_endProcess (w : World) (d : Nat) (kind : FailureKind)
    (pending d' : Nat) :
    (w.endProcess d kind pending).registryAt? d' = w.registryAt? d' :=
  w.registryAt?_modifyDetector d d' fun _ => rfl

@[simp] theorem registryAt?_setInterrupt (w : World) (d : Nat) (pending : Bool) (d' : Nat) :
    (w.setInterrupt d pending).registryAt? d' = w.registryAt? d' :=
  w.registryAt?_modifyDetector d d' fun _ => rfl

theorem registryAt?_enter (w : World) (d id : Nat) (call : CallRecord) (d' : Nat) :
    (w.enter d id call).registryAt? d' =
      if d = d' then (w.registryAt? d').map fun r => r.nextSeq.2.enterCall id call
      else w.registryAt? d' := by
  rw [enter, registryAt?_record, registryAt?_modifyRegistry]

/-! ## Calls after a change -/

theorem calls?_clearIfIdle (w : World) (d d' id : Nat) :
    (w.clearIfIdle d).calls? d' id = w.calls? d' id := by
  rw [clearIfIdle]
  split
  · rw [calls?, instance?, registryAt?_disarm, calls?, instance?]
    split
    · rw [Option.bind_map]
      rfl
    · rfl
  · rfl

/-- A call that is entered lies on top of the others. -/
theorem calls?_enter (w : World) (d id : Nat) (call : CallRecord) :
    (w.enter d id call).calls? d id = (w.calls? d id).map fun calls => calls.enter call := by
  rw [calls?, instance?, registryAt?_enter, if_pos rfl, calls?, instance?]
  cases w.registryAt? d with
  | none => rfl
  | some r =>
      have htop : (r.nextSeq.2.enterCall id call).instance? id =
          (r.instance? id).map fun i => { i with calls := i.calls.enter call } := by
        rw [Registry.instance?, Registry.enterCall, Registry.modifyInstance, List.getElem?_modify,
          Registry.instance?]
        simp [Registry.nextSeq]
      rw [Option.map_some, Option.bind_some, Option.bind_some, htop, Option.map_map, Option.map_map]
      rfl

/-! ## Journals after a change -/

theorem journal_send (w : World) (d : Nat) (det : Detector) (r : Report) :
    (w.send d det r).journal =
      ((det.sink.emit r).2.map Event.log).reverse ++ .report d r :: w.journal := rfl

theorem journal_reportFailure (w : World) (d id vm : Nat) (det : Detector) (m : Machine)
    (i : Instance) (f : Failure) :
    (w.reportFailure d id vm det m i f).journal =
      ((det.sink.emit (det.failureReport m i f)).2.map Event.log).reverse ++
        .report d (det.failureReport m i f) :: .latchArmed d :: .failed d id vm f :: w.journal :=
  rfl

end World

namespace Act

variable {w : World} {d id vm : Nat} {det : Detector} {m : Machine} {i : Instance}

/-! ## The latch -/

theorem armLatch_of_armed (h : w.detectors[d]? = some det) (ha : det.registry.latchArmed = true) :
    armLatch d w = .ok false w := by
  rw [armLatch, bind_of_ok (detector_of_some h), if_pos ha, pure_apply]

theorem armLatch_of_clear (h : w.detectors[d]? = some det) (ha : det.registry.latchArmed = false) :
    armLatch d w = .ok true (w.arm d) := by
  rw [armLatch, bind_of_ok (detector_of_some h), ha, if_neg Bool.false_ne_true]
  rfl

theorem clearLatchIfIdle_apply (h : w.detectors[d]? = some det) :
    clearLatchIfIdle d w = .ok () (w.clearIfIdle d) := by
  rw [clearLatchIfIdle, bind_of_ok (detector_of_some h), World.clearIfIdle, World.clearsLatch, h,
    Option.any_some]
  split <;> rfl

/-! ## Reporting -/

theorem emit_apply (h : w.detectors[d]? = some det) (r : Report) :
    emit d r w = .ok () (w.send d det r) := by
  rw [emit, bind_of_ok (detector_of_some h)]
  show (modify _ >>= fun _ => record _ >>= fun _ => _) w = _
  rw [bind_of_ok (modify_apply _ _), bind_of_ok (record_apply _ _), forM_log_apply]
  rfl

theorem report_apply (hd : w.detectors[d]? = some det) (hm : w.machines[vm]? = some m)
    (hi : det.registry.instance? id = some i) (kind : FailureKind) (headline : String) :
    report d id vm kind headline w = .ok () (w.send d det (det.reportOn m i kind headline)) := by
  rw [report, bind_of_ok (detector_of_some hd), bind_of_ok (machine_of_some hm), hi]
  exact emit_apply hd _

theorem terminate_apply (h : w.detectors[d]? = some det) (kind : FailureKind) :
    terminate d kind w = .ok .terminate (w.endProcess d kind det.sink.reports.length) := by
  rw [terminate, bind_of_ok (detector_of_some h)]
  rfl

/-! ## Failures -/

theorem report_of_failure (hd : w.detectors[d]? = some det) (hm : w.machines[vm]? = some m)
    (hi : det.registry.instance? id = some i) (f : Failure) :
    report d id vm f.kind (f.headline m.view) ((w.record (.failed d id vm f)).arm d) =
      .ok () (w.reportFailure d id vm det m i f) := by
  have hd : (w.record (.failed d id vm f)).detectors[d]? = some det := hd
  exact report_apply (World.detectors_arm _ hd) hm hi f.kind (f.headline m.view)

theorem onNativeFault_of_armed (hd : w.detectors[d]? = some det)
    (ha : det.registry.latchArmed = true) (index : Cell) (fault : NativeFault) :
    onNativeFault d id vm index fault w =
      .ok .suppressed (w.record (.failed d id vm (.native index fault))) := by
  have hd : (w.record (.failed d id vm (.native index fault))).detectors[d]? = some det := hd
  rw [onNativeFault, bind_of_ok (record_apply _ _), bind_of_ok (armLatch_of_armed hd ha),
    if_neg Bool.false_ne_true, pure_apply]

theorem onNativeFault_of_clear (hd : w.detectors[d]? = some det)
    (ha : det.registry.latchArmed = false) (hm : w.machines[vm]? = some m)
    (hi : det.registry.instance? id = some i) (index : Cell) (fault : NativeFault) :
    onNativeFault d id vm index fault w =
      .ok .proceed (w.reportFailure d id vm det m i (.native index fault)) := by
  have hd' : (w.record (.failed d id vm (.native index fault))).detectors[d]? = some det := hd
  have hm' : ((w.record (.failed d id vm (.native index fault))).arm d).machines[vm]? = some m := hm
  rw [onNativeFault, bind_of_ok (record_apply _ _), bind_of_ok (armLatch_of_clear hd' ha),
    if_pos rfl, bind_of_ok (machine_of_some hm')]
  exact bind_of_ok (report_of_failure hd hm hi (.native index fault))

theorem onRuntimeError_of_harmless {index : Cell} {e : VmError} (h : isHarmless index e = true)
    (w : World) : onRuntimeError d id vm index e w = .ok .suppressed w := by
  rw [onRuntimeError, if_pos h, pure_apply]

theorem onRuntimeError_of_armed {index : Cell} {e : VmError} (h : isHarmless index e = false)
    (hd : w.detectors[d]? = some det) (ha : det.registry.latchArmed = true) (id vm : Nat) :
    ∃ line, onRuntimeError d id vm index e w =
      .ok .suppressed ((w.record (.failed d id vm (.runtime index e))).record (.log line)) := by
  have hd : (w.record (.failed d id vm (.runtime index e))).detectors[d]? = some det := hd
  rw [onRuntimeError, h, if_neg Bool.false_ne_true, bind_of_ok (record_apply _ _),
    bind_of_ok (armLatch_of_armed hd ha), if_neg Bool.false_ne_true,
    bind_of_ok (detector_of_some hd)]
  exact ⟨_, rfl⟩

theorem onRuntimeError_of_clear {index : Cell} {e : VmError} (h : isHarmless index e = false)
    (hd : w.detectors[d]? = some det) (ha : det.registry.latchArmed = false)
    (hm : w.machines[vm]? = some m) (hi : det.registry.instance? id = some i) :
    onRuntimeError d id vm index e w =
      if det.settings.dieOnError then
        .ok .terminate ((w.reportFailure d id vm det m i (.runtime index e)).endProcess d
          .runtimeError (det.sink.emit (det.failureReport m i (.runtime index e))).1.reports.length)
      else .ok .proceed (w.reportFailure d id vm det m i (.runtime index e)) := by
  have hd' : (w.record (.failed d id vm (.runtime index e))).detectors[d]? = some det := hd
  have hs := World.detectors_reportFailure hd id vm m i (.runtime index e)
  rw [onRuntimeError, h, if_neg Bool.false_ne_true, bind_of_ok (record_apply _ _),
    bind_of_ok (armLatch_of_clear hd' ha), if_pos rfl]
  refine (bind_of_ok (report_of_failure hd hm hi (.runtime index e))).trans ?_
  rw [bind_of_ok (detector_of_some hs)]
  change (if det.settings.dieOnError then terminate d .runtimeError
    else pure .proceed : Act _) _ = _
  by_cases hdie : det.settings.dieOnError = true
  · rw [if_pos hdie, if_pos hdie]
    exact terminate_apply hs .runtimeError
  · rw [if_neg hdie, if_neg hdie, pure_apply]

/-! ## Interrupts -/

theorem onInterrupt_of_armed (hd : w.detectors[d]? = some det)
    (ha : det.registry.latchArmed = true) : onInterrupt d id vm w = .ok .suppressed w := by
  rw [onInterrupt, bind_of_ok (detector_of_some hd), if_pos ha, pure_apply]

theorem onInterrupt_of_clear (hd : w.detectors[d]? = some det)
    (ha : det.registry.latchArmed = false) (hm : w.machines[vm]? = some m)
    (hi : det.registry.instance? id = some i) :
    onInterrupt d id vm w =
      .ok .proceed (w.send d det (det.reportOn m i .interrupt "Interrupt requested")) := by
  rw [onInterrupt, bind_of_ok (detector_of_some hd), ha, if_neg Bool.false_ne_true]
  show (report _ _ _ _ _ >>= _) w = _
  rw [bind_of_ok (report_apply hd hm hi _ _), pure_apply]

theorem requestInterrupt_apply (hd : w.detectors[d]? = some det) :
    requestInterrupt d w = .ok () (w.setInterrupt d true) := by
  rw [requestInterrupt, bind_of_ok (detector_of_some hd)]
  rfl

theorem takeInterrupt_of_pending (hd : w.detectors[d]? = some det)
    (hp : det.interruptPending = true) :
    takeInterrupt d w = .ok true (w.setInterrupt d false) := by
  rw [takeInterrupt, bind_of_ok (detector_of_some hd), if_pos hp]
  rfl

theorem takeInterrupt_of_not_pending (hd : w.detectors[d]? = some det)
    (hp : det.interruptPending = false) : takeInterrupt d w = .ok false w := by
  rw [takeInterrupt, bind_of_ok (detector_of_some hd), hp, if_neg Bool.false_ne_true, pure_apply]

/-! ## Calls -/

theorem enterCall_apply (hm : w.machines[vm]? = some m) (hd : w.detectors[d]? = some det)
    (id : Nat) (kind : CallKind) (index : Cell) :
    enterCall d id vm kind index w =
      .ok (det.registry.nextCall m kind index)
        (w.enter d id (det.registry.nextCall m kind index)) := by
  rw [enterCall, bind_of_ok (machine_of_some hm), bind_of_ok (detector_of_some hd)]
  rfl

/-- Before a public is entered the latch is cleared, if that is due. -/
theorem enterPublic_apply (hm : w.machines[vm]? = some m) (hd : w.detectors[d]? = some det)
    (id : Nat) (index : Cell) :
    (clearLatchIfIdle d >>= fun _ => enterCall d id vm .toPublic index) w =
      .ok (det.registry.nextCall m .toPublic index)
        ((w.clearIfIdle d).enter d id (det.registry.nextCall m .toPublic index)) := by
  have hm' : (w.clearIfIdle d).machines[vm]? = some m := by
    rw [World.machines_clearIfIdle, hm]
  rw [bind_of_ok (clearLatchIfIdle_apply hd)]
  exact enterCall_apply hm' (w.detectors_clearIfIdle hd) id .toPublic index

section

variable {index : Cell} {entry : NativeEntry}

theorem answerNative_of_none (hm : w.machines[vm]? = some m)
    (hentry : m.view.native? index = none) (d id : Nat) (next : Option (Act Cell)) :
    answerNative d id vm index next w =
      faultNative d id vm index .outOfRange .nativeFailed w := by
  rw [answerNative.eq_def, bind_of_ok (machine_of_some hm), hentry]

theorem answerNative_of_unregistered (hm : w.machines[vm]? = some m)
    (hentry : m.view.native? index = some entry) (hregistered : entry.isRegistered = false)
    (d id : Nat) (next : Option (Act Cell)) :
    answerNative d id vm index next w =
      faultNative d id vm index .unregistered .nativeFailed w := by
  rw [answerNative.eq_def, bind_of_ok (machine_of_some hm), hentry]
  exact congrFun (if_pos (by rw [hregistered]; rfl)) w

theorem answerNative_of_last (hm : w.machines[vm]? = some m)
    (hentry : m.view.native? index = some entry) (hregistered : entry.isRegistered = true)
    (d id : Nat) :
    answerNative d id vm index none w =
      faultNative d id vm index (.failed .noCallback) .noCallback w := by
  rw [answerNative.eq_def, bind_of_ok (machine_of_some hm), hentry]
  exact congrFun (if_neg (by rw [hregistered]; exact Bool.false_ne_true)) w

/-- A native that is registered is what the rest of the chain makes of it. -/
theorem answerNative_of_registered (hm : w.machines[vm]? = some m)
    (hentry : m.view.native? index = some entry) (hregistered : entry.isRegistered = true)
    (d id : Nat) (next : Act Cell) :
    answerNative d id vm index (some next) w =
      (attempt next >>= settleNative d id vm index) w := by
  rw [answerNative.eq_def, bind_of_ok (machine_of_some hm), hentry]
  exact congrFun (if_neg (by rw [hregistered]; exact Bool.false_ne_true)) w

end

/-- A native through an interceptor: what is done to answer it is done with the call in flight. -/
theorem interceptNative_apply (hm : w.machines[vm]? = some m) (hd : w.detectors[d]? = some det)
    (id : Nat) (index : Cell) (next : Option (Act Cell)) :
    interceptNative d id vm index next w =
      ensuring (answerNative d id vm index next)
        (leaveCall d id (det.registry.nextCall m .toNative index).seq)
        (w.enter d id (det.registry.nextCall m .toNative index)) :=
  bind_of_ok (enterCall_apply hm hd id .toNative index)

/-- A public through an interceptor, likewise. -/
theorem interceptExec_apply (hm : w.machines[vm]? = some m) (hd : w.detectors[d]? = some det)
    (id : Nat) (index : Cell) (next : Option (Act Cell)) :
    interceptExec d id vm index next w =
      ensuring (answerPublic d id vm index next)
        (leaveCall d id (det.registry.nextCall m .toPublic index).seq)
        ((w.clearIfIdle d).enter d id (det.registry.nextCall m .toPublic index)) := by
  rw [interceptExec, tracked, ← bind_assoc]
  exact bind_of_ok (enterPublic_apply hm hd id index)

theorem leaveCall_eq (d id seq : Nat) (w : World) :
    leaveCall d id seq w =
      ((w.logAll (w.leaveLog d id seq)).modifyRegistry d fun r => r.leaveCall id seq).record
        (.left d id seq) := by
  have hcalls : (do
      let det ← w.detectors[d]?
      let i ← det.registry.instance? id
      return i.calls) = w.calls? d id := by
    rw [World.calls?, World.instance?, World.registryAt?]
    cases w.detectors[d]? with
    | none => rfl
    | some det => cases h : det.registry.instance? id <;> simp [h]
  rw [leaveCall, hcalls, World.leaveLog]
  cases (w.calls? d id).bind fun calls => calls.leaveWarning? seq <;> rfl

@[simp] theorem machines_leaveCall (d id seq : Nat) (w : World) :
    (leaveCall d id seq w).machines = w.machines := by
  rw [leaveCall_eq]
  rfl

theorem journal_leaveCall (d id seq : Nat) (w : World) :
    (leaveCall d id seq w).journal =
      .left d id seq :: ((w.leaveLog d id seq).map Event.log).reverse ++ w.journal := by
  rw [leaveCall_eq]
  rfl

end Act

end ScriptDiag
