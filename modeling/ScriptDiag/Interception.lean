import ScriptDiag.Diagnosis

/-!
# Interceptors

While a detector is attached to a machine, one of its interceptors comes first in each slot. They
track the calls, tell the detector of failures, and forward to what was in the slot before. The
functions of this module are given that as a computation; `none` stands for an empty rest of the
chain.
-/

namespace ScriptDiag.Act

variable {α : Type}

/-! ## Tracking -/

/-- Enter a call on an instance, with the registers of `vm` at this moment. -/
def enterCall (d id vm : Nat) (kind : CallKind) (index : Cell) : Act CallRecord := do
  let regs := (← machine vm).registers
  let (seq, _) := (← detector d).registry.nextSeq
  let call : CallRecord := { kind, index, frm := regs.frm, cip := regs.cip, seq }
  modify fun w => w.modifyRegistry d fun r => r.nextSeq.2.enterCall id call
  record (.entered d id call)
  return call

/-- The world after a call on an instance is over, with a warning in the log if it was not the
innermost. -/
def leaveCall (d id seq : Nat) (w : World) : World :=
  let calls := do
    let det ← w.detectors[d]?
    let i ← det.registry.instance? id
    return i.calls
  let warning := calls.bind fun calls => calls.leaveWarning? seq
  let w := match warning with
    | some warning => w.record (.log { level := .warn, message := warning.message })
    | none => w
  (w.modifyRegistry d fun r => r.leaveCall id seq).record (.left d id seq)

/-- Run `body` as a call that is in flight until `body` ends, in whatever way. -/
def tracked (d id vm : Nat) (kind : CallKind) (index : Cell) (body : Act α) : Act α := do
  let call ← enterCall d id vm kind index
  ensuring body (leaveCall d id call.seq)

/-! ## The three interceptors -/

/-- The interceptor in the hook slot, which notices requests for interrupts. -/
def interceptHook (d id vm : Nat) (next : Act Unit) : Act Unit := do
  if ← takeInterrupt d then
    let _ ← onInterrupt d id vm
  next

/-- Tell the detector that a native did not complete, and fail. -/
def faultNative (d id vm : Nat) (index : Cell) (f : NativeFault) (e : VmError) : Act Cell := do
  let _ ← onNativeFault d id vm index f
  fail e

/-- What the script sees of a native that was run: one and the same error for all ways to fail. Only
a forced exit is passed on, since that is how natives stop a script. -/
def settleNative (d id vm : Nat) (index : Cell) : Except VmError Cell → Act Cell
  | .ok value => return value
  | .error .exit => fail .exit
  | .error e => faultNative d id vm index (.failed e) .nativeFailed

/-- What the interceptor in the dispatcher slot does while the call is in flight. A native that is
missing or fails is told to the detector. -/
def answerNative (d id vm : Nat) (index : Cell) (next : Option (Act Cell)) : Act Cell := do
  match (← machine vm).view.native? index with
  | none => faultNative d id vm index .outOfRange .nativeFailed
  | some entry =>
    if !entry.isRegistered then
      faultNative d id vm index .unregistered .nativeFailed
    else match next with
      | none => faultNative d id vm index (.failed .noCallback) .noCallback
      | some next => settleNative d id vm index (← attempt next)

/-- The interceptor in the dispatcher slot. -/
def interceptNative (d id vm : Nat) (index : Cell) (next : Option (Act Cell)) : Act Cell :=
  tracked d id vm .toNative index (answerNative d id vm index next)

/-- What the interceptor in the exec slot does while the call is in flight. An error is told to the
detector, and passed on. -/
def answerPublic (d id vm : Nat) (index : Cell) (next : Option (Act Cell)) : Act Cell := do
  let result ← attempt (next.getD (fail .notInitialized))
  if let .error e := result then
    let _ ← onRuntimeError d id vm index e
  ofExcept result

/-- The interceptor in the exec slot. A public entered while no call is in flight begins a new
outermost call, so what was reported before is over. -/
def interceptExec (d id vm : Nat) (index : Cell) (next : Option (Act Cell)) : Act Cell := do
  clearLatchIfIdle d
  tracked d id vm .toPublic index (answerPublic d id vm index next)

end ScriptDiag.Act
