import ScriptDiag.World

/-!
# What a detector does

A detector reports a failure only if its latch is not armed, and arms it: so a failure seen in two
ways, first as a failing native and then as the error of the public that called it, is reported
once. The latch is cleared when a public is entered while no call is in flight, except after the
process was to be ended. A crash of the host is reported in any case.
-/

namespace ScriptDiag.Act

/-! ## Reporting -/

/-- Arm the latch, and say whether it was clear. -/
def armLatch (d : Nat) : Act Bool := do
  let det ← detector d
  if det.registry.latchArmed then
    return false
  modify fun w => w.modifyRegistry d fun r => { r with latchArmed := true }
  record (.latchArmed d)
  return true

/-- Clear the latch if no call is in flight, unless the process is ending. -/
def clearLatchIfIdle (d : Nat) : Act Unit := do
  let det ← detector d
  if det.registry.latchArmed && !det.terminating && det.registry.allIdle then
    modify fun w => w.modifyRegistry d fun r => { r with latchArmed := false }
    record (.latchCleared d)

def emit (d : Nat) (r : Report) : Act Unit := do
  let det ← detector d
  let (sink, lines) := det.sink.emit r
  modify fun w => w.modifyDetector d fun det => { det with sink }
  record (.report d r)
  lines.forM fun line => record (.log line)

/-- Report something about an instance, with the stack of `vm`. -/
def report (d id vm : Nat) (kind : FailureKind) (headline : String) : Act Unit := do
  let det ← detector d
  let m ← machine vm
  match det.registry.instance? id with
  | some i =>
    emit d { kind, module := some i.name, path := i.path, headline,
             trace := some (det.trace m.view i) }
  | none => throw .panic

/-- Demand the end of the process. -/
def terminate (d : Nat) (kind : FailureKind) : Act Disposition := do
  let det ← detector d
  modify fun w => w.modifyDetector d fun det => { det with terminating := true }
  record (.terminate d kind det.sink.reports.length)
  return .terminate

/-! ## Failures -/

/-- Whether an error from running a public is no failure: a forced exit, sleep, and the absence of a
public that the host only asked for. -/
def isHarmless (index : Cell) (e : VmError) : Bool :=
  e == .exit || e == .sleep || (e == .badIndex && index == probeIndex)

def runtimeErrorHeadline (e : VmError) : String :=
  s!"Run time error {e.code.toInt}: \"" ++ e.message ++ "\""

/-- Running the public `index` on `vm` gave an error. -/
def onRuntimeError (d id vm : Nat) (index : Cell) (e : VmError) : Act Disposition := do
  if isHarmless index e then
    return .suppressed
  record (.failed d id vm (.runtime index e))
  if ← armLatch d then
    report d id vm .runtimeError (runtimeErrorHeadline e)
    if (← detector d).settings.dieOnError then
      terminate d .runtimeError
    else
      return .proceed
  else
    let handle := (((← detector d).registry.instance? id).map Instance.handle).getD default
    log .debug s!"{handle.text}: runtime error {e.code.toInt} already reported"
    return .suppressed

/-- The first line of the report on a native call that did not complete. -/
def nativeFaultHeadline (vm : VmView) (index : Cell) (fault : NativeFault) : String :=
  let name := ((vm.native? index).map NativeEntry.name).getD (unnamedNative index)
  match fault with
  | .outOfRange =>
    s!"Native function index {index.toInt} is out of range ({vm.natives.length} natives)"
  | .unregistered => s!"Native function {name}() is not registered (index {index.toInt})"
  | .failed e => s!"Native function {name}() failed: {e.message}"

/-- The native `index` could not be called from `vm`, or failed. -/
def onNativeFault (d id vm : Nat) (index : Cell) (fault : NativeFault) : Act Disposition := do
  record (.failed d id vm (.native index fault))
  if ← armLatch d then
    report d id vm .nativeCallFailure (nativeFaultHeadline (← machine vm).view index fault)
    return .proceed
  else
    return .suppressed

/-- An interrupt was requested, and `vm` is the first to notice. -/
def onInterrupt (d id vm : Nat) : Act Disposition := do
  if (← detector d).registry.latchArmed then
    return .suppressed
  report d id vm .interrupt "Interrupt requested"
  return .proceed

/-- The first machine of a list that has the given handle. -/
def findMachine? (handle : VmHandle) : List Nat → Act (Option Machine)
  | [] => return none
  | vm :: vms => do
    let m ← machine vm
    if m.handle = handle then
      return some m
    else
      findMachine? handle vms

/-- The report on a crash of the host. The machine to blame is the one that called the most recent
native; its stack is shown if it is among `vms` and nothing was reported before. -/
def crashReport (d : Nat) (vms : List Nat) (first : Bool) : Act Report := do
  let det ← detector d
  match det.registry.mostRecentNative? with
  | some (id, _) =>
    match det.registry.instance? id with
    | some i =>
      let m ← (if first then findMachine? i.handle vms else pure none)
      return {
        kind := .hostCrash, module := some i.name, path := i.path,
        headline := "Host process crashed while executing " ++ i.name,
        trace := m.map fun m => det.trace m.view i }
    | none => throw .panic
  | none =>
    return {
      kind := .hostCrash, module := none, path := none,
      headline := "Host process crashed due to an unknown error", trace := none }

/-- The host process faulted. `vms` are the machines whose stacks can still be shown. -/
def crash (d : Nat) (vms : List Nat) : Act Disposition := do
  let first ← armLatch d
  record (.crashed d)
  emit d (← crashReport d vms first)
  terminate d .hostCrash

/-- The host tells that running the public `index` on `vm` gave an error. -/
def runtimeError (d vm : Nat) (index : Cell) (e : VmError) : Act Disposition := do
  let m ← machine vm
  match (← detector d).registry.find? m.handle with
  | some id => onRuntimeError d id vm index e
  | none =>
    log .warn s!"{m.handle.text}: runtime error {e.code.toInt} on a VM that is not attached"
    return .suppressed

/-! ## Interrupts -/

/-- Ask for a report at the next completed instruction. -/
def requestInterrupt (d : Nat) : Act Unit := do
  let _ ← detector d
  modify fun w => w.modifyDetector d fun det => { det with interruptPending := true }
  record (.interruptRequested d)

/-- Take the request for an interrupt, and say whether there was one. -/
def takeInterrupt (d : Nat) : Act Bool := do
  if (← detector d).interruptPending then
    modify fun w => w.modifyDetector d fun det => { det with interruptPending := false }
    record (.interruptTaken d)
    return true
  else
    return false

/-! ## Questions -/

/-- The stack of `vm` now, if the detector is attached to it. -/
def trace (d vm : Nat) : Act (Option StackTrace) := do
  let m ← machine vm
  let det ← detector d
  return (det.instance? m.handle).map fun i => det.trace m.view i

/-- The calls in flight on `vm`, if the detector is attached to it. -/
def probe (d vm : Nat) : Act (Option CallStack) := do
  let m ← machine vm
  return ((← detector d).instance? m.handle).map Instance.calls

/-! ## Attaching and detaching -/

/-- Warnings of those slots of a machine whose calls will fail. -/
def emptySlotWarnings (m : Machine) : List LogLine :=
  let warning (message : String) : LogLine :=
    { level := .warn, message := m.handle.text ++ ": " ++ message }
  (if m.slots.dispatcher.isEmpty then
    [warning "no native dispatcher installed, native calls will fail"] else []) ++
  if m.slots.exec.isEmpty then
    [warning "no exec entry installed, public calls will fail"] else []

def loadInstance (m : Machine) : Act Instance := do
  let (i, warnings) := Instance.load (← get).files m.view m.slots
  warnings.forM fun line => record (.log line)
  return i

/-- Register an instance for a machine, and put the interceptors into its slots. -/
def install (d vm : Nat) (det : Detector) (m : Machine) (i : Instance) :
    Act (Except DiagError Unit) := do
  let (id, registry) := det.registry.create i
  match registry.insert id m.handle with
  | .error e => return .error e
  | .ok registry =>
    modify fun w => w.modifyDetector d fun det =>
      { det with registry, installed := det.installed.insert m.handle id }
    modify fun w => w.modifyMachine vm fun m =>
      { m with slots := m.slots.install (.interceptor d id) }
    record (.attached d id vm)
    let tables := if i.debug.isEmpty then "none" else "loaded"
    log .debug s!"attached to {m.handle.text} ({i.name}, debug info: {tables})"
    return .ok ()

/-- Put the interceptors of a detector into a machine. What the slots held becomes what the
interceptors forward to. -/
def attach (d vm : Nat) : Act (Except DiagError Unit) := do
  let m ← machine vm
  let det ← detector d
  if det.registry.contains m.handle then
    return .error (.alreadyAttached m.handle)
  else
    (emptySlotWarnings m).forM fun line => record (.log line)
    install d vm det m (← loadInstance m)

/-- Put back what the slots of a machine held, where the interceptors that were put into it, those
of the instance `ours`, still come first. -/
def restoreSlots (d vm : Nat) (m : Machine) (before : Slots) : (ours : Option Nat) → Act Unit
  | none => return ()
  | some ours => do
    let link := Link.interceptor d ours
    modify fun w => w.modifyMachine vm fun m => { m with slots := m.slots.restore link before }
    if !m.slots.holdThroughout link then
      log .debug s!"{m.handle.text}: another layer chained on top, leaving its handlers in place"

/-- End the diagnosis of a machine, and put back what its slots held before, where the interceptors
of the detector still come first. -/
def detach (d vm : Nat) : Act (Except DiagError Unit) := do
  let m ← machine vm
  let det ← detector d
  match det.registry.remove m.handle with
  | none => return .error (.notAttached m.handle)
  | some (id, registry) =>
    modify fun w => w.modifyDetector d fun det =>
      { det with registry, installed := det.installed.erase m.handle }
    record (.detached d id vm)
    let before := ((registry.instance? id).map Instance.previous).getD Slots.none
    restoreSlots d vm m before (det.installed.find? m.handle)
    log .debug s!"detached from {m.handle.text}"
    return .ok ()

end ScriptDiag.Act
