import ScriptDiag.Run

/-!
# Sessions

A session is a sequence of steps that a host takes: it attaches and detaches detectors, runs the
machines, changes their slots, and tells the detectors of failures. `perform` takes one step and
answers what the host sees of it; the rest is in the journal and in the state of the world.
-/

namespace ScriptDiag

/-- A step of a session. Detectors and machines are given by number. -/
inductive Step where
  | attach (detector vm : Nat)
  | detach (detector vm : Nat)
  | exec (vm : Nat) (index : Cell)
  | native (vm : Nat) (index : Cell) (params : List Cell)
  /-- Run a body directly on a machine. -/
  | run (vm : Nat) (body : Body)
  | completeInstruction (vm : Nat)
  | crash (detector : Nat) (vms : List Nat)
  | runtimeError (detector vm : Nat) (index : Cell) (error : VmError)
  | interrupt (detector : Nat)
  | trace (detector vm : Nat)
  /-- Put a new layer in front of what a slot holds. -/
  | chain (vm : Nat) (slot : SlotName) (mode : LayerMode)
  /-- Empty a slot. -/
  | clear (vm : Nat) (slot : SlotName)
  /-- Look at the instance registered for a machine. -/
  | inspect (detector vm : Nat)
  | describe (detector vm : Nat)
deriving Inhabited

/-- What a host sees of a step. -/
inductive Answer where
  | nothing
  | done (result : Except DiagError Unit)
  | result (result : Except VmError Cell)
  | disposition (disposition : Disposition)
  | trace (trace : Option StackTrace)
  | inspected (found : Option Instance)
  | description (detector slots : String)
  | panic
  | outOfFuel
deriving DecidableEq, Repr, Inhabited

namespace Session

open Act

def setSlot (vm : Nat) (slot : SlotName) (f : Chain → Chain) : Act Unit := do
  let _ ← machine vm
  modify fun w => w.modifyMachine vm fun m =>
    { m with slots := m.slots.set slot (f (m.slots.get slot)) }

/-- Put a new layer in front of what a slot holds. -/
def addLayer (vm : Nat) (slot : SlotName) (mode : LayerMode) : Act Unit := do
  let number := (← get).layers
  setSlot vm slot fun chain => .layer number mode :: chain
  modify fun w => { w with layers := number + 1 }

/-- Take a step, with bodies run by `run`. -/
def step (run : Runner) : Step → Act Answer
  | .attach d vm => .done <$> attach d vm
  | .detach d vm => .done <$> detach d vm
  | .exec vm index => .result <$> attempt (Run.callPublic run { vm } index)
  | .native vm index params => .result <$> attempt (Run.callNative run { vm } index params)
  | .run vm body => .result <$> attempt (run { vm } body)
  | .completeInstruction vm => .result <$> attempt (Run.step { vm } *> pure 0)
  | .crash d vms => .disposition <$> crash d vms
  | .runtimeError d vm index e => .disposition <$> runtimeError d vm index e
  | .interrupt d => requestInterrupt d *> pure .nothing
  | .trace d vm => .trace <$> trace d vm
  | .chain vm slot mode => addLayer vm slot mode *> pure .nothing
  | .clear vm slot => setSlot vm slot (fun _ => []) *> pure .nothing
  | .inspect d vm => do
    let m ← machine vm
    return .inspected ((← detector d).instance? m.handle)
  | .describe d vm => do
    let m ← machine vm
    return .description (← detector d).describe m.slots.describe

/-- Take a step, with bodies nested at most `fuel` deep. -/
def perform (fuel : Nat) (s : Step) (w : World) : Answer × World :=
  match step (Run.runWith fuel) s w with
  | .ok answer w => (answer, w)
  | .error (.error e) w => (.result (.error e), w)
  | .error .panic w => (.panic, w)
  | .error .outOfFuel w => (.outOfFuel, w)

def performAll (fuel : Nat) (steps : List Step) (w : World) : List Answer × World :=
  match steps with
  | [] => ([], w)
  | s :: steps =>
    let (answer, w) := perform fuel s w
    let (answers, w) := performAll fuel steps w
    (answer :: answers, w)

/-! ## The host's side -/

/-- The reports kept by each detector's sink, and the world in which they are taken out. -/
def takeReports (w : World) : List (List Report) × World :=
  (w.detectors.map fun d => d.sink.reports,
   { w with detectors := w.detectors.map fun d => { d with sink := d.sink.take.2 } })

end Session

end ScriptDiag
