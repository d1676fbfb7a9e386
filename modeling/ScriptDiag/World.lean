import ScriptDiag.Detector
import ScriptDiag.Machine

/-!
# Machines, detectors, and what happened

A `World` holds the machines of a host and the detectors attached to them, and a journal of
everything that happened, latest first. `Act` computations change a world. They may stop early, and
what they changed until then stays changed; `ensuring` runs a last change however a computation
ends, and `attempt` goes on after an error, though not after a panic.
-/

namespace ScriptDiag

/-! ## The journal -/

/-- What a detector did about a failure. -/
inductive Disposition where
  /-- Reported, and the process was ended. -/
  | terminate
  /-- Reported; the machine or the host goes on. -/
  | proceed
  /-- Not reported, because it is no failure, or something was reported already. -/
  | suppressed
deriving DecidableEq, Repr, Inhabited

/-- Why a native call did not complete. -/
inductive NativeFault where
  | outOfRange
  | unregistered
  | failed (error : VmError)
deriving DecidableEq, Repr, Inhabited

/-- A failure, as a detector is told of it. -/
inductive Failure where
  | native (index : Cell) (fault : NativeFault)
  | runtime (index : Cell) (error : VmError)
deriving DecidableEq, Repr, Inhabited

instance decidableEqExcept {ε α : Type} [DecidableEq ε] [DecidableEq α] :
    DecidableEq (Except ε α)
  | .ok a, .ok b => decidable_of_iff (a = b) ⟨congrArg _, Except.ok.inj⟩
  | .error e, .error e' => decidable_of_iff (e = e') ⟨congrArg _, Except.error.inj⟩
  | .ok _, .error _ => .isFalse nofun
  | .error _, .ok _ => .isFalse nofun

/-- What a body writes into the journal. -/
inductive Note where
  | registers (registers : Registers)
  | emitted (payload : String)
  | wrote (inBounds : Bool)
  | read (value : Option Cell)
  /-- A machine was not run because it runs already. -/
  | busy (vm : Nat)
  | attempted (result : Except VmError Cell)
  | crash (disposition : Disposition)
  | runtimeError (disposition : Disposition)
  | trace (trace : Option StackTrace)
  | probe (calls : Option CallStack)
  | attach (result : Except DiagError Unit)
  | detach (result : Except DiagError Unit)
deriving DecidableEq, Repr, Inhabited

/-- A call of one of a machine's own handlers. -/
inductive BaseCall where
  | hook
  | native (index : Cell) (params : List Cell)
  | exec (index : Cell)
deriving DecidableEq, Repr, Inhabited

/-- Something that happened. Detectors, instances and machines are given by number. -/
inductive Event where
  | log (line : LogLine)
  | note (note : Note)
  /-- A layer was called. -/
  | layer (number : Nat)
  /-- A machine's own handler was called. -/
  | base (vm : Nat) (call : BaseCall)
  /-- A script function was entered, with its frame at `frm`. `entry` says whether the host called
  it, as a public. -/
  | called (vm : Nat) (frm address : UCell) (entry : Bool)
  /-- The script function that was entered last, and runs still, returned. One that fails does not.
  -/
  | returned (vm : Nat)
  /-- The code pointer was moved. -/
  | moved (vm : Nat) (cip : UCell)
  | entered (detector instanceId : Nat) (call : CallRecord)
  | left (detector instanceId seq : Nat)
  | failed (detector instanceId vm : Nat) (failure : Failure)
  | latchArmed (detector : Nat)
  | latchCleared (detector : Nat)
  | report (detector : Nat) (report : Report)
  /-- The process was to be ended, with so many reports in the detector's sink. -/
  | terminate (detector : Nat) (kind : FailureKind) (pending : Nat)
  /-- The host told a detector that it crashed. -/
  | crashed (detector : Nat)
  | interruptRequested (detector : Nat)
  | interruptTaken (detector : Nat)
  | attached (detector instanceId vm : Nat)
  | detached (detector instanceId vm : Nat)
deriving DecidableEq, Repr, Inhabited

/-! ## Worlds and acts -/

/-- The machines and detectors of a host, the files it can read, and the journal. `layers` is the
number that the next layer gets. -/
structure World where
  machines : List Machine := []
  detectors : List Detector := []
  files : FileTable := []
  layers : Nat := 0
  journal : List Event := []
deriving Inhabited

/-- Why an act stops early. -/
inductive Stop where
  | error (error : VmError)
  /-- A failure that unwinds everything under way. -/
  | panic
  /-- The bound on nested bodies was reached. -/
  | outOfFuel
deriving DecidableEq, Repr, Inhabited

/-- A computation that changes a world and may stop early. -/
abbrev Act := EStateM Stop World

namespace World

def record (w : World) (e : Event) : World :=
  { w with journal := e :: w.journal }

def modifyMachine (w : World) (vm : Nat) (f : Machine → Machine) : World :=
  { w with machines := w.machines.modify vm f }

/-- The world with a change made to a detector. -/
def modifyDetector (w : World) (d : Nat) (f : Detector → Detector) : World :=
  { w with detectors := w.detectors.modify d f }

/-- The world with a change made to the registry of a detector. -/
def modifyRegistry (w : World) (d : Nat) (f : Registry → Registry) : World :=
  w.modifyDetector d fun det => { det with registry := f det.registry }

end World

namespace Act

variable {α : Type}

def fail (e : VmError) : Act α :=
  throw (.error e)

def record (e : Event) : Act Unit :=
  modify fun w => w.record e

def note (n : Note) : Act Unit :=
  record (.note n)

def log (level : LogLevel) (message : String) : Act Unit :=
  record (.log { level, message })

/-- The machine numbered `vm`. To name a machine that does not exist is a panic. -/
def machine (vm : Nat) : Act Machine := do
  match (← get).machines[vm]? with
  | some m => return m
  | none => throw .panic

/-- The detector numbered `d`. To name a detector that does not exist is a panic. -/
def detector (d : Nat) : Act Detector := do
  match (← get).detectors[d]? with
  | some det => return det
  | none => throw .panic

/-- Run a computation on the machine numbered `vm`. -/
def onMachine (vm : Nat) (x : MachineM α) : Act α := do
  match x (← machine vm) with
  | .ok a m =>
    modify fun w => w.modifyMachine vm fun _ => m
    return a
  | .error e m =>
    modify fun w => w.modifyMachine vm fun _ => m
    fail e

/-- Run `x`, and make a change to the world afterwards, however `x` ends. -/
def ensuring (x : Act α) (after : World → World) : Act α := fun w =>
  match x w with
  | .ok a w => .ok a (after w)
  | .error s w => .error s (after w)

/-- Run `x`, and go on with the error if it fails with one. -/
def attempt (x : Act α) : Act (Except VmError α) := fun w =>
  match x w with
  | .ok a w => .ok (.ok a) w
  | .error (.error e) w => .ok (.error e) w
  | .error s w => .error s w

/-- The value of an attempt, or its error. -/
def ofExcept : Except VmError α → Act α
  | .ok a => pure a
  | .error e => fail e

end Act

end ScriptDiag
