import ScriptDiag.Proofs.FailureEvents

/-!
# Accounts of errors

An error that a body raises goes up through the handlers that the body was called by, and each of
them may pass it on, replace it or keep it to itself. The journal tells only what detectors were
told of this. The account of an act tells all of it, in order: which errors were raised, which calls
an interceptor refused to forward, and what each interceptor received from what it forwarded to and
returned in turn (`ErrorStep`).

Accounts follow the acts: the account of one act after another is the account of the first, and then
that of the second in the world that the first left (`Account.bind`). Where no interceptor takes
part and no error is caught, only the error that the act ends with, if there is one, was raised
(`Account.own`). For each function of `ScriptDiag.Run` in which calls are made there is an account
here, down to the handlers at the ends of the chains.
-/

namespace ScriptDiag

variable {α β : Type}

/-! ## What happens to errors -/

/-- The error in an outcome, if handlers and bodies can see it. -/
def errorOf? : Except Stop α → Option VmError
  | .error (.error e) => some e
  | _ => none

/-- A call through an interceptor: of the native or public `index` of the machine `vm`, with a
detector's instance. -/
structure Crossing where
  detector : Nat
  instanceId : Nat
  vm : Nat
  kind : CallKind
  index : Cell
deriving DecidableEq, Repr, Inhabited

/-- Something that happens to errors. -/
inductive ErrorStep where
  /-- A body, a layer, a machine or one of its own handlers raised it. -/
  | raised (e : VmError)
  /-- An interceptor did not forward the call of a native, and returned an error itself. -/
  | refused (call : Crossing) (fault : NativeFault) (e : VmError)
  /-- What an interceptor forwarded to ended, and then the interceptor. -/
  | crossed (call : Crossing) (received returned : Except Stop Cell)
  /-- The host told a detector of the error that running a public gave. -/
  | told (detector instanceId vm : Nat) (index : Cell) (e : VmError)
deriving DecidableEq, Repr, Inhabited

/-- The failure that an error is, for the interceptor of a call. -/
def Crossing.failure? (c : Crossing) (e : VmError) : Option Failure :=
  match c.kind with
  | .toNative => if e = .exit then none else some (.native c.index (.failed e))
  | .toPublic => if Act.isHarmless c.index e then none else some (.runtime c.index e)

def Crossing.failed (c : Crossing) (f : Failure) : Event :=
  .failed c.detector c.instanceId c.vm f

/-- What an interceptor returns for what it receives. -/
def CallKind.passOn : CallKind → Except Stop Cell → Except Stop Cell
  | .toNative, .error (.error e) => .error (.error (if e = .exit then .exit else .nativeFailed))
  | _, received => received

namespace ErrorStep

/-- What a detector is told of the step, as it stands in the journal. -/
def event? : ErrorStep → Option Event
  | .raised _ => none
  | .refused c fault _ => some (c.failed (.native c.index fault))
  | .crossed c received _ => ((errorOf? received).bind c.failure?).map c.failed
  | .told d id vm index e =>
    let c : Crossing := ⟨d, id, vm, .toPublic, index⟩
    (c.failure? e).map c.failed

/-- The error that goes up from the step. -/
def given? : ErrorStep → Option VmError
  | .raised e | .refused _ _ e => some e
  | .crossed _ _ returned => errorOf? returned
  | .told _ _ _ _ _ => none

end ErrorStep

/-! ## One act after another -/

/-- What happens to errors while an act runs, from a world on. -/
abbrev Account := World → List ErrorStep

namespace Account

open Act

/-- The account of an act without interceptors that catches no error. -/
def own (x : Act α) : Account := fun w =>
  ((errorOf? (outcome x w)).map ErrorStep.raised).toList

/-- One act, with its account, after another. -/
def bind (x : Act α) (first : Account) (next : α → Account) : Account := fun w =>
  first w ++ match x w with
    | .ok a w' => next a w'
    | .error _ _ => []

/-- An act after one without interceptors. -/
def andThen (x : Act α) (next : α → Account) : Account :=
  bind x (own x) next

def silent : Account := fun _ => []

def raise (e : VmError) : Account := fun _ => [.raised e]

/-! ## Script functions -/

/-- A call of a script function whose `body` has the account `steps`. -/
def callFunction (vm : Nat) (address : UCell) (body : Act Cell) (steps : Account) : Account :=
  andThen (machine vm) fun m =>
    andThen (Run.enterFunction vm address m.registers.cip false) fun frm =>
      bind body steps fun _ => own (onMachine vm (MachineM.leaveFrame frm))

def recurse (vm : Nat) (address cip : UCell) (body : Act Cell) (steps : Account) :
    (depth : Nat) → Account
  | 0 => steps
  | depth + 1 =>
    callFunction vm address (Run.moveTo vm cip >>= fun _ => Run.recurse vm address cip body depth)
      (andThen (Run.moveTo vm cip) fun _ => recurse vm address cip body steps depth)

def times (body : Act Cell) (steps : Account) : (count : Nat) → Account
  | 0 => silent
  | count + 1 => bind body steps fun _ => times body steps count

/-! ## Interceptors -/

/-- A call that an interceptor forwards: after the call was entered, `next` runs, with the account
`steps`. The interceptor as a whole is `whole`. -/
def crossing (c : Crossing) (enter : Act CallRecord) (next whole : Act Cell) (steps : Account) :
    Account := fun w =>
  andThen enter (fun _ w' => steps w' ++ [.crossed c (outcome next w') (outcome whole w)]) w

/-- The fault for which an interceptor does not forward the call of a native, and the error that it
returns. -/
def refusal? (entry : Option NativeEntry) (next : Option (Act Cell)) :
    Option (NativeFault × VmError) :=
  match entry with
  | none => some (.outOfRange, .nativeFailed)
  | some entry =>
    if !entry.isRegistered then some (.unregistered, .nativeFailed)
    else match next with
      | none => some (.failed .noCallback, .noCallback)
      | some _ => none

def interceptNative (c : Crossing) (next : Option (Act Cell)) (steps : Account) : Account :=
  andThen (machine c.vm) fun m =>
    match refusal? (m.view.native? c.index) next with
    | some (fault, e) => fun _ => [.refused c fault e]
    | none =>
      crossing c (enterCall c.detector c.instanceId c.vm .toNative c.index)
        (next.getD (fail .noCallback))
        (Act.interceptNative c.detector c.instanceId c.vm c.index next) steps

def interceptExec (c : Crossing) (next : Option (Act Cell)) (steps : Account) : Account :=
  crossing c
    (clearLatchIfIdle c.detector >>= fun _ =>
      enterCall c.detector c.instanceId c.vm .toPublic c.index)
    (next.getD (fail .notInitialized))
    (Act.interceptExec c.detector c.instanceId c.vm c.index next) steps

/-- The host tells of an error. Where the detector is attached, it takes it as one that it saw
itself. -/
def runtimeError (d vm : Nat) (index : Cell) (e : VmError) : Account :=
  andThen (machine vm) fun m => andThen (detector d) fun det =>
    match det.registry.find? m.handle with
    | some id => fun _ => [.told d id vm index e]
    | none => silent

/-! ## Chains -/

section

variable (run : Runner) (steps : Activation → Body → Account)

def baseNative (a : Activation) (index : Cell) (params : List Cell) : Account :=
  andThen (record (.base a.vm (.native index params))) fun _ => andThen (machine a.vm) fun m =>
    match m.nativeBody? index with
    | some body => steps (a.withParams params) body
    | none => raise .noCallback

def baseExec (a : Activation) (index : Cell) : Account :=
  andThen (record (.base a.vm (.exec index))) fun _ => andThen (machine a.vm) fun m =>
    match m.entryPoint? index with
    | none => raise .badIndex
    | some (address, body) =>
      andThen (Run.enterFunction a.vm address 0 true) fun _ =>
        bind (run (a.withParams []) body) (steps (a.withParams []) body) fun _ =>
          own (onMachine a.vm (MachineM.modifyRegisters fun _ => m.registers))

def layer (number : Nat) (mode : LayerMode) (steps : Account) : Account :=
  andThen (record (.layer number)) fun _ =>
    match mode with
    | .forward => steps
    | .drop => silent
    | .fail e => raise e

def dispatch (a : Activation) (index : Cell) (params : List Cell) : Chain → Account
  | [] => raise .noCallback
  | .base :: _ => baseNative steps a index params
  | .layer number mode :: chain => layer number mode (dispatch a index params chain)
  | .interceptor d id :: chain =>
    interceptNative ⟨d, id, a.vm, .toNative, index⟩
      (Run.rest chain (Run.dispatch run a index params chain)) (dispatch a index params chain)

def exec (a : Activation) (index : Cell) : Chain → Account
  | [] => raise .notInitialized
  | .base :: _ => baseExec run steps a index
  | .layer number mode :: chain => layer number mode (exec a index chain)
  | .interceptor d id :: chain =>
    interceptExec ⟨d, id, a.vm, .toPublic, index⟩
      (Run.rest chain (Run.exec run a index chain)) (exec a index chain)

def callNative (a : Activation) (index : Cell) (params : List Cell) : Account :=
  andThen (machine a.vm) fun m => dispatch run steps a index params m.slots.dispatcher

def callPublic (a : Activation) (index : Cell) : Account :=
  andThen (machine a.vm) fun m => exec run steps a index m.slots.exec

/-! ## Bodies -/

def stmt (a : Activation) : Stmt → Account
  | .call address body => callFunction a.vm address (run a body) (steps a body)
  | .recurse address cip depth body => recurse a.vm address cip (run a body) (steps a body) depth
  | .native index params => callNative run steps a index params
  | .exec index => callPublic run steps a index
  | .execOn vm index =>
    if vm ∈ a.running then raise .general else callPublic run steps (a.onTop vm) index
  | .attempt body => steps a body
  | .times count body => times (run a body) (steps a body) count
  | .runtimeError d index e => runtimeError d a.vm index e
  | s => own (Run.stmt run a s)

def stmts (a : Activation) : List Stmt → Account
  | [] => silent
  | s :: rest =>
    bind (Run.stmt run a s) (stmt run steps a s) fun flow =>
      match flow with
      | .next _ => stmts a rest
      | .finish _ => silent

end

def runWith : (fuel : Nat) → Activation → Body → Account
  | 0 => fun _ _ => silent
  | fuel + 1 => fun a body => stmts (Run.runWith fuel) (runWith fuel) a body

/-! ## Sessions -/

/-- The account of a step of a host. -/
def step (fuel : Nat) : Step → Account
  | .exec vm index => callPublic (Run.runWith fuel) (runWith fuel) { vm } index
  | .native vm index params => callNative (Run.runWith fuel) (runWith fuel) { vm } index params
  | .run vm body => runWith fuel { vm } body
  | .completeInstruction vm => own (Run.step { vm })
  | .runtimeError d vm index e => runtimeError d vm index e
  | s => own (Session.step (Run.runWith fuel) s)

/-- The account of a session. -/
def performAll (fuel : Nat) : List Step → Account
  | [] => silent
  | s :: steps => fun w => step fuel s w ++ performAll fuel steps (Session.perform fuel s w).2

end Account

end ScriptDiag
