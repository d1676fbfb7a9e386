import ScriptDiag.Interception

/-!
# Running scripts

Calls pass through the chains in a machine's slots until a link answers them. The machine's own
handlers, at the ends of the chains, run the bodies behind the tables. Bodies contain calls again,
so running is bounded: `runWith n` runs bodies nested at most `n` deep and stops with `outOfFuel`
below that. The other functions of this module are given how to run a nested body.
-/

namespace ScriptDiag

/-- Who runs a body: a machine, below which other machines may be running, with the parameters that
the body sees. -/
structure Activation where
  vm : Nat
  outer : List Nat := []
  params : List Cell := []
deriving DecidableEq, Repr, Inhabited

namespace Activation

def running (a : Activation) : List Nat :=
  a.vm :: a.outer

def withParams (a : Activation) (params : List Cell) : Activation :=
  { a with params }

/-- An activation of another machine on top. -/
def onTop (a : Activation) (vm : Nat) : Activation :=
  { vm, outer := a.running }

/-- The machine that a reference names. Of the machines that are running, only the one on top can be
named, and not by its number. -/
def resolve? (a : Activation) : VmRef → Option Nat
  | .self => some a.vm
  | .number vm => if vm ∈ a.running then none else some vm

end Activation

/-- A way to run bodies. -/
abbrev Runner := Activation → Body → Act Cell

namespace Run

open Act

/-! ## Script functions -/

/-- Enter the script function at `address`, and give its frame. -/
def enterFunction (vm : Nat) (address returnAddress : UCell) (entry : Bool) : Act UCell := do
  onMachine vm (MachineM.enterFrame address returnAddress)
  let frm := (← machine vm).registers.frm
  record (.called vm frm address entry)
  return frm

/-- Call the script function at `address`, which does `body`, from the current code address. Its
frame is given up if it succeeds, and stays where the fault left it if it does not. -/
def callFunction (vm : Nat) (address : UCell) (body : Act Cell) : Act Cell := do
  let frm ← enterFunction vm address (← machine vm).registers.cip false
  let value ← body
  onMachine vm (MachineM.leaveFrame frm)
  record (.returned vm)
  return value

/-- Move the code pointer, as if the instructions up to `cip` were done. -/
def moveTo (vm : Nat) (cip : UCell) : Act Unit := do
  onMachine vm (MachineM.modifyRegisters fun regs => { regs with cip })
  record (.moved vm cip)

/-- Call the function at `address` from within itself, `depth` times, and do `body` innermost. -/
def recurse (vm : Nat) (address cip : UCell) (body : Act Cell) : (depth : Nat) → Act Cell
  | 0 => body
  | depth + 1 =>
    callFunction vm address do
      moveTo vm cip
      recurse vm address cip body depth

/-! ## The machine's own handlers -/

/-- Run the native `index`. It gets no frame. -/
def baseNative (run : Runner) (a : Activation) (index : Cell) (params : List Cell) : Act Cell := do
  record (.base a.vm (.native index params))
  match (← machine a.vm).nativeBody? index with
  | some body => run (a.withParams params) body
  | none => fail .noCallback

/-- Run the public `index` in a frame of its own. The registers are put back if it succeeds, and
stay where the fault left them if it does not. -/
def baseExec (run : Runner) (a : Activation) (index : Cell) : Act Cell := do
  record (.base a.vm (.exec index))
  let m ← machine a.vm
  match m.entryPoint? index with
  | none => fail .badIndex
  | some (address, body) =>
    let _ ← enterFunction a.vm address 0 true
    let value ← run (a.withParams []) body
    onMachine a.vm (MachineM.modifyRegisters fun _ => m.registers)
    record (.returned a.vm)
    return value

/-- Count a completed instruction. -/
def baseHook (a : Activation) : Act Unit := do
  record (.base a.vm .hook)
  modify fun w => w.modifyMachine a.vm fun m => { m with counted := m.counted.map (· + 1) }

/-! ## Chains -/

/-- What a layer does: it shows in the journal that it was called, and forwards, or answers
itself. -/
def layer {α : Type} (number : Nat) (mode : LayerMode) (success : α) (next : Act α) : Act α := do
  record (.layer number)
  match mode with
  | .forward => next
  | .drop => return success
  | .fail e => fail e

/-- A computation for the rest of a chain, if there is a rest. -/
def rest {α : Type} (chain : Chain) (x : Act α) : Option (Act α) :=
  if chain.isEmpty then none else some x

/-- Call the native `index` through a chain. -/
def dispatch (run : Runner) (a : Activation) (index : Cell) (params : List Cell) : Chain → Act Cell
  | [] => fail .noCallback
  | .base :: _ => baseNative run a index params
  | .layer number mode :: chain => layer number mode 0 (dispatch run a index params chain)
  | .interceptor d id :: chain =>
    interceptNative d id a.vm index (rest chain (dispatch run a index params chain))

/-- Run the public `index` through a chain. -/
def exec (run : Runner) (a : Activation) (index : Cell) : Chain → Act Cell
  | [] => fail .notInitialized
  | .base :: _ => baseExec run a index
  | .layer number mode :: chain => layer number mode 0 (exec run a index chain)
  | .interceptor d id :: chain =>
    interceptExec d id a.vm index (rest chain (exec run a index chain))

/-- Tell a chain of a completed instruction. -/
def hook (a : Activation) : Chain → Act Unit
  | [] => return ()
  | .base :: _ => baseHook a
  | .layer number mode :: chain => layer number mode () (hook a chain)
  | .interceptor d id :: chain => interceptHook d id a.vm (hook a chain)

/-! ## What a machine does -/

/-- Call a native through the chain in the machine's slot. -/
def callNative (run : Runner) (a : Activation) (index : Cell) (params : List Cell) : Act Cell := do
  dispatch run a index params (← machine a.vm).slots.dispatcher

/-- Run a public through the chain in the machine's slot. -/
def callPublic (run : Runner) (a : Activation) (index : Cell) : Act Cell := do
  exec run a index (← machine a.vm).slots.exec

def step (a : Activation) : Act Unit := do
  hook a (← machine a.vm).slots.hook

/-- Do `body` so many times. The value is that of the last time. -/
def times (body : Act Cell) : (count : Nat) → (last : Cell) → Act Cell
  | 0, last => return last
  | count + 1, _ => do
    let value ← body
    times body count value

/-! ## Statements -/

/-- How a body goes on after a statement. -/
inductive Flow where
  /-- With the next statement; this one had a value, or none. -/
  | next (value : Option Cell)
  /-- Not at all; the body has this value. -/
  | finish (value : Cell)

def stmt (run : Runner) (a : Activation) : Stmt → Act Flow
  | .setCip cip => do
    moveTo a.vm cip
    return .next none
  | .setRegisters frm cip stk hea => do
    onMachine a.vm (MachineM.modifyRegisters fun regs =>
      { frm := frm.getD regs.frm, cip := cip.getD regs.cip, stk := stk.getD regs.stk,
        hea := hea.getD regs.hea })
    return .next none
  | .noteRegisters => do
    note (.registers (← machine a.vm).registers)
    return .next none
  | .emit payload => do
    note (.emitted payload)
    return .next none
  | .write address value => do
    note (.wrote (← onMachine a.vm (MachineM.store address value)))
    return .next none
  | .writeFrame offset value => do
    let frm := (← machine a.vm).registers.frm
    note (.wrote (← onMachine a.vm (MachineM.store (frm + offset) value)))
    return .next none
  | .read address => do
    note (.read ((← machine a.vm).memory.read? address))
    return .next none
  | .call address body => do
    return .next (some (← callFunction a.vm address (run a body)))
  | .recurse address cip depth body => do
    return .next (some (← recurse a.vm address cip (run a body) depth))
  | .native index params => do
    return .next (some (← callNative run a index params))
  | .exec index => do
    return .next (some (← callPublic run a index))
  | .execOn vm index => do
    if vm ∈ a.running then
      note (.busy vm)
      fail .general
    else
      return .next (some (← callPublic run (a.onTop vm) index))
  | .step => do
    step a
    return .next none
  | .attempt body => do
    note (.attempted (← attempt (run a body)))
    return .next none
  | .times count body => do
    return .next (some (← times (run a body) count 0))
  | .fail e => fail e
  | .finish value => return .finish value
  | .finishWithSum => return .finish a.params.sum
  | .panic => throw .panic
  | .crash d vms => do
    note (.crash (← crash d (vms.filterMap a.resolve?)))
    return .next none
  | .runtimeError d index e => do
    note (.runtimeError (← runtimeError d a.vm index e))
    return .next none
  | .interrupt d => do
    requestInterrupt d
    return .next none
  | .trace d => do
    note (.trace (← trace d a.vm))
    return .next none
  | .probe d => do
    note (.probe (← probe d a.vm))
    return .next none
  | .attach d => do
    note (.attach (← attach d a.vm))
    return .next none
  | .detach d => do
    note (.detach (← detach d a.vm))
    return .next none

/-- Run statements in order. `last` is the value of the last one before them that had a value. -/
def stmts (run : Runner) (a : Activation) (last : Cell) : List Stmt → Act Cell
  | [] => return last
  | s :: rest => do
    match ← stmt run a s with
    | .next value => stmts run a (value.getD last) rest
    | .finish value => return value

/-- Run a body, with bodies nested at most `fuel` deep. -/
def runWith : (fuel : Nat) → Runner
  | 0 => fun _ _ => throw .outOfFuel
  | fuel + 1 => fun a body => stmts (runWith fuel) a 0 body

end Run

end ScriptDiag
