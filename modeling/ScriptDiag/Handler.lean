import ScriptDiag.VmError

/-!
# Handlers and the slots they sit in

A machine has three slots for handlers: one for a hook called after each instruction, one for the
dispatcher of native calls, and one for the entry through which the host runs publics. Whoever wants
to take part puts a handler of its own in front of the one it finds, and forwards to it. So
the content of a slot is a chain, of which the machine calls the first link; a chain without links
is an empty slot.
-/

namespace ScriptDiag

/-- What a layer does with a call: forward it, answer it with success itself, or fail it. -/
inductive LayerMode where
  | forward
  | drop
  | fail (error : VmError)
deriving DecidableEq, Repr, Inhabited

/-- A handler in a chain. -/
inductive Link where
  /-- The machine's own handler. It forwards to none. -/
  | base
  /-- A handler of some other party, by number. -/
  | layer (number : Nat) (mode : LayerMode)
  /-- The interceptor of a detector for one of its instances. -/
  | interceptor (detector instanceId : Nat)
deriving DecidableEq, Repr, Inhabited

/-- The content of a slot: each link forwards to the one after it. -/
abbrev Chain := List Link

inductive SlotName where
  | hook
  | dispatcher
  | exec
deriving DecidableEq, Repr, Inhabited

structure Slots where
  hook : Chain := []
  dispatcher : Chain := [.base]
  exec : Chain := [.base]
deriving DecidableEq, Repr, Inhabited

namespace Slots

def get (s : Slots) : SlotName → Chain
  | .hook => s.hook
  | .dispatcher => s.dispatcher
  | .exec => s.exec

/-- The slots with another content in one of them. -/
def set (s : Slots) (slot : SlotName) (chain : Chain) : Slots :=
  match slot with
  | .hook => { s with hook := chain }
  | .dispatcher => { s with dispatcher := chain }
  | .exec => { s with exec := chain }

theorem get_set (s : Slots) (slot other : SlotName) (chain : Chain) :
    (s.set slot chain).get other = if other = slot then chain else s.get other := by
  cases slot <;> cases other <;> rfl

def none : Slots := { hook := [], dispatcher := [], exec := [] }

/-- The slots with `link` in front of each chain. -/
def install (s : Slots) (link : Link) : Slots where
  hook := link :: s.hook
  dispatcher := link :: s.dispatcher
  exec := link :: s.exec

/-- Whether `link` is the one that the machine calls. -/
def holds (link : Link) (chain : Chain) : Bool :=
  chain.head? == some link

/-- `before` if `link` comes first in `chain`, and `chain` otherwise. -/
def restoreChain (link : Link) (chain before : Chain) : Chain :=
  if holds link chain then before else chain

/-- The slots with the content of `before` put back where `link` still comes first. -/
def restore (s : Slots) (link : Link) (before : Slots) : Slots where
  hook := restoreChain link s.hook before.hook
  dispatcher := restoreChain link s.dispatcher before.dispatcher
  exec := restoreChain link s.exec before.exec

def holdThroughout (s : Slots) (link : Link) : Bool :=
  holds link s.hook && holds link s.dispatcher && holds link s.exec

/-- Putting back what was there undoes installing. -/
theorem restore_install (s : Slots) (link : Link) : (s.install link).restore link s = s := by
  simp [install, restore, restoreChain, holds]

end Slots

end ScriptDiag
