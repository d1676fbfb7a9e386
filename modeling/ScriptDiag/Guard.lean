import ScriptDiag.CallStack

/-!
# Guards

Whoever enters a call holds a guard for it until the call is over. `Guards` numbers the guards in
the order in which they were taken and knows which of them are still held; a guard is given up at
most once. `GuardedStack` is a call stack with its guards: dropping a guard lets its call leave,
while leaking it gives it up and leaves the record behind.
-/

namespace ScriptDiag

/-- Guards by number, each with what it guards while it is held. -/
abbrev Guards (α : Type) := List (Option α)

namespace Guards

variable {α : Type}

def hold (g : Guards α) (x : α) : Guards α :=
  g ++ [some x]

/-- What guard `n` guards, if it is held. -/
def held? (g : Guards α) (n : Nat) : Option α :=
  (g[n]?).join

/-- The guards with guard `n` given up. -/
def release (g : Guards α) (n : Nat) : Guards α :=
  g.set n none

end Guards

/-- A call stack with the guards of its calls, by sequence number. -/
structure GuardedStack where
  calls : CallStack := []
  guards : Guards Nat := []
deriving DecidableEq, Repr, Inhabited

/-- What can happen to a guarded stack. -/
inductive GuardStep where
  /-- Enter a call and hold its guard. -/
  | enter (record : CallRecord)
  /-- Drop a guard. -/
  | drop (guard : Nat)
  /-- Give up a guard without letting its call leave. -/
  | leak (guard : Nat)
  /-- Enter a call whose guard is dropped by an unwinding failure. -/
  | unwind (record : CallRecord)
deriving DecidableEq, Repr, Inhabited

/-- What a step answers: the number of the call entered, or whether the guard was held. -/
inductive GuardAnswer where
  | entered (seq : Nat)
  | wasHeld (held : Bool)
deriving DecidableEq, Repr, Inhabited

namespace GuardedStack

/-- The stack after the call numbered `seq` leaves, with the warning due. -/
def leave (s : GuardedStack) (seq : Nat) : GuardedStack × Option LeaveWarning :=
  ({ s with calls := s.calls.leave seq }, s.calls.leaveWarning? seq)

/-- The stack after a step, with the answer and the warning due. -/
def step (s : GuardedStack) : GuardStep → GuardedStack × GuardAnswer × Option LeaveWarning
  | .enter r =>
    ({ calls := s.calls.enter r, guards := s.guards.hold r.seq }, .entered r.seq, none)
  | .drop n =>
    match s.guards.held? n with
    | some seq =>
      let (s', warning) := s.leave seq
      ({ s' with guards := s.guards.release n }, .wasHeld true, warning)
    | none => (s, .wasHeld false, none)
  | .leak n =>
    match s.guards.held? n with
    | some _ => ({ s with guards := s.guards.release n }, .wasHeld true, none)
    | none => (s, .wasHeld false, none)
  | .unwind r =>
    let (s', warning) := { s with calls := s.calls.enter r }.leave r.seq
    (s', .wasHeld true, warning)

end GuardedStack

end ScriptDiag
