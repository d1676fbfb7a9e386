import ScriptDiag.Cell

/-!
# Calls in flight

While a native or public call runs on a machine, a record of it lies on the machine's call stack,
together with the frame and code pointers at the moment of the call. The frames of a script
cannot be followed across a native call, and the records are what joins them.

A call is entered on top of the stack and leaves by its sequence number. Normally it is then on
top; where it is not, the one nearest the top leaves and a warning says how many lie above it.
-/

namespace ScriptDiag

/-- Who was called: a host function by the script, or a public function by the host. -/
inductive CallKind where
  | toNative
  | toPublic
deriving DecidableEq, Repr, Inhabited

/-- A call in flight: its kind, the index of the function called, frame and code pointer at the
moment of the call, and its place in the order of all calls. -/
structure CallRecord where
  kind : CallKind
  index : Cell
  frm : UCell
  cip : UCell
  seq : Nat
deriving DecidableEq, Repr, Inhabited

/-- Calls in flight, innermost first. -/
abbrev CallStack := List CallRecord

/-- A call left while newer ones were still above it. -/
structure LeaveWarning where
  seq : Nat
  newer : Nat
deriving DecidableEq, Repr, Inhabited

def LeaveWarning.message (w : LeaveWarning) : String :=
  s!"call #{w.seq} left out of order ({w.newer} newer records above it)"

namespace CallStack

/-- The stack with one more call on top. -/
def enter (s : CallStack) (r : CallRecord) : CallStack :=
  r :: s

/-- The stack without the call numbered `seq` that is nearest the top. -/
def leave (s : CallStack) (seq : Nat) : CallStack :=
  s.eraseP fun r => r.seq == seq

/-- The warning due when the call numbered `seq` leaves: none if it is on top, or not there. -/
def leaveWarning? (s : CallStack) (seq : Nat) : Option LeaveWarning :=
  match s.findIdx? fun r => r.seq == seq with
  | some (n + 1) => some { seq, newer := n + 1 }
  | _ => none

def top? (s : CallStack) : Option CallRecord :=
  s.head?

/-- The calls in order, outermost first. -/
def outermostFirst (s : CallStack) : List CallRecord :=
  s.reverse

theorem leave_enter (s : CallStack) (r : CallRecord) : (s.enter r).leave r.seq = s := by
  simp [enter, leave]

/-- A call that is on top leaves without a warning. -/
theorem leaveWarning?_enter (s : CallStack) (r : CallRecord) :
    (s.enter r).leaveWarning? r.seq = none := by
  simp [enter, leaveWarning?, List.findIdx?_cons]

end CallStack

end ScriptDiag
