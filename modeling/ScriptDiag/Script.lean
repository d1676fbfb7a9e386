import ScriptDiag.VmError

/-!
# Script bodies

The functions of a script, and the host functions it calls, are given by what they do to the machine
and to the detectors: by lists of statements. A statement may have a value, and a body has the value
of the last one that did. A statement that fails ends its body.
-/

namespace ScriptDiag

/-- A machine, as a body names it. -/
inductive VmRef where
  /-- The machine that runs the body. -/
  | self
  | number (vm : Nat)
deriving DecidableEq, Repr, Inhabited

/-- A statement. Detectors and machines are given by number. -/
inductive Stmt where
  | setCip (address : UCell)
  /-- Set those registers for which a value is given. -/
  | setRegisters (frm cip stk hea : Option UCell)
  | noteRegisters
  | emit (payload : String)
  | write (address : UCell) (value : Cell)
  /-- Write at an offset from the frame pointer. -/
  | writeFrame (offset : UCell) (value : Cell)
  | read (address : UCell)
  /-- Call the script function at `address`, whose body is given. -/
  | call (address : UCell) (body : List Stmt)
  /-- Call the function at `address` from within itself, `depth` times, and run `body` innermost.
  Each call but the innermost is made at `cip`. -/
  | recurse (address cip : UCell) (depth : Nat) (body : List Stmt)
  | native (index : Cell) (params : List Cell)
  | exec (index : Cell)
  | execOn (vm : Nat) (index : Cell)
  /-- Complete an instruction. -/
  | step
  /-- Run a body, and go on even if it fails. -/
  | attempt (body : List Stmt)
  | times (count : Nat) (body : List Stmt)
  | fail (error : VmError)
  | finish (value : Cell)
  /-- End with the sum of the parameters. -/
  | finishWithSum
  | panic
  | crash (detector : Nat) (vms : List VmRef)
  | runtimeError (detector : Nat) (index : Cell) (error : VmError)
  | interrupt (detector : Nat)
  | trace (detector : Nat)
  | probe (detector : Nat)
  | attach (detector : Nat)
  | detach (detector : Nat)
deriving Inhabited

/-- The statements of a function, in order. -/
abbrev Body := List Stmt

end ScriptDiag
