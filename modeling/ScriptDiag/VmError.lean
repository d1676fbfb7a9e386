import ScriptDiag.Cell

/-!
# Runtime errors of the machine

Each error has a number, which hosts exchange, and a text, which reports show.
`ofCode?_eq_some_iff` says that the numbers determine the errors and that zero, the number for
success, belongs to none.
-/

namespace ScriptDiag

/-- The ways in which running a script can fail. -/
inductive VmError where
  | exit
  | assertion
  | stackCollision
  | bounds
  | memoryAccess
  | invalidInstruction
  | stackUnderflow
  | heapUnderflow
  | noCallback
  | nativeFailed
  | divideByZero
  | sleep
  | invalidState
  | outOfMemory
  | badFormat
  | newerVersion
  | notFound
  | badIndex
  | noDebugger
  | notInitialized
  | userDataFull
  | noJit
  | badParameter
  | domain
  | general
deriving DecidableEq, Repr, Inhabited

namespace VmError

def all : List VmError :=
  [exit, assertion, stackCollision, bounds, memoryAccess, invalidInstruction, stackUnderflow,
   heapUnderflow, noCallback, nativeFailed, divideByZero, sleep, invalidState, outOfMemory,
   badFormat, newerVersion, notFound, badIndex, noDebugger, notInitialized, userDataFull, noJit,
   badParameter, domain, general]

/-- The number of an error. The numbers 14 and 15 are not in use. -/
def code : VmError → Int32
  | exit => 1
  | assertion => 2
  | stackCollision => 3
  | bounds => 4
  | memoryAccess => 5
  | invalidInstruction => 6
  | stackUnderflow => 7
  | heapUnderflow => 8
  | noCallback => 9
  | nativeFailed => 10
  | divideByZero => 11
  | sleep => 12
  | invalidState => 13
  | outOfMemory => 16
  | badFormat => 17
  | newerVersion => 18
  | notFound => 19
  | badIndex => 20
  | noDebugger => 21
  | notInitialized => 22
  | userDataFull => 23
  | noJit => 24
  | badParameter => 25
  | domain => 26
  | general => 27

def message : VmError → String
  | exit => "Forced exit"
  | assertion => "Assertion failed"
  | stackCollision => "Stack/heap collision (insufficient stack size)"
  | bounds => "Array index out of bounds"
  | memoryAccess => "Invalid memory access"
  | invalidInstruction => "Invalid instruction"
  | stackUnderflow => "Stack underflow"
  | heapUnderflow => "Heap underflow"
  | noCallback => "No (valid) native function callback"
  | nativeFailed => "Native function failed"
  | divideByZero => "Divide by zero"
  | sleep => "(sleep mode)"
  | invalidState => "Invalid state"
  | outOfMemory => "Out of memory"
  | badFormat => "Invalid/unsupported P-code file format"
  | newerVersion => "File is for a newer version of the AMX"
  | notFound => "File or function is not found"
  | badIndex => "Invalid index parameter (bad entry point)"
  | noDebugger => "Debugger cannot run"
  | notInitialized => "AMX not initialized (or doubly initialized)"
  | userDataFull => "Unable to set user data field (table full)"
  | noJit => "Cannot initialize the JIT"
  | badParameter => "Parameter error"
  | domain => "Domain error, expression result does not fit in range"
  | general => "General error (unknown or unspecific error)"

/-- The error with number `n`, if there is one. -/
def ofCode? (n : Int32) : Option VmError :=
  all.find? fun e => e.code == n

/-- The error with number `n`, and the general error for a number not in use. -/
def ofCode (n : Int32) : VmError :=
  (ofCode? n).getD general

/-- What a number returned by the host means: zero is success. -/
def check (n : Int32) : Except VmError Unit :=
  if n = 0 then .ok () else .error (ofCode n)

theorem mem_all (e : VmError) : e ∈ all := by
  cases e <;> decide

theorem ofCode?_code (e : VmError) : ofCode? e.code = some e := by
  cases e <;> decide

theorem ofCode?_eq_some_iff {n : Int32} {e : VmError} : ofCode? n = some e ↔ e.code = n := by
  refine ⟨fun h => ?_, fun h => h ▸ ofCode?_code e⟩
  simpa using List.find?_some h

end VmError

end ScriptDiag
