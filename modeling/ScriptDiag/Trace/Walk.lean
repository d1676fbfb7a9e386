import ScriptDiag.CallStack
import ScriptDiag.Native.Stub
import ScriptDiag.Trace
import ScriptDiag.VmView

/-!
# Walking a machine's stack

The frames of a script form chains through the links saved in them, and each chain ends at the frame
that the machine made when the host called a public. The call records tell what lies below that
frame: the native that called back into the machine, whose own chain continues at the frame
recorded with it, or nothing. So a walk goes along a chain, takes the public's record at its end and
the native's record below it, and goes on along the next chain. Records are taken innermost first.

`Walk.next?` makes one frame, and `Walk.unroll` as many as a trace may have. What is read from the
machine is not trusted: its links may form a circle, and then only the bound ends the walk.
-/

namespace ScriptDiag

/-- What a walk looks things up in. -/
structure TraceContext where
  vm : VmView
  debug : DebugTables
  symbols : SymbolSource
  code : CodeReader
  abi : Abi
  maxHops : Nat

namespace TraceContext

/-- The frame of the script code at `address`. -/
def scriptFrame (c : TraceContext) (address : UCell) : TraceFrame :=
  match c.debug.resolve? address with
  | some symbol => .script address (some symbol.function) symbol.location
  | none => .script address none none

/-- The frame of a native call. Jump stubs in front of the host function are followed. -/
def nativeFrame (c : TraceContext) (r : CallRecord) : TraceFrame :=
  let entry := c.vm.native? r.index
  let target := (entry.bind NativeEntry.address).map fun address =>
    c.symbols (resolveJump c.code c.abi c.maxHops address)
  .native r.index (entry.map NativeEntry.name) target

/-- The frame of a public that was called and has no frame of its own yet. -/
def publicFrame (c : TraceContext) (r : CallRecord) : TraceFrame :=
  match c.vm.public? r.index with
  | none => .script r.cip (if r.index = mainIndex then some "main" else none) none
  | some entry =>
    match c.scriptFrame entry.address with
    | .script address none location => .script address (some entry.name) location
    | frame => frame

end TraceContext

/-- Where a walk is. -/
inductive WalkPosition where
  /-- Nothing is walked yet. -/
  | start
  /-- In script code, at this frame and address. `entered` says whether the chain begins here. -/
  | script (frm cip : UCell) (entered : Bool)
  /-- Past the chain of this public call. -/
  | boundary (call : CallRecord)
  /-- No more frames. -/
  | done
deriving DecidableEq, Repr, Inhabited

/-- A walk: its position, and the records not taken yet, innermost first. -/
structure Walk where
  position : WalkPosition
  records : CallStack
deriving DecidableEq, Repr, Inhabited

namespace Walk

/-- The frame of the native call `r`, after which the walk goes on in the script code that made the
call. -/
def enterNative (c : TraceContext) (r : CallRecord) (rest : CallStack) : TraceFrame × Walk :=
  (c.nativeFrame r, ⟨.script r.frm r.cip true, rest⟩)

/-- Where the walk goes from the script frame at `frm`: to its caller; to the boundary of its public
call, if it is the last of its chain; or nowhere, if its links cannot be read or no record of
the public call is left. -/
def pastFrame (c : TraceContext) (frm : UCell) (records : CallStack) : Walk :=
  match c.vm.frameLink? frm with
  | none => ⟨.done, records⟩
  | some link =>
    if link.isEntry then
      match records with
      | r :: rest => if r.kind = .toPublic then ⟨.boundary r, rest⟩ else ⟨.done, records⟩
      | [] => ⟨.done, []⟩
    else
      ⟨.script link.callerFrm link.returnAddress false, records⟩

/-- The public call on top of `records`, if it was made at frame `frm`: then its own frame does not
exist yet. -/
def frameless? (frm : UCell) (entered : Bool) : CallStack → Option (CallRecord × CallStack)
  | r :: rest => if entered ∧ r.kind = .toPublic ∧ r.frm = frm then some (r, rest) else none
  | [] => none

/-- The frame at a position in script code, and the walk past it. -/
def enterScript (c : TraceContext) (frm cip : UCell) (entered : Bool) (records : CallStack) :
    TraceFrame × Walk :=
  match frameless? frm entered records with
  | some (r, rest) => (c.publicFrame r, ⟨.boundary r, rest⟩)
  | none => (c.scriptFrame cip, pastFrame c frm records)

/-- The next frame of a walk, if there is one, and the walk past it. -/
def next? (c : TraceContext) (w : Walk) : Option (TraceFrame × Walk) :=
  match w.position, w.records with
  | .done, _ => none
  | .start, [] =>
    if c.vm.registers.frm = 0 then none
    else some (enterScript c c.vm.registers.frm c.vm.registers.cip true [])
  | .start, r :: rest =>
    if r.kind = .toNative then some (enterNative c r rest)
    else some (enterScript c c.vm.registers.frm c.vm.registers.cip true (r :: rest))
  | .script frm cip entered, records => some (enterScript c frm cip entered records)
  | .boundary _, [] => none
  | .boundary call, r :: rest =>
    if r.kind = .toNative then some (enterNative c r rest)
    else some (enterScript c call.frm call.cip true (r :: rest))

/-- At most `depth` frames of a walk. They are truncated if one more could be made. -/
def unroll (c : TraceContext) : (depth : Nat) → Walk → StackTrace
  | 0, w => { frames := [], truncated := (next? c w).isSome }
  | depth + 1, w =>
    match next? c w with
    | none => { frames := [], truncated := false }
    | some (frame, w) =>
      let rest := unroll c depth w
      { rest with frames := frame :: rest.frames }

end Walk

/-- The trace of a machine with the given calls in flight, of at most `depth` frames. -/
def TraceContext.trace (c : TraceContext) (depth : Nat) (calls : CallStack) : StackTrace :=
  Walk.unroll c depth ⟨.start, calls⟩

end ScriptDiag
