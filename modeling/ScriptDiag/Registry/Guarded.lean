import ScriptDiag.Guard
import ScriptDiag.Registry

/-!
# A registry with guards

Calls entered on the instances of a registry, each with a guard. Frame and code pointer of such a
call are not known and recorded as zero.
-/

namespace ScriptDiag

/-- A registry with the guards of the calls entered on its instances, by instance and sequence
number. -/
structure GuardedRegistry where
  registry : Registry := {}
  guards : Guards (Nat × Nat) := []
deriving DecidableEq, Repr, Inhabited

namespace GuardedRegistry

/-- Enter a call with the next number on the instance numbered `id`, and hold its guard. -/
def enter (s : GuardedRegistry) (id : Nat) (kind : CallKind) (index : Cell) :
    Nat × GuardedRegistry :=
  let (seq, registry) := s.registry.nextSeq
  let call : CallRecord := { kind, index, frm := 0, cip := 0, seq }
  (seq, { registry := registry.enterCall id call, guards := s.guards.hold (id, seq) })

/-- Drop a guard, and say whether it was held. -/
def exit (s : GuardedRegistry) (guard : Nat) : Bool × GuardedRegistry :=
  match s.guards.held? guard with
  | some (id, seq) =>
    (true, { registry := s.registry.leaveCall id seq, guards := s.guards.release guard })
  | none => (false, s)

end GuardedRegistry

end ScriptDiag
