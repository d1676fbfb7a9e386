import ScriptDiag.Native.Stub
import ScriptDiag.Registry
import ScriptDiag.Trace.Walk

/-!
# Detectors

A detector diagnoses the machines it is attached to: it reports failures to its sink, at most one
until the calls in flight have ended, and ends the process where the settings or the failure
demand it. Here is what a detector consists of; what it does is in `ScriptDiag.Diagnosis`.
-/

namespace ScriptDiag

/-- A detector. `installed` tells which instance's interceptors were put into the machine with a
handle. -/
structure Detector where
  settings : Settings := {}
  sink : Sink := .memory []
  symbols : SymbolSource := NativeSymbol.unknown
  code : CodeReader := CodeReader.nothing
  abi : Abi := .x86_64
  registry : Registry := {}
  installed : HandleMap := []
  interruptPending : Bool := false
  terminating : Bool := false
deriving Inhabited

namespace Detector

/-- The stack of a machine now, by the tables and the calls of an instance. -/
def trace (d : Detector) (vm : VmView) (i : Instance) : StackTrace :=
  let context : TraceContext :=
    { vm, debug := i.debug, symbols := d.symbols, code := d.code, abi := d.abi,
      maxHops := d.settings.maxTrampolineHops }
  context.trace d.settings.maxTraceDepth i.calls

/-- The instance registered for `handle`. -/
def instance? (d : Detector) (handle : VmHandle) : Option Instance :=
  (d.registry.find? handle).bind d.registry.instance?

/-- A detector as debugging output shows it. -/
def describe (d : Detector) : String :=
  "CrashDetector \x7b config: Config \x7b die_on_error: " ++ toString d.settings.dieOnError
    ++ ", max_trace_depth: " ++ toString d.settings.maxTraceDepth
    ++ ", max_trampoline_hops: " ++ toString d.settings.maxTrampolineHops
    ++ " \x7d, attached: " ++ toString d.registry.size ++ " \x7d"

end Detector

/-- The slots of a machine as debugging output shows them. -/
def Slots.describe (s : Slots) : String :=
  "ExtensionPoints \x7b debug_hook: " ++ toString (!s.hook.isEmpty)
    ++ ", dispatcher: " ++ toString (!s.dispatcher.isEmpty)
    ++ ", exec: " ++ toString (!s.exec.isEmpty) ++ " \x7d"

end ScriptDiag
