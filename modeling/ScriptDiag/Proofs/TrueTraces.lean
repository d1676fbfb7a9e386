import ScriptDiag.Proofs.WatchedRuns

/-!
# Traces show what is in flight

While a public runs that the host has called, on a machine that a detector is attached to, and all
bodies are disciplined, every trace that is taken has one frame for each activation in flight at its
moment, innermost first: one for each native, one for each script function, and one for each public
that has no function yet (`traces_show_activations`). A trace that is cut off at the depth bound
shows the innermost ones.

It is assumed that the machine's stack lies in its data memory, below the frame that the machine is
in, if it is in one. As for the functions, the frame of each has to be at another address than zero,
and none but the innermost of a public may be at code address zero: a frame at zero ends the chain
of frames, and a return address of zero is what marks the function that a public starts with.
-/

namespace ScriptDiag

open Act LiveCall

/-- **Every trace is the real call stack.** The host calls a public of a machine that one detector
is attached to, while none of its calls is in flight; then each trace taken until the call is over
has the frames of the activations that were in flight when it was taken. -/
theorem traces_show_activations {w : World} {d id : Nat} {m : Machine} {det : Detector}
    {i : Instance} {a : Activation} (hm : w.machines[a.vm]? = some m)
    (hdet : w.detectors[d]? = some det) (hreg : det.registry.find? m.handle = some id)
    (hi : det.registry.instance? id = some i) (hidle : i.calls = [])
    (hslots : m.slots.areWatched d id = true) (hbodies : m.isDisciplined d = true)
    (hstk : m.registers.stk.toNat ≤ m.memory.size)
    (hfrm : m.registers.frm = 0 ∨ m.registers.stk ≤ m.registers.frm) (fuel : Nat) (index : Cell) :
    ∃ es, ((Run.callPublic (Run.runWith fuel) a index).after w).journal = es ++ w.journal ∧
      ∀ later e earlier t, es = later ++ e :: earlier → e.trace? d = some t →
        wellFramed d id a.vm earlier = true →
          t = some (expectedTrace (det.context m.view i) det.settings.maxTraceDepth
            (liveCalls d id a.vm earlier)) := by
  let W : Watch := ⟨d, id, a.vm, m, det, i, w.journal, true⟩
  have hW : W.WellPlaced := ⟨hstk, hfrm.imp_right fun h => UInt32.le_iff_toNat_le.mp h⟩
  have hd : W.Disciplined := ⟨hslots, hbodies⟩
  have hon : W.On [] w := Watch.on_of_idle (W := W) hm hdet hreg hi hidle rfl
  obtain ⟨es, hes, hshow⟩ := Watch.tracesShow_callPublic hd hW hon rfl fuel index
  refine ⟨es, hes, fun later e earlier t heq ht hframed => ?_⟩
  -- in a strict watch a trace shows all that is in flight, and no error is caught
  exact (hshow later e earlier t heq ht hframed fun hstrict => Bool.noConfusion hstrict).1

/-- A host whose public calls a native that calls another public, with a function that takes a trace
and fails. -/
def callbackHost : World where
  machines := [{ Machine.ofSize ⟨1⟩ 64 with
    natives := [{ name := "callback", function := some { address := 0x1000, body := [.exec 1] } }]
    publics := [
      { name := "Main", address := 64, body := [.setCip 72, .native 0 []] },
      { name := "Inner", address := 96,
        body := [.call 128 [.setCip 136, .trace 0, .fail .bounds]] }] }]
  detectors := [{}]

def callbackHostAttached : World :=
  (Session.performAll 8 [.attach 0 0] callbackHost).2

/-- Four activations are in flight when the function of the callback host takes a trace, and when
its failure is reported, and both traces show them. -/
theorem callbackHost_traces :
    let w := callbackHostAttached
    let w' := (Run.callPublic (Run.runWith 8) { vm := 0 } 0).after w
    ∃ m det i es, w.machines[0]? = some m ∧ w.detectors[0]? = some det ∧
      det.registry.find? m.handle = some 0 ∧ det.registry.instance? 0 = some i ∧ i.calls = [] ∧
      m.slots.areWatched 0 0 = true ∧ m.isDisciplined 0 = true ∧
      m.registers.stk.toNat ≤ m.memory.size ∧
      (m.registers.frm = 0 ∨ m.registers.stk ≤ m.registers.frm) ∧
      w'.journal = es ++ w.journal ∧ wellFramed 0 0 0 es = true ∧
      ((es.filterMap (Event.trace? 0)).map fun t => t.map fun t => t.frames.length) =
        [some 4, some 4] ∧
      Faithful 0 0 0 (det.context m.view i) det.settings.maxTraceDepth es := by
  intro w w'
  obtain ⟨m, det, i, hm, hdet, hreg, hi, hidle, hslots, hbodies, hstk, hfrm⟩ :=
    w.exists_of_isWatchable 0 0 0 (fun m => m.isDisciplined 0) (by decide +kernel)
  obtain ⟨es, hes, hfaithful⟩ := traces_show_activations (a := { vm := 0 }) hm hdet hreg hi hidle
    hslots hbodies hstk hfrm 8 0
  have hnew : w'.journal.take (w'.journal.length - w.journal.length) = es := by
    rw [hes, List.length_append, Nat.add_sub_cancel, List.take_left]
  have hframed :
      wellFramed 0 0 0 (w'.journal.take (w'.journal.length - w.journal.length)) = true := by
    decide +kernel
  have hcount : (((w'.journal.take (w'.journal.length - w.journal.length)).filterMap
      (Event.trace? 0)).map fun t => t.map fun t => t.frames.length) = [some 4, some 4] := by
    decide +kernel
  rw [hnew] at hframed hcount
  exact ⟨m, det, i, es, hm, hdet, hreg, hi, hidle, hslots, hbodies, hstk, hfrm, hes, hframed,
    hcount, hfaithful⟩

end ScriptDiag
