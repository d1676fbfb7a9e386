import ScriptDiag.Proofs.TraceFrames
import ScriptDiag.Proofs.WatchedRuns

/-!
# Natives called by natives

A native may call another one. Then two records of natives follow one another on the tracking stack,
and a walk passes the inner one, makes the frames of the script that both run for, and ends there:
it finds no record of a public where that script ends. The outer native has no frame in the trace,
and neither has anything outside it, though the trace does not say that it was cut off.

This is the only way to miss a native. Of the bodies it is assumed that they are orderly: natives
may call publics and natives, and bodies may catch errors. Until an error is caught, every trace
shows exactly what a walk reaches of the calls in flight (`traces_miss_nested_natives`).
-/

namespace ScriptDiag

open Act LiveCall

variable {c : TraceContext} {g : List LiveCall}

namespace LiveCall

/-! ## Natives in traces -/

theorem filter_isNative_frames (c : TraceContext) (live : LiveCall) :
    (frames c live).filter TraceFrame.isNative =
      (CallStack.natives [live.call]).map c.nativeFrame := by
  cases hkind : live.call.kind with
  | toNative =>
      simp [frames, CallStack.natives, hkind, TraceContext.nativeFrame, TraceFrame.isNative]
  | toPublic =>
      cases hfunctions : live.functions with
      | nil => simp [frames, CallStack.natives, hkind, hfunctions, c.isNative_publicFrame]
      | cons p ps =>
          simp [frames, CallStack.natives, hkind, hfunctions, c.isNative_scriptFrame]

/-- The natives among the frames of some calls are those of the calls of natives. -/
theorem filter_isNative_flatMap (c : TraceContext) (g : List LiveCall) :
    (g.flatMap (frames c)).filter TraceFrame.isNative =
      (CallStack.natives (g.map call)).map c.nativeFrame := by
  induction g with
  | nil => rfl
  | cons live g ih =>
      rw [List.flatMap_cons, List.filter_append, filter_isNative_frames, ih, ← List.map_append,
        CallStack.natives, CallStack.natives, ← List.filter_append]
      rfl

/-! ## Natives that a walk does not reach -/

/-- What runs beyond the innermost natives is no native. -/
theorem natives_host (g : List LiveCall) :
    CallStack.natives (((host g).take 1).map call) = [] := by
  induction g with
  | nil => rfl
  | cons live g ih =>
      cases hkind : live.call.kind with
      | toNative =>
          rw [host_native hkind]
          exact ih
      | toPublic =>
          rw [host_public hkind]
          exact List.filter_cons_of_neg (by simp [hkind])

theorem natives_cons (live : LiveCall) (g : List LiveCall) :
    CallStack.natives ((live :: g).map call) =
      CallStack.natives [live.call] ++ CallStack.natives (g.map call) := by
  rw [CallStack.natives, CallStack.natives, CallStack.natives, ← List.filter_append]
  rfl

/-- Where a native was called by another, a walk does not reach all natives in flight. -/
theorem length_natives_reached (h : CallStack.nestsNatives (g.map call) = true) :
    (CallStack.natives ((reached g).map call)).length <
      (CallStack.natives (g.map call)).length := by
  induction g with
  | nil => cases h
  | cons live g ih =>
      rw [List.map_cons, CallStack.nestsNatives] at h
      rw [reached, natives_cons, natives_cons, List.length_append, List.length_append]
      split
      case isTrue hnests =>
        -- the walk ends in the script that `live` runs for, and `outer` is a native
        rw [Bool.and_eq_true] at hnests
        rw [natives_host, List.length_nil]
        cases g with
        | nil => cases hnests.2
        | cons outer g =>
            have houter : CallStack.natives [outer.call] = [outer.call] :=
              List.filter_cons_of_pos hnests.2
            rw [natives_cons, houter, List.length_append, List.length_singleton]
            omega
      case isFalse hnot =>
        rw [Bool.not_eq_true] at hnot
        rw [hnot, Bool.false_or] at h
        have := ih h
        omega

/-- A trace that is not cut off has all frames that were expected. -/
theorem frames_of_not_truncated {depth : Nat}
    (h : (expectedTrace c depth g).truncated = false) :
    (expectedTrace c depth g).frames = g.flatMap (frames c) :=
  List.take_of_length_le (Nat.le_of_not_lt (of_decide_eq_false h))

/-- Such a trace, of what a walk reaches, is complete unless a native was called by another. -/
theorem natives_of_not_truncated {depth : Nat}
    (h : (expectedTrace c depth (reached g)).truncated = false) :
    (CallStack.nestsNatives (g.map call) = false →
      (expectedTrace c depth (reached g)).natives =
          (CallStack.natives (g.map call)).map c.nativeFrame ∧
        (expectedTrace c depth (reached g)).frames = g.flatMap (frames c)) ∧
    (CallStack.nestsNatives (g.map call) = true →
      (expectedTrace c depth (reached g)).natives.length <
        (CallStack.natives (g.map call)).length) := by
  rw [StackTrace.natives, frames_of_not_truncated h, filter_isNative_flatMap, List.length_map]
  refine ⟨fun hnot => ?_, length_natives_reached⟩
  rw [reached_eq_self hnot]
  exact ⟨rfl, rfl⟩

end LiveCall

/-- How much a trace shows, that was taken while the calls `calls` were tracked and `g` in flight:
what a walk reaches. If it is not cut off, it has a frame for every native and every function in
flight where no native was called by a native, and lacks natives where one was. -/
structure ShowsReached (c : TraceContext) (depth : Nat) (g : List LiveCall) (calls : CallStack)
    (trace : StackTrace) : Prop where
  tracked : g.map call = calls
  reached : trace = expectedTrace c depth (reached g)
  complete : trace.truncated = false → calls.nestsNatives = false →
    trace.natives = calls.natives.map c.nativeFrame ∧ trace.frames = g.flatMap (frames c)
  incomplete : trace.truncated = false → calls.nestsNatives = true →
    trace.natives.length < calls.natives.length

/-- **A trace misses natives exactly where one was called by another.** A detector is attached to a
machine, and the host calls a public of it while none of its calls is in flight. While the public
runs, and as long as no error was caught, each trace shows what a walk reaches of the calls that the
detector tracks. -/
theorem traces_miss_nested_natives {w₀ w : World} (hw₀ : w₀.Fresh) (hmoves : Moves w₀ w)
    {d id : Nat}
    {m : Machine} {det : Detector} {i : Instance} {a : Activation}
    (hm : w.machines[a.vm]? = some m) (hdet : w.detectors[d]? = some det)
    (hreg : det.registry.find? m.handle = some id) (hi : det.registry.instance? id = some i)
    (hidle : i.calls = []) (hslots : m.slots.areWatched d id = true)
    (hbodies : m.isOrderly d false = true) (hstk : m.registers.stk.toNat ≤ m.memory.size)
    (hfrm : m.registers.frm = 0 ∨ m.registers.stk ≤ m.registers.frm) (fuel : Nat) (index : Cell) :
    ∃ es, ((Run.callPublic (Run.runWith fuel) a index).after w).journal = es ++ w.journal ∧
      ∀ later e earlier t, es = later ++ e :: earlier → e.trace? d = some t →
        wellFramed d id a.vm earlier = true → earlier.any Event.isCatch = false →
          ∃ trace, t = some trace ∧
            ShowsReached (det.context m.view i) det.settings.maxTraceDepth
              (liveCalls d id a.vm earlier) (callsOf d id (openCalls (earlier ++ w.journal)))
              trace := by
  let W : Watch := ⟨d, id, a.vm, m, det, i, w.journal, false⟩
  have hW : W.WellPlaced := ⟨hstk, hfrm.imp_right fun h => UInt32.le_iff_toNat_le.mp h⟩
  have hon : W.On [] w := Watch.on_of_idle (W := W) hm hdet hreg hi hidle rfl
  obtain ⟨es, hes, hshow⟩ := Watch.tracesShow_callPublic ⟨hslots, hbodies⟩ hW hon rfl fuel index
  have hnone : callsOf d id (openCalls w.journal) = [] :=
    ((hmoves.tracked hw₀.tracked).calls d det.registry id i (World.registryAt?_of_some hdet)
      hi).symm.trans hidle
  refine ⟨es, hes, fun later e earlier t heq ht hframed hcaught => ?_⟩
  obtain ⟨htrace, hopens⟩ := hshow later e earlier t heq ht hframed fun _ => hcaught
  have hcalls : (liveCalls d id a.vm earlier).map call =
      callsOf d id (openCalls (earlier ++ w.journal)) := by
    have h := hopens.symm
    rwa [show callsOf W.d W.id (openCalls W.journal) = [] from hnone, List.append_nil] at h
  refine ⟨_, htrace, hcalls, rfl, ?_, ?_⟩
  · rw [← hcalls]
    exact fun hwhole => (natives_of_not_truncated hwhole).1
  · rw [← hcalls]
    exact fun hwhole => (natives_of_not_truncated hwhole).2

/-- A host whose public calls a native that calls another one, which takes a trace. -/
def nestedHost : World where
  machines := [{ Machine.ofSize ⟨1⟩ 64 with
    natives := [
      { name := "A", function := some { address := 0x70000000, body := [.native 1 []] } },
      { name := "B", function := some { address := 0x70000100, body := [.probe 0, .trace 0] } }]
    publics := [{ name := "Main", address := 64, body := [.setCip 72, .native 0 []] }] }]
  detectors := [{}]

def nestedHostAttached : World :=
  (Session.performAll 8 [.attach 0 0] nestedHost).2

/-- The journal after the public of the nested host. -/
def nestedHostJournal : List Event :=
  ((Run.callPublic (Run.runWith 8) { vm := 0 } 0).after nestedHostAttached).journal

/-- The events of the public before the trace. -/
def nestedHostEarlier : List Event :=
  (nestedHostJournal.drop 5).take 9

theorem nestedHostJournal_eq : ∃ later e trace,
    nestedHostJournal = (later ++ e :: nestedHostEarlier) ++ nestedHostAttached.journal ∧
      e.trace? 0 = some (some trace) ∧ trace.truncated = false ∧ trace.natives.length = 1 := by
  have hany : (nestedHostJournal[4]?.any fun e => (e.trace? 0).any fun t => t.any fun trace =>
      !trace.truncated && decide (trace.natives.length = 1)) = true := by
    decide +kernel
  obtain ⟨e, he, hany⟩ := (Option.any_eq_true _ _).mp hany
  obtain ⟨t, ht, hany⟩ := (Option.any_eq_true _ _).mp hany
  obtain ⟨trace, rfl, htrace⟩ := (Option.any_eq_true _ _).mp hany
  rw [Bool.and_eq_true, Bool.not_eq_true', decide_eq_true_eq] at htrace
  refine ⟨nestedHostJournal.take 4, e, trace, ?_, ht, htrace⟩
  obtain ⟨hlt, heq⟩ := List.getElem?_eq_some_iff.mp he
  have hearlier : nestedHostJournal.drop 5 = nestedHostEarlier ++ nestedHostAttached.journal := by
    decide +kernel
  rw [List.append_assoc, List.cons_append, ← hearlier, ← heq, ← List.drop_eq_getElem_cons hlt,
    List.take_append_drop]

/-- The trace that the inner native of the nested host takes is not cut off, and has one native; two
natives are tracked. -/
theorem nestedHost_trace_lacks_native : ∃ later e trace,
    nestedHostJournal = (later ++ e :: nestedHostEarlier) ++ nestedHostAttached.journal ∧
      e.trace? 0 = some (some trace) ∧ trace.truncated = false ∧ trace.natives.length = 1 ∧
      wellFramed 0 0 0 nestedHostEarlier = true ∧ nestedHostEarlier.any Event.isCatch = false ∧
      (callsOf 0 0 (openCalls (nestedHostEarlier ++ nestedHostAttached.journal))).natives.length =
        2 := by
  obtain ⟨later, e, trace, heq, ht, hwhole, hone⟩ := nestedHostJournal_eq
  have htwo : (CallStack.natives (callsOf 0 0
      (openCalls (nestedHostEarlier ++ nestedHostAttached.journal)))).length = 2 := by
    decide +kernel
  exact ⟨later, e, trace, heq, ht, hwhole, hone, by decide +kernel, by decide +kernel, htwo⟩

theorem nestedHost_fresh : nestedHost.Fresh :=
  World.fresh_of_arePlain rfl (by simp [nestedHost]) rfl

/-- All that is assumed holds of the nested host, and its trace shows what a walk reaches. -/
theorem nestedHost_trace_shows_reached :
    let w := nestedHostAttached
    ∃ m det i later e trace, nestedHost.Fresh ∧ Moves nestedHost w ∧ w.machines[0]? = some m ∧
      w.detectors[0]? = some det ∧ det.registry.find? m.handle = some 0 ∧
      det.registry.instance? 0 = some i ∧ i.calls = [] ∧ m.slots.areWatched 0 0 = true ∧
      m.isOrderly 0 false = true ∧ m.registers.stk.toNat ≤ m.memory.size ∧
      (m.registers.frm = 0 ∨ m.registers.stk ≤ m.registers.frm) ∧
      nestedHostJournal = (later ++ e :: nestedHostEarlier) ++ w.journal ∧
      e.trace? 0 = some (some trace) ∧ wellFramed 0 0 0 nestedHostEarlier = true ∧
      nestedHostEarlier.any Event.isCatch = false ∧ trace.truncated = false ∧
      CallStack.nestsNatives (callsOf 0 0 (openCalls (nestedHostEarlier ++ w.journal))) = true ∧
      ShowsReached (det.context m.view i) det.settings.maxTraceDepth
        (liveCalls 0 0 0 nestedHostEarlier)
        (callsOf 0 0 (openCalls (nestedHostEarlier ++ w.journal))) trace := by
  intro w
  have hmoves : Moves nestedHost w :=
    (balancedDeeds_performAll 8 [.attach 0 0] nestedHost_fresh.valid).moves
  obtain ⟨m, det, i, hm, hdet, hreg, hi, hidle, hslots, hbodies, hstk, hfrm⟩ :=
    w.exists_of_isWatchable 0 0 0 (fun m => m.isOrderly 0 false) (by decide +kernel)
  obtain ⟨es, hes, hshow⟩ := traces_miss_nested_natives nestedHost_fresh hmoves (a := { vm := 0 })
    hm hdet hreg hi hidle hslots hbodies hstk hfrm 8 0
  obtain ⟨later, e, trace, heq, ht, hwhole, -⟩ := nestedHostJournal_eq
  have hframed : wellFramed 0 0 0 nestedHostEarlier = true := by decide +kernel
  have hcaught : nestedHostEarlier.any Event.isCatch = false := by decide +kernel
  have hnests : CallStack.nestsNatives
      (callsOf 0 0 (openCalls (nestedHostEarlier ++ w.journal))) = true := by
    decide +kernel
  obtain ⟨trace', htrace', hreached⟩ :=
    hshow later e nestedHostEarlier _ (List.append_cancel_right (hes.symm.trans heq)) ht hframed
      hcaught
  obtain rfl := Option.some.inj htrace'
  exact ⟨m, det, i, later, e, trace, nestedHost_fresh, hmoves, hm, hdet, hreg, hi, hidle, hslots,
    hbodies, hstk, hfrm, heq, ht, hframed, hcaught, hwhole, hnests, hreached⟩

end ScriptDiag
