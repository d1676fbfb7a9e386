import ScriptDiag.Proofs.Latch
import ScriptDiag.Proofs.WalkFrames

/-!
# Watching a machine

A `Watch` is a machine with the detector attached to it, at the moment when the host calls a public.
From then on `Watch.Inv` holds at every moment: the detector keeps the calls in flight that the
journal tells of, the functions in flight have their frames in the machine's memory, and every trace
taken so far shows what was in flight then, as far as a walk reaches. In a strict watch natives are
called by scripts only, and a walk reaches all that is in flight. The lemmas here say what keeps it
so: an event that is no trace, a change to the detector or to the machine, a call that is entered or
leaves, and a trace taken while the machine is where the calls in flight are (`Inv.trace_eq`).
-/

namespace ScriptDiag

open Act LiveCall

/-! ## What traces are made of -/

/-- What a detector looks things up in when it traces a machine. -/
def Detector.context (det : Detector) (vm : VmView) (i : Instance) : TraceContext where
  vm
  debug := i.debug
  symbols := det.symbols
  code := det.code
  abi := det.abi
  maxHops := det.settings.maxTrampolineHops

theorem Detector.trace_eq (det : Detector) (vm : VmView) (i : Instance) :
    det.trace vm i = (det.context vm i).trace det.settings.maxTraceDepth i.calls := rfl

/-- Two detectors that look things up in the same. -/
structure Detector.SameSources (det det' : Detector) : Prop where
  settings : det'.settings = det.settings
  symbols : det'.symbols = det.symbols
  code : det'.code = det.code
  abi : det'.abi = det.abi

theorem Detector.SameSources.refl (det : Detector) : det.SameSources det :=
  ⟨rfl, rfl, rfl, rfl⟩

/-- A change to a detector that leaves its sources, its instances and the calls on them as they are,
and which of them are registered. -/
structure Detector.IsMild (f : Detector → Detector) : Prop where
  sources : ∀ det : Detector, det.SameSources (f det)
  registered : ∀ det, (f det).registry.registered = det.registry.registered
  instances : ∀ det, (f det).registry.instances = det.registry.instances

/-- Frames are made of the tables of the module and of what is looked up, and not of what changes
while scripts run. -/
theorem LiveCall.frames_context {det det' : Detector} {m m' : Machine} {i i' : Instance}
    (hdet : det.SameSources det') (hm : m.SameModule m') (hi : i'.debug = i.debug)
    (live : LiveCall) :
    frames (det'.context m'.view i') live = frames (det.context m.view i) live := by
  have hnatives : m'.view.natives = m.view.natives := by
    rw [Machine.view, Machine.view, hm.natives]
  have hpublics : m'.view.publics = m.view.publics := by
    rw [Machine.view, Machine.view, hm.publics]
  have hscript : (det'.context m'.view i').scriptFrame = (det.context m.view i).scriptFrame := by
    funext address
    rw [TraceContext.scriptFrame, TraceContext.scriptFrame, Detector.context, Detector.context, hi]
  have hnative : (det'.context m'.view i').nativeFrame live.call =
      (det.context m.view i).nativeFrame live.call := by
    simp only [TraceContext.nativeFrame, Detector.context, VmView.native?, hnatives, hdet.symbols,
      hdet.code, hdet.abi, hdet.settings]
  have hpublic : (det'.context m'.view i').publicFrame live.call =
      (det.context m.view i).publicFrame live.call := by
    rw [TraceContext.publicFrame, TraceContext.publicFrame, hscript]
    simp only [Detector.context, VmView.public?, hpublics]
  rw [frames, frames, hscript, hnative, hpublic]

/-! ## What the journal tells -/

theorem World.Admits.liveCalls {w w₁ : World} {d id : Nat} {call : CallRecord}
    (h : w.Admits d id call w₁) (vm : Nat) :
    liveCalls d id vm w₁.journal = ⟨call, []⟩ :: liveCalls d id vm w.journal := by
  rcases h.journal with hj | hj <;> rw [hj] <;> exact if_pos ⟨rfl, rfl⟩

/-- What is done as a call is done with the call in flight in `liveCalls`, and the machine at the
place where it was made. Natives and publics behind an interceptor are (`dispatch_interceptor`,
`exec_interceptor`). -/
theorem RunsAsCall.liveCalls {α : Type} {w : World} {d id vm : Nat} {m : Machine} {kind : CallKind}
    {index : Cell} {x body : Act α} (h : RunsAsCall d id vm kind index x body)
    (hm : w.machines[vm]? = some m) (hid : w.HasInstance d id) :
    ∃ live w₁, liveCalls d id vm w₁.journal = live :: liveCalls d id vm w.journal ∧
      live.call.kind = kind ∧ live.call.index = index ∧
      live.place = ⟨m.registers.frm, m.registers.cip⟩ ∧ w₁.machines[vm]? = some m ∧
      x w = ensuring body (leaveCall d id live.call.seq) w₁ := by
  obtain ⟨seq, w₁, hadmits, happly⟩ := h w m hm hid
  exact ⟨_, w₁, hadmits.liveCalls vm, rfl, rfl, rfl, hadmits.machine hm, happly⟩

/-! ## The invariant -/

/-- A machine that a detector is attached to, at the moment when the host calls a public. If the
watch is `strict`, natives are called by scripts only, and no error is caught. -/
structure Watch where
  d : Nat
  id : Nat
  vm : Nat
  machine : Machine
  detector : Detector
  inst : Instance
  journal : List Event
  strict : Bool

namespace Watch

variable {W : Watch} {w w' : World} {g g' : List LiveCall} {m m' : Machine}

/-- What traces are made of. -/
def context (W : Watch) : TraceContext :=
  W.detector.context W.machine.view W.inst

/-- What a trace shows of the calls in flight. -/
def shown (W : Watch) (g : List LiveCall) : List LiveCall :=
  if W.strict then g else reached g

/-- The trace taken while `g` are in flight. -/
def expected (W : Watch) (g : List LiveCall) : StackTrace :=
  expectedTrace W.context W.detector.settings.maxTraceDepth (W.shown g)

/-- The calls in flight on the instance are `g`, and those from before the watch. -/
def Opens (W : Watch) (g : List LiveCall) (past : List Event) : Prop :=
  callsOf W.d W.id (openCalls past) = g.map call ++ callsOf W.d W.id (openCalls W.journal)

/-- A trace taken after some events is as expected, if the frames are in order and no error was
caught. -/
def Shows (W : Watch) (es : List Event) (t : Option StackTrace) : Prop :=
  wellFramed W.d W.id W.vm es = true → (W.strict = false → es.any Event.isCatch = false) →
    t = some (W.expected (liveCalls W.d W.id W.vm es)) ∧
      W.Opens (liveCalls W.d W.id W.vm es) (es ++ W.journal)

/-- The place at which the host calls the public. -/
def start (W : Watch) : Place :=
  ⟨W.machine.registers.frm, W.machine.registers.cip⟩

/-- Below this address the frames of the functions in flight are made. -/
def bound (W : Watch) : Nat :=
  W.machine.registers.stk.toNat

theorem bound_lt (W : Watch) : W.bound < UInt32.size :=
  UInt32.toNat_lt _

/-- The machine's stack lies in its data memory, and below the frame that the machine is in. -/
structure WellPlaced (W : Watch) : Prop where
  stk : W.bound ≤ W.machine.memory.size
  frm : W.start.frm = 0 ∨ W.bound ≤ W.start.frm.toNat

/-- Whether the machine is where the calls in flight are. -/
def Settled (W : Watch) (g : List LiveCall) (m : Machine) : Prop :=
  AtPlace W.start W.bound g m.registers

/-- The machine has the frames of the functions in flight. -/
structure HasFrames (W : Watch) (g : List LiveCall) (m : Machine) : Prop where
  same : W.machine.SameModule m
  size : m.memory.size = W.machine.memory.size
  linked : Linked m.memory W.start W.bound g

/-- The detector keeps the calls in flight. -/
def Tracks (W : Watch) (g : List LiveCall) (w : World) : Prop :=
  ∃ det i, w.detectors[W.d]? = some det ∧ W.detector.SameSources det ∧
    det.registry.find? W.machine.handle = some W.id ∧ det.registry.instance? W.id = some i ∧
      i.debug = W.inst.debug ∧ i.calls = g.map LiveCall.call

/-- The journal tells what is in flight, and all traces in it are as expected. -/
def Tells (W : Watch) (g : List LiveCall) (w : World) : Prop :=
  ∃ es, w.journal = es ++ W.journal ∧ liveCalls W.d W.id W.vm es = g ∧ W.Opens g w.journal ∧
    TracesShow W.d W.Shows es

/-- Memory, detector and journal agree about what is in flight. -/
structure Inv (W : Watch) (g : List LiveCall) (m : Machine) (w : World) : Prop where
  machine : w.machines[W.vm]? = some m
  frames : W.HasFrames g m
  tracks : W.Tracks g w
  tells : W.Tells g w
  alternates : W.strict = true → CallStack.nestsNatives (g.map call) = false

/-! ## Events -/

theorem map_call_onTop (f : List Place → List Place) (g : List LiveCall) :
    (onTop f g).map call = g.map call := by
  cases g <;> rfl

/-- No call leaves, or the innermost one. -/
def Leaves (W : Watch) (g : List LiveCall) (e : Event) : Prop :=
  e.isLeft = false ∨ ∃ live g', g = live :: g' ∧ e = .left W.d W.id live.call.seq

/-- The calls in flight change as the journal tells. -/
theorem Opens.change {past : List Event} (h : W.Opens g past) {e : Event} (he : W.Leaves g e) :
    W.Opens (e.change W.d W.id W.vm g) (e :: past) := by
  cases e with
  | entered d' id' call =>
      rw [Event.change, Opens, openCalls]
      split
      case isTrue heq =>
        obtain ⟨rfl, rfl⟩ := heq
        rw [callsOf_cons_self, h]
        rfl
      case isFalse hne =>
        rw [callsOf_cons_of_ne fun hd hid => hne ⟨hd, hid⟩]
        exact h
  | left d' id' seq =>
      rcases he with he | ⟨live, g', rfl, heq⟩
      · cases he
      · cases heq
        rw [Event.change, Opens, openCalls, if_pos ⟨rfl, rfl⟩, callsOf_eraseP, h,
          List.dropWhile_cons_of_neg (by simp), List.map_cons, List.cons_append,
          List.eraseP_cons_of_pos (by simp), List.tail_cons]
  | called | returned | moved =>
      rw [Event.change, Opens]
      split
      · rw [map_call_onTop]
        exact h
      · exact h
  | _ => exact h

theorem Tells.record (h : W.Tells g w) {e : Event} (hchange : e.change W.d W.id W.vm g = g')
    (htrace : ∀ t, e.trace? W.d = some t → Framed g → t = some (W.expected g))
    (hleaves : W.Leaves g e) : W.Tells g' (w.record e) := by
  obtain ⟨es, hes, hlive, hopens, hshow⟩ := h
  refine ⟨e :: es, congrArg (e :: ·) hes, ?_, ?_, hshow.cons fun t ht hframed _ => ?_⟩
  · rw [liveCalls, hlive, hchange]
  · rw [← hchange]
    exact hopens.change hleaves
  · have hframed := framed_liveCalls hframed
    rw [hlive] at hframed ⊢
    exact ⟨htrace t ht hframed, hes ▸ hopens⟩

theorem Tells.plain (h : W.Tells g w) {e : Event} (he : e.isPlain = true) :
    W.Tells g (w.record e) := by
  refine h.record (e.change_of_isPlain he W.d W.id W.vm g) (fun t ht => ?_) (.inl ?_)
  · rw [e.trace?_of_isPlain he] at ht
    cases ht
  · cases e <;> first | rfl | cases he

theorem Inv.plain (h : W.Inv g m w) {e : Event} (he : e.isPlain = true) :
    W.Inv g m (w.record e) :=
  ⟨h.machine, h.frames, h.tracks, h.tells.plain he, h.alternates⟩

theorem Inv.logAll (h : W.Inv g m w) (lines : List LogLine) : W.Inv g m (w.logAll lines) := by
  rw [← after_of_ok (forM_log_apply lines w)]
  induction lines generalizing w with
  | nil => exact h
  | cons line lines ih => exact ih (h.plain rfl)

/-- A trace that is as expected is taken. -/
theorem Inv.taken (h : W.Inv g m w) {e : Event} (hchange : ∀ g, e.change W.d W.id W.vm g = g)
    (htrace : ∀ t, e.trace? W.d = some t → Framed g → t = some (W.expected g))
    (hleft : e.isLeft = false) : W.Inv g m (w.record e) :=
  ⟨h.machine, h.frames, h.tracks, h.tells.record (hchange g) htrace (.inl hleft),
    h.alternates⟩

/-! ## Changes to the detector -/

theorem Tracks.modifyDetector (h : W.Tracks g w) {f : Detector → Detector}
    (hf : Detector.IsMild f) : W.Tracks g (w.modifyDetector W.d f) := by
  obtain ⟨det, i, hdet, hs, hreg, hi, hdebug, hcalls⟩ := h
  have hs' := hf.sources det
  refine ⟨f det, i, ?_, ?_, ?_, ?_, hdebug, hcalls⟩
  · rw [World.getElem?_modifyDetector, if_pos rfl, hdet]
    rfl
  · exact ⟨hs'.settings.trans hs.settings, hs'.symbols.trans hs.symbols, hs'.code.trans hs.code,
      hs'.abi.trans hs.abi⟩
  · rw [Registry.find?, hf.registered]
    exact hreg
  · rw [Registry.instance?, hf.instances]
    exact hi

theorem Inv.modifyDetector (h : W.Inv g m w) {f : Detector → Detector}
    (hf : Detector.IsMild f) : W.Inv g m (w.modifyDetector W.d f) :=
  ⟨h.machine, h.frames, h.tracks.modifyDetector hf, h.tells, h.alternates⟩

theorem Inv.setLatch (h : W.Inv g m w) (armed : Bool) :
    W.Inv g m (w.modifyRegistry W.d fun r => { r with latchArmed := armed }) :=
  h.modifyDetector ⟨fun _ => ⟨rfl, rfl, rfl, rfl⟩, fun _ => rfl, fun _ => rfl⟩

theorem Inv.arm (h : W.Inv g m w) : W.Inv g m (w.arm W.d) :=
  (h.setLatch true).plain rfl

theorem Inv.clearIfIdle (h : W.Inv g m w) : W.Inv g m (w.clearIfIdle W.d) := by
  rw [World.clearIfIdle]
  split
  · exact (h.setLatch false).plain rfl
  · exact h

theorem Inv.endProcess (h : W.Inv g m w) (kind : FailureKind) (pending : Nat) :
    W.Inv g m (w.endProcess W.d kind pending) := by
  have h : W.Inv g m (w.modifyDetector W.d fun det => { det with terminating := true }) :=
    h.modifyDetector ⟨fun _ => ⟨rfl, rfl, rfl, rfl⟩, fun _ => rfl, fun _ => rfl⟩
  exact h.plain rfl

theorem Inv.setInterrupt (h : W.Inv g m w) (pending : Bool) :
    W.Inv g m (w.setInterrupt W.d pending) := by
  have h : W.Inv g m (w.modifyDetector W.d fun det => { det with interruptPending := pending }) :=
    h.modifyDetector ⟨fun _ => ⟨rfl, rfl, rfl, rfl⟩, fun _ => rfl, fun _ => rfl⟩
  rw [World.setInterrupt]
  cases pending <;> exact h.plain rfl

/-! ## Traces -/

/-- A trace that can be taken: of a machine in a native, or where the calls in flight are, if the
stack lies in its data memory. -/
structure Traceable (W : Watch) (g : List LiveCall) (m : Machine) : Prop where
  some : g ≠ []
  place : RunsNative g ∨ W.Settled g m

theorem Inv.shown_eq (h : W.Inv g m w) : reached g = W.shown g := by
  rw [Watch.shown]
  split
  case isTrue hstrict => exact reached_eq_self (h.alternates hstrict)
  case isFalse => rfl

theorem Inv.trace_eq (h : W.Inv g m w) (hW : W.WellPlaced)
    (ht : W.Traceable g m) (hframed : Framed g) {det : Detector} {i : Instance}
    (hdet : w.detectors[W.d]? = some det) (hi : det.registry.instance? W.id = some i) :
    det.trace m.view i = W.expected g := by
  obtain ⟨det', i', hdet', hs, -, hi', hdebug, hcalls⟩ := h.tracks
  obtain rfl := Option.some.inj (hdet.symm.trans hdet')
  obtain rfl := Option.some.inj (hi.symm.trans hi')
  rw [Detector.trace_eq, hcalls, trace_eq_expected (c := det.context m.view i) rfl hW.frm W.bound_lt
    h.frames.linked hframed ht.some ht.place, h.shown_eq, Watch.expected, hs.settings,
    expectedTrace, expectedTrace]
  have hframes : LiveCall.frames (det.context m.view i) = LiveCall.frames W.context :=
    funext fun live => frames_context hs h.frames.same hdebug live
  rw [hframes]

/-- The report of such a trace is sent. -/
theorem Inv.send (h : W.Inv g m w) (hW : W.WellPlaced)
    (ht : W.Traceable g m) {det : Detector} {i : Instance} (hdet : w.detectors[W.d]? = some det)
    (hi : det.registry.instance? W.id = some i) (kind : FailureKind) (headline : String)
    {w₁ : World} (h₁ : W.Inv g m w₁) {det₁ : Detector} :
    W.Inv g m (w₁.send W.d det₁ (det.reportOn m i kind headline)) := by
  have hsink : W.Inv g m (w₁.modifyDetector W.d fun det' =>
      { det' with sink := (det₁.sink.emit (det.reportOn m i kind headline)).1 }) :=
    h₁.modifyDetector ⟨fun _ => ⟨rfl, rfl, rfl, rfl⟩, fun _ => rfl, fun _ => rfl⟩
  refine Inv.logAll (hsink.taken (fun _ => rfl) (fun t htrace hframed => ?_)
    rfl) _
  rw [Event.trace?, if_pos rfl] at htrace
  obtain rfl := Option.some.inj htrace
  exact congrArg some (h.trace_eq hW ht hframed hdet hi)

/-! ## Failures -/

variable {det : Detector} {i : Instance}

/-- What a detector does about a failure keeps the invariant, and leaves the latch armed; it takes a
trace only where the latch was clear. -/
theorem Inv.reportFailure (h : W.Inv g m w) (hW : W.WellPlaced)
    (ht : W.Traceable g m) (hdet : w.detectors[W.d]? = some det)
    (hi : det.registry.instance? W.id = some i) (f : Failure) :
    W.Inv g m (w.reportFailure W.d W.id W.vm det m i f) :=
  h.send hW ht hdet hi f.kind (f.headline m.view) (h.plain (e := .failed W.d W.id W.vm f) rfl).arm

theorem Inv.onNativeFault (h : W.Inv g m w) (hW : W.WellPlaced)
    (ht : W.Traceable g m) (index : Cell) (fault : NativeFault) :
    ∃ a w', onNativeFault W.d W.id W.vm index fault w = .ok a w' ∧ W.Inv g m w' ∧
      w'.latchArmed W.d = true := by
  obtain ⟨det, i, hdet, -, -, hi, -, -⟩ := h.tracks
  cases ha : det.registry.latchArmed with
  | true =>
      refine ⟨_, _, onNativeFault_of_armed hdet ha index fault, h.plain rfl, ?_⟩
      exact (World.latchArmed_of_some (w := w.record _) hdet).trans ha
  | false =>
      refine ⟨_, _, onNativeFault_of_clear hdet ha h.machine hi index fault,
        h.reportFailure hW ht hdet hi _, ?_⟩
      exact World.latchArmed_of_some (World.detectors_reportFailure hdet W.id W.vm m i _)

theorem Inv.onRuntimeError (h : W.Inv g m w)
    (hW : W.WellPlaced) (index : Cell) (e : VmError)
    (ht : isHarmless index e = false → w.latchArmed W.d = true ∨ W.Traceable g m) :
    ∃ a w', onRuntimeError W.d W.id W.vm index e w = .ok a w' ∧ W.Inv g m w' ∧
      (isHarmless index e = false → w'.latchArmed W.d = true) := by
  obtain ⟨det, i, hdet, -, -, hi, -, -⟩ := h.tracks
  cases hh : isHarmless index e with
  | true => exact ⟨_, _, onRuntimeError_of_harmless hh w, h, fun h => Bool.noConfusion h⟩
  | false =>
      cases ha : det.registry.latchArmed with
      | true =>
          obtain ⟨line, hok⟩ := onRuntimeError_of_armed hh hdet ha W.id W.vm
          refine ⟨_, _, hok, (h.plain rfl).plain rfl, fun _ => ?_⟩
          exact (World.latchArmed_of_some (w := (w.record _).record _) hdet).trans ha
      | false =>
          -- the latch is clear, so this is the first failure, and its trace can be taken
          have ht : W.Traceable g m := by
            rcases ht hh with harmed | ht
            · rw [World.latchArmed_of_some hdet, ha] at harmed
              cases harmed
            · exact ht
          have hok := onRuntimeError_of_clear hh hdet ha h.machine hi
          have hinv := h.reportFailure hW ht hdet hi (.runtime index e)
          have harmed : (w.reportFailure W.d W.id W.vm det m i (.runtime index e)).latchArmed W.d =
              true := World.latchArmed_of_some (World.detectors_reportFailure hdet W.id W.vm m i _)
          split at hok
          · refine ⟨_, _, hok, hinv.endProcess _ _, fun _ => ?_⟩
            rw [World.latchArmed, World.registryAt?_endProcess]
            exact harmed
          · exact ⟨_, _, hok, hinv, fun _ => harmed⟩

theorem Inv.onInterrupt (h : W.Inv g m w) (hW : W.WellPlaced)
    (ht : W.Traceable g m) :
    ∃ a w', onInterrupt W.d W.id W.vm w = .ok a w' ∧ W.Inv g m w' := by
  obtain ⟨det, i, hdet, -, -, hi, -, -⟩ := h.tracks
  cases ha : det.registry.latchArmed with
  | true => exact ⟨_, _, onInterrupt_of_armed hdet ha, h⟩
  | false =>
      exact ⟨_, _, onInterrupt_of_clear hdet ha h.machine hi,
        h.send hW ht hdet hi .interrupt "Interrupt requested" h⟩

/-! ## Calls -/

theorem Tracks.enter (h : W.Tracks g w) (call : CallRecord) :
    W.Tracks (⟨call, []⟩ :: g) (w.enter W.d W.id call) := by
  obtain ⟨det, i, hdet, hs, hreg, hi, hdebug, hcalls⟩ := h
  refine ⟨{ det with registry := det.registry.nextSeq.2.enterCall W.id call },
    { i with calls := i.calls.enter call }, ?_, ⟨hs.settings, hs.symbols, hs.code, hs.abi⟩, hreg,
    ?_, hdebug, ?_⟩
  · rw [World.enter, World.detectors_record, World.getElem?_modifyRegistry, if_pos rfl, hdet]
    rfl
  · have hi : det.registry.instances[W.id]? = some i := hi
    show (det.registry.instances.modify W.id _)[W.id]? = _
    rw [List.getElem?_modify, hi]
    simp
  · rw [CallStack.enter, hcalls, List.map_cons]

theorem Tracks.hasInstance (h : W.Tracks g w) : w.HasInstance W.d W.id := by
  obtain ⟨det, i, hdet, -, -, hi, -⟩ := h
  exact ⟨det.registry, World.registryAt?_of_some hdet, (List.getElem?_eq_some_iff.mp hi).1⟩

/-- A call is entered, a native only where a script function runs, or a native that runs for one. -/
theorem Inv.enter {call : CallRecord} (h : W.Inv g m w) (hat : W.Settled g m)
    (horigin : LiveCall.origin ⟨call, []⟩ = ⟨m.registers.frm, m.registers.cip⟩)
    (hnative : call.kind = .toNative → Hosted g ∧
      (W.strict = true → CallStack.inNative (g.map LiveCall.call) = false)) :
    W.Inv (⟨call, []⟩ :: g) m (w.enter W.d W.id call) ∧ W.Settled (⟨call, []⟩ :: g) m := by
  have hplace : LiveCall.origin ⟨call, []⟩ = placeOf W.start g := by
    rw [horigin, hat.frm, hat.cip]
  refine ⟨⟨h.machine, ⟨h.frames.same, h.frames.size, ?_⟩, h.tracks.enter _, ?_, fun hstrict => ?_⟩,
    congrArg Place.frm horigin.symm, congrArg Place.cip horigin.symm, hat.stk⟩
  · exact ⟨hplace, fun hk => ⟨rfl, (hnative hk).1⟩, trivial, h.frames.linked⟩
  · exact Tells.record (w := w.modifyRegistry W.d _) h.tells (if_pos ⟨rfl, rfl⟩)
      (fun t ht => by cases ht) (.inl rfl)
  · rw [List.map_cons, CallStack.nestsNatives, h.alternates hstrict, Bool.or_false]
    cases hkind : call.kind with
    | toNative => exact (hnative hkind).2 hstrict
    | toPublic => rfl

/-- Behind its interceptor the machine is settled again, with the call in flight. -/
theorem Inv.admits {w₁ : World} {call : CallRecord} (h : W.Inv g m w) (hat : W.Settled g m)
    (hadmits : w.Admits W.d W.id call w₁)
    (horigin : LiveCall.origin ⟨call, []⟩ = ⟨m.registers.frm, m.registers.cip⟩)
    (hnative : call.kind = .toNative → Hosted g ∧
      (W.strict = true → CallStack.inNative (g.map LiveCall.call) = false)) :
    W.Inv (⟨call, []⟩ :: g) m w₁ ∧ W.Settled (⟨call, []⟩ :: g) m := by
  rcases hadmits.entered with rfl | rfl
  · exact h.enter hat horigin hnative
  · exact h.clearIfIdle.enter hat horigin hnative

theorem Tracks.leave {live : LiveCall} (h : W.Tracks (live :: g) w) :
    W.Tracks g (leaveCall W.d W.id live.call.seq w) := by
  obtain ⟨det, i, hdet, hs, hreg, hi, hdebug, hcalls⟩ := h
  refine ⟨{ det with registry := det.registry.leaveCall W.id live.call.seq },
    { i with calls := i.calls.leave live.call.seq }, ?_, ⟨hs.settings, hs.symbols, hs.code, hs.abi⟩,
    hreg, ?_, hdebug, ?_⟩
  · rw [leaveCall_eq, World.detectors_record, World.getElem?_modifyRegistry, if_pos rfl,
      World.detectors_logAll, hdet]
    rfl
  · have hi : det.registry.instances[W.id]? = some i := hi
    show (det.registry.instances.modify W.id _)[W.id]? = _
    rw [List.getElem?_modify, hi]
    simp
  · rw [hcalls, List.map_cons]
    exact CallStack.leave_enter (g.map LiveCall.call) live.call

theorem Inv.leave {live : LiveCall} (h : W.Inv (live :: g) m w) :
    W.Inv g m (leaveCall W.d W.id live.call.seq w) := by
  have hchange : Event.change W.d W.id W.vm (live :: g) (.left W.d W.id live.call.seq) = g := by
    rw [Event.change, if_pos ⟨rfl, rfl⟩, List.dropWhile_cons_of_neg (by simp), List.tail_cons]
  refine ⟨?_, ⟨h.frames.same, h.frames.size, h.frames.linked.2.2.2⟩, h.tracks.leave, ?_,
    fun hstrict => (Bool.or_eq_false_iff.mp (h.alternates hstrict)).2⟩
  · rw [machines_leaveCall]
    exact h.machine
  · rw [leaveCall_eq]
    have hlogged := (h.logAll (w.leaveLog W.d W.id live.call.seq)).tells
    exact Tells.record (w := (w.logAll _).modifyRegistry W.d _) hlogged hchange
      (fun t ht => by cases ht) (.inr ⟨live, g, rfl, rfl⟩)

theorem latchArmed_leaveCall (d id seq d' : Nat) (w : World) :
    (leaveCall d id seq w).latchArmed d' = w.latchArmed d' :=
  World.latchArmed_of_changesBy (w.changesBy_leaveCall d id seq) (fun _ => rfl) d'

/-! ## Changes to the machine -/

theorem HasFrames.withRegisters (h : W.HasFrames g m) (registers : Registers)
    (hlinked : Linked m.memory W.start W.bound g') :
    W.HasFrames g' (m.withRegisters registers) :=
  ⟨h.same.trans (m.sameModule_withRegisters registers), h.size, hlinked⟩

theorem Inv.setMachine (h : W.Inv g m w) (hm' : W.HasFrames g m') :
    W.Inv g m' (w.modifyMachine W.vm fun _ => m') := by
  refine ⟨?_, hm', h.tracks, h.tells, h.alternates⟩
  rw [World.getElem?_modifyMachine, if_pos rfl, h.machine]
  rfl

/-- The functions of the innermost call change together with the machine. -/
theorem Inv.step (h : W.Inv g m w) {e : Event} (hm' : W.HasFrames g' m')
    (hcalls : g'.map LiveCall.call = g.map LiveCall.call)
    (hchange : e.change W.d W.id W.vm g = g') (htrace : e.trace? W.d = none)
    (hleft : e.isLeft = false) :
    W.Inv g' m' ((w.modifyMachine W.vm fun _ => m').record e) := by
  obtain ⟨det, i, hdet, hs, hreg, hi, hdebug, hkept⟩ := h.tracks
  refine ⟨?_, hm', ⟨det, i, hdet, hs, hreg, hi, hdebug, hkept.trans hcalls.symm⟩, ?_,
    fun hstrict => hcalls ▸ h.alternates hstrict⟩
  · rw [World.machines_record, World.getElem?_modifyMachine, if_pos rfl, h.machine]
    rfl
  · refine Tells.record (w := w.modifyMachine W.vm _) h.tells hchange (fun t ht => ?_)
      (.inl hleft)
    rw [htrace] at ht
    cases ht

end Watch

end ScriptDiag
