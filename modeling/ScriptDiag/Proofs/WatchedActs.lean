import ScriptDiag.Proofs.Growth
import ScriptDiag.Proofs.Watch

/-!
# Acts on a watched machine

An act keeps a machine settled (`Watch.Keeps`) if the machine is where the calls in flight are after
the act, as it was before, except that the innermost function may have moved; and if, where the act
fails, all calls from before are in flight still, and a trace could be taken or is not called for:
because the latch is armed, or since nothing is reported of the way in which the act stopped. Once a
body has caught an error, of what follows only this is said: the traces from before are still there
(`Watch.Lost`). In a strict watch no error is caught.

Here this is shown for what detectors, interceptors and chains do, whatever they forward to.
-/

namespace ScriptDiag

open Act LiveCall

variable {α β : Type}

/-! ## Calls in flight before and after -/

namespace LiveCall

/-- The same is in flight, with the innermost function moved, if at all. -/
def Moved (g g' : List LiveCall) : Prop :=
  g' = g ∨ ∃ cip, g' = onTop (moveTo cip) g

/-- The same calls are in flight, with the same functions except for the innermost call. -/
def SameCalls (g g' : List LiveCall) : Prop :=
  g'.map call = g.map call ∧ g'.tail = g.tail

variable {g g' g'' : List LiveCall}

theorem SameCalls.refl (g : List LiveCall) : SameCalls g g :=
  ⟨rfl, rfl⟩

theorem SameCalls.trans (h : SameCalls g g') (h' : SameCalls g' g'') : SameCalls g g'' :=
  ⟨h'.1.trans h.1, h'.2.trans h.2⟩

theorem sameCalls_onTop (f : List Place → List Place) (g : List LiveCall) :
    SameCalls g (onTop f g) := by
  cases g <;> exact ⟨rfl, rfl⟩

theorem SameCalls.eq_cons {live : LiveCall} (h : SameCalls (live :: g) g') :
    ∃ live', g' = live' :: g ∧ live'.call = live.call := by
  obtain ⟨hcalls, htail⟩ := h
  cases g' with
  | nil => cases hcalls
  | cons live' g' =>
      obtain ⟨hcall, -⟩ := List.cons.inj hcalls
      exact ⟨live', congrArg (live' :: ·) htail, hcall⟩

theorem SameCalls.ne_nil (h : SameCalls g g') (hg : g ≠ []) : g' ≠ [] := by
  cases g with
  | nil => exact absurd rfl hg
  | cons live g =>
      obtain ⟨live', rfl, -⟩ := h.eq_cons
      exact List.cons_ne_nil _ _

theorem Moved.refl (g : List LiveCall) : Moved g g :=
  .inl rfl

theorem onTop_moveTo_onTop_moveTo (cip cip' : UCell) (g : List LiveCall) :
    onTop (moveTo cip') (onTop (moveTo cip) g) = onTop (moveTo cip') g := by
  rcases g with _ | ⟨⟨call, _ | ⟨p, ps⟩⟩, g⟩ <;> rfl

theorem Moved.trans (h : Moved g g') (h' : Moved g' g'') : Moved g g'' := by
  rcases h with rfl | ⟨cip, rfl⟩
  · exact h'
  · rcases h' with rfl | ⟨cip', rfl⟩
    · exact .inr ⟨cip, rfl⟩
    · exact .inr ⟨cip', onTop_moveTo_onTop_moveTo cip cip' g⟩

theorem Moved.sameCalls (h : Moved g g') : SameCalls g g' := by
  rcases h with rfl | ⟨cip, rfl⟩
  · exact .refl _
  · exact sameCalls_onTop _ _

/-- A call without functions cannot move. -/
theorem Moved.eq_of_nil {call : CallRecord} (h : Moved (⟨call, []⟩ :: g) g') :
    g' = ⟨call, []⟩ :: g := by
  rcases h with rfl | ⟨cip, rfl⟩ <;> rfl

theorem Moved.eq_cons {call : CallRecord} {p : Place} {ps : List Place}
    (h : Moved (⟨call, p :: ps⟩ :: g) g') :
    ∃ cip, g' = ⟨call, { p with cip } :: ps⟩ :: g := by
  rcases h with rfl | ⟨cip, rfl⟩
  · exact ⟨p.cip, rfl⟩
  · exact ⟨cip, rfl⟩

theorem RunsScript.exists_cons (h : RunsScript g) :
    ∃ call p ps g', g = ⟨call, p :: ps⟩ :: g' ∧ call.kind = .toPublic := by
  obtain ⟨⟨call, functions⟩, g', rfl, hkind, hne⟩ := h
  cases functions with
  | nil => exact absurd rfl hne
  | cons p ps => exact ⟨call, p, ps, g', rfl, hkind⟩

theorem RunsScript.moved (h : RunsScript g) (hm : Moved g g') : RunsScript g' := by
  obtain ⟨call, p, ps, g₁, rfl, hkind⟩ := h.exists_cons
  obtain ⟨cip, rfl⟩ := hm.eq_cons
  exact ⟨_, _, rfl, hkind, List.cons_ne_nil _ _⟩

end LiveCall

/-- Whether nothing is reported of an act that stops in this way. -/
def Stop.isQuiet : Stop → Bool
  | .error .exit | .error .sleep | .panic | .outOfFuel => true
  | .error _ => false

namespace Watch

variable {W : Watch} {w w' : World} {g g' : List LiveCall} {m m' : Machine}

/-! ## Keeping a machine settled -/

/-- The machine is settled, with `g` in flight as far as they have not moved. -/
def On (W : Watch) (g : List LiveCall) (w : World) : Prop :=
  ∃ g' m, Moved g g' ∧ W.Inv g' m w ∧ W.Settled g' m

/-- An act has stopped, with `g` in flight before it. -/
def Failed (W : Watch) (g : List LiveCall) (s : Stop) (w : World) : Prop :=
  ∃ g' m, SameCalls g g' ∧ W.Inv g' m w ∧
    (W.Settled g' m ∨ w.latchArmed W.d = true ∨ s.isQuiet = true)

/-- An error was caught, and the traces from before it are as expected. Of the ones taken from then
on nothing is said. -/
def Lost (W : Watch) (w : World) : Prop :=
  W.strict = false ∧ ∃ es, w.journal = es ++ W.journal ∧ es.any Event.isCatch = true ∧
    TracesShow W.d W.Shows es

/-- An act has ended well, or an error was caught. -/
inductive Ends (W : Watch) (g : List LiveCall) : EStateM.Result Stop World α → Prop where
  | ok {a : α} {w : World} (on : W.On g w) : Ends W g (.ok a w)
  | error {s : Stop} {w : World} (failed : W.Failed g s w) : Ends W g (.error s w)
  | okLost {a : α} {w : World} (lost : W.Lost w) : Ends W g (.ok a w)
  | errorLost {s : Stop} {w : World} (lost : W.Lost w) : Ends W g (.error s w)

theorem Ends.cases {x : Act α} (h : W.Ends g (x w)) :
    (∃ a w', x w = .ok a w' ∧ W.On g w') ∨ (∃ s w', x w = .error s w' ∧ W.Failed g s w') ∨
      W.Lost (x.after w) := by
  generalize hr : x w = r at h
  cases h with
  | ok hon => exact .inl ⟨_, _, rfl, hon⟩
  | error hfailed => exact .inr (.inl ⟨_, _, rfl, hfailed⟩)
  | okLost hlost =>
      rw [after_of_ok hr]
      exact .inr (.inr hlost)
  | errorLost hlost =>
      rw [after_of_error hr]
      exact .inr (.inr hlost)

theorem Ends.of_lost {x : Act α} (h : W.Lost (x.after w)) : W.Ends g (x w) := by
  cases hr : x w with
  | ok a w' =>
      rw [after_of_ok hr] at h
      exact .okLost h
  | error s w' =>
      rw [after_of_error hr] at h
      exact .errorLost h

/-- The act keeps the machine settled. -/
structure Keeps (W : Watch) (g : List LiveCall) (x : Act α) : Prop where
  grows : Grows x
  ends : ∀ w, W.On g w → W.Ends g (x w)

/-- The act keeps the machine settled even if it fails. -/
def Steady (W : Watch) (g : List LiveCall) (x : Act α) : Prop :=
  ∀ w, W.On g w → W.On g (x.after w)

/-- Once an error was caught, this stays so whatever happens. -/
theorem Lost.of_suffix (h : W.Lost w) (hw : w.journal <:+ w'.journal) : W.Lost w' := by
  obtain ⟨hstrict, es, hes, hcatch, hshow⟩ := h
  obtain ⟨new, hnew⟩ := hw
  have hany : ∀ new : List Event, (new ++ es).any Event.isCatch = true := fun new => by
    rw [List.any_append, hcatch, Bool.or_true]
  refine ⟨hstrict, new ++ es, by rw [← hnew, hes, List.append_assoc], hany new, ?_⟩
  clear hnew
  induction new with
  | nil => exact hshow
  | cons e new ih =>
      refine ih.cons fun t _ _ hnone => ?_
      rw [hany] at hnone
      cases hnone hstrict

theorem Lost.bind {x : Act α} {f : α → Act β} (h : W.Lost (x.after w)) (hf : ∀ a, Grows (f a)) :
    W.Lost ((x >>= f).after w) :=
  h.of_suffix (Grows.suffix_bind hf w)

theorem On.failed (h : W.On g w) (s : Stop) : W.Failed g s w := by
  obtain ⟨g', m, hmoved, hinv, hat⟩ := h
  exact ⟨g', m, hmoved.sameCalls, hinv, .inl hat⟩

theorem On.moved (h : W.On g' w) (hm : Moved g g') : W.On g w := by
  obtain ⟨g'', m, hmoved, hinv, hat⟩ := h
  exact ⟨g'', m, hm.trans hmoved, hinv, hat⟩

theorem Failed.sameCalls {s : Stop} (h : W.Failed g' s w) (hs : SameCalls g g') :
    W.Failed g s w := by
  obtain ⟨g'', m, hsame, hinv, hcase⟩ := h
  exact ⟨g'', m, hs.trans hsame, hinv, hcase⟩

theorem Ends.moved {r : EStateM.Result Stop World α} (h : W.Ends g' r) (hm : Moved g g') :
    W.Ends g r := by
  cases h with
  | ok hon => exact .ok (hon.moved hm)
  | error hfailed => exact .error (hfailed.sameCalls hm.sameCalls)
  | okLost hlost => exact .okLost hlost
  | errorLost hlost => exact .errorLost hlost

theorem On.modify_inv (h : W.On g w)
    (hinv : ∀ g m, W.Inv g m w → W.Inv g m w') : W.On g w' := by
  obtain ⟨g', m, hmoved, h, hat⟩ := h
  exact ⟨g', m, hmoved, hinv g' m h, hat⟩

theorem On.machine (h : W.On g w) :
    ∃ m, w.machines[W.vm]? = some m ∧ W.machine.SameModule m := by
  obtain ⟨g', m, -, hinv, -⟩ := h
  exact ⟨m, hinv.machine, hinv.frames.same⟩

theorem On.detector (h : W.On g w) : ∃ det, w.detectors[W.d]? = some det := by
  obtain ⟨g', m, -, hinv, -⟩ := h
  obtain ⟨det, i, hdet, -⟩ := hinv.tracks
  exact ⟨det, hdet⟩

/-! ## One act after another -/

theorem keeps_pure (a : α) : W.Keeps g (pure a : Act α) :=
  ⟨adds_pure a, fun _ h => .ok h⟩

theorem keeps_throw (s : Stop) : W.Keeps g (throw s : Act α) :=
  ⟨adds_throw s, fun _ h => .error (h.failed s)⟩

theorem Keeps.bind {x : Act α} {f : α → Act β} (hx : W.Keeps g x) (hf : ∀ a, W.Keeps g (f a)) :
    W.Keeps g (x >>= f) := by
  have hgrows : ∀ a, Grows (f a) := fun a => (hf a).grows
  refine ⟨hx.grows.bind hgrows, fun w h => ?_⟩
  rcases (hx.ends w h).cases with ⟨a, w', hrun, hon⟩ | ⟨s, w', hrun, hfailed⟩ | hlost
  · rw [bind_of_ok hrun]
    exact (hf a).ends w' hon
  · rw [bind_of_error hrun]
    exact .error hfailed
  · exact .of_lost (hlost.bind hgrows)

theorem Keeps.machine_bind {f : Machine → Act β} (hgrows : ∀ m, Grows (f m))
    (hf : ∀ m, W.machine.SameModule m → W.Keeps g (f m)) : W.Keeps g (Act.machine W.vm >>= f) := by
  refine ⟨(adds_machine W.vm).bind hgrows, fun w h => ?_⟩
  obtain ⟨m, hm, hsame⟩ := h.machine
  rw [bind_of_ok (machine_of_some hm)]
  exact (hf m hsame).ends w h

theorem keeps_record {e : Event} (he : e.isPlain = true) : W.Keeps g (record e) :=
  ⟨grows_record e, fun _ h => .ok (h.modify_inv fun _ _ hinv => hinv.plain he)⟩

/-! ## Traces and interrupts -/

/-- A script function or a native is running. -/
def Runs : CallKind → List LiveCall → Prop
  | .toPublic => RunsScript
  | .toNative => RunsNative

theorem Runs.ne_nil {kind : CallKind} (h : Runs kind g) : g ≠ [] := by
  cases kind with
  | toPublic =>
      obtain ⟨_, _, rfl, -⟩ := h
      exact List.cons_ne_nil _ _
  | toNative =>
      obtain ⟨_, _, rfl, -⟩ := h
      exact List.cons_ne_nil _ _

theorem keeps_noteTrace (hW : W.WellPlaced) (hg : g ≠ []) :
    W.Keeps g (trace W.d W.vm >>= fun t => note (.trace t)) := by
  refine ⟨untold_trace.grows.bind fun _ => grows_record _, ?_⟩
  rintro w ⟨g', m, hmoved, hinv, hat⟩
  obtain ⟨det, i, hdet, -, hreg, hi, -, -⟩ := hinv.tracks
  have hfind : (det.instance? m.handle).map (fun i => det.trace m.view i) =
      some (det.trace m.view i) := by
    rw [Detector.instance?, hinv.frames.same.handle, hreg, Option.bind_some, hi]
    rfl
  have htrace : trace W.d W.vm w = .ok (some (det.trace m.view i)) w := by
    rw [trace, bind_of_ok (machine_of_some hinv.machine), bind_of_ok (detector_of_some hdet), hfind]
    rfl
  rw [bind_of_ok htrace]
  refine .ok ⟨g', m, hmoved, hinv.taken (fun _ => rfl) (fun t ht hframed => ?_) rfl, hat⟩
  obtain rfl := Option.some.inj ht
  exact congrArg some (hinv.trace_eq hW ⟨hmoved.sameCalls.ne_nil hg, .inr hat⟩ hframed hdet hi)

theorem keeps_requestInterrupt : W.Keeps g (requestInterrupt W.d) := by
  refine ⟨untold_requestInterrupt.grows, fun w h => ?_⟩
  obtain ⟨det, hdet⟩ := h.detector
  rw [requestInterrupt_apply hdet]
  exact .ok (h.modify_inv fun _ _ hinv => hinv.setInterrupt true)

theorem keeps_takeInterrupt : W.Keeps g (takeInterrupt W.d) := by
  refine ⟨untold_takeInterrupt.grows, fun w h => ?_⟩
  obtain ⟨det, hdet⟩ := h.detector
  cases hp : det.interruptPending with
  | true =>
      rw [takeInterrupt_of_pending hdet hp]
      exact .ok (h.modify_inv fun _ _ hinv => hinv.setInterrupt false)
  | false =>
      rw [takeInterrupt_of_not_pending hdet hp]
      exact .ok h

theorem keeps_onInterrupt (hW : W.WellPlaced) (hg : g ≠ []) :
    W.Keeps g (onInterrupt W.d W.id W.vm) := by
  refine ⟨untold_onInterrupt.grows, ?_⟩
  rintro w ⟨g', m, hmoved, hinv, hat⟩
  obtain ⟨a, w', hok, hinv'⟩ :=
    hinv.onInterrupt hW ⟨hmoved.sameCalls.ne_nil hg, .inr hat⟩
  rw [hok]
  exact .ok ⟨g', m, hmoved, hinv', hat⟩

theorem keeps_runtimeError (hW : W.WellPlaced) (hg : g ≠ []) (index : Cell) (e : VmError) :
    W.Keeps g (runtimeError W.d W.vm index e) := by
  refine ⟨grows_runtimeError index e, ?_⟩
  rintro w ⟨g', m, hmoved, hinv, hat⟩
  obtain ⟨det, i, hdet, -, hreg, -, -, -⟩ := hinv.tracks
  obtain ⟨a, w', hok, hinv', -⟩ := hinv.onRuntimeError hW index e fun _ =>
    .inr ⟨hmoved.sameCalls.ne_nil hg, .inr hat⟩
  have hrun : runtimeError W.d W.vm index e w = .ok a w' := by
    rw [runtimeError, bind_of_ok (machine_of_some hinv.machine), bind_of_ok (detector_of_some hdet),
      hinv.frames.same.handle, hreg]
    exact hok
  rw [hrun]
  exact .ok ⟨g', m, hmoved, hinv', hat⟩

theorem keeps_probe (d : Nat) : W.Keeps g (probe d W.vm >>= fun calls => note (.probe calls)) := by
  refine ⟨untold_probe.grows.bind fun _ => grows_record _, fun w h => ?_⟩
  obtain ⟨m, hm, -⟩ := h.machine
  cases hdet : w.detectors[d]? with
  | none =>
      have hprobe : probe d W.vm w = .error .panic w := by
        rw [probe, bind_of_ok (machine_of_some hm)]
        exact bind_of_error (detector_of_none hdet)
      rw [bind_of_error hprobe]
      exact .error (h.failed _)
  | some det =>
      have hprobe : ∃ calls, probe d W.vm w = .ok calls w := by
        rw [probe, bind_of_ok (machine_of_some hm)]
        exact ⟨_, bind_of_ok (detector_of_some hdet)⟩
      obtain ⟨calls, hprobe⟩ := hprobe
      rw [bind_of_ok hprobe]
      exact (keeps_record (e := .note (.probe calls)) rfl).ends w h

/-- An error that is caught is all that makes a difference to the traces from then on. -/
theorem keeps_attempt (hstrict : W.strict = false) {x : Act Cell} (hx : W.Keeps g x) :
    W.Keeps g (attempt x >>= fun result => note (.attempted result)) := by
  refine ⟨hx.grows.attempt.bind fun _ => grows_record _, fun w h => ?_⟩
  rcases (hx.ends w h).cases with ⟨value, w', hrun, hon⟩ | ⟨s, w', hrun, hfailed⟩ | hlost
  · rw [bind_of_ok (attempt_of_ok hrun)]
    exact (keeps_record (e := .note (.attempted (.ok value))) rfl).ends w' hon
  · obtain ⟨g', m, hsame, hinv, hcase⟩ := hfailed
    cases s with
    | error e =>
        rw [bind_of_ok (attempt_of_error hrun)]
        obtain ⟨es, hes, -, -, hshow⟩ := hinv.tells
        exact .okLost ⟨hstrict, .note (.attempted (.error e)) :: es, congrArg _ hes, rfl,
          hshow.cons nofun⟩
    | panic =>
        rw [bind_of_error (attempt_of_stop hrun fun _ => Stop.noConfusion)]
        exact .error ⟨g', m, hsame, hinv, hcase⟩
    | outOfFuel =>
        rw [bind_of_error (attempt_of_stop hrun fun _ => Stop.noConfusion)]
        exact .error ⟨g', m, hsame, hinv, hcase⟩
  · rw [← after_attempt] at hlost
    exact .of_lost (hlost.bind fun _ => grows_record _)

/-! ## Script functions -/

theorem keeps_moveTo (hg : RunsScript g) (cip : UCell) : W.Keeps g (Run.moveTo W.vm cip) := by
  refine ⟨(untold_moveTo cip).grows, ?_⟩
  rintro w ⟨g', m, hmoved, hinv, hat⟩
  obtain ⟨call, p, ps, g₁, rfl, hkind⟩ := (hg.moved hmoved).exists_cons
  obtain ⟨horigin, hnative, hfunctions, hg₁⟩ := hinv.frames.linked
  rw [Run.moveTo, bind_of_ok (onMachine_of_ok hinv.machine (MachineM.modifyRegisters_apply _ m)),
    record_apply]
  have hlinked : Linked m.memory W.start W.bound (⟨call, { p with cip } :: ps⟩ :: g₁) :=
    ⟨horigin, fun h => (by cases hkind.symm.trans h), hfunctions, hg₁⟩
  refine .ok ⟨⟨call, { p with cip } :: ps⟩ :: g₁, m.withRegisters { m.registers with cip },
    hmoved.trans (.inr ⟨cip, rfl⟩), ?_, hat.frm, rfl, hat.stk⟩
  exact hinv.step (hinv.frames.withRegisters _ hlinked) rfl (if_pos rfl) rfl rfl

theorem Inv.stk_le_size (h : W.Inv g m w) (hW : W.WellPlaced) (hat : W.Settled g m) :
    m.registers.stk.toNat ≤ m.memory.size := by
  rw [h.frames.size]
  exact Nat.le_trans hat.stk (Nat.le_trans h.frames.linked.floor_le hW.stk)

/-- A function is entered, or the stack collides with the heap. -/
theorem Inv.enterFunction {live : LiveCall} (h : W.Inv (live :: g) m w) (hW : W.WellPlaced)
    (hat : W.Settled (live :: g) m) (hpublic : live.call.kind = .toPublic)
    (address returnAddress : UCell)
    (hto : returnPlace live.origin live.functions = ⟨m.registers.frm, returnAddress⟩)
    (entry : Bool) :
    (∃ m' w', Run.enterFunction W.vm address returnAddress entry w = .ok m'.registers.frm w' ∧
        W.Inv (⟨live.call, ⟨m'.registers.frm, address⟩ :: live.functions⟩ :: g) m' w' ∧
        W.Settled (⟨live.call, ⟨m'.registers.frm, address⟩ :: live.functions⟩ :: g) m') ∨
      ∃ s w', Run.enterFunction W.vm address returnAddress entry w = .error s w' ∧
        W.Failed (live :: g) s w' := by
  rcases Machine.enterFrame_spec address returnAddress (h.stk_le_size hW hat) with
    ⟨m', hok, hsame, henters⟩ | ⟨e, m', herr, hsame, hlowers⟩
  · obtain ⟨hlinked, hat'⟩ := h.frames.linked.enter hat hpublic W.bound_lt henters hto
    have hm' : (w.modifyMachine W.vm fun _ => m').machines[W.vm]? = some m' := by
      rw [World.getElem?_modifyMachine, if_pos rfl, h.machine]
      rfl
    refine .inl ⟨m', (w.modifyMachine W.vm fun _ => m').record
      (.called W.vm m'.registers.frm address entry), ?_, ?_, hat'⟩
    · rw [Run.enterFunction, bind_of_ok (onMachine_of_ok h.machine hok),
        bind_of_ok (machine_of_some hm')]
      exact bind_of_ok (record_apply _ _)
    · exact h.step ⟨h.frames.same.trans hsame, henters.size.trans h.frames.size, hlinked⟩ rfl
        (if_pos rfl) rfl rfl
  · refine .inr ⟨.error e, _, bind_of_error (onMachine_of_error h.machine herr), ?_⟩
    have hlinked := h.frames.linked.above hat W.bound_lt hlowers.above
    exact ⟨_, m', .refl _, h.setMachine ⟨h.frames.same.trans hsame,
      hlowers.size.trans h.frames.size, hlinked⟩, .inl (hat.lowers hlowers)⟩

/-- The body of a function runs and the function returns, if this takes the machine back to where
the function was called. -/
theorem Keeps.returns {call : CallRecord} {p : Place} {ps : List Place} {body : Act Cell}
    {leave : MachineM Unit} (hbody : W.Keeps (⟨call, p :: ps⟩ :: g) body)
    (hon : W.On (⟨call, p :: ps⟩ :: g) w)
    (hleave : ∀ cip m, W.HasFrames (⟨call, { p with cip } :: ps⟩ :: g) m →
      ∃ m', leave m = .ok () m' ∧ W.HasFrames (⟨call, ps⟩ :: g) m' ∧
        W.Settled (⟨call, ps⟩ :: g) m') :
    W.Ends (⟨call, ps⟩ :: g) ((body >>= fun value => onMachine W.vm leave >>= fun _ =>
      record (.returned W.vm) >>= fun _ => pure value) w) := by
  rcases (hbody.ends w hon).cases with
    ⟨value, w₂, hrun, g₂, m₂, hmoved, hinv, -⟩ | ⟨s, w₂, hrun, hfailed⟩ | hlost
  · obtain ⟨cip, rfl⟩ := hmoved.eq_cons
    obtain ⟨m', hok, hframes, hat⟩ := hleave cip m₂ hinv.frames
    rw [bind_of_ok hrun, bind_of_ok (onMachine_of_ok hinv.machine hok),
      bind_of_ok (record_apply _ _), pure_apply]
    exact .ok ⟨_, _, .refl _, hinv.step hframes rfl (if_pos rfl) rfl rfl, hat⟩
  · rw [bind_of_error hrun]
    exact .error (hfailed.sameCalls ⟨rfl, rfl⟩)
  · exact .of_lost (hlost.bind fun value => (untold_return _ value).grows)

theorem keeps_callFunction (hW : W.WellPlaced) (hg : RunsScript g) (address : UCell)
    {body : Act Cell} (hbody : ∀ g, RunsScript g → W.Keeps g body) :
    W.Keeps g (Run.callFunction W.vm address body) := by
  refine ⟨grows_callFunction address (hbody g hg).grows, ?_⟩
  rintro w ⟨g', m, hmoved, hinv, hat⟩
  obtain ⟨call, p, ps, g₁, rfl, hkind⟩ := (hg.moved hmoved).exists_cons
  have hplace : p = ⟨m.registers.frm, m.registers.cip⟩ := by
    rw [hat.frm, hat.cip]
    rfl
  refine Ends.moved ?_ hmoved
  rw [Run.callFunction, bind_of_ok (machine_of_some hinv.machine)]
  rcases hinv.enterFunction hW hat hkind address m.registers.cip hplace false with
    ⟨m₁, w₁, henter, hinv₁, hat₁⟩ | ⟨s, w₁, henter, hfailed⟩
  · rw [bind_of_ok henter]
    have hkeeps := hbody (⟨call, ⟨m₁.registers.frm, address⟩ :: p :: ps⟩ :: g₁)
      ⟨_, _, rfl, hkind, List.cons_ne_nil _ _⟩
    refine hkeeps.returns ⟨_, m₁, .refl _, hinv₁, hat₁⟩ fun cip m₂ hframes => ?_
    -- the links that the frame got when it was made are still there, and are read back now
    obtain ⟨hlinked, hleave, hat₂⟩ := hframes.linked.leave W.bound_lt
    exact ⟨_, hleave, hframes.withRegisters _ hlinked, hat₂⟩
  · rw [bind_of_error henter]
    exact .error hfailed

theorem keeps_recurse (hW : W.WellPlaced) (address cip : UCell) {body : Act Cell}
    (hbody : ∀ g, RunsScript g → W.Keeps g body) (depth : Nat) (g : List LiveCall)
    (hg : RunsScript g) : W.Keeps g (Run.recurse W.vm address cip body depth) := by
  induction depth generalizing g with
  | zero => exact hbody g hg
  | succ depth ih =>
      refine keeps_callFunction hW hg address fun g hg => ?_
      exact (keeps_moveTo hg cip).bind fun _ => ih g hg

theorem keeps_times {body : Act Cell} (hbody : W.Keeps g body) (count : Nat) (last : Cell) :
    W.Keeps g (Run.times body count last) := by
  induction count generalizing last with
  | zero => exact keeps_pure last
  | succ count ih => exact hbody.bind fun value => ih value

/-! ## The machine's own handlers -/

variable {run : Runner} {a : Activation}

theorem keeps_baseHook (ha : a.vm = W.vm) : W.Keeps g (Run.baseHook a) := by
  refine (keeps_record rfl).bind fun _ => ⟨adds_modifyMachine a.vm _, ?_⟩
  rintro w ⟨g', m, hmoved, hinv, hat⟩
  rw [modify_apply, ha]
  have hsame : m.SameModule { m with counted := m.counted.map (· + 1) } :=
    ⟨rfl, rfl, rfl, rfl, rfl, rfl, rfl⟩
  rw [World.modifyMachine_congr (g := fun _ => { m with counted := m.counted.map (· + 1) })
    hinv.machine rfl]
  exact .ok ⟨g', _, hmoved, hinv.setMachine ⟨hinv.frames.same.trans hsame, hinv.frames.size,
    hinv.frames.linked⟩, hat⟩

theorem keeps_baseNative (hgrows : ∀ a body, Grows (run a body)) (ha : a.vm = W.vm)
    (index : Cell) (params : List Cell)
    (hrun : ∀ a body, a.vm = W.vm → W.machine.nativeBody? index = some body →
      W.Keeps g (run a body)) : W.Keeps g (Run.baseNative run a index params) := by
  refine (keeps_record rfl).bind fun _ => ?_
  rw [ha]
  refine Keeps.machine_bind (fun m => ?_) fun m hsame => ?_
  · split
    · exact hgrows _ _
    · exact adds_throw _
  · rw [hsame.nativeBody?_eq]
    split
    next body hbody => exact hrun _ body ha hbody
    next => exact keeps_throw _

/-- The public's body keeps the machine settled in a function of its own, and the registers are put
back after it. -/
theorem keeps_baseExec (hgrows : ∀ a body, Grows (run a body)) (hW : W.WellPlaced)
    (ha : a.vm = W.vm) (index : Cell)
    (hrun : ∀ a address body, a.vm = W.vm → W.machine.entryPoint? index = some (address, body) →
      ∀ g, RunsScript g → W.Keeps g (run a body)) {call : CallRecord}
    (hpublic : call.kind = .toPublic) :
    W.Keeps (⟨call, []⟩ :: g) (Run.baseExec run a index) := by
  refine ⟨grows_baseExec hgrows index, fun w₀ h => ?_⟩
  have h : W.On (⟨call, []⟩ :: g) (w₀.record (.base a.vm (.exec index))) :=
    h.modify_inv fun _ _ hinv => hinv.plain rfl
  rw [Run.baseExec, bind_of_ok (record_apply _ w₀)]
  generalize w₀.record _ = w at h ⊢
  obtain ⟨g', m, hmoved, hinv, hat⟩ := h
  obtain rfl := hmoved.eq_of_nil
  rw [ha, bind_of_ok (machine_of_some hinv.machine)]
  cases hentry : m.entryPoint? index with
  | none => exact .error (On.failed ⟨_, m, .refl _, hinv, hat⟩ _)
  | some entry =>
      obtain ⟨address, body⟩ := entry
      rw [hinv.frames.same.entryPoint?_eq] at hentry
      -- no function runs in this call yet: the first one is linked to where the call was made
      have hto : returnPlace (LiveCall.origin ⟨call, []⟩) [] = ⟨m.registers.frm, 0⟩ := by
        rw [hat.frm]
        rfl
      show W.Ends _ ((Run.enterFunction W.vm address 0 true >>= fun _ => _) w)
      rcases hinv.enterFunction hW hat hpublic address 0 hto true with
        ⟨m₁, w₁, henter, hinv₁, hat₁⟩ | ⟨s, w₁, henter, hfailed⟩
      · rw [bind_of_ok henter]
        have hkeeps := hrun (a.withParams []) address body ha hentry
          (⟨call, [⟨m₁.registers.frm, address⟩]⟩ :: g)
          ⟨_, _, rfl, hpublic, List.cons_ne_nil _ _⟩
        refine hkeeps.returns ⟨_, m₁, .refl _, hinv₁, hat₁⟩ fun cip m₂ hframes => ?_
        obtain ⟨horigin, -, -, hg⟩ := hframes.linked
        have hlinked : Linked m₂.memory W.start W.bound (⟨call, []⟩ :: g) :=
          ⟨horigin, fun h => (by cases hpublic.symm.trans h), trivial, hg⟩
        exact ⟨_, MachineM.modifyRegisters_apply _ m₂, hframes.withRegisters _ hlinked, hat⟩
      · rw [bind_of_error henter]
        exact .error hfailed

/-! ## Interceptors -/

theorem keeps_interceptHook (hW : W.WellPlaced) (hg : g ≠ []) {next : Act Unit}
    (hnext : W.Keeps g next) : W.Keeps g (interceptHook W.d W.id W.vm next) := by
  refine keeps_takeInterrupt.bind fun taken => ?_
  split
  · exact (keeps_onInterrupt hW hg).bind fun _ => hnext
  · exact hnext

/-- The place of a call without functions is the one that it was made from. -/
theorem Settled.of_call {call : CallRecord} (h : W.Settled (⟨call, []⟩ :: g) m)
    (hlinked : Linked m.memory W.start W.bound (⟨call, []⟩ :: g)) : W.Settled g m := by
  have hplace : placeOf W.start (⟨call, []⟩ :: g) = placeOf W.start g := hlinked.1
  exact ⟨hplace ▸ h.frm, hplace ▸ h.cip, h.stk⟩

/-- The innermost call can leave: the machine is where it was made, or the latch is armed, or
nothing is reported of the way in which the call stopped. -/
inductive Closes (W : Watch) (call : CallRecord) (g : List LiveCall) :
    EStateM.Result Stop World α → Prop where
  | ok {a : α} {w : World} (on : W.On (⟨call, []⟩ :: g) w) : Closes W call g (.ok a w)
  | settled {s : Stop} {w : World} (on : W.On (⟨call, []⟩ :: g) w) : Closes W call g (.error s w)
  | told {s : Stop} {live : LiveCall} {m : Machine} {w : World} (inv : W.Inv (live :: g) m w)
    (hcall : live.call = call) (told : w.latchArmed W.d = true ∨ s.isQuiet = true) :
    Closes W call g (.error s w)
  | okLost {a : α} {w : World} (lost : W.Lost w) : Closes W call g (.ok a w)
  | errorLost {s : Stop} {w : World} (lost : W.Lost w) : Closes W call g (.error s w)

theorem Closes.of_lost {call : CallRecord} {x : Act α} (h : W.Lost (x.after w)) :
    W.Closes call g (x w) := by
  cases hr : x w with
  | ok a w' =>
      rw [after_of_ok hr] at h
      exact .okLost h
  | error s w' =>
      rw [after_of_error hr] at h
      exact .errorLost h

theorem On.leave {call : CallRecord} (h : W.On (⟨call, []⟩ :: g) w) :
    W.On g (leaveCall W.d W.id call.seq w) := by
  obtain ⟨g', m, hmoved, hinv, hat⟩ := h
  obtain rfl := hmoved.eq_of_nil
  exact ⟨g, m, .refl _, hinv.leave, hat.of_call hinv.frames.linked⟩

theorem ends_ensuring (call : CallRecord) {x : Act α} (h : W.Closes call g (x w)) :
    W.Ends g (ensuring x (leaveCall W.d W.id call.seq) w) := by
  generalize hr : x w = r at h
  cases h with
  | ok hon =>
      rw [ensuring_of_ok hr]
      exact .ok hon.leave
  | settled hon =>
      rw [ensuring_of_error hr]
      exact .error (hon.leave.failed _)
  | told hinv hcall htold =>
      rw [ensuring_of_error hr]
      subst hcall
      refine .error ⟨g, _, .refl _, hinv.leave, .inr ?_⟩
      rw [latchArmed_leaveCall]
      exact htold
  | okLost hlost =>
      rw [ensuring_of_ok hr]
      exact .okLost (hlost.of_suffix (suffix_leaveCall _ _))
  | errorLost hlost =>
      rw [ensuring_of_error hr]
      exact .errorLost (hlost.of_suffix (suffix_leaveCall _ _))

/-- The detector is told of a native call that failed, and the script sees `e`. -/
theorem Inv.closes_fault {live : LiveCall} (h : W.Inv (live :: g) m w) (hW : W.WellPlaced)
    (hnative : live.call.kind = .toNative) (index : Cell) (fault : NativeFault) (e : VmError) :
    W.Closes live.call g
      (faultNative W.d W.id W.vm index fault e w) := by
  obtain ⟨disposition, w', hok, hinv', harmed⟩ := h.onNativeFault hW
    ⟨List.cons_ne_nil _ _, .inl ⟨live, g, rfl, hnative⟩⟩ index fault
  rw [faultNative, bind_of_ok hok]
  exact .told hinv' rfl (.inl harmed)

/-- An attempt in a call leaves the call closing, if what follows it does: after success, and after
an error of the act attempted. -/
theorem Keeps.closes_attempt {call : CallRecord} {x : Act α} {f : Except VmError α → Act β}
    (hx : W.Keeps (⟨call, []⟩ :: g) x) (hon : W.On (⟨call, []⟩ :: g) w)
    (hgrows : ∀ result, Grows (f result))
    (hok : ∀ value w', W.On (⟨call, []⟩ :: g) w' → W.Closes call g (f (.ok value) w'))
    (herror : ∀ e w' live m, x w = .error (.error e) w' → live.call = call →
      W.Inv (live :: g) m w' → (W.Settled (live :: g) m ∨ w'.latchArmed W.d = true ∨
        (Stop.error e).isQuiet = true) → W.Closes call g (f (.error e) w')) :
    W.Closes call g ((attempt x >>= f) w) := by
  rcases (hx.ends w hon).cases with ⟨value, w', hrun, hon'⟩ | ⟨s, w', hrun, hfailed⟩ | hlost
  · rw [bind_of_ok (attempt_of_ok hrun)]
    exact hok value w' hon'
  · obtain ⟨g', m', hsame, hinv', hcase⟩ := hfailed
    obtain ⟨live, rfl, hcall⟩ := hsame.eq_cons
    cases s with
    | error e =>
        rw [bind_of_ok (attempt_of_error hrun)]
        exact herror e w' live m' hrun hcall hinv' hcase
    | panic =>
        rw [bind_of_error (attempt_of_stop hrun (fun _ => Stop.noConfusion))]
        exact .told hinv' hcall (.inr rfl)
    | outOfFuel =>
        rw [bind_of_error (attempt_of_stop hrun (fun _ => Stop.noConfusion))]
        exact .told hinv' hcall (.inr rfl)
  · rw [← after_attempt] at hlost
    exact .of_lost (hlost.bind hgrows)

theorem On.closes_native {call : CallRecord} (hon : W.On (⟨call, []⟩ :: g) w)
    (hW : W.WellPlaced) (hnative : call.kind = .toNative) (index : Cell) {x : Act Cell}
    (hx : W.Keeps (⟨call, []⟩ :: g) x) :
    W.Closes call g ((attempt x >>= settleNative W.d W.id W.vm index) w) := by
  refine hx.closes_attempt hon (grows_settleNative index) (fun value w' hon' => .ok hon')
    fun e w' live m _ hcall hinv _ => ?_
  subst hcall
  by_cases he : e = .exit
  · subst he
    exact .told hinv rfl (.inr rfl)
  · have hfault := hinv.closes_fault hW hnative index (.failed e) .nativeFailed
    cases e <;> first | exact absurd rfl he | exact hfault

/-- Whatever runs, a native that is called now runs for a script function. -/
theorem Runs.hosted {kind : CallKind} (h : Runs kind g) (hm : Moved g g')
    (hlinked : Linked m.memory W.start W.bound g') : Hosted g' := by
  cases kind with
  | toPublic => exact (RunsScript.moved h hm).hosted
  | toNative =>
      obtain ⟨live, g₁, rfl, hnative⟩ := h
      obtain ⟨live', rfl, hcall⟩ := hm.sameCalls.eq_cons
      rw [← hcall] at hnative
      exact (hlinked.2.1 hnative).2.cons hnative

theorem RunsScript.inNative_eq_false (h : RunsScript g) (hm : Moved g g') :
    CallStack.inNative (g'.map LiveCall.call) = false := by
  obtain ⟨live, g₁, rfl, hpublic, -⟩ := h.moved hm
  rw [inNative_cons, hpublic]
  rfl

/-- A native is called, by a script function or by a native, and what the interceptor forwards to
keeps the machine settled. -/
theorem keeps_native (hW : W.WellPlaced) {kind : CallKind} (hg : Runs kind g)
    (hstrict : W.strict = true → kind = .toPublic) {index : Cell} {next : Option (Act Cell)}
    {x : Act Cell} (hgrows : Grows x)
    (hcall : RunsAsCall W.d W.id W.vm .toNative index x (answerNative W.d W.id W.vm index next))
    (hnext : ∀ y, next = some y → ∀ call g, call.kind = .toNative →
      W.Keeps (⟨call, []⟩ :: g) y) : W.Keeps g x := by
  refine ⟨hgrows, ?_⟩
  rintro w ⟨g', m, hmoved, hinv, hat⟩
  refine Ends.moved ?_ hmoved
  obtain ⟨seq, w₁, hadmits, happly⟩ := hcall w m hinv.machine hinv.tracks.hasInstance
  obtain ⟨hinv₁, hat₁⟩ := hinv.admits hat hadmits rfl fun _ =>
    ⟨hg.hosted hmoved hinv.frames.linked, fun h => by
      obtain rfl := hstrict h
      exact RunsScript.inNative_eq_false hg hmoved⟩
  rw [happly]
  refine ends_ensuring ⟨.toNative, index, m.registers.frm, m.registers.cip, seq⟩ ?_
  cases hentry : m.view.native? index with
  | none =>
      rw [answerNative_of_none hinv₁.machine hentry]
      exact hinv₁.closes_fault hW rfl index .outOfRange .nativeFailed
  | some entry =>
      cases hregistered : entry.isRegistered with
      | false =>
          rw [answerNative_of_unregistered hinv₁.machine hentry hregistered]
          exact hinv₁.closes_fault hW rfl index .unregistered .nativeFailed
      | true =>
          cases next with
          | none =>
              rw [answerNative_of_last hinv₁.machine hentry hregistered]
              exact hinv₁.closes_fault hW rfl index (.failed .noCallback) .noCallback
          | some x =>
              rw [answerNative_of_registered hinv₁.machine hentry hregistered]
              exact On.closes_native ⟨_, m, .refl _, hinv₁, hat₁⟩ hW rfl index
                (hnext x rfl _ g' rfl)

theorem isQuiet_or_probe_of_isHarmless {index : Cell} {e : VmError}
    (h : isHarmless index e = true) :
    (Stop.error e).isQuiet = true ∨ (e = .badIndex ∧ index = probeIndex) := by
  rw [isHarmless] at h
  simp only [Bool.or_eq_true, Bool.and_eq_true, beq_iff_eq] at h
  rcases h with (rfl | rfl) | ⟨rfl, rfl⟩
  · exact .inl rfl
  · exact .inl rfl
  · exact .inr ⟨rfl, rfl⟩

theorem not_isQuiet_of_not_isHarmless {index : Cell} {e : VmError}
    (h : isHarmless index e = false) : (Stop.error e).isQuiet ≠ true := by
  intro hquiet
  cases e with
  | exit => simp [isHarmless] at h
  | sleep => simp [isHarmless] at h
  | _ => cases hquiet

/-- The detector is told of the error of a public, and the host sees it. -/
theorem Inv.closes_error {live : LiveCall} {index : Cell} {e : VmError}
    (h : W.Inv (live :: g) m w) (hW : W.WellPlaced)
    (hcase : W.Settled (live :: g) m ∨ w.latchArmed W.d = true ∨ (Stop.error e).isQuiet = true)
    (hprobe : index = probeIndex → W.On (⟨live.call, []⟩ :: g) w) :
    W.Closes live.call g
      ((Act.onRuntimeError W.d W.id W.vm index e >>= fun _ => (fail e : Act Cell)) w) := by
  cases hh : isHarmless index e with
  | true =>
      rw [bind_of_ok (onRuntimeError_of_harmless hh w), fail_apply]
      -- calls outside may still report another failure, so it matters where the machine is
      rcases isQuiet_or_probe_of_isHarmless hh with hquiet | ⟨-, hindex⟩
      · exact .told h rfl (.inr hquiet)
      · exact .settled (hprobe hindex)
  | false =>
      have ht : w.latchArmed W.d = true ∨ W.Traceable (live :: g) m := by
        rcases hcase with hat | harmed | hquiet
        · exact .inr ⟨List.cons_ne_nil _ _, .inr hat⟩
        · exact .inl harmed
        · exact absurd hquiet (not_isQuiet_of_not_isHarmless hh)
      obtain ⟨disposition, w', hok, hinv', harmed⟩ := h.onRuntimeError hW index e fun _ => ht
      rw [bind_of_ok hok, fail_apply]
      exact .told hinv' rfl (.inl (harmed hh))

theorem On.closes_public {call : CallRecord} (hon : W.On (⟨call, []⟩ :: g) w)
    (hW : W.WellPlaced) (index : Cell) {next : Option (Act Cell)}
    (hx : W.Keeps (⟨call, []⟩ :: g) (next.getD (fail .notInitialized)))
    (hprobe : index = probeIndex →
      W.Steady (⟨call, []⟩ :: g) (next.getD (fail .notInitialized))) :
    W.Closes call g (answerPublic W.d W.id W.vm index next w) := by
  refine hx.closes_attempt hon (fun result => ?_) (fun value w' hon' => .ok hon')
    fun e w' live m hrun hcall hinv hcase => ?_
  · cases result with
    | ok value => exact adds_pure _
    | error e => exact (grows_onRuntimeError index e).bind fun _ => adds_ofExcept _
  subst hcall
  refine hinv.closes_error hW hcase fun hindex => ?_
  have hsteady := hprobe hindex w hon
  rw [after_of_error hrun] at hsteady
  exact hsteady

theorem keeps_public (hW : W.WellPlaced) {index : Cell} {next : Option (Act Cell)} {x : Act Cell}
    (hgrows : Grows x)
    (hcall : RunsAsCall W.d W.id W.vm .toPublic index x (answerPublic W.d W.id W.vm index next))
    (hnext : ∀ y, next = some y → ∀ call g, call.kind = .toPublic →
      W.Keeps (⟨call, []⟩ :: g) y ∧ (index = probeIndex → W.Steady (⟨call, []⟩ :: g) y)) :
    W.Keeps g x := by
  refine ⟨hgrows, ?_⟩
  rintro w ⟨g', m, hmoved, hinv, hat⟩
  refine Ends.moved ?_ hmoved
  obtain ⟨seq, w₁, hadmits, happly⟩ := hcall w m hinv.machine hinv.tracks.hasInstance
  obtain ⟨hinv₁, hat₁⟩ := hinv.admits hat hadmits rfl nofun
  rw [happly]
  let call : CallRecord := ⟨.toPublic, index, m.registers.frm, m.registers.cip, seq⟩
  refine ends_ensuring call ?_
  have hon : W.On (⟨call, []⟩ :: g') w₁ := ⟨_, m, .refl _, hinv₁, hat₁⟩
  cases next with
  | none => exact hon.closes_public hW index (keeps_throw _) fun _ w h => h
  | some y =>
      obtain ⟨hkeeps, hprobe⟩ := hnext y rfl call g' rfl
      exact hon.closes_public hW index hkeeps hprobe

end Watch

end ScriptDiag
