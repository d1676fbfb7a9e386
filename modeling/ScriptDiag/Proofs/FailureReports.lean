import ScriptDiag.Proofs.FailureEvents

/-!
# One report for each failing call

A public that is entered while no call is in flight finds the latch clear, or clears it. From then
on the latch is clear until the first failure, which is reported, and armed until the public has
left: it is not cleared, for the public itself is in flight (`Progress`). So there is exactly one
report if there is a failure (`one_report_per_failing_call`). Afterwards the latch stays armed until
the next public of this kind, and the host is not told again of what it reports itself.
-/

namespace ScriptDiag

open Act

variable {w w' w₀ w₁ w₂ : World}

/-! ## From the first failure on -/

/-- A report is the one on the first of the failures that the events `es` tell of, and was made at
the moment of that failure, between the worlds. -/
def DescribesFirst (d : Nat) (w w' : World) (es : List Event) (r : Report) : Prop :=
  ∃ (id vm : Nat) (det : Detector) (m : Machine) (i : Instance) (f : Failure) (w_f : World)
    (before : List Event),
    (failuresOf d es).getLast? = some (id, vm, f) ∧ failuresOf d before = [] ∧
      w_f.journal = before ++ w.journal ∧ Moves w w_f ∧ Moves w_f w' ∧
      w_f.detectors[d]? = some det ∧ w_f.machines[vm]? = some m ∧
      det.registry.instance? id = some i ∧ r = det.failureReport m i f

/-- What happened from one world to another, in which `es` are the new events: no failure so far, or
one that was reported, and no other after it. -/
inductive Progress (d : Nat) (w w' : World) (es : List Event) : Prop where
  | clear (latch : w'.latchArmed d = false) (failures : failuresOf d es = [])
      (reports : failureReports d es = [])
  | armed {r : Report} (latch : w'.latchArmed d = true) (failures : failuresOf d es ≠ [])
      (reports : failureReports d es = [r]) (first : DescribesFirst d w w' es r)

theorem DescribesFirst.later {d : Nat} {es : List Event} {r : Report}
    (h : DescribesFirst d w w₁ es r) (hmoves : Moves w₁ w₂) (new : List Event) :
    DescribesFirst d w w₂ (new ++ es) r := by
  obtain ⟨id, vm, det, m, i, f, w_f, before, hlast, hnone, hj, hto, hfrom, h⟩ := h
  refine ⟨id, vm, det, m, i, f, w_f, before, ?_, hnone, hj, hto, hfrom.trans hmoves, h⟩
  rw [failuresOf_append, List.getLast?_append, hlast]
  rfl

theorem Move.progress {d : Nat} {es new : List Event} (h : Move w₁ w₂) (hmoves : Moves w w₁)
    (hes : w₁.journal = es ++ w.journal) (hnew : w₂.journal = new ++ w₁.journal)
    (hp : Progress d w w₁ es) (hkeep : w₁.clearsLatch d = false) (hcrash : .crashed d ∉ new) :
    Progress d w w₂ (new ++ es) := by
  have hfound : ∀ new', w₂.journal = new' ++ w₁.journal → new' = new := fun _ h =>
    List.append_cancel_right (h.symm.trans hnew)
  have hnothing : w₂.latchArmed d = w₁.latchArmed d → failuresOf d new = [] →
      failureReports d new = [] → Progress d w w₂ (new ++ es) := by
    intro hl hf hr
    cases hp with
    | clear hlatch hf' hr' =>
        refine .clear (hl.trans hlatch) ?_ ?_
        · rw [failuresOf_append, hf, hf', List.append_nil]
        · rw [failureReports_append, hr, hr', List.append_nil]
    | armed hlatch hf' hr' hfirst =>
        refine .armed (hl.trans hlatch) ?_ ?_ (hfirst.later (.single h) new)
        · rw [failuresOf_append, hf, List.nil_append]
          exact hf'
        · rw [failureReports_append, hr, hr', List.nil_append]
  cases h.latch d with
  | keep es' hl hj hnot =>
      obtain rfl := hfound _ hj
      exact hnothing hl (failuresOf_eq_nil hnot) (failureReports_eq_nil hnot)
  | @suppress _ id vm f hb ha hj =>
      obtain rfl := hfound [.failed d id vm f] hj
      cases hp with
      | clear hlatch _ _ => exact absurd (hb.symm.trans hlatch) Bool.noConfusion
      | armed hlatch hf hr hfirst =>
          refine .armed ha ?_ hr (hfirst.later (.single h) [_])
          rw [failuresOf_append]
          exact List.append_ne_nil_of_right_ne_nil _ hf
  | @report _ id vm det m i f logs hdet hm hi hb ha hj hquiet =>
      have hj : w₂.journal = (logs ++ [.report d (det.failureReport m i f), .latchArmed d,
          .failed d id vm f]) ++ w₁.journal := hj.trans (List.append_assoc logs
            [Event.report d _, .latchArmed d, .failed d id vm f] _).symm
      obtain rfl := hfound _ hj
      have hquiet : ∀ e ∈ logs, e.isAboutLatch d = false := fun e he =>
        e.isAboutLatch_of_isNeutral d (hquiet e he)
      cases hp with
      | armed hlatch _ _ _ => exact absurd (hb.symm.trans hlatch) Bool.noConfusion
      | clear hlatch hf hr =>
          have hfailures : failuresOf d ((logs ++ [.report d (det.failureReport m i f),
              .latchArmed d, .failed d id vm f]) ++ es) = [(id, vm, f)] := by
            rw [failuresOf_append, failuresOf_append, failuresOf_eq_nil hquiet, hf]
            simp [failuresOf]
          refine .armed ha ?_ (r := det.failureReport m i f) ?_ ?_
          · rw [hfailures]
            exact List.cons_ne_nil _ _
          · rw [failureReports_append, failureReports_append, failureReports_eq_nil hquiet, hr]
            simp [failureReports, Detector.isFailure_failureReport]
          · refine ⟨id, vm, det, m, i, f, w₁, es, ?_, hf, hes, hmoves, .single h, hdet, hm, hi, rfl⟩
            rw [hfailures]
            rfl
  | crash es' _ hj _ =>
      obtain rfl := hfound (.crashed d :: es') hj
      exact absurd List.mem_cons_self hcrash
  | clear _ _ hclears _ _ => exact absurd (hclears.symm.trans hkeep) Bool.noConfusion

/-! ## While a call is in flight -/

/-- While a call on a registered instance is in flight, the run makes progress. -/
theorem Moves.progress {d id : Nat} {call : CallRecord} (h : Moves w₁ w₂) (hmoves : Moves w w₁)
    (hv : w₁.Valid) (ht : w₁.Tracked) (hn : w₁.HasNumbered d call.seq)
    (hr : w₁.IsRegistered d id) {es : List Event} (hes : w₁.journal = es ++ w.journal)
    (hp : Progress d w w₁ es) (ho : ⟨d, id, call⟩ ∈ openCalls w₂.journal) :
    ∀ new, w₂.journal = new ++ w₁.journal → .crashed d ∉ new →
      (∀ vm, .detached d id vm ∉ new) → Progress d w w₂ (new ++ es) ∧ w₂.IsRegistered d id := by
  induction h with
  | refl =>
      intro new hnew _ _
      obtain rfl := List.self_eq_append_left.mp hnew
      exact ⟨hp, hr⟩
  | @tail w₂ w₃ hto hmove ih =>
      intro new hnew hcrash hdetach
      have hto : Moves w₁ w₂ := hto
      obtain ⟨new₁, hnew₁⟩ := hto.journal
      obtain ⟨new₂, hnew₂⟩ := hmove.journal
      have hsplit : new = new₂ ++ new₁ := by
        rw [← hnew₂, ← hnew₁, ← List.append_assoc] at hnew
        exact (List.append_cancel_right hnew).symm
      subst hsplit
      have hv₂ := hto.valid hv
      have ht₂ := hto.tracked ht
      have ho₂ := hmove.open_before ho (hto.hasNumbered hn) ht₂
      obtain ⟨hp₂, hr₂⟩ := ih ho₂ new₁ hnew₁.symm
        (fun h => hcrash (List.mem_append_right _ h))
        fun vm h => hdetach vm (List.mem_append_right _ h)
      have hkeep := ht₂.not_clearsLatch hv₂ ho₂ hr₂
      refine ⟨?_, hmove.isRegistered hr₂ fun vm es' hes' h => ?_⟩
      · rw [List.append_assoc]
        refine hmove.progress (hmoves.trans hto) ?_ hnew₂.symm hp₂ hkeep
          fun h => hcrash (List.mem_append_left _ h)
        rw [← hnew₁, hes, List.append_assoc]
      · obtain rfl := List.append_cancel_right (hes'.symm.trans hnew₂.symm)
        exact hdetach vm (List.mem_append_left _ h)

/-! ## An outermost call -/

/-- Whether no call is in flight on any registered instance, as far as the stacks tell. -/
def World.Idle (w : World) (d : Nat) : Prop :=
  ∀ id, w.IsRegistered d id → w.calls? d id = some []

theorem World.Valid.idle_iff {d : Nat} {det : Detector} (hv : w.Valid)
    (hdet : w.detectors[d]? = some det) : w.Idle d ↔ det.registry.allIdle = true := by
  have hr := registryAt?_of_some hdet
  rw [Registry.allIdle_iff]
  constructor
  · intro hidle e he i hi
    have hcalls := hidle e.2 ⟨_, e.1, hr, HandleMap.find?_of_mem (hv.keys d _ hr) he⟩
    rw [calls?, instance?, hr, Option.bind_some, hi] at hcalls
    exact Option.some.inj hcalls
  · rintro hidle id ⟨r, handle, hr', hfind⟩
    obtain rfl := Option.some.inj (hr.symm.trans hr')
    have hmem := HandleMap.mem_of_find? hfind
    have hlt : id < det.registry.instances.length := hv.registered d _ hr _ hmem
    have hi : det.registry.instance? id = some det.registry.instances[id] :=
      List.getElem?_eq_getElem hlt
    rw [calls?, instance?, hr, Option.bind_some, hi, Option.map_some, hidle _ hmem _ hi]

theorem World.Idle.clearsLatch {d : Nat} (hidle : w.Idle d) (hv : w.Valid)
    (hterm : w.terminating d = false) : w.clearsLatch d = w.latchArmed d := by
  cases hdet : w.detectors[d]? with
  | none => simp [World.clearsLatch, latchArmed, registryAt?, hdet]
  | some det =>
      rw [terminating, hdet, Option.any_some] at hterm
      rw [World.clearsLatch, hdet, Option.any_some, latchArmed_of_some hdet, hterm,
        (hv.idle_iff hdet).mp hidle]
      simp

theorem World.Valid.idle_of_clearsLatch {d : Nat} (hv : w.Valid) (h : w.clearsLatch d = true) :
    w.Idle d := by
  cases hdet : w.detectors[d]? with
  | none => simp [World.clearsLatch, hdet] at h
  | some det =>
      rw [World.clearsLatch, hdet, Option.any_some, Bool.and_eq_true] at h
      exact (hv.idle_iff hdet).mpr h.2

/-- Entering a public while no call is in flight leaves the latch clear. -/
theorem World.Idle.progress_enter {d : Nat} (hidle : w.Idle d) (hv : w.Valid)
    (hterm : w.terminating d = false) (id : Nat) (call : CallRecord) :
    ∃ es, ((w.clearIfIdle d).enter d id call).journal = es ++ w.journal ∧
      (∀ e ∈ es, (∀ id vm, e ≠ .detached d id vm) ∧ e ≠ .crashed d) ∧
      Progress d w ((w.clearIfIdle d).enter d id call) es := by
  have hlatch : ((w.clearIfIdle d).enter d id call).latchArmed d = false := by
    rw [latchArmed_of_changesBy ((w.clearIfIdle d).changesBy_enter d id call) fun _ => rfl,
      w.latchArmed_clearIfIdle, hidle.clearsLatch hv hterm, Bool.and_not_self]
  cases hc : w.clearsLatch d with
  | false =>
      rw [clearIfIdle_of_false hc] at hlatch ⊢
      exact ⟨[_], rfl, by simp, .clear hlatch rfl rfl⟩
  | true =>
      rw [clearIfIdle_of_true hc] at hlatch ⊢
      exact ⟨[_, _], rfl, by simp, .clear hlatch rfl rfl⟩

/-! ## Until the next one -/

/-- A run in which no public is entered while no call is in flight. -/
abbrev QuietMoves (d : Nat) : World → World → Prop :=
  Relation.ReflTransGen fun w w' => Move w w' ∧ ¬ (w.Idle d ∧ w.EntersPublic d w')

theorem QuietMoves.moves {d : Nat} (h : QuietMoves d w w') : Moves w w' :=
  Relation.ReflTransGen.mono (fun _ _ h => h.1) _ _ h

/-- The latch is not cleared before the next public that is entered while no call is in flight. -/
theorem QuietMoves.latchArmed {d : Nat} (h : QuietMoves d w w') (hv : w.Valid)
    (ha : w.latchArmed d = true) : w'.latchArmed d = true := by
  induction h with
  | refl => exact ha
  | @tail w₁ w₂ hto hmove ih =>
      have hv₁ := Moves.valid (QuietMoves.moves hto) hv
      cases hl : w₂.latchArmed d with
      | true => rfl
      | false =>
          obtain ⟨hclears, henters⟩ := hmove.1.clears ih hl
          exact absurd ⟨hv₁.idle_of_clearsLatch hclears, henters⟩ hmove.2

theorem runtimeError_of_armed {d vm : Nat} (ha : w.latchArmed d = true)
    (hvm : vm < w.machines.length) (index : Cell) (e : VmError) :
    ∃ w', runtimeError d vm index e w = .ok .suppressed w' ∧
      failureReports d w'.journal = failureReports d w.journal := by
  have hm : w.machines[vm]? = some w.machines[vm] := List.getElem?_eq_getElem hvm
  cases hdet : w.detectors[d]? with
  | none => simp [World.latchArmed, World.registryAt?, hdet] at ha
  | some det =>
      rw [World.latchArmed_of_some hdet] at ha
      rw [runtimeError, bind_of_ok (machine_of_some hm), bind_of_ok (detector_of_some hdet)]
      cases det.registry.find? w.machines[vm].handle with
      | none => exact ⟨_, rfl, rfl⟩
      | some id =>
          cases hh : isHarmless index e with
          | true => exact ⟨w, onRuntimeError_of_harmless hh w, rfl⟩
          | false =>
              obtain ⟨line, hok⟩ := onRuntimeError_of_armed hh hdet ha id vm
              exact ⟨_, hok, rfl⟩

/-! ## Exactly one report -/

/-- Which failures a detector is told of: those of the calls through its interceptors, and those
that the host tells of. -/
structure World.TellsFailures (w : World) (d : Nat) : Prop where
  native : ∀ fuel (a : Activation) index params chain id det m,
    w.detectors[d]? = some det → w.machines[a.vm]? = some m →
    Chain.ExistsIn (.interceptor d id :: chain) w →
    let next := Run.rest chain (Run.dispatch (Run.runWith fuel) a index params chain)
    let w₁ := w.enter d id (det.registry.nextCall m .toNative index)
    failuresOf d ((Run.dispatch (Run.runWith fuel) a index params
        (.interceptor d id :: chain)).after w).journal =
      nativeFailures id a.vm index (m.view.native? index) (next.map fun x => outcome x w₁) ++
        failuresOf d (afterDispatch (m.view.native? index) next w₁).journal
  runPublic : ∀ fuel (a : Activation) index chain id det m,
    w.detectors[d]? = some det → w.machines[a.vm]? = some m →
    Chain.ExistsIn (.interceptor d id :: chain) w →
    let next := Run.rest chain (Run.exec (Run.runWith fuel) a index chain)
    let w₁ := (w.clearIfIdle d).enter d id (det.registry.nextCall m .toPublic index)
    let x := next.getD (fail .notInitialized)
    failuresOf d ((Run.exec (Run.runWith fuel) a index
        (.interceptor d id :: chain)).after w).journal =
      (match outcome x w₁ with
        | .error (.error e) => runtimeFailures id a.vm index e
        | _ => []) ++ failuresOf d (x.after w₁).journal
  host : ∀ vm det m index e, w.detectors[d]? = some det → w.machines[vm]? = some m →
    failuresOf d ((runtimeError d vm index e).after w).journal =
      (match det.registry.find? m.handle with
        | some id => runtimeFailures id vm index e
        | none => []) ++ failuresOf d w.journal

theorem World.Valid.tellsFailures (hv : w.Valid) (d : Nat) : w.TellsFailures d := by
  have hlt : ∀ {w' : World} {vm : Nat} {m : Machine}, Moves w w' → w.machines[vm]? = some m →
      vm < w'.machines.length := fun hmoves hm =>
    hmoves.machines_length.symm ▸ (List.getElem?_eq_some_iff.mp hm).1
  refine ⟨fun fuel a index params chain id det m hdet hm hchain => ?_,
    fun fuel a index chain id det m hdet hm hchain => ?_,
    fun vm det m index e hdet hm => failuresOf_runtimeError hv hdet hm index e⟩
  · refine failuresOf_interceptNative hv hdet hm (hchain d id List.mem_cons_self) ?_
    exact balanced_rest fun w' hmoves => balanced_dispatch (balanced_runWith fuel) a index params
      chain (hchain.tail.mono hmoves.keepsInstances) (hlt hmoves hm)
  · refine failuresOf_interceptExec hv hdet hm (hchain d id List.mem_cons_self) ?_
    exact balanced_rest fun w' hmoves => balanced_exec (balanced_runWith fuel) a index chain
      (hchain.tail.mono hmoves.keepsInstances) (hlt hmoves hm)

theorem World.IsRegistered.hasInstance {d id : Nat} (h : w.IsRegistered d id) (hv : w.Valid) :
    w.HasInstance d id := by
  obtain ⟨r, handle, hr, hid⟩ := h
  exact ⟨r, hr, hv.registered d r hr _ (HandleMap.mem_of_find? hid)⟩

/-- A public that is entered while no call is in flight makes progress until it has left. -/
theorem World.Idle.progress_exec {d id vm : Nat} {next : Option (Act Cell)} (index : Cell)
    (hidle : w.Idle d) (hv : w.Valid) (ht : w.Tracked) (hterm : w.terminating d = false)
    (hreg : w.IsRegistered d id) (hvm : vm < w.machines.length)
    (hnext : ∀ x, next = some x → ∀ w', Moves w w' → Balanced x w') :
    ∃ es, ((interceptExec d id vm index next).after w).journal = es ++ w.journal ∧
      (.crashed d ∉ es → (∀ vm, .detached d id vm ∉ es) →
        Progress d w ((interceptExec d id vm index next).after w) es) := by
  have hid := hreg.hasInstance hv
  obtain ⟨det, i, hdet, -, hlt⟩ := hid.detector
  have hm : w.machines[vm]? = some w.machines[vm] := List.getElem?_eq_getElem hvm
  have hadmits := w.admits_public hm hdet hlt index
  have hmove := hadmits.move
  have hbody := balanced_answerPublic (hadmits.hasInstance hid)
    (hadmits.lt_machines hvm) index (fun x hx => hnext x hx _ (.single hmove)) (hmove.valid hv)
  obtain ⟨es, hes, hnot, hp⟩ := hidle.progress_enter hv hterm id
    (det.registry.nextCall w.machines[vm] .toPublic index)
  obtain ⟨new, hnew⟩ := hbody.moves.journal
  have hleave : Move _ _ := .leave (hbody.open_eq.trans hadmits.open_eq)
  obtain ⟨new', hnew'⟩ := hleave.journal
  have hv₁ := hmove.valid hv
  have ht₁ := hmove.tracked ht
  have ho := hbody.open_eq.trans hadmits.open_eq ▸ List.mem_cons_self
  rw [after_congr (interceptExec_apply hm hdet id index next), after_ensuring]
  refine ⟨new' ++ (new ++ es), ?_, fun hcrash hdetach => ?_⟩
  · rw [← hnew', ← hnew, hes]
    simp
  simp only [List.mem_append, not_or] at hcrash hdetach
  obtain ⟨r₁, hr₁, -⟩ := hadmits.hasInstance hid
  have hbound := ht₁.bounded ⟨d, id, _⟩ (hadmits.open_eq ▸ List.mem_cons_self) r₁ hr₁
  have hreg₁ := hmove.isRegistered hreg fun vm es' hes' h => by
    obtain rfl := List.append_cancel_right (hes'.symm.trans hes)
    exact (hnot _ h).1 id vm rfl
  obtain ⟨hp₂, hreg₂⟩ := Moves.progress hbody.moves (.single hmove) hv₁ ht₁ ⟨r₁, hr₁, hbound⟩ hreg₁
    hes hp ho new hnew.symm hcrash.2.1 fun vm => (hdetach vm).2.1
  have hkeep := (hbody.moves.tracked ht₁).not_clearsLatch (hbody.moves.valid hv₁) ho hreg₂
  refine hleave.progress ((Relation.ReflTransGen.single hmove).trans hbody.moves) ?_ hnew'.symm hp₂
    hkeep hcrash.1
  rw [← hnew, hes, List.append_assoc]

/-- **Exactly one report for each failing outermost call.** A public that an attached detector
intercepts while no call is in flight makes no report on a failure if nothing fails until it has
left. If something fails, it makes exactly one, which describes the first failure, and until the
next public of this kind the detector suppresses whatever the host tells of. For this the process
must not be about to end, and until the public has left the host must not crash nor the detector be
detached from the machine. The failures are those of `World.TellsFailures`, at all times. -/
theorem one_report_per_failing_call (hw₀ : w₀.Fresh) (hmoves : Moves w₀ w) (d id : Nat)
    (a : Activation) (chain : Chain) (hvm : a.vm < w.machines.length)
    (hchain : Chain.ExistsIn chain w) (hreg : w.IsRegistered d id) (hidle : w.Idle d)
    (hterm : w.terminating d = false) (fuel : Nat) (index : Cell) :
    let w' := (Run.exec (Run.runWith fuel) a index (.interceptor d id :: chain)).after w
    Moves w₀ w' ∧ (∃ es, w'.journal = es ++ w.journal ∧
      (.crashed d ∉ es → (∀ vm, .detached d id vm ∉ es) →
        (failuresOf d es = [] → failureReports d es = []) ∧
        (failuresOf d es ≠ [] →
          (∃ r, failureReports d es = [r] ∧ DescribesFirst d w w' es r) ∧
          ∀ w₂, QuietMoves d w' w₂ → ∀ vm index e, vm < w₂.machines.length →
            ∃ w₃, runtimeError d vm index e w₂ = .ok .suppressed w₃ ∧
              failureReports d w₃.journal = failureReports d w₂.journal))) ∧
      ∀ w₁, Moves w₀ w₁ → w₁.TellsFailures d := by
  intro w'
  have hv := hmoves.valid hw₀.valid
  have hrest : ∀ w₁, Moves w w₁ → Balanced (Run.exec (Run.runWith fuel) a index chain) w₁ :=
    fun w₁ h => balanced_exec (balanced_runWith fuel) a index chain (hchain.mono h.keepsInstances)
      (h.machines_length.symm ▸ hvm)
  have hnext : ∀ x, Run.rest chain (Run.exec (Run.runWith fuel) a index chain) = some x →
      ∀ w₁, Moves w w₁ → Balanced x w₁ := balanced_rest hrest
  have hbalanced : BalancedDeeds w w' :=
    balanced_interceptExec (hreg.hasInstance hv) hvm hnext hv
  have hv' := hbalanced.moves.valid hv
  obtain ⟨es, hes, hprogress⟩ :=
    hidle.progress_exec index hv (hmoves.tracked hw₀.tracked) hterm hreg hvm hnext
  refine ⟨hmoves.trans hbalanced.moves, ⟨es, hes, fun hcrash hdetach => ?_⟩,
    fun w₁ h₁ => (h₁.valid hw₀.valid).tellsFailures d⟩
  cases hprogress hcrash hdetach with
  | clear _ hfailures hreports => exact ⟨fun _ => hreports, fun h => absurd hfailures h⟩
  | @armed r hlatch hfailures hreports hfirst =>
      refine ⟨fun h => absurd h hfailures, fun _ => ⟨⟨r, hreports, hfirst⟩, ?_⟩⟩
      intro w₂ h₂ vm index e hvm₂
      exact runtimeError_of_armed (h₂.latchArmed hv' hlatch) hvm₂ index e

/-- A host whose public calls a native that calls another public, which fails. -/
def failingHost : World where
  machines := [{ Machine.ofSize ⟨1⟩ 64 with
    natives := [{ name := "callback", function := some { address := 0x1000, body := [.exec 1] } }]
    publics := [
      { name := "Main", address := 64, body := [.native 0 []] },
      { name := "Fail", address := 96, body := [.fail .bounds] }] }]
  detectors := [{}]

theorem failingHost_fresh : failingHost.Fresh :=
  World.fresh_of_arePlain rfl (by simp [failingHost]) rfl

def failingHostAttached : World :=
  (Session.performAll 8 [.attach 0 0] failingHost).2

theorem failingHostAttached_idle : failingHostAttached.Idle 0 := by
  have hv : failingHostAttached.Valid :=
    (balancedDeeds_performAll 8 [.attach 0 0] failingHost_fresh.valid).moves.valid
      failingHost_fresh.valid
  obtain ⟨det, hdet, hidle⟩ : ∃ det, failingHostAttached.detectors[0]? = some det ∧
      det.registry.allIdle = true :=
    (Option.any_eq_true (fun det : Detector => det.registry.allIdle) _).mp (by decide +kernel)
  exact (hv.idle_iff hdet).mpr hidle

/-- The failing host tells its detector of failures, and there is one report. -/
theorem failingHost_reports_once :
    let w := failingHostAttached
    let w' := (Run.exec (Run.runWith 8) { vm := 0 } 0 [.interceptor 0 0, .base]).after w
    failingHost.Fresh ∧ Moves failingHost w ∧ w.IsRegistered 0 0 ∧ w.Idle 0 ∧
      w.terminating 0 = false ∧
      ∃ es, w'.journal = es ++ w.journal ∧ failuresOf 0 es ≠ [] ∧
        ∃ r, failureReports 0 es = [r] ∧ DescribesFirst 0 w w' es r := by
  intro w w'
  have hmoves : Moves failingHost w :=
    (balancedDeeds_performAll 8 [.attach 0 0] failingHost_fresh.valid).moves
  have hreg : w.IsRegistered 0 0 := by decide +kernel
  have hterm : w.terminating 0 = false := by decide +kernel
  obtain ⟨-, ⟨es, hes, h⟩, -⟩ := one_report_per_failing_call failingHost_fresh hmoves 0 0
    { vm := 0 } [.base] (by decide +kernel) (fun d id hmem => by simp at hmem) hreg
    failingHostAttached_idle hterm 8 0
  have hmem : ∀ e ∈ es, e ∈ w'.journal := fun e he => hes ▸ List.mem_append_left _ he
  have hcrash : .crashed 0 ∉ w'.journal := by decide +kernel
  have hdetach : (w'.journal.all fun | .detached _ _ _ => false | _ => true) = true := by
    decide +kernel
  have hfailures : failuresOf 0 es ≠ [] := by
    intro hnone
    have heq : failuresOf 0 w'.journal = failuresOf 0 w.journal := by
      rw [hes, failuresOf_append, hnone, List.nil_append]
    exact absurd heq (by decide +kernel)
  obtain ⟨-, hreports⟩ := h (fun hc => hcrash (hmem _ hc)) fun vm hd =>
    Bool.noConfusion (List.all_eq_true.mp hdetach _ (hmem _ hd))
  exact ⟨failingHost_fresh, hmoves, hreg, failingHostAttached_idle, hterm, es, hes, hfailures,
    (hreports hfailures).1⟩

end ScriptDiag
