import ScriptDiag.Proofs.Deeds

/-!
# Acts that leave the calls in flight as they were

Everything that detectors and interceptors do in a valid world is a run made of deeds (`Deeds`),
and when it is over the calls in flight are those from before, however it ended: this is `Balanced`.
It is shown here for what a detector does and for the interceptors, whatever they forward to;
`ScriptDiag.Proofs.Runs` shows it for bodies and for the steps of a host.

A call that an interceptor tracks is the only thing that changes the calls in flight: it is entered,
something balanced is done, and it leaves as the innermost one again (`World.Admits.balanced`).
-/

namespace ScriptDiag

open Act

variable {α β : Type} {w w' w'' : World}

/-! ## Runs that leave the calls in flight as they were -/

/-- A run after which the calls in flight are those from before. -/
structure BalancedDeeds (w w' : World) : Prop where
  deeds : Deeds w w'
  open_eq : openCalls w'.journal = openCalls w.journal

theorem BalancedDeeds.turns (h : BalancedDeeds w w') : Turns w w' :=
  Deeds.turns h.deeds

theorem BalancedDeeds.moves (h : BalancedDeeds w w') : Moves w w' :=
  h.turns.moves

/-- In a valid world the act is a run that leaves the calls in flight as they were. -/
def Balanced (x : Act α) (w : World) : Prop :=
  w.Valid → BalancedDeeds w (x.after w)

theorem Moves.after {w₀ : World} {x : Act α} (h : Moves w₀ w) (hv : w₀.Valid)
    (hx : Balanced x w) : Moves w₀ (x.after w) :=
  h.trans (hx (h.valid hv)).moves

theorem BalancedDeeds.refl (w : World) : BalancedDeeds w w :=
  ⟨.refl, rfl⟩

theorem BalancedDeeds.trans (h : BalancedDeeds w w') (h' : BalancedDeeds w' w'') :
    BalancedDeeds w w'' :=
  ⟨h.deeds.trans h'.deeds, h'.open_eq.trans h.open_eq⟩

theorem BalancedDeeds.of_turn (h : Turn w w') (hu : w.Unanswered w')
    (ho : openCalls w'.journal = openCalls w.journal) : BalancedDeeds w w' :=
  ⟨.single (.other h hu), ho⟩

theorem BalancedDeeds.of_move (h : Move w w') (hs : w.Mute w')
    (ho : openCalls w'.journal = openCalls w.journal) : BalancedDeeds w w' :=
  .of_turn (.silent h hs.silent) hs.unanswered ho

/-- What no detector takes part in. -/
theorem BalancedDeeds.quiet (es : List Event) (hdet : w'.detectors = w.detectors)
    (hlen : w'.machines.length = w.machines.length)
    (hslots : ∀ m ∈ w'.machines, m.slots.ExistIn w)
    (hes : w'.journal = es ++ w.journal) (hneutral : ∀ e ∈ es, e.isNeutral = true) :
    BalancedDeeds w w' := by
  refine .of_move (.quiet hdet hlen hslots ⟨es, hes, hneutral⟩)
    ⟨es, hes, fun e he => e.isReply_of_isNeutral (hneutral e he)⟩ ?_
  rw [hes, openCalls_append_of_neutral hneutral]

theorem BalancedDeeds.record (hv : w.Valid) {e : Event} (he : e.isNeutral = true) :
    BalancedDeeds w (w.record e) :=
  .quiet [e] rfl rfl hv.slots rfl fun _ h => List.mem_singleton.mp h ▸ he

theorem BalancedDeeds.logAll (hv : w.Valid) (lines : List LogLine) :
    BalancedDeeds w (w.logAll lines) :=
  .quiet _ rfl rfl hv.slots (w.journal_logAll lines) isNeutral_of_mem_log

theorem BalancedDeeds.modifyMachine (hv : w.Valid) (vm : Nat) {f : Machine → Machine}
    (hf : ∀ m, w.machines[vm]? = some m → (f m).slots.ExistIn w) :
    BalancedDeeds w (w.modifyMachine vm f) := by
  refine .quiet [] rfl ?_ ?_ rfl fun _ h => (by cases h)
  · simp [World.modifyMachine]
  · intro m' hmem
    obtain ⟨vm', hvm'⟩ := List.mem_iff_getElem?.mp hmem
    rw [World.getElem?_modifyMachine] at hvm'
    split at hvm'
    case isTrue heq =>
      obtain ⟨m, hm, rfl⟩ := Option.map_eq_some_iff.mp hvm'
      exact hf m (heq ▸ hm)
    case isFalse => exact hv.slots m' (List.mem_of_getElem? hvm')

/-! ## Calls that interceptors admit -/

/-- How the world behind an interceptor of an instance differs from the one in front of it: the call
is on top of the instance's stack. A public may have cleared the latch before. -/
structure World.Admits (d id : Nat) (call : CallRecord) (w w₁ : World) : Prop where
  move : Move w w₁
  machines : w₁.machines = w.machines
  onTop : w₁.calls? d id = (w.calls? d id).map fun calls => calls.enter call
  entered : w₁ = w.enter d id call ∨ w₁ = (w.clearIfIdle d).enter d id call

/-- To do `x` is to do `body` as a call on an instance: with the call on top of the stack, with the
registers of `vm` at the call, and without it afterwards, in whatever way that ends. -/
def RunsAsCall (d id vm : Nat) (kind : CallKind) (index : Cell) (x body : Act α) : Prop :=
  ∀ w m, w.machines[vm]? = some m → w.HasInstance d id →
    ∃ seq w₁, w.Admits d id
        { kind, index, frm := m.registers.frm, cip := m.registers.cip, seq } w₁ ∧
      x w = ensuring body (leaveCall d id seq) w₁

section

variable {w₁ w₂ : World} {d id vm : Nat} {det : Detector} {m : Machine} {call : CallRecord}

theorem World.admits_native (hm : w.machines[vm]? = some m) (hdet : w.detectors[d]? = some det)
    (hid : id < det.registry.instances.length) (index : Cell) :
    w.Admits d id (det.registry.nextCall m .toNative index)
      (w.enter d id (det.registry.nextCall m .toNative index)) :=
  ⟨.enterNative index hdet hm hid, rfl, w.calls?_enter d id _, .inl rfl⟩

theorem World.admits_public (hm : w.machines[vm]? = some m) (hdet : w.detectors[d]? = some det)
    (hid : id < det.registry.instances.length) (index : Cell) :
    w.Admits d id (det.registry.nextCall m .toPublic index)
      ((w.clearIfIdle d).enter d id (det.registry.nextCall m .toPublic index)) := by
  refine ⟨.enterPublic index hdet hm hid, w.machines_clearIfIdle d, ?_, .inr rfl⟩
  rw [calls?_enter, calls?_clearIfIdle]

theorem World.Admits.journal (h : w.Admits d id call w₁) :
    w₁.journal = .entered d id call :: w.journal ∨
      w₁.journal = .entered d id call :: .latchCleared d :: w.journal := by
  rcases h.entered with rfl | rfl
  · exact .inl rfl
  · rw [clearIfIdle]
    split
    · exact .inr rfl
    · exact .inl rfl

theorem World.Admits.open_eq (h : w.Admits d id call w₁) :
    openCalls w₁.journal = ⟨d, id, call⟩ :: openCalls w.journal := by
  rcases h.journal with hj | hj <;> rw [hj] <;> rfl

theorem World.Admits.mute (h : w.Admits d id call w₁) : w.Mute w₁ := by
  rcases h.journal with hj | hj
  · exact ⟨[_], hj, by simp [Event.isReply]⟩
  · exact ⟨[_, _], hj, by simp [Event.isReply]⟩

/-- An interceptor answers a native with the call in flight, with the registers at the call; and the
call leaves in whatever way that ends. -/
theorem interceptNative_admits (hid : w.HasInstance d id) (hm : w.machines[vm]? = some m)
    (index : Cell) :
    ∃ seq w₁, w.Admits d id
        { kind := .toNative, index, frm := m.registers.frm, cip := m.registers.cip, seq } w₁ ∧
      ∀ next, interceptNative d id vm index next w =
        ensuring (answerNative d id vm index next) (leaveCall d id seq) w₁ := by
  obtain ⟨det, i, hdet, -, hlt⟩ := hid.detector
  exact ⟨_, _, w.admits_native hm hdet hlt index, interceptNative_apply hm hdet id index⟩

theorem interceptExec_admits (hid : w.HasInstance d id) (hm : w.machines[vm]? = some m)
    (index : Cell) :
    ∃ seq w₁, w.Admits d id
        { kind := .toPublic, index, frm := m.registers.frm, cip := m.registers.cip, seq } w₁ ∧
      ∀ next, interceptExec d id vm index next w =
        ensuring (answerPublic d id vm index next) (leaveCall d id seq) w₁ := by
  obtain ⟨det, i, hdet, -, hlt⟩ := hid.detector
  exact ⟨_, _, w.admits_public hm hdet hlt index, interceptExec_apply hm hdet id index⟩

/-- What an interceptor does to enter a native is a run. -/
theorem moves_enterNative (hid : w.HasInstance d id) (hvm : vm < w.machines.length) (index : Cell) :
    Moves w ((enterCall d id vm .toNative index).after w) := by
  obtain ⟨det, i, hdet, -, hlt⟩ := hid.detector
  have hm : w.machines[vm]? = some w.machines[vm] := List.getElem?_eq_getElem hvm
  rw [after_of_ok (enterCall_apply hm hdet id .toNative index)]
  exact .single (w.admits_native hm hdet hlt index).move

/-- What an interceptor does to enter a public is one, too. -/
theorem moves_enterPublic (hid : w.HasInstance d id) (hvm : vm < w.machines.length) (index : Cell) :
    Moves w ((clearLatchIfIdle d >>= fun _ => enterCall d id vm .toPublic index).after w) := by
  obtain ⟨det, i, hdet, -, hlt⟩ := hid.detector
  have hm : w.machines[vm]? = some w.machines[vm] := List.getElem?_eq_getElem hvm
  rw [after_of_ok (enterPublic_apply hm hdet id index)]
  exact .single (w.admits_public hm hdet hlt index).move

/-- A call that was admitted leaves again, after something that leaves the calls in flight as they
were. -/
theorem World.Admits.balanced (h : w.Admits d id call w₁)
    (hbody : BalancedDeeds w₁ w₂) : BalancedDeeds w (leaveCall d id call.seq w₂) := by
  have hinner : openCalls w₂.journal = ⟨d, id, call⟩ :: openCalls w.journal :=
    hbody.open_eq.trans h.open_eq
  have hleave := w₂.mute_leaveCall d id call.seq
  refine ⟨(Relation.ReflTransGen.head (.other (.silent h.move h.mute.silent) h.mute.unanswered)
    hbody.deeds).tail (.other (.silent (.leave hinner) hleave.silent) hleave.unanswered), ?_⟩
  rw [journal_leaveCall]
  exact openCalls_leave ((openCalls_append_of_neutral isNeutral_of_mem_log _).trans hinner)

theorem World.Admits.hasInstance {d' id' : Nat} (h : w.Admits d id call w₁)
    (hid : w.HasInstance d' id') : w₁.HasInstance d' id' :=
  hid.mono h.move.keepsInstances

theorem World.Admits.machine (h : w.Admits d id call w₁)
    (hm : w.machines[vm]? = some m) : w₁.machines[vm]? = some m :=
  h.machines ▸ hm

theorem World.Admits.lt_machines (h : w.Admits d id call w₁)
    (hvm : vm < w.machines.length) : vm < w₁.machines.length :=
  h.machines ▸ hvm

end

/-! ## One act after another -/

theorem Balanced.of_valid {x : Act α} (h : w.Valid → Balanced x w) : Balanced x w :=
  fun hv => h hv hv

theorem Balanced.of_ok {x : Act α} {a : α} (hx : x w = .ok a w')
    (h : w.Valid → BalancedDeeds w w') : Balanced x w := by
  intro hv
  rw [after_of_ok hx]
  exact h hv

theorem balanced_pure (a : α) : Balanced (pure a : Act α) w :=
  .of_ok (pure_apply a w) fun _ => .refl w

theorem balanced_throw (s : Stop) : Balanced (throw s : Act α) w :=
  fun _ => .refl w

theorem Balanced.bind {x : Act α} {f : α → Act β} (hx : Balanced x w)
    (hf : ∀ a w', x w = .ok a w' → Moves w w' → Balanced (f a) w') : Balanced (x >>= f) w := by
  intro hv
  have hpx := hx hv
  cases h : x w with
  | ok a w₁ =>
      rw [after_of_ok h] at hpx
      rw [after_bind_of_ok h]
      exact hpx.trans (hf a w₁ h hpx.moves (hpx.moves.valid hv))
  | error s w₁ =>
      rw [after_of_error h] at hpx
      rw [after_bind_of_error h]
      exact hpx

theorem Balanced.bind_of_ok {x : Act α} {f : α → Act β} {a : α} (hx : x w = .ok a w')
    (hp : w.Valid → BalancedDeeds w w') (hf : Moves w w' → Balanced (f a) w') :
    Balanced (x >>= f) w := by
  refine .bind (.of_ok hx hp) fun b w₁ h hmoves => ?_
  obtain ⟨rfl, rfl⟩ := EStateM.Result.ok.inj (hx.symm.trans h)
  exact hf hmoves

theorem Balanced.map {x : Act α} (hx : Balanced x w) (f : α → β) : Balanced (f <$> x) w := by
  intro hv
  rw [after_map]
  exact hx hv

theorem Balanced.seqRight {x : Act α} {y : Act β} (hx : Balanced x w)
    (hy : ∀ a w', x w = .ok a w' → Moves w w' → Balanced y w') : Balanced (x *> y) w :=
  hx.bind hy

theorem Balanced.attempt {x : Act α} (hx : Balanced x w) : Balanced (attempt x) w := by
  intro hv
  rw [after_attempt]
  exact hx hv

theorem Balanced.ofExcept (result : Except VmError α) : Balanced (Act.ofExcept result) w := by
  cases result with
  | ok a => exact balanced_pure a
  | error e => exact balanced_throw (.error e)

theorem Balanced.machine_bind {vm : Nat} {f : Machine → Act β}
    (hf : ∀ m, w.machines[vm]? = some m → Balanced (f m) w) : Balanced (machine vm >>= f) w := by
  cases h : w.machines[vm]? with
  | some m => exact .bind_of_ok (machine_of_some h) (fun _ => .refl w) fun _ => hf m h
  | none =>
      intro _
      rw [after_bind_of_error (machine_of_none h)]
      exact .refl w

theorem Balanced.detector_bind {d : Nat} {f : Detector → Act β}
    (hf : ∀ det, w.detectors[d]? = some det → Balanced (f det) w) :
    Balanced (detector d >>= f) w := by
  cases h : w.detectors[d]? with
  | some det => exact .bind_of_ok (detector_of_some h) (fun _ => .refl w) fun _ => hf det h
  | none =>
      intro _
      rw [after_bind_of_error (detector_of_none h)]
      exact .refl w

/-! ## Basic acts -/

theorem balanced_record {e : Event} (he : e.isNeutral = true) : Balanced (record e) w :=
  .of_ok (record_apply e w) fun hv => .record hv he

theorem balanced_note (n : Note) : Balanced (note n) w :=
  balanced_record rfl

theorem balanced_log (level : LogLevel) (message : String) : Balanced (log level message) w :=
  balanced_record rfl

/-! ## Failures and reports -/

theorem balanced_onNativeFault {d id vm : Nat} (hid : w.HasInstance d id)
    (hvm : vm < w.machines.length) (index : Cell) (fault : NativeFault) :
    Balanced (onNativeFault d id vm index fault) w := by
  obtain ⟨det, i, hdet, hi, -⟩ := hid.detector
  have hm : w.machines[vm]? = some w.machines[vm] := List.getElem?_eq_getElem hvm
  cases ha : det.registry.latchArmed with
  | true =>
      refine .of_ok (onNativeFault_of_armed hdet ha index fault) fun _ => ?_
      exact .of_move (.suppressFailure id vm _ hdet ha) (.one rfl rfl) rfl
  | false =>
      refine .of_ok (onNativeFault_of_clear hdet ha hm hi index fault) fun _ => ?_
      exact .of_turn (.failure hdet ha hm hi nofun) (w.unanswered_reportFailure _ _ _ _ _ _ _)
        (World.openCalls_send _ _ _)

theorem balanced_onRuntimeError {d id vm : Nat} (hid : w.HasInstance d id)
    (hvm : vm < w.machines.length) (index : Cell) (e : VmError) :
    Balanced (onRuntimeError d id vm index e) w := by
  obtain ⟨det, i, hdet, hi, -⟩ := hid.detector
  have hm : w.machines[vm]? = some w.machines[vm] := List.getElem?_eq_getElem hvm
  by_cases hh : isHarmless index e = true
  · exact .of_ok (onRuntimeError_of_harmless hh w) fun _ => .refl w
  rw [Bool.not_eq_true] at hh
  cases ha : det.registry.latchArmed with
  | true =>
      obtain ⟨line, hok⟩ := onRuntimeError_of_armed hh hdet ha id vm
      refine .of_ok hok fun hv => ?_
      have hmove : Move w _ := .suppressFailure id vm (.runtime index e) hdet ha
      exact (BalancedDeeds.of_move hmove (.one rfl rfl) rfl).trans (.record (hmove.valid hv) rfl)
  | false =>
      have hok := onRuntimeError_of_clear hh hdet ha hm hi
      by_cases hdie : det.settings.dieOnError = true
      · rw [if_pos hdie] at hok
        refine .of_ok hok fun _ => ?_
        refine .of_turn (.fatal hdet ha hm hi hdie _) ?_ (World.openCalls_send _ _ _)
        exact (w.unanswered_reportFailure _ _ _ _ _ _ _).trans (World.unanswered_endProcess _ _ _ _)
      · rw [if_neg hdie] at hok
        refine .of_ok hok fun _ => ?_
        exact .of_turn (.failure hdet ha hm hi fun _ => Bool.eq_false_iff.mpr hdie)
          (w.unanswered_reportFailure _ _ _ _ _ _ _) (World.openCalls_send _ _ _)

theorem balanced_runtimeError (d vm : Nat) (index : Cell) (e : VmError) :
    Balanced (runtimeError d vm index e) w := by
  refine .of_valid fun hv => .machine_bind fun m hm => .detector_bind fun det hdet => ?_
  have hvm : vm < w.machines.length := (List.getElem?_eq_some_iff.mp hm).1
  split
  next id hid => exact balanced_onRuntimeError (hv.hasInstance hdet hid) hvm index e
  next => exact (balanced_log _ _).bind fun _ _ _ _ => balanced_pure _

theorem balanced_requestInterrupt (d : Nat) : Balanced (requestInterrupt d) w := by
  cases h : w.detectors[d]? with
  | some det =>
      exact .of_ok (requestInterrupt_apply h) fun _ =>
        .of_move (.interrupt d true) (.one rfl rfl) rfl
  | none =>
      intro _
      rw [requestInterrupt, after_bind_of_error (detector_of_none h)]
      exact .refl w

theorem balanced_noticeInterrupt {d id vm : Nat} (hid : w.HasInstance d id)
    (hvm : vm < w.machines.length) : Balanced (noticeInterrupt d id vm) w := by
  intro _
  refine ⟨.single (.hook hid hvm), ?_⟩
  obtain ⟨det, i, hdet, hi, -⟩ := hid.detector
  obtain ⟨w', hok, ⟨-, rfl⟩ | ⟨-, -, rfl⟩ | ⟨-, -, r, -, rfl⟩⟩ :=
    noticeInterrupt_cases hdet (List.getElem?_eq_getElem hvm) hi
  all_goals rw [after_of_ok hok]
  · rfl
  · exact World.openCalls_send _ _ _

theorem findMachine?_cases (handle : VmHandle) (vms : List Nat) (w : World) :
    (∃ m, findMachine? handle vms w = .ok m w) ∨ ∃ s, findMachine? handle vms w = .error s w := by
  induction vms with
  | nil => exact .inl ⟨none, rfl⟩
  | cons vm vms ih =>
      rw [findMachine?]
      cases h : w.machines[vm]? with
      | none => exact .inr ⟨.panic, bind_of_error (machine_of_none h)⟩
      | some m =>
          rw [Act.bind_of_ok (machine_of_some h)]
          split
          · exact .inl ⟨some m, rfl⟩
          · exact ih

theorem crashReport_cases (d : Nat) (vms : List Nat) (first : Bool) (w : World) :
    (∃ r, crashReport d vms first w = .ok r w ∧ r.kind = .hostCrash) ∨
      ∃ s, crashReport d vms first w = .error s w := by
  rw [crashReport]
  cases hd : w.detectors[d]? with
  | none => exact .inr ⟨.panic, bind_of_error (detector_of_none hd)⟩
  | some det =>
      rw [Act.bind_of_ok (detector_of_some hd)]
      cases det.registry.mostRecentNative? with
      | none => exact .inl ⟨_, rfl, rfl⟩
      | some blamed =>
          obtain ⟨id, call⟩ := blamed
          cases hi : det.registry.instance? id with
          | none =>
              refine .inr ⟨.panic, ?_⟩
              simp only [hi]
              rfl
          | some i =>
              have hfind :
                  (∃ m, (if first then findMachine? i.handle vms else pure none) w = .ok m w) ∨
                  ∃ s, (if first then findMachine? i.handle vms else pure none) w = .error s w := by
                cases first with
                | true => exact findMachine?_cases i.handle vms w
                | false => exact .inl ⟨none, rfl⟩
              simp only [hi]
              rcases hfind with ⟨m, hm⟩ | ⟨s, hs⟩
              · exact .inl ⟨_, Act.bind_of_ok hm, rfl⟩
              · exact .inr ⟨s, bind_of_error hs⟩

/-- The latch is armed and the crash is in the journal, and then it is reported, unless a machine in
the list does not exist. -/
theorem balanced_reportCrash {w₁ : World} {d : Nat} {det : Detector} (es : List Event)
    (hmove : Move w w₁) (hs : w.Mute w₁) (hj : w₁.journal = .crashed d :: es ++ w.journal)
    (ho : openCalls w₁.journal = openCalls w.journal) (hdet : w₁.detectors[d]? = some det)
    (ha : det.registry.latchArmed = true) (vms : List Nat) (first : Bool) :
    BalancedDeeds w ((crashReport d vms first >>= fun r =>
      emit d r >>= fun _ => terminate d .hostCrash).after w₁) := by
  rcases crashReport_cases d vms first w₁ with ⟨r, hok, hr⟩ | ⟨s, herr⟩
  · rw [after_bind_of_ok hok, after_bind_of_ok (emit_apply hdet r),
      after_of_ok (terminate_apply (World.detectors_send hdet r) _)]
    refine .of_turn (.crash es hmove hs.silent hj hdet ha hr _) ?_
      ((World.openCalls_send _ _ _).trans ho)
    have hsent : w₁.Unanswered (w₁.send d det r) := w₁.unanswered_send d det (hr ▸ nofun)
    exact (hs.unanswered.trans hsent).trans (World.unanswered_endProcess _ _ _ _)
  · rw [after_bind_of_error herr]
    exact .of_move hmove hs ho

theorem balanced_crash (d : Nat) (vms : List Nat) : Balanced (crash d vms) w := by
  intro _
  cases hd : w.detectors[d]? with
  | none =>
      have hlatch : armLatch d w = .error .panic w := bind_of_error (detector_of_none hd)
      rw [crash, after_bind_of_error hlatch]
      exact .refl w
  | some det =>
      cases ha : det.registry.latchArmed with
      | true =>
          rw [crash, after_bind_of_ok (armLatch_of_armed hd ha),
            after_bind_of_ok (record_apply _ _)]
          exact balanced_reportCrash [] (.crashAgain hd ha) (.one rfl rfl) rfl rfl hd ha vms false
      | false =>
          have harm : ∀ e ∈ [Event.crashed d, .latchArmed d], e.isReply = false := by
            simp [Event.isReply]
          rw [crash, after_bind_of_ok (armLatch_of_clear hd ha),
            after_bind_of_ok (record_apply _ _)]
          exact balanced_reportCrash [.latchArmed d] (.crash hd ha) ⟨_, rfl, harm⟩ rfl rfl
            (World.detectors_arm w hd) rfl vms true

theorem balanced_trace (d vm : Nat) : Balanced (trace d vm) w :=
  .machine_bind fun _ _ => .detector_bind fun _ _ => balanced_pure _

theorem balanced_probe (d vm : Nat) : Balanced (probe d vm) w :=
  .machine_bind fun _ _ => .detector_bind fun _ _ => balanced_pure _

/-! ## Attaching and detaching -/

theorem loadInstance_apply (m : Machine) (w : World) :
    loadInstance m w =
      .ok (Instance.load w.files m.view m.slots).1
        (w.logAll (Instance.load w.files m.view m.slots).2) := by
  rw [loadInstance, Act.bind_of_ok (get_apply w)]
  exact Act.bind_of_ok (forM_log_apply _ w)

/-- If the handle is free, the instance is registered and the interceptors are in the slots. -/
theorem install_apply {d : Nat} {det : Detector} (vm : Nat) (m : Machine) (i : Instance)
    (hdet : w.detectors[d]? = some det) (hfree : det.registry.contains m.handle = false) :
    ∃ line, install d vm det m i w =
      .ok (.ok ()) ((w.attach d vm det m.handle i).record (.log line)) := by
  have hinsert : (det.registry.create i).2.insert (det.registry.create i).1 m.handle =
      .ok (det.registry.enroll m.handle i) := if_neg (Bool.eq_false_iff.mp hfree)
  have hworld := World.modifyDetector_congr (w := w) (d := d) hdet
    (f := fun det' => { det' with
      registry := det.registry.enroll m.handle i
      installed := det'.installed.insert m.handle det.registry.instances.length })
    (g := fun det' => { det' with
      registry := det'.registry.enroll m.handle i
      installed := det'.installed.insert m.handle det.registry.instances.length }) rfl
  rw [install]
  simp only [hinsert]
  rw [Act.bind_of_ok (modify_apply _ _), Act.bind_of_ok (modify_apply _ _),
    Act.bind_of_ok (record_apply _ _), Act.bind_of_ok (log_apply _ _ _), pure_apply, World.attach,
    ← hworld]
  exact ⟨_, rfl⟩

theorem balanced_install {d vm : Nat} {det : Detector} {m : Machine} {i : Instance}
    (hdet : w.detectors[d]? = some det) (hm : w.machines[vm]? = some m)
    (hfree : det.registry.contains m.handle = false) (hidle : i.calls = [])
    (hprev : i.previous = m.slots) : Balanced (install d vm det m i) w := by
  obtain ⟨line, hinstall⟩ := install_apply vm m i hdet hfree
  refine .of_ok hinstall fun hv => ?_
  have hmove : Move w (w.attach d vm det m.handle i) := .attach hdet hm hfree hidle hprev
  exact (BalancedDeeds.of_move hmove (.one rfl rfl) rfl).trans (.record (hmove.valid hv) rfl)

theorem balanced_attach (d vm : Nat) : Balanced (attach d vm) w := by
  refine .machine_bind fun m hm => .detector_bind fun det hdet => ?_
  by_cases hc : det.registry.contains m.handle = true
  · rw [if_pos hc]
    exact balanced_pure _
  · rw [if_neg hc]
    refine .bind_of_ok (forM_log_apply _ w) (fun hv => .logAll hv _) fun _ => ?_
    refine .bind_of_ok (loadInstance_apply m _) (fun hv => .logAll hv _) fun _ => ?_
    exact balanced_install hdet hm (Bool.eq_false_iff.mpr hc) rfl rfl

theorem Slots.ExistIn.restore {s before : Slots} (hs : s.ExistIn w) (hb : before.ExistIn w)
    (link : Link) : (s.restore link before).ExistIn w := by
  have hchain : ∀ chain previous : Chain, Chain.ExistsIn chain w → Chain.ExistsIn previous w →
      Chain.ExistsIn (Slots.restoreChain link chain previous) w := by
    intro chain previous hc hp
    rw [Slots.restoreChain]
    split
    · exact hp
    · exact hc
  exact ⟨hchain _ _ hs.hook hb.hook, hchain _ _ hs.dispatcher hb.dispatcher,
    hchain _ _ hs.exec hb.exec⟩

theorem balanced_restoreSlots (d vm : Nat) (m : Machine) {before : Slots} (hb : before.ExistIn w)
    (ours : Option Nat) : Balanced (restoreSlots d vm m before ours) w := by
  cases ours with
  | none => exact balanced_pure ()
  | some ours =>
      refine .bind_of_ok (modify_apply _ w) (fun hv => ?_) fun _ => ?_
      · refine .modifyMachine hv vm fun m' hm' => ?_
        exact (hv.slots m' (List.mem_of_getElem? hm')).restore hb (.interceptor d ours)
      · split
        · exact balanced_log _ _
        · exact balanced_pure _

theorem balanced_detach (d vm : Nat) : Balanced (detach d vm) w := by
  refine .of_valid fun hv => .machine_bind fun m hm => .detector_bind fun det hdet => ?_
  cases hid : det.registry.find? m.handle with
  | none =>
      rw [Registry.remove, hid]
      exact balanced_pure _
  | some id =>
      have hworld : (w.modifyDetector d fun det' => { det' with
          registry := det.registry.dismiss m.handle
          installed := det'.installed.erase m.handle }).record (.detached d id vm) =
          w.detach d id vm m.handle :=
        congrArg (World.record · _) (World.modifyDetector_congr hdet rfl)
      have hmove : Move w (w.detach d id vm m.handle) := .detach hdet hm hid
      have hbefore : ((((det.registry.dismiss m.handle).instance? id).map Instance.previous).getD
          Slots.none).ExistIn (w.detach d id vm m.handle) := by
        cases hi : (det.registry.dismiss m.handle).instance? id with
        | none => exact Slots.existIn_none
        | some i =>
            exact (hv.previous d _ (World.registryAt?_of_some hdet) i
              (List.mem_of_getElem? hi)).mono hmove.keepsInstances
      rw [Registry.remove, hid]
      intro _
      refine (BalancedDeeds.of_move hmove (.one rfl rfl) rfl).trans ?_
      rw [← hworld] at hbefore hmove ⊢
      rw [Option.map_some, after_bind_of_ok (modify_apply _ w), after_bind_of_ok (record_apply _ _)]
      have htail := (balanced_restoreSlots d vm m hbefore (det.installed.find? m.handle)).bind
        fun _ w' _ _ => (balanced_log (w := w') .debug s!"detached from {m.handle.text}").bind
          fun _ w' _ _ => balanced_pure (w := w') (Except.ok () : Except DiagError Unit)
      exact htail (hmove.valid hv)

/-! ## Interceptors -/

theorem balanced_interceptHook {d id vm : Nat} {next : Act Unit} (hid : w.HasInstance d id)
    (hvm : vm < w.machines.length) (hnext : ∀ w', Moves w w' → Balanced next w') :
    Balanced (interceptHook d id vm next) w := by
  rw [interceptHook_eq]
  exact (balanced_noticeInterrupt hid hvm).bind fun _ w' _ h => hnext w' h

theorem balanced_faultNative {d id vm : Nat} (hid : w.HasInstance d id)
    (hvm : vm < w.machines.length) (index : Cell) (fault : NativeFault) (e : VmError) :
    Balanced (faultNative d id vm index fault e) w :=
  (balanced_onNativeFault hid hvm index fault).bind fun _ _ _ _ => balanced_throw _

theorem balanced_settleNative {d id vm : Nat} (hid : w.HasInstance d id)
    (hvm : vm < w.machines.length) (index : Cell) (result : Except VmError Cell) :
    Balanced (settleNative d id vm index result) w := by
  rw [settleNative.eq_def]
  split
  · exact balanced_pure _
  · exact balanced_throw _
  · exact balanced_faultNative hid hvm index _ _

theorem balanced_answerNative {d id vm : Nat} {index : Cell} {next : Option (Act Cell)}
    (hid : w.HasInstance d id) (hvm : vm < w.machines.length)
    (hnext : ∀ x, next = some x → Balanced x w) : Balanced (answerNative d id vm index next) w := by
  refine Balanced.machine_bind fun m _ => ?_
  split
  · exact balanced_faultNative hid hvm index _ _
  · split
    · exact balanced_faultNative hid hvm index _ _
    · cases next with
      | none => exact balanced_faultNative hid hvm index _ _
      | some next =>
          exact (hnext next rfl).attempt.bind fun result w' _ h =>
            balanced_settleNative (hid.mono h.keepsInstances) (h.machines_length.symm ▸ hvm) index
              result

theorem balanced_interceptNative {d id vm : Nat} {index : Cell} {next : Option (Act Cell)}
    (hid : w.HasInstance d id) (hvm : vm < w.machines.length)
    (hnext : ∀ x, next = some x → ∀ w', Moves w w' → Balanced x w') :
    Balanced (interceptNative d id vm index next) w := by
  intro hv
  obtain ⟨seq, w₁, hadmits, happly⟩ :=
    interceptNative_admits hid (List.getElem?_eq_getElem hvm) index
  rw [after_congr (happly next), after_ensuring]
  exact hadmits.balanced (balanced_answerNative (hadmits.hasInstance hid) (hadmits.lt_machines hvm)
    (fun x hx => hnext x hx w₁ (.single hadmits.move)) (hadmits.move.valid hv))

theorem balanced_answerPublic {d id vm : Nat} {next : Option (Act Cell)}
    (hid : w.HasInstance d id) (hvm : vm < w.machines.length) (index : Cell)
    (hnext : ∀ x, next = some x → Balanced x w) : Balanced (answerPublic d id vm index next) w := by
  have hrest : Balanced (next.getD (fail .notInitialized)) w := by
    cases next with
    | none => exact balanced_throw _
    | some next => exact hnext next rfl
  refine hrest.attempt.bind fun result w' _ h => ?_
  cases result with
  | ok value => exact balanced_pure _
  | error e =>
      have hvm' : vm < w'.machines.length := h.machines_length.symm ▸ hvm
      exact (balanced_onRuntimeError (hid.mono h.keepsInstances) hvm' index e).bind
        fun _ _ _ _ => .ofExcept _

theorem balanced_interceptExec {d id vm : Nat} {index : Cell} {next : Option (Act Cell)}
    (hid : w.HasInstance d id) (hvm : vm < w.machines.length)
    (hnext : ∀ x, next = some x → ∀ w', Moves w w' → Balanced x w') :
    Balanced (interceptExec d id vm index next) w := by
  intro hv
  obtain ⟨seq, w₁, hadmits, happly⟩ :=
    interceptExec_admits hid (List.getElem?_eq_getElem hvm) index
  rw [after_congr (happly next), after_ensuring]
  exact hadmits.balanced (balanced_answerPublic (hadmits.hasInstance hid) (hadmits.lt_machines hvm)
    index (fun x hx => hnext x hx w₁ (.single hadmits.move)) (hadmits.move.valid hv))

end ScriptDiag
