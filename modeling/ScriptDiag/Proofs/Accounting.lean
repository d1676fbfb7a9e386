import ScriptDiag.Proofs.ErrorAccounts
import ScriptDiag.Proofs.Growth

/-!
# What an account says

The account of an act in a valid world says three things of it (`Accounted`). It is orderly: what an
interceptor receives was raised, or returned by another interceptor, before, and what it returns is
what it has to pass on. An error that the act ends with is in the account. And what the journal
tells of failures is what the account does, no more and no less.

As for `Balanced`, there is a law for each way to combine acts, and then one for each interceptor,
whatever it forwards to. `ScriptDiag.Proofs.AccountedRuns` goes on to the acts of machines and
hosts.
-/

namespace ScriptDiag

open Act

variable {α β : Type} {w w' : World}

/-! ## What the journal tells -/

/-- What detectors were told of failures, latest first. -/
def World.told (w : World) : List Event :=
  w.journal.filter Event.isFailed

theorem World.GrowsBy.told_eq (h : w.GrowsBy (fun e => e.isFailed = false) w') :
    w'.told = w.told := by
  obtain ⟨es, hes, hnot⟩ := h
  have hnone : es.filter Event.isFailed = [] :=
    List.filter_eq_nil_iff.mpr fun e he => by rw [hnot e he]; exact Bool.false_ne_true
  rw [told, hes, List.filter_append, hnone, List.nil_append, told]

theorem World.told_reportFailure (w : World) (d id vm : Nat) (det : Detector) (m : Machine)
    (i : Instance) (f : Failure) :
    (w.reportFailure d id vm det m i f).told = .failed d id vm f :: w.told := by
  have hlogs := (untold_forM_log (det.sink.emit (det.failureReport m i f)).2 {}).told_eq
  rw [after_of_ok (forM_log_apply _ _), told, journal_logAll, List.append_nil] at hlogs
  rw [told, journal_reportFailure, List.filter_append, hlogs]
  rfl

theorem told_leaveCall (d id seq : Nat) (w : World) : (leaveCall d id seq w).told = w.told :=
  (growsBy_leaveCall (fun _ h => h) seq w).told_eq

theorem onNativeFault_told {d id vm : Nat} (hid : w.HasInstance d id)
    (hvm : vm < w.machines.length) (index : Cell) (fault : NativeFault) :
    ∃ disposition w', onNativeFault d id vm index fault w = .ok disposition w' ∧
      w'.told = .failed d id vm (.native index fault) :: w.told := by
  obtain ⟨det, i, hdet, hi, -⟩ := hid.detector
  have hm : w.machines[vm]? = some w.machines[vm] := List.getElem?_eq_getElem hvm
  cases ha : det.registry.latchArmed with
  | true => exact ⟨_, _, onNativeFault_of_armed hdet ha index fault, rfl⟩
  | false =>
      exact ⟨_, _, onNativeFault_of_clear hdet ha hm hi index fault,
        w.told_reportFailure d id vm det _ i _⟩

theorem onRuntimeError_told {d id vm : Nat} (hid : w.HasInstance d id)
    (hvm : vm < w.machines.length) (index : Cell) (e : VmError) :
    let c : Crossing := ⟨d, id, vm, .toPublic, index⟩
    ∃ disposition w', onRuntimeError d id vm index e w = .ok disposition w' ∧
      w'.told = ((c.failure? e).map c.failed).toList ++ w.told := by
  intro c
  obtain ⟨det, i, hdet, hi, -⟩ := hid.detector
  have hm : w.machines[vm]? = some w.machines[vm] := List.getElem?_eq_getElem hvm
  cases hh : isHarmless index e with
  | true =>
      have hnone : c.failure? e = none := if_pos hh
      exact ⟨_, _, onRuntimeError_of_harmless hh w, by rw [hnone]; rfl⟩
  | false =>
      have hsome : c.failure? e = some (.runtime index e) :=
        if_neg (Bool.eq_false_iff.mp hh)
      rw [hsome]
      cases ha : det.registry.latchArmed with
      | true =>
          obtain ⟨line, hok⟩ := onRuntimeError_of_armed hh hdet ha id vm
          exact ⟨_, _, hok, rfl⟩
      | false =>
          have hok := onRuntimeError_of_clear hh hdet ha hm hi
          have htold := w.told_reportFailure d id vm det w.machines[vm] i (.runtime index e)
          split at hok
          · exact ⟨_, _, hok, htold⟩
          · exact ⟨_, _, hok, htold⟩

/-! ## Outcomes -/

theorem outcome_of_ok {x : Act α} {a : α} (h : x w = .ok a w') : outcome x w = .ok a := by
  rw [outcome, h]

theorem outcome_of_error {x : Act α} {s : Stop} (h : x w = .error s w') :
    outcome x w = .error s := by
  rw [outcome, h]

theorem outcome_bind_of_ok {x : Act α} {f : α → Act β} {a : α} (h : x w = .ok a w') :
    outcome (x >>= f) w = outcome (f a) w' := by
  rw [outcome, bind_of_ok h, outcome]

theorem outcome_bind_of_error {x : Act α} {f : α → Act β} {s : Stop} (h : x w = .error s w') :
    outcome (x >>= f) w = .error s :=
  outcome_of_error (bind_of_error h)

theorem errorOf?_bind_of_error {x : Act α} {f : α → Act β} {s : Stop} (h : x w = .error s w') :
    errorOf? (outcome (x >>= f) w) = errorOf? (outcome x w) := by
  rw [outcome_bind_of_error h, outcome_of_error h]
  cases s <;> rfl

theorem errorOf?_attempt (x : Act α) (w : World) : errorOf? (outcome (attempt x) w) = none := by
  rw [outcome, attempt]
  rcases x w with ⟨v, w'⟩ | ⟨_ | _ | _, w'⟩ <;> rfl

theorem errorOf?_map (f : α → β) (x : Act α) (w : World) :
    errorOf? (outcome (f <$> x) w) = errorOf? (outcome x w) := by
  rw [outcome, map_apply, outcome]
  rcases x w with ⟨v, w'⟩ | ⟨_ | _ | _, w'⟩ <;> rfl

theorem outcome_congr {x y : Act α} (h : x w = y w') : outcome x w = outcome y w' := by
  rw [outcome, outcome, h]

theorem outcome_ensuring (x : Act α) (f : World → World) (w : World) :
    outcome (ensuring x f) w = outcome x w := by
  rw [outcome, outcome, ensuring]
  cases x w <;> rfl

/-! ## Orderly accounts -/

theorem reverse_filterMap_singleton (f : α → Option β) (x : α) :
    ([x].filterMap f).reverse = (f x).toList := by
  cases h : f x <;> simp [h]

/-- What an interceptor received was given before, and it returns what it has to. -/
def ErrorStep.Follows (past : List ErrorStep) : ErrorStep → Prop
  | .crossed c received returned =>
    returned = c.kind.passOn received ∧
      ∀ e, errorOf? received = some e → ∃ s ∈ past, s.given? = some e
  | _ => True

/-- Each step follows those before it. -/
inductive Orderly : List ErrorStep → Prop where
  | nil : Orderly []
  | step {past : List ErrorStep} {s : ErrorStep} (before : Orderly past)
      (follows : s.Follows past) : Orderly (past ++ [s])

theorem ErrorStep.Follows.after {past : List ErrorStep} {s : ErrorStep} (h : s.Follows past)
    (earlier : List ErrorStep) : s.Follows (earlier ++ past) := by
  cases s with
  | crossed c received returned =>
      refine ⟨h.1, fun e he => ?_⟩
      obtain ⟨s, hs, hgiven⟩ := h.2 e he
      exact ⟨s, List.mem_append_right _ hs, hgiven⟩
  | _ => trivial

theorem Orderly.append {xs ys : List ErrorStep} (hx : Orderly xs) (hy : Orderly ys) :
    Orderly (xs ++ ys) := by
  induction hy with
  | nil => rwa [List.append_nil]
  | step _ hfollows ih =>
      rw [← List.append_assoc]
      exact .step ih (hfollows.after xs)

/-- An account of what the act does in a world. -/
structure Accounted (steps : List ErrorStep) (x : Act α) (w : World) : Prop where
  orderly : Orderly steps
  given : ∀ e, errorOf? (outcome x w) = some e → ∃ s ∈ steps, s.given? = some e
  told : (x.after w).told = (steps.filterMap ErrorStep.event?).reverse ++ w.told

/-- In a valid world, this is the account of the act. -/
def AccountsFor (account : Account) (x : Act α) (w : World) : Prop :=
  w.Valid → Accounted (account w) x w

/-! ## One act after another -/

theorem Account.andThen_of_ok {x : Act α} {b : α → Account} {v : α} (h : x w = .ok v w') :
    Account.andThen x b w = b v w' := by
  rw [Account.andThen, Account.bind, Account.own, outcome_of_ok h, h]
  rfl

theorem accountsFor_own {x : Act α} (hx : Untold x) : AccountsFor (.own x) x w := by
  intro _
  have htold := (hx w).told_eq
  rw [Account.own]
  cases h : errorOf? (outcome x w) with
  | none => exact ⟨.nil, fun e he => (by cases h.symm.trans he), htold⟩
  | some e =>
      refine ⟨.step .nil trivial, fun e' he => ⟨.raised e, List.mem_singleton.mpr rfl, ?_⟩, htold⟩
      exact h.symm.trans he

theorem accountsFor_raise (e : VmError) : AccountsFor (.raise e) (fail e : Act α) w :=
  accountsFor_own (x := fail e) (adds_throw _)

theorem AccountsFor.bind {x : Act α} {f : α → Act β} {a : Account} {b : α → Account}
    (hp : Balanced x w) (hx : AccountsFor a x w)
    (hf : ∀ v w', x w = .ok v w' → Moves w w' → AccountsFor (b v) (f v) w') :
    AccountsFor (.bind x a b) (x >>= f) w := by
  intro hv
  have hmoves := (hp hv).moves
  obtain ⟨horderly, hgiven, htold⟩ := hx hv
  rw [Account.bind]
  cases h : x w with
  | ok v w₁ =>
      rw [after_of_ok h] at hmoves htold
      obtain ⟨horderly₁, hgiven₁, htold₁⟩ := hf v w₁ h hmoves (hmoves.valid hv)
      refine ⟨horderly.append horderly₁, fun e he => ?_, ?_⟩
      · rw [outcome_bind_of_ok h] at he
        obtain ⟨s, hs, hse⟩ := hgiven₁ e he
        exact ⟨s, List.mem_append_right _ hs, hse⟩
      · rw [after_bind_of_ok h, htold₁, htold, List.filterMap_append, List.reverse_append,
          List.append_assoc]
  | error s w₁ =>
      rw [after_of_error h] at htold
      rw [List.append_nil]
      refine ⟨horderly, fun e he => hgiven e ?_, ?_⟩
      · rwa [← errorOf?_bind_of_error (f := f) h]
      · rw [after_bind_of_error h, htold]

theorem AccountsFor.andThen {x : Act α} {f : α → Act β} {b : α → Account} (hp : Balanced x w)
    (hx : Untold x) (hf : ∀ v w', x w = .ok v w' → Moves w w' → AccountsFor (b v) (f v) w') :
    AccountsFor (.andThen x b) (x >>= f) w :=
  .bind hp (accountsFor_own hx) hf

/-- After an act that reads the world, or panics. -/
theorem AccountsFor.bind_of_read {x : Act α} {f : α → Act β} {b : α → Account}
    (h : (∃ v, x w = .ok v w ∧ AccountsFor (b v) (f v) w) ∨ x w = .error .panic w) :
    AccountsFor (.andThen x b) (x >>= f) w := by
  intro hv
  rcases h with ⟨v, hok, hf⟩ | herr
  · obtain ⟨horderly, hgiven, htold⟩ := hf hv
    rw [Account.andThen_of_ok hok]
    refine ⟨horderly, ?_, ?_⟩
    · rwa [outcome_bind_of_ok hok]
    · rwa [after_bind_of_ok hok]
  · have hsteps : Account.andThen x b w = [] := by
      rw [Account.andThen, Account.bind, Account.own, outcome_of_error herr, herr]
      rfl
    rw [hsteps]
    refine ⟨.nil, fun e he => ?_, ?_⟩
    · rw [outcome_bind_of_error herr] at he
      cases he
    · rw [after_bind_of_error herr]
      rfl

theorem AccountsFor.machine_bind {vm : Nat} {f : Machine → Act β} {b : Machine → Account}
    (hf : ∀ m, w.machines[vm]? = some m → AccountsFor (b m) (f m) w) :
    AccountsFor (.andThen (machine vm) b) (machine vm >>= f) w := by
  refine .bind_of_read ?_
  cases h : w.machines[vm]? with
  | none => exact .inr (machine_of_none h)
  | some m => exact .inl ⟨m, machine_of_some h, hf m h⟩

theorem AccountsFor.detector_bind {d : Nat} {f : Detector → Act β} {b : Detector → Account}
    (hf : ∀ det, w.detectors[d]? = some det → AccountsFor (b det) (f det) w) :
    AccountsFor (.andThen (detector d) b) (detector d >>= f) w := by
  refine .bind_of_read ?_
  cases h : w.detectors[d]? with
  | none => exact .inr (detector_of_none h)
  | some det => exact .inl ⟨det, detector_of_some h, hf det h⟩

/-- The act tells no detector of a failure, and ends with no error. -/
structure Quiet (x : Act α) : Prop where
  untold : Untold x
  calm : ∀ w, errorOf? (outcome x w) = none

theorem quiet_pure (a : α) : Quiet (pure a : Act α) :=
  ⟨adds_pure a, fun _ => rfl⟩

theorem quiet_record_bind {e : Event} {f : Unit → Act α} (he : e.isFailed = false)
    (hf : Quiet (f ())) : Quiet (record e >>= f) :=
  ⟨(untold_record he).bind fun _ => hf.untold, fun w => hf.calm (w.record e)⟩

theorem accountsFor_silent {x : Act α} (hx : Quiet x) : AccountsFor .silent x w := by
  refine fun _ => ⟨.nil, fun e he => ?_, (hx.untold w).told_eq⟩
  rw [hx.calm w] at he
  cases he

theorem AccountsFor.then_quiet {x : Act α} {f : α → Act β} {a : Account}
    (hx : AccountsFor a x w) (hf : ∀ v, Quiet (f v)) : AccountsFor a (x >>= f) w := by
  intro hv
  obtain ⟨horderly, hgiven, htold⟩ := hx hv
  cases h : x w with
  | ok v w₁ =>
      refine ⟨horderly, fun e he => ?_, ?_⟩
      · rw [outcome_bind_of_ok h, (hf v).calm] at he
        cases he
      · rw [after_of_ok h] at htold
        rw [after_bind_of_ok h, ((hf v).untold w₁).told_eq, htold]
  | error s w₁ =>
      refine ⟨horderly, fun e he => hgiven e ?_, ?_⟩
      · rwa [← errorOf?_bind_of_error (f := f) h]
      · rw [after_of_error h] at htold
        rw [after_bind_of_error h, htold]

theorem AccountsFor.attempt {x : Act α} {a : Account} (hx : AccountsFor a x w) :
    AccountsFor a (attempt x) w := by
  intro hv
  obtain ⟨horderly, -, htold⟩ := hx hv
  refine ⟨horderly, fun e he => ?_, by rwa [after_attempt]⟩
  rw [errorOf?_attempt] at he
  cases he

theorem AccountsFor.map {x : Act α} {a : Account} (hx : AccountsFor a x w) (f : α → β) :
    AccountsFor a (f <$> x) w := by
  intro hv
  obtain ⟨horderly, hgiven, htold⟩ := hx hv
  refine ⟨horderly, fun e he => hgiven e ?_, by rwa [after_map]⟩
  rwa [← errorOf?_map f]

/-! ## Interceptors -/

section

variable {d id vm : Nat} {index : Cell} {kind : CallKind} {call : CallRecord}

/-- Without a next handler, a native call is never forwarded. -/
theorem Account.refusal?_none (entry : Option NativeEntry) : refusal? entry none ≠ none := by
  cases entry with
  | none => exact nofun
  | some entry => cases h : entry.isRegistered <;> simp [refusal?, h]

theorem faultNative_told (hid : w.HasInstance d id) (hvm : vm < w.machines.length) (index : Cell)
    (fault : NativeFault) (e : VmError) :
    outcome (faultNative d id vm index fault e) w = .error (.error e) ∧
      ((faultNative d id vm index fault e).after w).told =
        .failed d id vm (.native index fault) :: w.told := by
  obtain ⟨disposition, w', hok, htold⟩ := onNativeFault_told hid hvm index fault
  refine ⟨outcome_bind_of_ok hok, ?_⟩
  rw [faultNative, after_bind_of_ok hok]
  exact htold

/-- A native call that an interceptor does not forward. -/
theorem answerNative_refuses {next : Option (Act Cell)} {m : Machine} {fault : NativeFault}
    {e : VmError} (hm : w.machines[vm]? = some m)
    (h : Account.refusal? (m.view.native? index) next = some (fault, e)) (d id : Nat) :
    answerNative d id vm index next w = faultNative d id vm index fault e w := by
  cases hentry : m.view.native? index with
  | none =>
      simp only [hentry, Account.refusal?, Option.some.injEq, Prod.mk.injEq] at h
      obtain ⟨rfl, rfl⟩ := h
      exact answerNative_of_none hm hentry d id next
  | some entry =>
      cases hreg : entry.isRegistered with
      | false =>
          simp only [hentry, Account.refusal?, hreg] at h
          obtain ⟨rfl, rfl⟩ := Prod.mk.inj (Option.some.inj h)
          exact answerNative_of_unregistered hm hentry hreg d id next
      | true =>
          simp only [hentry, Account.refusal?, hreg] at h
          cases next with
          | none =>
              obtain ⟨rfl, rfl⟩ := Prod.mk.inj (Option.some.inj h)
              exact answerNative_of_last hm hentry hreg d id
          | some x => cases h

/-- A native call that an interceptor forwards to `x`. -/
theorem answerNative_forwards {x : Act Cell} {m : Machine} (hm : w.machines[vm]? = some m)
    (h : Account.refusal? (m.view.native? index) (some x) = none) (d id : Nat) :
    answerNative d id vm index (some x) w =
      (attempt x >>= settleNative d id vm index) w := by
  cases hentry : m.view.native? index with
  | none => simp [hentry, Account.refusal?] at h
  | some entry =>
      cases hreg : entry.isRegistered with
      | false => simp [hentry, Account.refusal?, hreg] at h
      | true => exact answerNative_of_registered hm hentry hreg d id x

/-- What an interceptor tells of a native that was run, and what it passes on. -/
theorem settleNative_told {x : Act Cell} (hid : (x.after w).HasInstance d id)
    (hvm : vm < (x.after w).machines.length) :
    let c : Crossing := ⟨d, id, vm, .toNative, index⟩
    let y := attempt x >>= settleNative d id vm index
    outcome y w = CallKind.toNative.passOn (outcome x w) ∧
      (y.after w).told =
        (((errorOf? (outcome x w)).bind c.failure?).map c.failed).toList ++ (x.after w).told := by
  intro c y
  cases hx : x w with
  | ok value w₁ =>
      rw [outcome_of_ok hx, after_of_ok hx]
      exact ⟨outcome_bind_of_ok (attempt_of_ok hx),
        congrArg World.told (after_bind_of_ok (attempt_of_ok hx))⟩
  | error s w₁ =>
      rw [outcome_of_error hx]
      rw [after_of_error hx] at hid hvm ⊢
      cases s with
      | error e =>
          have hattempt := attempt_of_error hx
          have hfault := fun e => faultNative_told hid hvm index (.failed e) .nativeFailed
          cases e with
          | exit =>
              exact ⟨outcome_bind_of_ok hattempt, congrArg World.told (after_bind_of_ok hattempt)⟩
          | _ =>
              exact ⟨(outcome_bind_of_ok hattempt).trans (hfault _).1,
                (congrArg World.told (after_bind_of_ok hattempt)).trans (hfault _).2⟩
      | panic | outOfFuel =>
          have hattempt := attempt_of_stop hx (by simp)
          exact ⟨outcome_bind_of_error hattempt,
            congrArg World.told (after_bind_of_error hattempt)⟩

theorem interceptNative_refuses {next : Option (Act Cell)} {m : Machine} {fault : NativeFault}
    {e : VmError} (hid : w.HasInstance d id) (hm : w.machines[vm]? = some m)
    (h : Account.refusal? (m.view.native? index) next = some (fault, e)) :
    outcome (interceptNative d id vm index next) w = .error (.error e) ∧
      ((interceptNative d id vm index next).after w).told =
        .failed d id vm (.native index fault) :: w.told := by
  obtain ⟨det, i, hdet, -, hlt⟩ := hid.detector
  have happly := interceptNative_apply hm hdet id index next
  rw [outcome_congr happly, after_congr happly, outcome_ensuring, after_ensuring, told_leaveCall]
  have hadmits := w.admits_native hm hdet hlt index
  have hrefuses := answerNative_refuses (hadmits.machine hm) h d id
  rw [outcome_congr hrefuses, after_congr hrefuses]
  exact faultNative_told (hadmits.hasInstance hid)
    (hadmits.lt_machines (List.getElem?_eq_some_iff.mp hm).1) index fault e

/-- A public that an interceptor forwards. -/
theorem answerPublic_forwards {next : Option (Act Cell)}
    (hid : ((next.getD (fail .notInitialized)).after w).HasInstance d id)
    (hvm : vm < ((next.getD (fail .notInitialized)).after w).machines.length) :
    let c : Crossing := ⟨d, id, vm, .toPublic, index⟩
    let x := next.getD (fail .notInitialized)
    outcome (answerPublic d id vm index next) w = CallKind.toPublic.passOn (outcome x w) ∧
      ((answerPublic d id vm index next).after w).told =
        (((errorOf? (outcome x w)).bind c.failure?).map c.failed).toList ++ (x.after w).told := by
  intro c x
  rw [answerPublic]
  cases hx : x w with
  | ok value w₁ =>
      rw [outcome_of_ok hx, after_of_ok hx]
      exact ⟨outcome_bind_of_ok (attempt_of_ok hx),
        congrArg World.told (after_bind_of_ok (attempt_of_ok hx))⟩
  | error s w₁ =>
      rw [outcome_of_error hx]
      rw [after_of_error hx] at hid hvm ⊢
      cases s with
      | error e =>
          have hattempt := attempt_of_error hx
          obtain ⟨disposition, w₂, hok, htold⟩ := onRuntimeError_told hid hvm index e
          refine ⟨(outcome_bind_of_ok hattempt).trans (outcome_bind_of_ok hok), ?_⟩
          exact (congrArg World.told ((after_bind_of_ok hattempt).trans
            (after_bind_of_ok hok))).trans htold
      | panic | outOfFuel =>
          have hattempt := attempt_of_stop hx (by simp)
          exact ⟨outcome_bind_of_error hattempt,
            congrArg World.told (after_bind_of_error hattempt)⟩

/-- In a valid world an interceptor enters the call of a native, forwards it to `x`, tells the
detector what that came to, and passes it on. -/
theorem interceptNative_calls {x : Act Cell} {m : Machine} (hid : w.HasInstance d id)
    (hm : w.machines[vm]? = some m)
    (h : Account.refusal? (m.view.native? index) (some x) = none)
    (hp : ∀ w', Moves w w' → Balanced x w') (hv : w.Valid) :
    let c : Crossing := ⟨d, id, vm, .toNative, index⟩
    ∃ call w', enterCall d id vm .toNative index w = .ok call w' ∧ Move w w' ∧
      w'.machines = w.machines ∧
      outcome (interceptNative d id vm index (some x)) w = c.kind.passOn (outcome x w') ∧
        ((interceptNative d id vm index (some x)).after w).told =
          (((errorOf? (outcome x w')).bind c.failure?).map c.failed).toList ++
            (x.after w').told := by
  intro c
  obtain ⟨det, i, hdet, -, hlt⟩ := hid.detector
  have hadmits := w.admits_native hm hdet hlt index
  have hmoves := (Relation.ReflTransGen.single hadmits.move).trans
    (hp _ (.single hadmits.move) (hadmits.move.valid hv)).moves
  have hvm := (List.getElem?_eq_some_iff.mp hm).1
  have happly := interceptNative_apply hm hdet id index (some x)
  have hforwards := answerNative_forwards (hadmits.machine hm) h d id
  refine ⟨_, _, enterCall_apply hm hdet id .toNative index, hadmits.move, rfl, ?_⟩
  rw [outcome_congr happly, after_congr happly, outcome_ensuring, after_ensuring, told_leaveCall,
    outcome_congr hforwards, after_congr hforwards]
  exact settleNative_told (hid.mono (Moves.keepsInstances hmoves))
    ((Moves.machines_length hmoves).symm ▸ hvm)

/-- So it is for publics, without an exception. -/
theorem interceptExec_calls {next : Option (Act Cell)} (hid : w.HasInstance d id)
    (hvm : vm < w.machines.length)
    (hp : ∀ w', Moves w w' → Balanced (next.getD (fail .notInitialized)) w') (hv : w.Valid) :
    let c : Crossing := ⟨d, id, vm, .toPublic, index⟩
    let x := next.getD (fail .notInitialized)
    ∃ call w', (clearLatchIfIdle d >>= fun _ => enterCall d id vm .toPublic index) w =
        .ok call w' ∧ Move w w' ∧
      outcome (interceptExec d id vm index next) w = c.kind.passOn (outcome x w') ∧
        ((interceptExec d id vm index next).after w).told =
          (((errorOf? (outcome x w')).bind c.failure?).map c.failed).toList ++
            (x.after w').told := by
  intro c x
  obtain ⟨det, i, hdet, -, hlt⟩ := hid.detector
  have hm : w.machines[vm]? = some w.machines[vm] := List.getElem?_eq_getElem hvm
  have hadmits := w.admits_public hm hdet hlt index
  have hmoves := (Relation.ReflTransGen.single hadmits.move).trans
    (hp _ (.single hadmits.move) (hadmits.move.valid hv)).moves
  have happly := interceptExec_apply hm hdet id index next
  refine ⟨_, _, enterPublic_apply hm hdet id index, hadmits.move, ?_⟩
  rw [outcome_congr happly, after_congr happly, outcome_ensuring, after_ensuring, told_leaveCall]
  exact answerPublic_forwards (hid.mono (Moves.keepsInstances hmoves))
    ((Moves.machines_length hmoves).symm ▸ hvm)

/-- An interceptor that forwards a call. -/
theorem Accounted.crossing {c : Crossing} {enter : Act CallRecord} {next whole : Act Cell}
    {steps : Account} (henter : enter w = .ok call w') (huntold : Untold enter)
    (hnext : Accounted (steps w') next w')
    (houtcome : outcome whole w = c.kind.passOn (outcome next w'))
    (htold : (whole.after w).told =
      (((errorOf? (outcome next w')).bind c.failure?).map c.failed).toList ++
        (next.after w').told) :
    Accounted (Account.crossing c enter next whole steps w) whole w := by
  have hsame : w'.told = w.told := after_of_ok henter ▸ (huntold w).told_eq
  rw [Account.crossing, Account.andThen_of_ok henter]
  refine ⟨.step hnext.orderly ⟨houtcome, hnext.given⟩, fun e he => ?_, ?_⟩
  · exact ⟨_, List.mem_append_right _ (List.mem_singleton.mpr rfl), he⟩
  · rw [htold, hnext.told, hsame, List.filterMap_append, List.reverse_append, List.append_assoc]
    rw [reverse_filterMap_singleton, ErrorStep.event?]

theorem accountsFor_interceptNative {next : Option (Act Cell)} {steps : Account}
    (hid : w.HasInstance d id) (hvm : vm < w.machines.length)
    (hp : ∀ x, next = some x → ∀ w', Moves w w' → Balanced x w')
    (hnext : ∀ x, next = some x → ∀ w', Moves w w' → AccountsFor steps x w') :
    AccountsFor (.interceptNative ⟨d, id, vm, .toNative, index⟩ next steps)
      (interceptNative d id vm index next) w := by
  intro hv
  have hm : w.machines[vm]? = some w.machines[vm] := List.getElem?_eq_getElem hvm
  rw [Account.interceptNative, Account.andThen_of_ok (machine_of_some hm)]
  cases hrefusal : Account.refusal? (w.machines[vm].view.native? index) next with
  | some refusal =>
      obtain ⟨fault, e⟩ := refusal
      obtain ⟨houtcome, htold⟩ := interceptNative_refuses hid hm hrefusal
      refine ⟨.step .nil trivial, fun e' he => ⟨_, List.mem_singleton.mpr rfl, ?_⟩, htold⟩
      rw [houtcome] at he
      exact he
  | none =>
      cases next with
      | none => exact absurd hrefusal (Account.refusal?_none _)
      | some x =>
          obtain ⟨call, w', henter, hmove, -, houtcome, htold⟩ :=
            interceptNative_calls hid hm hrefusal (hp x rfl) hv
          have hx := hnext x rfl w' (.single hmove) (hmove.valid hv)
          exact .crossing henter (untold_enterCall .toNative index) hx houtcome htold

theorem accountsFor_interceptExec {next : Option (Act Cell)} {steps : Account}
    (hid : w.HasInstance d id) (hvm : vm < w.machines.length)
    (hp : ∀ w', Moves w w' → Balanced (next.getD (fail .notInitialized)) w')
    (hnext : ∀ w', Moves w w' → AccountsFor steps (next.getD (fail .notInitialized)) w') :
    AccountsFor (.interceptExec ⟨d, id, vm, .toPublic, index⟩ next steps)
      (interceptExec d id vm index next) w := by
  intro hv
  obtain ⟨call, w', henter, hmove, houtcome, htold⟩ := interceptExec_calls hid hvm hp hv
  have hx := hnext w' (.single hmove) (hmove.valid hv)
  exact .crossing henter (untold_clearLatchIfIdle.bind fun _ => untold_enterCall .toPublic index) hx
    houtcome htold

end

end ScriptDiag
