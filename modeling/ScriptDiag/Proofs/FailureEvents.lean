import ScriptDiag.Proofs.Latch

/-!
# Failures

What counts as a failure that a detector is told of: a native call that does not complete
(`nativeFault?`), a public that gives an error that is not harmless, and the same when the host
tells of it. The journal lists them, and the lemmas here say for each interceptor, whatever it
forwards to, which failures it adds to those of what it forwarded to.
-/

namespace ScriptDiag

open Act

variable {α β : Type} {w w' : World} {d : Nat}

/-! ## Failures and reports in a journal -/

/-- The failures in a journal that a detector was told of, latest first, each with the instance and
the machine. -/
def failuresOf (d : Nat) (es : List Event) : List (Nat × Nat × Failure) :=
  es.filterMap fun
    | .failed d' id vm f => if d' = d then some (id, vm, f) else none
    | _ => none

/-- The reports in a journal that a detector made on failures of scripts, latest first. -/
def failureReports (d : Nat) (es : List Event) : List Report :=
  es.filterMap fun
    | .report d' r => if d' = d ∧ r.isFailure = true then some r else none
    | _ => none

theorem failuresOf_append (es es' : List Event) :
    failuresOf d (es ++ es') = failuresOf d es ++ failuresOf d es' :=
  List.filterMap_append

theorem failureReports_append (es es' : List Event) :
    failureReports d (es ++ es') = failureReports d es ++ failureReports d es' :=
  List.filterMap_append

theorem failuresOf_eq_nil {es : List Event} (h : ∀ e ∈ es, e.isAboutLatch d = false) :
    failuresOf d es = [] := by
  rw [failuresOf, List.filterMap_eq_nil_iff]
  intro e he
  have hnot := h e he
  cases e <;> first | rfl | (simp only [Event.isAboutLatch] at hnot; simp_all)

theorem failureReports_eq_nil {es : List Event} (h : ∀ e ∈ es, e.isAboutLatch d = false) :
    failureReports d es = [] := by
  rw [failureReports, List.filterMap_eq_nil_iff]
  intro e he
  have hnot := h e he
  cases e <;> first | rfl | (simp only [Event.isAboutLatch] at hnot; simp_all)

/-! ## What is a failure -/

/-- Why a native call did not complete: `entry` is what the table has at its index, and `outcome`
how the previous dispatcher ended, if there is one. A forced exit is no failure, and neither is it
when everything is unwound. -/
def nativeFault? (entry : Option NativeEntry) (outcome : Option (Except Stop Cell)) :
    Option NativeFault :=
  match entry with
  | none => some .outOfRange
  | some entry =>
    if !entry.isRegistered then some .unregistered
    else match outcome with
      | none => some (.failed .noCallback)
      | some (.error (.error e)) => if e = .exit then none else some (.failed e)
      | some _ => none

/-- The failures that a native call adds. -/
def nativeFailures (id vm : Nat) (index : Cell) (entry : Option NativeEntry)
    (outcome : Option (Except Stop Cell)) : List (Nat × Nat × Failure) :=
  ((nativeFault? entry outcome).map fun fault => (id, vm, .native index fault)).toList

/-- The failures that an error of a public adds. -/
def runtimeFailures (id vm : Nat) (index : Cell) (e : VmError) : List (Nat × Nat × Failure) :=
  if isHarmless index e then [] else [(id, vm, .runtime index e)]

/-- What an act ends with. -/
def outcome (x : Act α) (w : World) : Except Stop α :=
  match x w with
  | .ok a _ => .ok a
  | .error s _ => .error s

/-! ## What the detector is told -/

theorem failuresOf_cons_failed (id vm : Nat) (f : Failure) (es : List Event) :
    failuresOf d (.failed d id vm f :: es) = (id, vm, f) :: failuresOf d es := by
  simp [failuresOf]

theorem failuresOf_reportFailure (w : World) (id vm : Nat) (det : Detector) (m : Machine)
    (i : Instance) (f : Failure) :
    failuresOf d (w.reportFailure d id vm det m i f).journal =
      (id, vm, f) :: failuresOf d w.journal := by
  rw [World.journal_reportFailure, failuresOf_append, failuresOf_eq_nil World.isAboutLatch_log,
    List.nil_append]
  exact failuresOf_cons_failed id vm f w.journal

theorem failuresOf_onNativeFault {id vm : Nat} (hid : w.HasInstance d id)
    (hvm : vm < w.machines.length) (index : Cell) (fault : NativeFault) :
    failuresOf d ((onNativeFault d id vm index fault).after w).journal =
      (id, vm, .native index fault) :: failuresOf d w.journal := by
  obtain ⟨det, i, hdet, hi, -⟩ := hid.detector
  have hm : w.machines[vm]? = some w.machines[vm] := List.getElem?_eq_getElem hvm
  cases ha : det.registry.latchArmed with
  | true =>
      rw [after_of_ok (onNativeFault_of_armed hdet ha index fault)]
      exact failuresOf_cons_failed id vm _ w.journal
  | false =>
      rw [after_of_ok (onNativeFault_of_clear hdet ha hm hi index fault)]
      exact failuresOf_reportFailure w id vm det _ i _

theorem failuresOf_onRuntimeError {id vm : Nat} (hid : w.HasInstance d id)
    (hvm : vm < w.machines.length) (index : Cell) (e : VmError) :
    failuresOf d ((onRuntimeError d id vm index e).after w).journal =
      runtimeFailures id vm index e ++ failuresOf d w.journal := by
  rw [runtimeFailures]
  obtain ⟨det, i, hdet, hi, -⟩ := hid.detector
  have hm : w.machines[vm]? = some w.machines[vm] := List.getElem?_eq_getElem hvm
  cases h : isHarmless index e with
  | true =>
      rw [after_of_ok (onRuntimeError_of_harmless h w)]
      rfl
  | false =>
      cases ha : det.registry.latchArmed with
      | true =>
          obtain ⟨line, hok⟩ := onRuntimeError_of_armed h hdet ha id vm
          rw [after_of_ok hok]
          exact failuresOf_cons_failed id vm _ w.journal
      | false =>
          have hok := onRuntimeError_of_clear h hdet ha hm hi
          have hreport :=
            failuresOf_reportFailure (d := d) w id vm det w.machines[vm] i (.runtime index e)
          split at hok
          · rw [after_of_ok hok]
            exact hreport
          · rw [after_of_ok hok]
            exact hreport

/-- When the host tells of an error, it counts as the same error given by the public itself, if the
detector is attached to the machine. -/
theorem failuresOf_runtimeError {vm : Nat} {det : Detector} {m : Machine} (hv : w.Valid)
    (hdet : w.detectors[d]? = some det) (hm : w.machines[vm]? = some m) (index : Cell)
    (e : VmError) :
    failuresOf d ((runtimeError d vm index e).after w).journal =
      (match det.registry.find? m.handle with
        | some id => runtimeFailures id vm index e
        | none => []) ++ failuresOf d w.journal := by
  rw [runtimeError, after_bind_of_ok (machine_of_some hm), after_bind_of_ok (detector_of_some hdet)]
  cases hid : det.registry.find? m.handle with
  | some id =>
      exact failuresOf_onRuntimeError (hv.hasInstance hdet hid) (List.getElem?_eq_some_iff.mp hm).1
        index e
  | none => rfl

theorem failuresOf_leaveCall (d₀ id seq : Nat) (w : World) :
    failuresOf d (leaveCall d₀ id seq w).journal = failuresOf d w.journal := by
  rw [journal_leaveCall, failuresOf_append, failuresOf_eq_nil, List.nil_append]
  intro e he
  rcases List.mem_cons.mp he with rfl | he
  · rfl
  · exact World.isAboutLatch_log e he

theorem failuresOf_bind {x : Act α} {f : α → Act β} {failures : List (Nat × Nat × Failure)}
    (hx : failuresOf d (x.after w).journal = failures) (hf : ∀ a w', (f a).after w' = w') :
    failuresOf d ((x >>= f).after w).journal = failures := by
  cases h : x w with
  | ok a w' =>
      rw [after_of_ok h] at hx
      rw [after_bind_of_ok h, hf]
      exact hx
  | error s w' =>
      rw [after_of_error h] at hx
      rw [after_bind_of_error h]
      exact hx

theorem failuresOf_faultNative {id vm : Nat} (hid : w.HasInstance d id)
    (hvm : vm < w.machines.length) (index : Cell) (fault : NativeFault) (e : VmError) :
    failuresOf d ((faultNative d id vm index fault e).after w).journal =
      (id, vm, .native index fault) :: failuresOf d w.journal :=
  failuresOf_bind (failuresOf_onNativeFault hid hvm index fault) fun _ _ => rfl

/-- The world in which an interceptor knows how a native call ends: after the previous dispatcher,
if there is one and the native is registered. -/
def afterDispatch (entry : Option NativeEntry) (next : Option (Act Cell)) (w : World) : World :=
  if entry.any NativeEntry.isRegistered then next.elim w fun x => x.after w else w

/-- The failures that a native call adds to those of the previous dispatcher. -/
theorem failuresOf_interceptNative {id vm : Nat} {index : Cell} {next : Option (Act Cell)}
    {det : Detector} {m : Machine} (hv : w.Valid) (hdet : w.detectors[d]? = some det)
    (hm : w.machines[vm]? = some m) (hid : w.HasInstance d id)
    (hnext : ∀ x, next = some x → ∀ w', Moves w w' → Balanced x w') :
    let w₁ := w.enter d id (det.registry.nextCall m .toNative index)
    failuresOf d ((interceptNative d id vm index next).after w).journal =
      nativeFailures id vm index (m.view.native? index) (next.map fun x => outcome x w₁) ++
        failuresOf d (afterDispatch (m.view.native? index) next w₁).journal := by
  obtain ⟨det', -, hdet', -, hlt⟩ := hid.detector
  obtain rfl := Option.some.inj (hdet.symm.trans hdet')
  have hadmits := w.admits_native hm hdet hlt index
  have hid₁ := hadmits.hasInstance hid
  have hvm₁ := hadmits.lt_machines (List.getElem?_eq_some_iff.mp hm).1
  intro w₁
  have hm₁ : w₁.machines[vm]? = some m := hadmits.machine hm
  rw [after_congr (interceptNative_apply hm hdet id index next), after_ensuring,
    failuresOf_leaveCall, nativeFailures, afterDispatch]
  cases hentry : m.view.native? index with
  | none =>
      rw [after_congr (answerNative_of_none hm₁ hentry d id next)]
      exact failuresOf_faultNative hid₁ hvm₁ index _ _
  | some entry =>
      cases hreg : entry.isRegistered with
      | false =>
          rw [after_congr (answerNative_of_unregistered hm₁ hentry hreg d id next)]
          simp only [nativeFault?, hreg, Option.any_some]
          exact failuresOf_faultNative hid₁ hvm₁ index _ _
      | true =>
          simp only [nativeFault?, hreg, Option.any_some]
          cases next with
          | none =>
              rw [after_congr (answerNative_of_last hm₁ hentry hreg d id)]
              exact failuresOf_faultNative hid₁ hvm₁ index _ _
          | some x =>
              rw [after_congr (answerNative_of_registered hm₁ hentry hreg d id x)]
              have hbalanced := hnext x rfl w₁ (.single hadmits.move) (hadmits.move.valid hv)
              have hid₂ := hid₁.mono hbalanced.moves.keepsInstances
              have hvm₂ := hbalanced.moves.machines_length.symm ▸ hvm₁
              simp only [Option.map_some, Option.elim_some, outcome]
              cases hx : x w₁ with
              | ok value w₂ =>
                  rw [after_of_ok hx]
                  exact congrArg (fun w => failuresOf d w.journal)
                    (after_bind_of_ok (attempt_of_ok hx))
              | error s w₂ =>
                  rw [after_of_error hx] at hid₂ hvm₂ ⊢
                  cases s with
                  | error e =>
                      refine (congrArg (fun w => failuresOf d w.journal)
                        (after_bind_of_ok (attempt_of_error hx))).trans ?_
                      cases e with
                      | exit => rfl
                      | _ => exact failuresOf_faultNative hid₂ hvm₂ index _ _
                  | panic | outOfFuel =>
                      exact congrArg (fun w => failuresOf d w.journal)
                        (after_bind_of_error (attempt_of_stop hx (by simp)))

theorem failuresOf_interceptExec {id vm : Nat} {index : Cell} {next : Option (Act Cell)}
    {det : Detector} {m : Machine} (hv : w.Valid) (hdet : w.detectors[d]? = some det)
    (hm : w.machines[vm]? = some m) (hid : w.HasInstance d id)
    (hnext : ∀ x, next = some x → ∀ w', Moves w w' → Balanced x w') :
    let w₁ := (w.clearIfIdle d).enter d id (det.registry.nextCall m .toPublic index)
    let x := next.getD (fail .notInitialized)
    failuresOf d ((interceptExec d id vm index next).after w).journal =
      (match outcome x w₁ with
        | .error (.error e) => runtimeFailures id vm index e
        | _ => []) ++ failuresOf d (x.after w₁).journal := by
  obtain ⟨det', -, hdet', -, hlt⟩ := hid.detector
  obtain rfl := Option.some.inj (hdet.symm.trans hdet')
  have hadmits := w.admits_public hm hdet hlt index
  have hid₁ := hadmits.hasInstance hid
  have hvm₁ := hadmits.lt_machines (List.getElem?_eq_some_iff.mp hm).1
  intro w₁ x
  have hbalanced : BalancedDeeds w₁ (x.after w₁) := by
    cases next with
    | none => exact .refl w₁
    | some x => exact hnext x rfl w₁ (.single hadmits.move) (hadmits.move.valid hv)
  have hid₂ := hid₁.mono hbalanced.moves.keepsInstances
  have hvm₂ := hbalanced.moves.machines_length.symm ▸ hvm₁
  rw [after_congr (interceptExec_apply hm hdet id index next), after_ensuring,
    failuresOf_leaveCall, answerPublic, outcome]
  cases hx : x w₁ with
  | ok value w₂ =>
      rw [after_of_ok hx]
      exact congrArg (fun w => failuresOf d w.journal) (after_bind_of_ok (attempt_of_ok hx))
  | error s w₂ =>
      rw [after_of_error hx] at hid₂ hvm₂ ⊢
      cases s with
      | error e =>
          refine (congrArg (fun w => failuresOf d w.journal)
            (after_bind_of_ok (attempt_of_error hx))).trans ?_
          exact failuresOf_bind (failuresOf_onRuntimeError hid₂ hvm₂ index e) fun _ _ => rfl
      | panic | outOfFuel =>
          exact congrArg (fun w => failuresOf d w.journal)
            (after_bind_of_error (attempt_of_stop hx (by simp)))

end ScriptDiag
