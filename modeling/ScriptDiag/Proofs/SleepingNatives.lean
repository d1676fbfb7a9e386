import ScriptDiag.Proofs.AccountedRuns
import ScriptDiag.Proofs.Causes

/-!
# Forced exits and sleep

A forced exit and sleep are no failures: scripts stop by them, and do not fail. They are mild. The
interceptor of publics lets both pass; the interceptor of natives lets only forced exits pass, and
takes a native that sleeps for one that failed. So a run in which all errors are mild goes unnoticed
as long as no native sleeps below an interceptor, and each such sleep is told as a failure and
turned into another error (`mild_runs_unnoticed_unless_naps`).
-/

namespace ScriptDiag

open Act

variable {w w₀ : World}

/-! ## Mild steps -/

/-- Whether an error is no failure: a forced exit, or sleep. -/
def VmError.isMild (e : VmError) : Bool :=
  e == .exit || e == .sleep

namespace ErrorStep

/-- Whether only mild errors are raised in a step, by whomever, and no call is refused. -/
def isMild : ErrorStep → Bool
  | .raised e | .told _ _ _ _ e => e.isMild
  | .refused _ _ _ => false
  | .crossed _ _ _ => true

/-- Whether a native sleeps in a step, and an interceptor sees it. -/
def isNap : ErrorStep → Bool
  | .crossed c (.error (.error .sleep)) _ => c.kind == .toNative
  | _ => false

end ErrorStep

theorem VmError.mild_cases {e : VmError} (h : e.isMild = true) : e = .exit ∨ e = .sleep := by
  simpa [isMild] using h

theorem isHarmless_of_isMild {e : VmError} (h : e.isMild = true) (index : Cell) :
    isHarmless index e = true := by
  rw [VmError.isMild] at h
  rw [isHarmless, h, Bool.true_or]

/-- What is mild passes an interceptor untold and unchanged, unless a native sleeps. -/
theorem Crossing.passes_mild {c : Crossing} {e : VmError} (he : e.isMild = true)
    (hnap : ¬ (c.kind = .toNative ∧ e = .sleep)) :
    c.failure? e = none ∧ c.kind.passOn (.error (.error e)) = .error (.error e) := by
  rw [failure?]
  cases hkind : c.kind with
  | toPublic => exact ⟨if_pos (isHarmless_of_isMild he _), rfl⟩
  | toNative =>
      obtain rfl : e = .exit := (VmError.mild_cases he).resolve_right fun h => hnap ⟨hkind, h⟩
      exact ⟨rfl, rfl⟩

theorem eq_of_errorOf?_eq_some {received : Except Stop Cell} {e : VmError}
    (h : errorOf? received = some e) : received = .error (.error e) := by
  rcases received with (_ | _ | _) | _
  · exact congrArg (fun e => Except.error (Stop.error e)) (Option.some.inj h)
  all_goals cases h

theorem CallKind.passOn_of_errorOf?_eq_none {received : Except Stop Cell}
    (h : errorOf? received = none) (kind : CallKind) : kind.passOn received = received := by
  rcases received with (_ | _ | _) | _
  · cases h
  all_goals cases kind <;> rfl

/-! ## Orderly accounts of mild runs -/

theorem Orderly.passOn {steps : List ErrorStep} (h : Orderly steps) {c : Crossing}
    {received returned : Except Stop Cell} (hmem : .crossed c received returned ∈ steps) :
    returned = c.kind.passOn received := by
  induction h with
  | nil => cases hmem
  | step _ hfollows ih =>
      rcases List.mem_append.mp hmem with hmem | hmem
      · exact ih hmem
      · obtain rfl := List.mem_singleton.mp hmem
        exact hfollows.1

/-- An interceptor returns what it received. -/
def ErrorStep.ReturnsSame : ErrorStep → Prop
  | .crossed _ received returned => returned = received
  | _ => True

/-- Whether a step tells no detector of a failure, and only mild errors go up from it, those that an
interceptor received as they were. -/
structure ErrorStep.IsUnseen (s : ErrorStep) : Prop where
  untold : s.event? = none
  given : ∀ e, s.given? = some e → e.isMild = true
  same : s.ReturnsSame

theorem ErrorStep.isUnseen_crossed {c : Crossing} {received returned : Except Stop Cell}
    (hreturned : returned = c.kind.passOn received)
    (hmild : ∀ e, errorOf? received = some e → e.isMild = true)
    (hnap : (ErrorStep.crossed c received returned).isNap = false) :
    (ErrorStep.crossed c received returned).IsUnseen := by
  cases he : errorOf? received with
  | none =>
      have hsame := CallKind.passOn_of_errorOf?_eq_none he c.kind
      obtain rfl := hreturned.trans hsame
      refine ⟨by rw [event?, he]; rfl, fun e' he' => ?_, rfl⟩
      cases he.symm.trans he'
  | some e =>
      have hmild' := hmild e he
      obtain rfl := eq_of_errorOf?_eq_some he
      have hawake : ¬ (c.kind = .toNative ∧ e = .sleep) := by
        rintro ⟨hkind, rfl⟩
        simp [isNap, hkind] at hnap
      obtain ⟨hnone, hsame⟩ := Crossing.passes_mild hmild' hawake
      obtain rfl := hreturned.trans hsame
      refine ⟨by rw [event?, he, Option.bind_some, hnone]; rfl, fun e' he' => ?_, rfl⟩
      exact Option.some.inj he' ▸ hmild'

/-- In an orderly account of mild steps in which no native sleeps, all is unseen. -/
theorem Orderly.isUnseen {steps : List ErrorStep} (h : Orderly steps)
    (hmild : ∀ s ∈ steps, s.isMild = true) (hnap : ∀ s ∈ steps, s.isNap = false) :
    ∀ s ∈ steps, s.IsUnseen := by
  induction h with
  | nil =>
      intro s hs
      cases hs
  | @step past s _ hfollows ih =>
      have hpast := ih (fun s hs => hmild s (List.mem_append_left _ hs))
        fun s hs => hnap s (List.mem_append_left _ hs)
      have hs : s ∈ past ++ [s] := List.mem_append_right _ (List.mem_singleton.mpr rfl)
      have hmild := hmild s hs
      have hnap := hnap s hs
      intro s' hs'
      rcases List.mem_append.mp hs' with hs' | hs'
      · exact hpast s' hs'
      obtain rfl := List.mem_singleton.mp hs'
      cases s' with
      | raised e => exact ⟨rfl, fun e' he => Option.some.inj he ▸ hmild, trivial⟩
      | refused c fault e => cases hmild
      | told d id vm index e =>
          have hnone := (Crossing.passes_mild (c := ⟨d, id, vm, .toPublic, index⟩) hmild
            fun h => CallKind.noConfusion h.1).1
          refine ⟨by rw [ErrorStep.event?, hnone]; rfl, fun e' he => ?_, trivial⟩
          cases he
      | crossed c received returned =>
          refine ErrorStep.isUnseen_crossed hfollows.1 (fun e he => ?_) hnap
          obtain ⟨s, hs, hgiven⟩ := hfollows.2 e he
          exact (hpast s hs).given e hgiven

/-! ## Runs with mild errors only -/

/-- No detector is told of a failure in the events `es`, and whatever a detector reports or demands,
or arms its latch for, is an interrupt or a crash. -/
structure Unnoticed (es : List Event) : Prop where
  failures : ∀ e ∈ es, e.isFailed = false
  reports : ∀ d r, .report d r ∈ es →
    r.kind = .interrupt ∧ .interruptTaken d ∈ es ∨ r.kind = .hostCrash ∧ .crashed d ∈ es
  demands : ∀ d kind pending, .terminate d kind pending ∈ es →
    kind = .hostCrash ∧ .crashed d ∈ es
  latch : ∀ d, .latchArmed d ∈ es → .crashed d ∈ es

theorem Unnoticed.of_causes {es : List Event} (hcauses : ∀ e ∈ es, e.HasCause es)
    (hfailures : ∀ e ∈ es, e.isFailed = false) : Unnoticed es := by
  have hnot : ∀ d, ¬ ToldOf d es := by
    rintro d ⟨id, vm, f, hmem⟩
    cases hfailures _ hmem
  refine ⟨hfailures, fun d r hmem => ?_, fun d kind pending hmem => ?_, fun d hmem => ?_⟩
  · exact (hcauses _ hmem).imp_right fun h => h.resolve_right (hnot d)
  · exact (hcauses _ hmem).resolve_right (hnot d)
  · exact (hcauses _ hmem).resolve_right (hnot d)

/-- What a native that sleeps is taken for. -/
theorem failed_mem_of_nap {c : Crossing} {returned : Except Stop Cell} {steps : List ErrorStep}
    (hmem : .crossed c (.error (.error .sleep)) returned ∈ steps) (hkind : c.kind = .toNative) :
    .failed c.detector c.instanceId c.vm (.native c.index (.failed .sleep)) ∈
      steps.filterMap ErrorStep.event? := by
  refine List.mem_filterMap.mpr ⟨_, hmem, ?_⟩
  rw [ErrorStep.event?, errorOf?, Option.bind_some, Crossing.failure?, hkind]
  rfl

/-- **Forced exits and sleep are no failures, unless a native sleeps.** At every moment of every run
from a world in which no detector was used, let a session follow whose errors are all mild: bodies,
layers, machines and the host raise forced exits and sleep only, and no interceptor has to refuse a
call, since all natives are there. Detectors are told of what the account says and of nothing else,
and interceptors return what they have to pass on. If no native sleeps below an interceptor, the run
goes unnoticed, and each interceptor returns the same forced exit or sleep that it received. If one
does, another error is returned, and it is told as a failure of the native; and if the latch was
clear and the host does not crash, there is a report on a failure, and the latch is armed. -/
theorem mild_runs_unnoticed_unless_naps (hw₀ : w₀.Fresh) (hmoves : Moves w₀ w) (fuel : Nat)
    (steps : List Step) (hmild : ∀ s ∈ Account.performAll fuel steps w, s.isMild = true) :
    let account := Account.performAll fuel steps w
    ∃ es, (Session.performAll fuel steps w).2.journal = es ++ w.journal ∧
      es.filter Event.isFailed = (account.filterMap ErrorStep.event?).reverse ∧
      (∀ c received returned, .crossed c received returned ∈ account →
        returned = c.kind.passOn received) ∧
      ((∀ s ∈ account, s.isNap = false) →
        Unnoticed es ∧
          ∀ c received returned, .crossed c received returned ∈ account →
            returned = received ∧
              ∀ e, errorOf? received = some e → e = .exit ∨ e = .sleep) ∧
      ∀ c returned, .crossed c (.error (.error .sleep)) returned ∈ account → c.kind = .toNative →
        returned = .error (.error .nativeFailed) ∧
          .failed c.detector c.instanceId c.vm (.native c.index (.failed .sleep)) ∈ es ∧
          (w.latchArmed c.detector = false → .crashed c.detector ∉ es →
            failureReports c.detector es ≠ [] ∧ .latchArmed c.detector ∈ es) := by
  intro account
  have hv := hmoves.valid hw₀.valid
  have hbalanced := balancedDeeds_performAll fuel steps hv
  obtain ⟨horderly, htold⟩ := account_performAll fuel steps hv
  obtain ⟨es, hes, hcauses⟩ := Turns.causes hbalanced.turns
  have hfailed : es.filter Event.isFailed = (account.filterMap ErrorStep.event?).reverse := by
    rw [World.told, hes, List.filter_append] at htold
    exact List.append_cancel_right htold
  refine ⟨es, hes, hfailed, fun c received returned hmem => horderly.passOn hmem, fun hawake => ?_,
    fun c returned hmem hkind => ?_⟩
  · have hunseen := horderly.isUnseen hmild hawake
    have hnone : account.filterMap ErrorStep.event? = [] :=
      List.filterMap_eq_nil_iff.mpr fun s hs => (hunseen s hs).untold
    rw [hnone, List.reverse_nil, List.filter_eq_nil_iff] at hfailed
    refine ⟨.of_causes hcauses fun e he => Bool.eq_false_iff.mpr (hfailed e he),
      fun c received returned hmem => ?_⟩
    obtain rfl : returned = received := (hunseen _ hmem).same
    exact ⟨rfl, fun e he => VmError.mild_cases ((hunseen _ hmem).given e he)⟩
  · have htells : .failed c.detector c.instanceId c.vm (.native c.index (.failed .sleep)) ∈ es := by
      have hevent := List.mem_reverse.mpr (failed_mem_of_nap hmem hkind)
      rw [← hfailed] at hevent
      exact (List.mem_filter.mp hevent).1
    refine ⟨by rw [horderly.passOn hmem, hkind]; rfl, htells, fun hclear hcrash => ?_⟩
    obtain ⟨es', hes', hfirst⟩ := Moves.reportsFirst hbalanced.moves hclear
    obtain rfl : es' = es := List.append_cancel_right (hes'.symm.trans hes)
    rcases hfirst hcrash with ⟨-, hnone⟩ | ⟨harmed, hreports⟩
    · have hfailure : (c.instanceId, c.vm, Failure.native c.index (.failed .sleep)) ∈
          failuresOf c.detector es' :=
        List.mem_filterMap.mpr ⟨_, htells, if_pos rfl⟩
      rw [hnone] at hfailure
      cases hfailure
    · exact ⟨hreports, harmed⟩

/-- A host whose script tries a native that exits, and sleeps then. -/
def drowsyHost : World where
  machines := [{ Machine.ofSize ⟨1⟩ 64 with
    natives := [{ name := "stop", function := some { address := 0x1000, body := [.fail .exit] } }]
    publics := [{
      name := "Main", address := 64, body := [.attempt [.native 0 []], .fail .sleep] }] }]
  detectors := [{}]

theorem drowsyHost_fresh : drowsyHost.Fresh :=
  World.fresh_of_arePlain rfl (by simp [drowsyHost]) rfl

/-- Nobody notices what the drowsy host does. -/
theorem drowsyHost_unnoticed :
    let steps := [.attach 0 0, .exec 0 0]
    drowsyHost.Fresh ∧ (∀ s ∈ Account.performAll 8 steps drowsyHost, s.isMild = true) ∧
      ∃ es, (Session.performAll 8 steps drowsyHost).2.journal = es ++ drowsyHost.journal ∧
        Unnoticed es := by
  intro steps
  have hmild : ∀ s ∈ Account.performAll 8 steps drowsyHost, s.isMild = true := by decide +kernel
  have hawake : ∀ s ∈ Account.performAll 8 steps drowsyHost, s.isNap = false := by decide +kernel
  obtain ⟨es, hes, -, -, hunnoticed, -⟩ :=
    mild_runs_unnoticed_unless_naps drowsyHost_fresh .refl 8 steps hmild
  exact ⟨drowsyHost_fresh, hmild, es, hes, (hunnoticed hawake).1⟩

/-- A host whose script calls a native that sleeps. -/
def nappingHost : World where
  machines := [{ Machine.ofSize ⟨1⟩ 64 with
    natives := [{ name := "nap", function := some { address := 0x1000, body := [.fail .sleep] } }]
    publics := [{ name := "Main", address := 64, body := [.native 0 []] }] }]
  detectors := [{}]

/-- The native's sleep goes up through both interceptors: the first makes a failure of it. -/
example :
    Account.performAll 8 [.attach 0 0, .exec 0 0] nappingHost =
      [.raised .sleep,
        .crossed ⟨0, 0, 0, .toNative, 0⟩ (.error (.error .sleep)) (.error (.error .nativeFailed)),
        .crossed ⟨0, 0, 0, .toPublic, 0⟩ (.error (.error .nativeFailed))
          (.error (.error .nativeFailed))] := by
  decide +kernel

/-- Only sleep is raised, and yet the script ends with another error, a failure is reported, and the
latch is armed. -/
theorem nappingHost_is_reported :
    let steps := [.attach 0 0, .exec 0 0]
    let w := (Session.performAll 8 steps nappingHost).2
    (∀ s ∈ Account.performAll 8 steps nappingHost, s.isMild = true) ∧
      (Session.performAll 8 steps nappingHost).1 =
        [.done (.ok ()), .result (.error .nativeFailed)] ∧
      (failureReports 0 w.journal).map Report.kind = [.nativeCallFailure] ∧
      w.latchArmed 0 = true := by
  decide +kernel

end ScriptDiag
