import ScriptDiag.Proofs.Latch

/-!
# When the latch is cleared

The latch is cleared at the start of a public, and then exactly if every call in flight is on an
instance that is no longer registered (`latch_clears_iff_attached_idle`). A detector does not see
the calls of an instance from which it was detached. So if a native detaches the machine that
called it, and calls back into another machine, the latch is cleared while the failure reported
before is still on its way out, and that failure is reported once more:
`latch_clears_with_calls_in_flight` is such a session. Where no instance is detached while it has a
call in flight, the theorem says that no call is in flight when the latch is cleared, and that two
reports of failures have such a moment between them.
-/

namespace ScriptDiag

open Act

variable {w w' w₀ : World}

/-! ## What the journal tells of it -/

/-- An event of a longer journal is a new one, or one from before. -/
theorem append_eq_append_cons (es : List Event) {J after before : List Event} {e : Event}
    (h : es ++ J = after ++ e :: before) :
    (∃ rest, es = after ++ e :: rest ∧ before = rest ++ J) ∨
      ∃ rest, after = es ++ rest ∧ J = rest ++ e :: before := by
  rcases List.append_eq_append_iff.mp h with ⟨rest, rfl, hJ⟩ | ⟨rest, rfl, hJ⟩
  · exact .inr ⟨rest, rfl, hJ⟩
  · cases rest with
    | nil => exact .inr ⟨[], by simp, by simpa using hJ.symm⟩
    | cons e' rest =>
        obtain ⟨rfl, rfl⟩ := List.cons.inj hJ
        exact .inl ⟨rest, rfl, rfl⟩

/-- Each time the latch was cleared there was a moment that allowed it. -/
theorem Moves.moment_of_latchCleared {d : Nat} (h : Moves w₀ w) (h₀ : w₀.journal = [])
    (after before : List Event) (hj : w.journal = after ++ .latchCleared d :: before) :
    ∃ w₁, Moves w₀ w₁ ∧ Moves w₁ w ∧ w₁.journal = before ∧ w₁.clearsLatch d = true := by
  induction h generalizing after before with
  | refl =>
      rw [h₀] at hj
      simp at hj
  | @tail w₂ w hmoves hmove ih =>
      have hold : ∀ rest, w₂.journal = rest ++ .latchCleared d :: before →
          ∃ w₁, Moves w₀ w₁ ∧ Moves w₁ w ∧ w₁.journal = before ∧ w₁.clearsLatch d = true := by
        intro rest hrest
        obtain ⟨w₁, h₁, h₂, hb, hc⟩ := ih rest before hrest
        exact ⟨w₁, h₁, h₂.tail hmove, hb, hc⟩
      have hnew : ∀ es : List Event, w.journal = es ++ w₂.journal → Event.latchCleared d ∉ es →
          ∃ w₁, Moves w₀ w₁ ∧ Moves w₁ w ∧ w₁.journal = before ∧ w₁.clearsLatch d = true := by
        intro es hes hnot
        rcases append_eq_append_cons es (hes.symm.trans hj) with ⟨rest, rfl, -⟩ | ⟨rest, -, hrest⟩
        · exact absurd (List.mem_append_right _ List.mem_cons_self) hnot
        · exact hold rest hrest
      cases hmove.latch d with
      | keep es _ hes hnone =>
          refine hnew es hes fun hmem => ?_
          simpa [Event.isAboutLatch] using hnone _ hmem
      | suppress _ _ hes => exact hnew [_] hes (by simp)
      | report _ _ _ _ _ hes hquiet =>
          refine hnew _ (hes.trans (List.append_assoc _
            [Event.report d _, .latchArmed d, .failed d _ _ _] _).symm) fun hmem => ?_
          rcases List.mem_append.mp hmem with hmem | hmem
          · exact Bool.noConfusion (hquiet _ hmem)
          · simp at hmem
      | crash es _ hes harmed =>
          refine hnew (.crashed d :: es) hes ?_
          rcases harmed with ⟨rfl, -⟩ | ⟨rfl, -⟩ <;> simp
      | clear hdet hm hclears _ hes =>
          rcases append_eq_append_cons [_, .latchCleared d] (hes.symm.trans hj) with
            ⟨rest, heq, hb⟩ | ⟨rest, -, hrest⟩
          · have hrest : rest = [] := by
              rcases after with _ | ⟨e, after⟩
              · cases heq
              · have hlen := congrArg List.length heq
                simp only [List.length_append, List.length_cons, List.length_nil] at hlen
                exact List.eq_nil_of_length_eq_zero (by omega)
            subst hrest
            exact ⟨w₂, hmoves, .single hmove, hb.symm, hclears⟩
          · exact hold rest hrest

/-! ## Reports of failures -/

/-- Whether an event is a report of a detector on a failure of a script. -/
def Event.isFailureReport (d : Nat) : Event → Bool
  | .report d' r => d' == d && r.isFailure
  | _ => false

/-- Whether the latch was cleared since the last report on a failure. -/
def clearedSinceReport (d : Nat) : List Event → Bool
  | [] => true
  | e :: past => e == .latchCleared d || (!e.isFailureReport d && clearedSinceReport d past)

/-- Whether the latch was cleared between any two reports on failures. -/
def reportsSeparated (d : Nat) : List Event → Bool
  | [] => true
  | e :: past => (!e.isFailureReport d || clearedSinceReport d past) && reportsSeparated d past

theorem Event.isFailureReport_of_not_aboutLatch {d : Nat} {e : Event}
    (h : e.isAboutLatch d = false) : e.isFailureReport d = false := by
  cases e <;> first | rfl | exact h

theorem clearedSinceReport_append {d : Nat} (es : List Event)
    (h : ∀ e ∈ es, e.isFailureReport d = false) {past : List Event}
    (hpast : clearedSinceReport d past = true) : clearedSinceReport d (es ++ past) = true := by
  induction es with
  | nil => exact hpast
  | cons e es ih =>
      have hes := ih fun e' he' => h e' (List.mem_cons_of_mem _ he')
      rw [List.cons_append, clearedSinceReport, h e List.mem_cons_self, hes]
      simp

theorem reportsSeparated_append {d : Nat} (es : List Event)
    (h : ∀ e ∈ es, e.isFailureReport d = false) {past : List Event}
    (hpast : reportsSeparated d past = true) : reportsSeparated d (es ++ past) = true := by
  induction es with
  | nil => exact hpast
  | cons e es ih =>
      have hes := ih fun e' he' => h e' (List.mem_cons_of_mem _ he')
      rw [List.cons_append, reportsSeparated, h e List.mem_cons_self, hes]
      rfl

theorem latchCleared_mem_of_clearedSinceReport {d : Nat} {r : Report} {after before : List Event}
    (h : clearedSinceReport d (after ++ .report d r :: before) = true)
    (hr : r.isFailure = true) : .latchCleared d ∈ after := by
  induction after with
  | nil => simp [clearedSinceReport, Event.isFailureReport, hr] at h
  | cons e after ih =>
      rw [List.cons_append, clearedSinceReport, Bool.or_eq_true, Bool.and_eq_true, beq_iff_eq] at h
      rcases h with rfl | ⟨-, h⟩
      · exact List.mem_cons_self
      · exact List.mem_cons_of_mem _ (ih h)

theorem latchCleared_mem_of_reportsSeparated {d : Nat} {r r' : Report}
    {after between before : List Event}
    (h : reportsSeparated d (after ++ .report d r' :: (between ++ .report d r :: before)) = true)
    (hr : r.isFailure = true) (hr' : r'.isFailure = true) : .latchCleared d ∈ between := by
  induction after with
  | nil =>
      rw [List.nil_append, reportsSeparated, Event.isFailureReport, hr'] at h
      simp only [BEq.rfl, Bool.and_true, Bool.not_true, Bool.false_or, Bool.and_eq_true] at h
      exact latchCleared_mem_of_clearedSinceReport h.1 hr
  | cons e after ih =>
      rw [List.cons_append, reportsSeparated, Bool.and_eq_true] at h
      exact ih h.2

/-- A clear latch was cleared since the last report, and so it is between two reports. -/
structure World.SeparatesReports (d : Nat) (w : World) : Prop where
  clear : w.latchArmed d = false → clearedSinceReport d w.journal = true
  reports : reportsSeparated d w.journal = true

theorem Move.separatesReports {d : Nat} (h : Move w w') (hs : w.SeparatesReports d) :
    w'.SeparatesReports d := by
  have hnone : ∀ es, w'.journal = es ++ w.journal → (∀ e ∈ es, e.isFailureReport d = false) →
      reportsSeparated d w'.journal = true ∧
        (w.latchArmed d = false → clearedSinceReport d w'.journal = true) := by
    intro es hes hnot
    rw [hes]
    exact ⟨reportsSeparated_append es hnot hs.reports,
      fun hc => clearedSinceReport_append es hnot (hs.clear hc)⟩
  cases h.latch d with
  | keep es hl hes hnot =>
      have h := hnone _ hes fun e he => Event.isFailureReport_of_not_aboutLatch (hnot e he)
      exact ⟨fun hc => h.2 (hl.symm.trans hc), h.1⟩
  | suppress _ ha hes =>
      have h := hnone [_] hes fun e he => List.mem_singleton.mp he ▸ rfl
      exact ⟨fun hc => absurd (ha.symm.trans hc) Bool.noConfusion, h.1⟩
  | @report _ id vm det m i f logs _ _ _ hb ha hes hquiet =>
      refine ⟨fun hc => absurd (ha.symm.trans hc) Bool.noConfusion, ?_⟩
      rw [hes]
      refine reportsSeparated_append logs (fun e he => Event.isFailureReport_of_not_aboutLatch
        (e.isAboutLatch_of_isNeutral d (hquiet e he))) ?_
      have hsince := clearedSinceReport_append (d := d) [.latchArmed d, .failed d id vm f]
        (by simp [Event.isFailureReport]) (hs.clear hb)
      have hsep := reportsSeparated_append (d := d) [.latchArmed d, .failed d id vm f]
        (by simp [Event.isFailureReport]) hs.reports
      rw [reportsSeparated]
      simp only [List.cons_append, List.nil_append] at hsince hsep
      rw [hsince, hsep]
      simp
  | crash es ha hes harmed =>
      have h := hnone (.crashed d :: es) hes (by
        rcases harmed with ⟨rfl, -⟩ | ⟨rfl, -⟩ <;> simp [Event.isFailureReport])
      exact ⟨fun hc => absurd (ha.symm.trans hc) Bool.noConfusion, h.1⟩
  | clear _ _ _ _ hes =>
      have h := hnone [_, .latchCleared d] hes (by simp [Event.isFailureReport])
      refine ⟨fun _ => ?_, h.1⟩
      rw [hes]
      simp [clearedSinceReport, Event.isFailureReport]

theorem Moves.separatesReports {d : Nat} (h : Moves w w') (hs : w.SeparatesReports d) :
    w'.SeparatesReports d := by
  induction h with
  | refl => exact hs
  | tail _ hmove ih => exact hmove.separatesReports ih

theorem World.Fresh.separatesReports (hf : w.Fresh) (d : Nat) : w.SeparatesReports d := by
  constructor
  · rw [hf.journal]
    exact fun _ => rfl
  · rw [hf.journal]
    rfl

/-! ## Exactly when -/

/-- **The latch is cleared exactly at the start of a public, when every call in flight is on an
instance that is no longer registered.** So no call at all is in flight then exactly if those in
flight are on registered instances, and two reports of failures have such a moment between them. -/
theorem latch_clears_iff_attached_idle (hw₀ : w₀.Fresh) (d : Nat) :
    (∀ fuel steps, Moves w₀ (Session.performAll fuel steps w₀).2) ∧
      ∀ w, Moves w₀ w →
        (∀ w', Move w w' → w.latchArmed d = true → w'.latchArmed d = false →
          w.clearsLatch d = true ∧ w.EntersPublic d w') ∧
        (∀ det, w.detectors[d]? = some det → clearLatchIfIdle d w = .ok () (w.clearIfIdle d)) ∧
        ((w.clearIfIdle d).latchArmed d = (w.latchArmed d && !w.clearsLatch d)) ∧
        (w.clearsLatch d = true ↔
          w.latchArmed d = true ∧ w.terminating d = false ∧
            ∀ o ∈ openCalls w.journal, o.detector = d → ¬ w.IsRegistered d o.instanceId) ∧
        (w.clearsLatch d = true →
          ((∀ o ∈ openCalls w.journal, o.detector ≠ d) ↔
            ∀ o ∈ openCalls w.journal, o.detector = d → w.IsRegistered d o.instanceId)) ∧
        ∀ later r' between r earlier,
          w.journal = later ++ .report d r' :: (between ++ .report d r :: earlier) →
          r.isFailure = true → r'.isFailure = true →
          ∃ w₁ after before, between = after ++ .latchCleared d :: before ∧
            Moves w₀ w₁ ∧ Moves w₁ w ∧ w₁.journal = before ++ .report d r :: earlier ∧
            w₁.clearsLatch d = true := by
  refine ⟨fun fuel steps => (balancedDeeds_performAll fuel steps hw₀.valid).moves,
    fun w hmoves => ?_⟩
  have hclears := (hmoves.tracked hw₀.tracked).clearsLatch_iff (hmoves.valid hw₀.valid) d
  refine ⟨fun w' hmove => hmove.clears, fun det hdet => clearLatchIfIdle_apply hdet,
    w.latchArmed_clearIfIdle d, hclears,
    fun hc => ⟨fun hnone o ho hod => ?_, fun hall o ho hod => ?_⟩,
    fun later r' between r earlier hj hr hr' => ?_⟩
  · exact absurd hod (hnone o ho)
  · exact (hclears.mp hc).2.2 o ho hod (hall o ho hod)
  · have hsep := (hmoves.separatesReports (hw₀.separatesReports d)).reports
    rw [hj] at hsep
    obtain ⟨after, before, rfl⟩ :=
      List.append_of_mem (latchCleared_mem_of_reportsSeparated hsep hr hr')
    obtain ⟨w₁, h₁, h₂, hb, hc⟩ := hmoves.moment_of_latchCleared (d := d) hw₀.journal
      (later ++ .report d r' :: after) (before ++ .report d r :: earlier)
      (by rw [hj]; simp)
    exact ⟨w₁, after, before, rfl, h₁, h₂, hb, hc⟩

/-- A host whose first script calls a native. The native calls the second script, which fails, and
then cleans up before it fails itself: it detaches the first script, and calls the second one once
more. -/
def detachingHost : World where
  machines := [
    { Machine.ofSize ⟨1⟩ 64 with
      natives := [{ name := "cleanup", function := some { address := 0x1000, body :=
        [.attempt [.execOn 1 0], .detach 0, .execOn 1 1, .fail .bounds] } }]
      publics := [{ name := "Main", address := 64, body := [.native 0 []] }] },
    { Machine.ofSize ⟨2⟩ 64 with
      publics := [
        { name := "Fail", address := 64, body := [.fail .bounds] },
        { name := "Ok", address := 96, body := [] }] }]
  detectors := [{}]

theorem detachingHost_fresh : detachingHost.Fresh :=
  World.fresh_of_arePlain rfl (by simp [detachingHost]) rfl

/-- The detaching host while its native runs. -/
def detachingHostCalled : World :=
  let w := (Session.performAll 8 [.attach 0 0, .attach 0 1] detachingHost).2
  let w := (clearLatchIfIdle 0 >>= fun _ => enterCall 0 0 0 .toPublic 0).after w
  (enterCall 0 0 0 .toNative 0).after w

theorem moves_detachingHostCalled : Moves detachingHost detachingHostCalled := by
  have h₀ : Moves detachingHost (Session.performAll 8 [.attach 0 0, .attach 0 1] detachingHost).2 :=
    (balancedDeeds_performAll 8 _ detachingHost_fresh.valid).moves
  have h₁ := h₀.trans (moves_enterPublic (by decide +kernel : World.HasInstance _ 0 0)
    (by decide +kernel : 0 < _) 0)
  exact h₁.trans (moves_enterNative (by decide +kernel : World.HasInstance _ 0 0)
    (by decide +kernel : 0 < _) 0)

/-- The detaching host when its native let the second script fail. -/
def detachingHostFailed : World :=
  (attempt (Run.callPublic (Run.runWith 8) { vm := 1, outer := [0] } 0)).after detachingHostCalled

theorem moves_detachingHostFailed : Moves detachingHost detachingHostFailed :=
  moves_detachingHostCalled.after detachingHost_fresh.valid
    (balanced_callPublic (balanced_runWith 8) { vm := 1, outer := [0] } 0).attempt

/-- The latch is armed, and two calls of the first script are in flight. Until it is detached, no
public clears the latch; then the next one does. -/
theorem detachingHost_clears_once_detached :
    let w := detachingHostFailed
    let w' := (detach 0 0).after w
    detachingHost.Fresh ∧ Moves detachingHost w ∧ Moves detachingHost w' ∧
      w.latchArmed 0 = true ∧ w'.latchArmed 0 = true ∧
      (openCalls w.journal).map OpenCall.instanceId = [0, 0] ∧
      (openCalls w'.journal).map OpenCall.instanceId = [0, 0] ∧
      w.IsRegistered 0 0 ∧ ¬ w'.IsRegistered 0 0 ∧
      w.clearsLatch 0 = false ∧ (w.clearIfIdle 0).latchArmed 0 = true ∧
      w'.clearsLatch 0 = true ∧ (w'.clearIfIdle 0).latchArmed 0 = false := by
  intro w w'
  obtain ⟨-, hmoments⟩ := latch_clears_iff_attached_idle detachingHost_fresh 0
  have hmoves : Moves detachingHost w := moves_detachingHostFailed
  have hmoves' : Moves detachingHost w' :=
    hmoves.after detachingHost_fresh.valid (balanced_detach 0 0)
  obtain ⟨-, -, hlatch, hclears, -⟩ := hmoments w hmoves
  obtain ⟨-, -, hlatch', hclears', -⟩ := hmoments w' hmoves'
  have harmed : w.latchArmed 0 = true := by decide +kernel
  have harmed' : w'.latchArmed 0 = true := by decide +kernel
  have hcalled : ∃ o ∈ openCalls w.journal, o.detector = 0 ∧ w.IsRegistered 0 o.instanceId := by
    decide +kernel
  have hkept : w.clearsLatch 0 = false := by
    obtain ⟨o, ho, hd, hreg⟩ := hcalled
    rw [Bool.eq_false_iff]
    exact fun hc => (hclears.mp hc).2.2 o ho hd hreg
  have hdetached : ∀ o ∈ openCalls w'.journal, ¬ w'.IsRegistered 0 o.instanceId := by
    decide +kernel
  have hrunning : w'.terminating 0 = false := by decide +kernel
  have hcleared : w'.clearsLatch 0 = true :=
    hclears'.mpr ⟨harmed', hrunning, fun o ho _ => hdetached o ho⟩
  rw [harmed, hkept] at hlatch
  rw [harmed', hcleared] at hlatch'
  exact ⟨detachingHost_fresh, hmoves, hmoves', harmed, harmed', by decide +kernel,
    by decide +kernel, by decide +kernel, by decide +kernel, hkept, hlatch, hcleared, hlatch'⟩

/-- Whether the latch was cleared while a call of the detector was in flight. -/
def clearedInFlight (d : Nat) : List Event → Bool
  | [] => false
  | e :: past =>
    (e == .latchCleared d && (openCalls past).any fun o => o.detector == d) ||
      clearedInFlight d past

/-- In one call of a public the failure is reported twice, with no call in flight before. -/
theorem latch_clears_with_calls_in_flight :
    let before := (Session.performAll 8 [.attach 0 0, .attach 0 1] detachingHost).2
    let after := (Session.perform 8 (.exec 0 0) before).2
    openCalls before.journal = [] ∧ before.journal.countP (Event.isFailureReport 0) = 0 ∧
      clearedInFlight 0 after.journal = true ∧
      after.journal.countP (Event.isFailureReport 0) = 2 := by
  decide +kernel

end ScriptDiag
