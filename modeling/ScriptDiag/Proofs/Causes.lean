import ScriptDiag.Proofs.Latch
import ScriptDiag.Proofs.FailureEvents

/-!
# Causes

A detector does nothing of its own accord. What it reports, that it demands the end of the process,
that it arms its latch: each has a cause in the journal, a failure that it was told of, a crash, or
a request for an interrupt that it took (`Turns.causes`). The other way round, the first failure
that it is told of with its latch clear is reported, and arms the latch (`Moves.reportsFirst`).
-/

namespace ScriptDiag

open Act

variable {w w' w'' : World}

/-! ## What detectors do has a cause -/

/-- Some failure is among the events that a detector was told. -/
def ToldOf (d : Nat) (es : List Event) : Prop :=
  ∃ id vm f, .failed d id vm f ∈ es

/-- What an event tells of a detector has its cause among the events `es`. -/
def Event.HasCause (es : List Event) : Event → Prop
  | .report d r =>
    r.kind = .interrupt ∧ .interruptTaken d ∈ es ∨ r.kind = .hostCrash ∧ .crashed d ∈ es ∨
      ToldOf d es
  | .terminate d kind _ => kind = .hostCrash ∧ .crashed d ∈ es ∨ ToldOf d es
  | .latchArmed d => .crashed d ∈ es ∨ ToldOf d es
  | _ => True

theorem ToldOf.mono {d : Nat} {es es' : List Event} (h : ToldOf d es) (hsub : es ⊆ es') :
    ToldOf d es' := by
  obtain ⟨id, vm, f, hmem⟩ := h
  exact ⟨id, vm, f, hsub hmem⟩

theorem Event.HasCause.mono {e : Event} {es es' : List Event} (h : e.HasCause es)
    (hsub : es ⊆ es') : e.HasCause es' := by
  cases e with
  | report d r =>
      exact h.imp (fun h => ⟨h.1, hsub h.2⟩)
        (Or.imp (fun h => ⟨h.1, hsub h.2⟩) fun h => h.mono hsub)
  | terminate d kind pending => exact h.imp (fun h => ⟨h.1, hsub h.2⟩) fun h => h.mono hsub
  | latchArmed d => exact h.imp (fun h => hsub h) fun h => h.mono hsub
  | _ => trivial

theorem Event.hasCause_of_isNeutral {e : Event} (h : e.isNeutral = true) (es : List Event) :
    e.HasCause es := by
  cases e <;> trivial

theorem hasCause_of_mem_log {lines : List LogLine} (es : List Event) :
    ∀ e ∈ (lines.map Event.log).reverse, e.HasCause es :=
  fun e he => e.hasCause_of_isNeutral (isNeutral_of_mem_log e he) es

/-- The journal grows by events that have their causes among them. -/
def World.GrowsByCauses (w w' : World) : Prop :=
  ∃ es, w'.journal = es ++ w.journal ∧ ∀ e ∈ es, e.HasCause es

theorem World.GrowsByCauses.trans (h : w.GrowsByCauses w') (h' : w'.GrowsByCauses w'') :
    w.GrowsByCauses w'' := by
  obtain ⟨es, hes, hcauses⟩ := h
  obtain ⟨es', hes', hcauses'⟩ := h'
  refine ⟨es' ++ es, by rw [hes', hes, List.append_assoc], fun e he => ?_⟩
  rcases List.mem_append.mp he with he | he
  · exact (hcauses' e he).mono (List.subset_append_left es' es)
  · exact (hcauses e he).mono (List.subset_append_right es' es)

/-- After a move in which no detector speaks, an armed latch is all that needs a cause. -/
theorem Move.hasCause {es : List Event} (h : Move w w') (hes : w'.journal = es ++ w.journal)
    (hs : ∀ e ∈ es, e.isNotice = false) : ∀ e ∈ es, e.HasCause es := by
  intro e he
  cases e with
  | report d r => cases hs _ he
  | terminate d kind pending => cases hs _ he
  | latchArmed d =>
      have hfound : ∀ es', w'.journal = es' ++ w.journal → es' = es := fun _ hj =>
        List.append_cancel_right (hj.symm.trans hes)
      cases h.latch d with
      | keep es' _ hj hnot =>
          obtain rfl := hfound es' hj
          have harmed := hnot _ he
          simp [Event.isAboutLatch] at harmed
      | @suppress _ id vm f _ _ hj =>
          obtain rfl := hfound [.failed d id vm f] hj
          exact .inr ⟨id, vm, f, List.mem_singleton.mpr rfl⟩
      | @report _ id vm det m i f logs _ _ _ _ _ hj _ =>
          obtain rfl := hfound (logs ++ [.report d (det.failureReport m i f), .latchArmed d,
            .failed d id vm f]) (hj.trans (by simp))
          exact .inr ⟨id, vm, f, by simp⟩
      | crash es' _ hj _ =>
          obtain rfl := hfound (.crashed d :: es') hj
          exact .inl List.mem_cons_self
      | @clear id vm det m index _ _ _ _ hj =>
          obtain rfl := hfound [_, _] hj
          simp at he
  | _ => trivial

/-- A report on a failure, and the latch that it arms, have the failure as their cause. -/
theorem World.reportFailure_hasCause {d id vm : Nat} (w : World) (det : Detector) (m : Machine)
    (i : Instance) (f : Failure) :
    ∃ es, (w.reportFailure d id vm det m i f).journal = es ++ w.journal ∧ ToldOf d es ∧
      ∀ e ∈ es, e.HasCause es := by
  have htold : ∀ logs rest, ToldOf d (logs ++ .report d (det.failureReport m i f) ::
      .latchArmed d :: .failed d id vm f :: rest) := fun _ _ => ⟨id, vm, f, by simp⟩
  refine ⟨_, (w.journal_reportFailure d id vm det m i f).trans (List.append_assoc _
    [Event.report d _, .latchArmed d, .failed d id vm f] _).symm, htold _ [], fun e he => ?_⟩
  rcases List.mem_append.mp he with he | he
  · exact hasCause_of_mem_log _ e he
  · simp only [List.mem_cons, List.not_mem_nil, or_false] at he
    rcases he with rfl | rfl | rfl
    · exact .inr (.inr (htold _ []))
    · exact .inr (htold _ [])
    · trivial

theorem Turn.causes (h : Turn w w') : w.GrowsByCauses w' := by
  cases h with
  | silent hmove hs =>
      obtain ⟨es, hes, hs⟩ := hs
      exact ⟨es, hes, hmove.hasCause hes hs⟩
  | @failure d id vm det m i f _ _ _ _ _ =>
      obtain ⟨es, hes, -, hcauses⟩ := w.reportFailure_hasCause det m i f
      exact ⟨es, hes, hcauses⟩
  | @fatal d id vm det m i index e _ _ _ _ _ pending =>
      obtain ⟨es, hes, htold, hcauses⟩ := w.reportFailure_hasCause det m i (.runtime index e)
      refine ⟨.terminate d .runtimeError pending :: es, congrArg _ hes, fun e he => ?_⟩
      have hsub : es ⊆ .terminate d .runtimeError pending :: es := List.subset_cons_self _ _
      rcases List.mem_cons.mp he with rfl | he
      · exact .inr (htold.mono hsub)
      · exact (hcauses e he).mono hsub
  | @crash w₁ d det r es hmove hs hj hdet _ hkind pending =>
      obtain ⟨es', hes', hs⟩ := hs
      obtain rfl : es' = .crashed d :: es := List.append_cancel_right (hes'.symm.trans hj)
      have hcauses := hmove.hasCause hes' hs
      refine ⟨.terminate d .hostCrash pending :: ((det.sink.emit r).2.map Event.log).reverse ++
        .report d r :: .crashed d :: es, ?_, fun e he => ?_⟩
      · show _ :: (w₁.send d det r).journal = _
        rw [World.journal_send, hj]
        simp
      · have hcrashed : ∀ logs : List Event,
            .crashed d ∈ logs ++ .report d r :: .crashed d :: es := by simp
        rcases List.mem_append.mp he with he | he
        · rcases List.mem_cons.mp he with rfl | he
          · exact .inl ⟨rfl, hcrashed _⟩
          · exact hasCause_of_mem_log _ e he
        · rcases List.mem_cons.mp he with rfl | he
          · exact .inr (.inl ⟨hkind, hcrashed _⟩)
          · exact (hcauses e he).mono fun e' he' =>
              List.mem_append_right _ (List.mem_cons_of_mem _ he')
  | @interrupt d det r hdet hclear hkind =>
      refine ⟨((({ det with interruptPending := false } : Detector).sink.emit r).2.map
        Event.log).reverse ++ [.report d r, .interruptTaken d], by simp [World.journal_send]; rfl,
        fun e he => ?_⟩
      rcases List.mem_append.mp he with he | he
      · exact hasCause_of_mem_log _ e he
      · simp only [List.mem_cons, List.not_mem_nil, or_false] at he
        rcases he with rfl | rfl
        · exact .inl ⟨hkind, by simp⟩
        · trivial

theorem Turns.causes (h : Turns w w') : w.GrowsByCauses w' := by
  induction h with
  | refl => exact ⟨[], rfl, fun _ h => (by cases h)⟩
  | tail _ hturn ih => exact ih.trans hturn.causes

/-! ## The first failure is reported -/

/-- From one world to the other, a detector that had its latch clear was told of no failure, and its
latch is clear still, or it made a report on one. -/
def ReportsFirst (d : Nat) (w' : World) (es : List Event) : Prop :=
  w'.latchArmed d = false ∧ failuresOf d es = [] ∨
    .latchArmed d ∈ es ∧ failureReports d es ≠ []

theorem Moves.reportsFirst {d : Nat} (h : Moves w w') (hclear : w.latchArmed d = false) :
    ∃ es, w'.journal = es ++ w.journal ∧ (.crashed d ∉ es → ReportsFirst d w' es) := by
  induction h with
  | refl => exact ⟨[], rfl, fun _ => .inl ⟨hclear, rfl⟩⟩
  | @tail w₁ w₂ hto hmove ih =>
      obtain ⟨es, hes, hfirst⟩ := ih
      obtain ⟨new, hnew⟩ := hmove.journal
      refine ⟨new ++ es, by rw [← hnew, hes, List.append_assoc], fun hcrash => ?_⟩
      have hfound : ∀ new', w₂.journal = new' ++ w₁.journal → new' = new := fun _ hj =>
        List.append_cancel_right (hj.symm.trans hnew.symm)
      have hfirst := hfirst fun h => hcrash (List.mem_append_right _ h)
      rcases hfirst with ⟨hlatch, hnone⟩ | ⟨harmed, hreport⟩
      · cases hmove.latch d with
        | keep es' hl hj hnot =>
            obtain rfl := hfound es' hj
            refine .inl ⟨hl.trans hlatch, ?_⟩
            rw [failuresOf_append, failuresOf_eq_nil hnot, hnone, List.append_nil]
        | suppress hb _ _ => exact absurd (hb.symm.trans hlatch) Bool.noConfusion
        | @report _ id vm det m i f logs _ _ _ _ _ hj _ =>
            obtain rfl := hfound (logs ++ [.report d (det.failureReport m i f), .latchArmed d,
              .failed d id vm f]) (hj.trans (by simp))
            refine .inr ⟨by simp, ?_⟩
            rw [failureReports_append, failureReports_append]
            simp [failureReports, Detector.isFailure_failureReport]
        | crash es' _ hj _ =>
            obtain rfl := hfound (.crashed d :: es') hj
            exact absurd (by simp) hcrash
        | clear _ _ _ ha hj =>
            obtain rfl := hfound [_, _] hj
            exact .inl ⟨ha, hnone⟩
      · refine .inr ⟨List.mem_append_right _ harmed, ?_⟩
        rw [failureReports_append]
        exact List.append_ne_nil_of_right_ne_nil _ hreport

end ScriptDiag
