import ScriptDiag.Proofs.Latch

/-!
# When the process is to end

A detector demands the end of the process after a crash, and after a runtime error if its settings
say so. Such failures are fatal. Each is reported first, and the demand comes right after the report
(`Disciplined`); a failure that is not fatal is reported only.

After the first demand the latch stays armed: it is cleared only while the detector is not
terminating, and a detector that is terminating with its latch armed stays so
(`Moves.keepsDoom`). What it says from then on is about crashes.
-/

namespace ScriptDiag

open Act

variable {w w' w'' w₀ : World}

/-! ## Doomed detectors -/

/-- Whether a detector demanded the end of the process, with its latch armed. -/
def Detector.doomed (det : Detector) : Bool :=
  det.terminating && det.registry.latchArmed

def World.doomed (w : World) (d : Nat) : Bool :=
  w.detectors[d]?.any Detector.doomed

/-- Whether the settings of a detector demand the end of the process after a runtime error. -/
def World.diesOnError (w : World) (d : Nat) : Bool :=
  w.detectors[d]?.any fun det => det.settings.dieOnError

theorem World.latchArmed_of_doomed {d : Nat} (h : w.doomed d = true) : w.latchArmed d = true := by
  obtain ⟨det, hdet, hdoomed⟩ := (Option.any_eq_true _ _).mp h
  rw [Detector.doomed, Bool.and_eq_true] at hdoomed
  rw [latchArmed_of_some hdet, hdoomed.2]

theorem World.diesOnError_of_some {d : Nat} {det : Detector} (h : w.detectors[d]? = some det) :
    w.diesOnError d = det.settings.dieOnError := by
  rw [diesOnError, h, Option.any_some]

/-- The settings of all detectors stay as they are, and those that are doomed stay doomed. -/
def World.KeepsDoom (w w' : World) : Prop :=
  ∀ d, w'.diesOnError d = w.diesOnError d ∧ (w.doomed d = true → w'.doomed d = true)

theorem World.keepsDoom_of_detectors (h : w'.detectors = w.detectors) : w.KeepsDoom w' := by
  intro d
  rw [diesOnError, diesOnError, doomed, doomed, h]
  exact ⟨rfl, fun h => h⟩

theorem World.KeepsDoom.trans (h : w.KeepsDoom w') (h' : w'.KeepsDoom w'') : w.KeepsDoom w'' :=
  fun d => ⟨(h' d).1.trans (h d).1, fun hd => (h' d).2 ((h d).2 hd)⟩

/-- A change to one detector. Whether it stays doomed matters only if it is. -/
theorem World.keepsDoom_modifyDetector (w : World) (d : Nat) {f : Detector → Detector}
    (hs : ∀ det, (f det).settings = det.settings)
    (hd : ∀ det, w.detectors[d]? = some det → det.doomed = true → (f det).doomed = true) :
    w.KeepsDoom (w.modifyDetector d f) := by
  intro d'
  rw [diesOnError, doomed, doomed, getElem?_modifyDetector, diesOnError]
  split
  case isTrue heq =>
    subst heq
    cases hdet : w.detectors[d]? with
    | none => exact ⟨rfl, fun h => h⟩
    | some det => exact ⟨congrArg Settings.dieOnError (hs det), hd det hdet⟩
  case isFalse => exact ⟨rfl, fun h => h⟩

theorem World.keepsDoom_arm (w : World) (d : Nat) : w.KeepsDoom (w.arm d) := by
  refine w.keepsDoom_modifyDetector d (fun _ => rfl) fun det _ hdoomed => ?_
  rw [Detector.doomed, Bool.and_eq_true] at hdoomed ⊢
  exact ⟨hdoomed.1, rfl⟩

theorem World.keepsDoom_send (w : World) (d : Nat) (det : Detector) (r : Report) :
    w.KeepsDoom (w.send d det r) :=
  w.keepsDoom_modifyDetector d (fun _ => rfl) fun _ _ h => h

theorem World.keepsDoom_enter (w : World) (d id : Nat) (call : CallRecord) :
    w.KeepsDoom (w.enter d id call) :=
  w.keepsDoom_modifyDetector d (fun _ => rfl) fun _ _ h => h

/-- The latch of a detector that is terminating is not cleared. -/
theorem World.keepsDoom_clearIfIdle (w : World) (d : Nat) : w.KeepsDoom (w.clearIfIdle d) := by
  cases hclears : w.clearsLatch d with
  | false =>
      rw [clearIfIdle_of_false hclears]
      exact keepsDoom_of_detectors rfl
  | true =>
      rw [clearIfIdle_of_true hclears]
      refine w.keepsDoom_modifyDetector d (fun _ => rfl) fun det hdet hdoomed => ?_
      rw [clearsLatch, hdet, Option.any_some, Bool.and_eq_true, Bool.and_eq_true] at hclears
      rw [Detector.doomed, Bool.and_eq_true] at hdoomed
      exact absurd (hdoomed.1.symm.trans (Bool.not_eq_true' _ ▸ hclears.1.2)) Bool.noConfusion

theorem Move.keepsDoom (h : Move w w') : w.KeepsDoom w' := by
  cases h with
  | quiet hdet _ _ _ => exact World.keepsDoom_of_detectors hdet
  | suppressFailure _ _ _ _ _ | crashAgain _ _ => exact World.keepsDoom_of_detectors rfl
  | enterNative index _ _ _ => exact w.keepsDoom_enter _ _ _
  | enterPublic index _ _ _ =>
      exact (w.keepsDoom_clearIfIdle _).trans (World.keepsDoom_enter _ _ _ _)
  | @leave d id call _ _ =>
      rw [leaveCall_eq]
      exact World.keepsDoom_modifyDetector (w.logAll _) d (fun _ => rfl) fun _ _ h => h
  | @reportFailure d id vm det m i f _ _ _ _ =>
      have hfailed : w.KeepsDoom (w.record (.failed d id vm f)) := World.keepsDoom_of_detectors rfl
      exact (hfailed.trans (World.keepsDoom_arm _ d)).trans (World.keepsDoom_send _ _ _ _)
  | @terminate d det kind pending hdet harmed =>
      refine w.keepsDoom_modifyDetector d (fun _ => rfl) fun det _ hdoomed => ?_
      rw [Detector.doomed, Bool.and_eq_true] at hdoomed ⊢
      exact ⟨rfl, hdoomed.2⟩
  | @crash d _ _ _ => exact w.keepsDoom_arm d
  | report _ _ => exact w.keepsDoom_send _ _ _
  | interrupt d pending => exact w.keepsDoom_modifyDetector d (fun _ => rfl) fun _ _ h => h
  | @attach d vm det m i _ _ _ _ _ =>
      exact w.keepsDoom_modifyDetector d (fun _ => rfl) fun _ _ h => h
  | @detach d id vm det m _ _ _ =>
      exact w.keepsDoom_modifyDetector d (fun _ => rfl) fun _ _ h => h

theorem Moves.keepsDoom (h : Moves w w') : w.KeepsDoom w' := by
  induction h with
  | refl => exact World.keepsDoom_of_detectors rfl
  | tail _ hmove ih => exact ih.trans hmove.keepsDoom

/-! ## What a detector says in one turn -/

/-- Whether a failure demands the end of the process. -/
def FailureKind.isFatal (dieOnError : Bool) : FailureKind → Bool
  | .hostCrash => true
  | .runtimeError => dieOnError
  | .nativeCallFailure | .interrupt => false

/-- What a turn adds to the notices of a detector: nothing, a report of a failure that is not fatal,
or a report of one that is, with the demand that belongs to it. -/
inductive Saying (d : Nat) (w w' : World) : Prop where
  | nothing (same : notices d w'.journal = notices d w.journal)
  | report (kind : FailureKind) (mild : kind.isFatal (w.diesOnError d) = false)
      (clear : w.latchArmed d = false)
      (added : notices d w'.journal = .report kind :: notices d w.journal)
  | demand (kind : FailureKind) (fatal : kind.isFatal (w.diesOnError d) = true)
      (cause : kind = .hostCrash ∨ w.latchArmed d = false) (doomed : w'.doomed d = true)
      (added : notices d w'.journal = .terminate kind :: .report kind :: notices d w.journal)

theorem World.doomed_endProcess {d : Nat} {det : Detector} (h : w.detectors[d]? = some det)
    (harmed : det.registry.latchArmed = true) (kind : FailureKind) (pending : Nat) :
    (w.endProcess d kind pending).doomed d = true := by
  rw [doomed, endProcess, detectors_record, getElem?_modifyDetector, if_pos rfl, h]
  exact harmed

theorem World.notices_reportFailure (w : World) (d id vm : Nat) (det : Detector) (m : Machine)
    (i : Instance) (f : Failure) (d' : Nat) :
    notices d' (w.reportFailure d id vm det m i f).journal =
      (if d = d' then [.report f.kind] else []) ++ notices d' w.journal :=
  notices_send _ _ _ _ _

theorem Turn.saying (h : Turn w w') (d : Nat) : Saying d w w' := by
  cases h with
  | silent _ hs => exact .nothing (hs.notices_eq d)
  | @failure d₀ id vm det m i f hdet hclear hm hi hsurvives =>
      have hadded := w.notices_reportFailure d₀ id vm det m i f d
      by_cases hd : d₀ = d
      · subst hd
        rw [if_pos rfl] at hadded
        refine .report f.kind ?_ ((World.latchArmed_of_some hdet).trans hclear) hadded
        rw [World.diesOnError_of_some hdet]
        cases f with
        | native => rfl
        | runtime => exact hsurvives rfl
      · rw [if_neg hd] at hadded
        exact .nothing hadded
  | @fatal d₀ id vm det m i index e hdet hclear hm hi hdies pending =>
      have hadded := (World.notices_endProcess _ d₀ .runtimeError pending d).trans
        (congrArg _ (w.notices_reportFailure d₀ id vm det m i (.runtime index e) d))
      by_cases hd : d₀ = d
      · subst hd
        rw [if_pos rfl, if_pos rfl] at hadded
        refine .demand .runtimeError ((World.diesOnError_of_some hdet).trans hdies)
          (.inr ((World.latchArmed_of_some hdet).trans hclear)) ?_ hadded
        exact World.doomed_endProcess (World.detectors_reportFailure hdet _ _ _ _ _) rfl _ _
      · rw [if_neg hd, if_neg hd] at hadded
        exact .nothing hadded
  | @crash w₁ d₀ det r es _ hs _ hdet harmed hkind pending =>
      have hadded := (World.notices_endProcess _ d₀ .hostCrash pending d).trans
        (congrArg _ (w₁.notices_send d₀ det r d))
      rw [hs.notices_eq, hkind] at hadded
      by_cases hd : d₀ = d
      · subst hd
        rw [if_pos rfl, if_pos rfl] at hadded
        refine .demand .hostCrash rfl (.inl rfl) ?_ hadded
        exact World.doomed_endProcess (World.detectors_send hdet r) harmed _ _
      · rw [if_neg hd, if_neg hd] at hadded
        exact .nothing hadded
  | @interrupt d₀ det r hdet hclear hkind =>
      have hadded := World.notices_send (w.setInterrupt d₀ false) d₀
        { det with interruptPending := false } r d
      rw [hkind] at hadded
      by_cases hd : d₀ = d
      · subst hd
        rw [if_pos rfl] at hadded
        exact .report .interrupt rfl ((World.latchArmed_of_some hdet).trans hclear) hadded
      · rw [if_neg hd] at hadded
        exact .nothing hadded

/-! ## Discipline -/

/-- Notices, latest first, in which a demand follows each report of a fatal failure, and none
other. -/
inductive Disciplined (dieOnError : Bool) : List Notice → Prop where
  | nil : Disciplined dieOnError []
  | report {kind : FailureKind} {ns : List Notice} (mild : kind.isFatal dieOnError = false)
      (rest : Disciplined dieOnError ns) : Disciplined dieOnError (.report kind :: ns)
  | demand {kind : FailureKind} {ns : List Notice} (fatal : kind.isFatal dieOnError = true)
      (rest : Disciplined dieOnError ns) :
      Disciplined dieOnError (.terminate kind :: .report kind :: ns)

/-- A demand is of a fatal kind, and follows a report of that kind. -/
theorem Disciplined.of_terminate {dies : Bool} {later earlier : List Notice} {kind : FailureKind}
    (h : Disciplined dies (later ++ .terminate kind :: earlier)) :
    kind.isFatal dies = true ∧ ∃ past, earlier = .report kind :: past := by
  generalize hns : later ++ .terminate kind :: earlier = ns at h
  induction h generalizing later with
  | nil => cases later <;> cases hns
  | report _ _ ih =>
      cases later with
      | nil => cases hns
      | cons n later =>
          obtain ⟨-, hns⟩ := List.cons.inj hns
          exact ih hns
  | @demand kind' ns hfatal _ ih =>
      cases later with
      | nil =>
          cases hns
          exact ⟨hfatal, ns, rfl⟩
      | cons n later =>
          obtain ⟨-, hns⟩ := List.cons.inj hns
          cases later with
          | nil => cases hns
          | cons n later => exact ih (List.cons.inj hns).2

/-- After a report of a fatal failure comes the demand of that kind. -/
theorem Disciplined.of_report {dies : Bool} {later earlier : List Notice} {kind : FailureKind}
    (h : Disciplined dies (later ++ .report kind :: earlier)) (hfatal : kind.isFatal dies = true) :
    ∃ rest, later = rest ++ [.terminate kind] := by
  generalize hns : later ++ .report kind :: earlier = ns at h
  induction h generalizing later with
  | nil => cases later <;> cases hns
  | report hmild _ ih =>
      cases later with
      | nil =>
          cases hns
          exact Bool.noConfusion (hfatal.symm.trans hmild)
      | cons n later =>
          obtain ⟨-, hns⟩ := List.cons.inj hns
          obtain ⟨rest, rfl⟩ := ih hns
          exact ⟨n :: rest, rfl⟩
  | demand _ _ ih =>
      cases later with
      | nil => cases hns
      | cons n later =>
          obtain ⟨hn, hns⟩ := List.cons.inj hns
          cases later with
          | nil =>
              cases hns
              exact ⟨[], congrArg (· :: []) hn⟩
          | cons n' later =>
              obtain ⟨rest, rfl⟩ := ih (List.cons.inj hns).2
              exact ⟨n :: n' :: rest, rfl⟩

/-! ## Every run of turns -/

/-- What holds of the notices of a detector at every turn. -/
structure World.EndsRightly (w : World) (d : Nat) : Prop where
  disciplined : Disciplined (w.diesOnError d) (notices d w.journal)
  doomed : ∀ kind, .terminate kind ∈ notices d w.journal → w.doomed d = true

theorem Turn.endsRightly {d : Nat} (h : Turn w w') (hw : w.EndsRightly d) : w'.EndsRightly d := by
  obtain ⟨hdies, hdoom⟩ := h.moves.keepsDoom d
  cases h.saying d with
  | nothing hsame =>
      refine ⟨by rw [hdies, hsame]; exact hw.disciplined, fun kind hmem => ?_⟩
      exact hdoom (hw.doomed kind (hsame ▸ hmem))
  | report kind hmild _ hadded =>
      refine ⟨by rw [hdies, hadded]; exact .report hmild hw.disciplined, fun kind' hmem => ?_⟩
      rw [hadded] at hmem
      exact hdoom (hw.doomed kind' ((List.mem_cons.mp hmem).resolve_left nofun))
  | demand kind hfatal _ hdoomed hadded =>
      exact ⟨by rw [hdies, hadded]; exact .demand hfatal hw.disciplined, fun _ _ => hdoomed⟩

theorem Turns.endsRightly {d : Nat} (h : Turns w w') (hw : w.EndsRightly d) :
    w'.EndsRightly d := by
  induction h with
  | refl => exact hw
  | tail _ hturn ih => exact hturn.endsRightly ih

theorem World.Fresh.endsRightly (hw : w.Fresh) (d : Nat) : w.EndsRightly d := by
  have hnone : notices d w.journal = [] := by
    rw [hw.journal]
    rfl
  refine ⟨hnone ▸ .nil, fun kind hmem => ?_⟩
  rw [hnone] at hmem
  cases hmem

/-- So many crashes, each reported, with the demand that belongs to it. -/
def crashNotices (n : Nat) : List Notice :=
  (List.replicate n [Notice.terminate .hostCrash, Notice.report .hostCrash]).flatten

/-- A detector that is doomed says nothing except about crashes. -/
theorem Turns.crashNotices_of_doomed {d : Nat} (h : Turns w w') (hw : w.doomed d = true) :
    ∃ n, notices d w'.journal = crashNotices n ++ notices d w.journal := by
  induction h with
  | refl => exact ⟨0, rfl⟩
  | @tail w₁ w₂ hto hturn ih =>
      obtain ⟨n, hn⟩ := ih
      have harmed := World.latchArmed_of_doomed ((Moves.keepsDoom (Turns.moves hto) d).2 hw)
      have hnot : w₁.latchArmed d ≠ false := by
        rw [harmed]
        exact nofun
      cases hturn.saying d with
      | nothing hsame => exact ⟨n, hsame.trans hn⟩
      | report _ _ hclear _ => exact absurd hclear hnot
      | demand kind _ hcause _ hadded =>
          obtain rfl := hcause.resolve_right hnot
          exact ⟨n + 1, by rw [hadded, hn, crashNotices, crashNotices, List.replicate_succ]; rfl⟩

/-! ## The discipline of a run -/

/-- **Termination discipline.** From a world in which no detector was used, a session is a run made
of turns, and the next session goes on with it, so this is about every run, for each detector in it.
In the sequence of its reports and demands, each demand comes right after a report of the same kind,
and is of a fatal kind: a crash, or a runtime error if the settings say that the process dies of
one. After each report of a fatal kind comes the demand. Once there was a demand, the latch is armed
at every later moment, and all that the detector says later is reports of crashes, each with its
demand. -/
theorem demands_follow_fatal_reports (hw₀ : w₀.Fresh) (d : Nat) (hturns : Turns w₀ w) :
    (∀ fuel steps, Turns w (Session.performAll fuel steps w).2) ∧
      (∀ later kind earlier, notices d w.journal = later ++ .terminate kind :: earlier →
        (kind = .hostCrash ∨ kind = .runtimeError ∧ w₀.diesOnError d = true) ∧
          ∃ past, earlier = .report kind :: past) ∧
      (∀ later kind earlier, notices d w.journal = later ++ .report kind :: earlier →
        (kind = .hostCrash ∨ kind = .runtimeError ∧ w₀.diesOnError d = true) →
          ∃ rest, later = rest ++ [.terminate kind]) ∧
      ∀ kind, .terminate kind ∈ notices d w.journal →
        (∀ w', Moves w w' → w'.latchArmed d = true) ∧
          ∀ w', Turns w w' →
            ∃ n, notices d w'.journal = crashNotices n ++ notices d w.journal := by
  have hfatal : ∀ kind : FailureKind, kind.isFatal (w₀.diesOnError d) = true ↔
      kind = .hostCrash ∨ kind = .runtimeError ∧ w₀.diesOnError d = true := by
    intro kind
    cases kind <;> simp [FailureKind.isFatal]
  have hv := (Turns.moves hturns).valid hw₀.valid
  have hw := hturns.endsRightly (hw₀.endsRightly d)
  have hdisciplined := hw.disciplined
  rw [((Turns.moves hturns).keepsDoom d).1] at hdisciplined
  refine ⟨fun fuel steps => (balancedDeeds_performAll fuel steps hv).turns,
    fun later kind earlier hns => ?_, fun later kind earlier hns hkind => ?_,
    fun kind hmem => ⟨fun w' h => ?_, fun w' h => ?_⟩⟩
  · rw [hns] at hdisciplined
    obtain ⟨hkind, hpast⟩ := hdisciplined.of_terminate
    exact ⟨(hfatal kind).mp hkind, hpast⟩
  · rw [hns] at hdisciplined
    exact hdisciplined.of_report ((hfatal kind).mpr hkind)
  · exact World.latchArmed_of_doomed ((Moves.keepsDoom h d).2 (hw.doomed kind hmem))
  · exact Turns.crashNotices_of_doomed h (hw.doomed kind hmem)

/-- A host whose script fails, with a detector that lets the process die of that. -/
def dyingHost : World where
  machines := [{ Machine.ofSize ⟨1⟩ 64 with
    publics := [{ name := "Fail", address := 64, body := [.fail .bounds] }] }]
  detectors := [{ settings := { dieOnError := true } }]

theorem dyingHost_fresh : dyingHost.Fresh :=
  World.fresh_of_arePlain rfl (by simp [dyingHost]) rfl

/-- The dying host after its script failed: the latch stays armed. -/
theorem dyingHost_stays_latched :
    let w := (Session.performAll 8 [.attach 0 0, .exec 0 0] dyingHost).2
    dyingHost.Fresh ∧ Turns dyingHost w ∧
      .terminate .runtimeError ∈ notices 0 w.journal ∧
        ∀ w', Moves w w' → w'.latchArmed 0 = true := by
  intro w
  have hturns : Turns dyingHost w :=
    (demands_follow_fatal_reports dyingHost_fresh 0 .refl).1 8 [.attach 0 0, .exec 0 0]
  obtain ⟨-, -, -, h⟩ := demands_follow_fatal_reports dyingHost_fresh 0 hturns
  have hmem : .terminate .runtimeError ∈ notices 0 w.journal := by decide +kernel
  exact ⟨dyingHost_fresh, hturns, hmem, (h .runtimeError hmem).1⟩

/-- The host crashes after that, and its script fails once more. -/
example :
    notices 0 (Session.performAll 8 [.attach 0 0, .exec 0 0, .crash 0 [0], .exec 0 0]
      dyingHost).2.journal =
      [.terminate .hostCrash, .report .hostCrash, .terminate .runtimeError,
        .report .runtimeError] := by
  decide +kernel

end ScriptDiag
