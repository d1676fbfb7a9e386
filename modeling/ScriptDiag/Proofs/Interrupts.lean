import ScriptDiag.Proofs.Latch

/-!
# What becomes of a request for an interrupt

A request waits until a hook takes it, of whatever machine, and the hook takes it before it is
known whether it may report: so a request that a hook comes upon while the latch is armed is taken
and never heard of again. `requests_are_reported_iff_clear` says this of every run, and that nothing
else becomes of requests: the journal tells at every moment whether one is waiting (`isRequested`)
and whether the latch is armed (`isLatched`), and each request taken is followed at once by the
report exactly if the latch is clear. `request_gets_lost` is a session in which the report never
comes.
-/

namespace ScriptDiag

open Act

variable {w w' w₀ : World} {d : Nat}

/-! ## Reading requests and the latch off the journal -/

/-- Whether an interrupt was requested of a detector and the request was not taken since. -/
def isRequested (d : Nat) : List Event → Bool
  | [] => false
  | .interruptRequested d' :: past => d' == d || isRequested d past
  | .interruptTaken d' :: past => d' != d && isRequested d past
  | _ :: past => isRequested d past

/-- Whether the latch of a detector was armed and not cleared since. -/
def isLatched (d : Nat) : List Event → Bool
  | [] => false
  | .latchArmed d' :: past => d' == d || isLatched d past
  | .latchCleared d' :: past => d' != d && isLatched d past
  | _ :: past => isLatched d past

/-- Whether an event tells of a request made to a detector, or taken by it. -/
def Event.isAboutRequest (d : Nat) : Event → Bool
  | .interruptRequested d' | .interruptTaken d' => d' == d
  | _ => false

theorem isRequested_cons_of_other {e : Event} (h : e.isAboutRequest d = false)
    (past : List Event) : isRequested d (e :: past) = isRequested d past := by
  cases e with
  | interruptRequested d' | interruptTaken d' =>
      have hd : (d' == d) = false := h
      simp [isRequested, bne, hd]
  | _ => rfl

theorem isRequested_append_of_other {es : List Event} (h : ∀ e ∈ es, e.isAboutRequest d = false)
    (past : List Event) : isRequested d (es ++ past) = isRequested d past := by
  induction es with
  | nil => rfl
  | cons e es ih =>
      rw [List.cons_append, isRequested_cons_of_other (h e List.mem_cons_self)]
      exact ih fun e he => h e (List.mem_cons_of_mem _ he)

theorem isLatched_append_of_other {es : List Event} (h : ∀ e ∈ es, e.isAboutLatch d = false)
    (past : List Event) : isLatched d (es ++ past) = isLatched d past := by
  induction es with
  | nil => rfl
  | cons e es ih =>
      have hes := ih fun e he => h e (List.mem_cons_of_mem _ he)
      have he := h e List.mem_cons_self
      cases e with
      | latchArmed d' | latchCleared d' =>
          have hd : (d' == d) = false := he
          simp [isLatched, bne, hd, hes]
      | _ => exact hes

/-- A request that is waiting was made among the last events, or waited before them. -/
theorem mem_or_isRequested (es : List Event) {past : List Event}
    (h : isRequested d (es ++ past) = true) :
    .interruptRequested d ∈ es ∨ isRequested d past = true := by
  induction es with
  | nil => exact .inr h
  | cons e es ih =>
      have hrest : isRequested d (es ++ past) = true →
          .interruptRequested d ∈ e :: es ∨ isRequested d past = true := fun h =>
        (ih h).imp_left (List.mem_cons_of_mem e)
      cases e with
      | interruptRequested d' =>
          rw [List.cons_append, isRequested, Bool.or_eq_true, beq_iff_eq] at h
          rcases h with rfl | h
          · exact .inl List.mem_cons_self
          · exact hrest h
      | interruptTaken d' =>
          rw [List.cons_append, isRequested, Bool.and_eq_true] at h
          exact hrest h.2
      | _ => exact hrest h

/-! ## The journal tells the truth -/

def World.interruptPending (w : World) (d : Nat) : Bool :=
  w.detectors[d]?.any Detector.interruptPending

theorem World.interruptPending_of_some {det : Detector} (h : w.detectors[d]? = some det) :
    w.interruptPending d = det.interruptPending := by
  rw [interruptPending, h, Option.any_some]

/-- No request is made to the detector or taken by it. -/
structure World.KeepsRequest (d : Nat) (w w' : World) : Prop where
  pending : w'.interruptPending d = w.interruptPending d
  journal : w.GrowsBy (fun e => e.isAboutRequest d = false) w'

theorem World.KeepsRequest.trans {w'' : World} (h : w.KeepsRequest d w')
    (h' : w'.KeepsRequest d w'') : w.KeepsRequest d w'' :=
  ⟨h'.pending.trans h.pending, h.journal.trans h'.journal⟩

theorem Event.isAboutRequest_of_isNeutral {e : Event} (h : e.isNeutral = true) :
    e.isAboutRequest d = false := by
  cases e <;> first | rfl | cases h

theorem World.keepsRequest_of_detectors {es : List Event} (hdet : w'.detectors = w.detectors)
    (hes : w'.journal = es ++ w.journal) (h : ∀ e ∈ es, e.isAboutRequest d = false) :
    w.KeepsRequest d w' :=
  ⟨by rw [interruptPending, interruptPending, hdet], es, hes, h⟩

theorem World.keepsRequest_record (w : World) {e : Event} (h : e.isAboutRequest d = false) :
    w.KeepsRequest d (w.record e) :=
  ⟨rfl, .one rfl h⟩

theorem World.keepsRequest_logAll (w : World) (lines : List LogLine) :
    w.KeepsRequest d (w.logAll lines) :=
  keepsRequest_of_detectors rfl (w.journal_logAll lines) fun e he =>
    e.isAboutRequest_of_isNeutral (isNeutral_of_mem_log e he)

/-- Another change to a detector. -/
theorem World.keepsRequest_of_modify {d₀ : Nat} {f : Detector → Detector}
    (hdet : w'.detectors = (w.modifyDetector d₀ f).detectors)
    (hj : w.GrowsBy (fun e => e.isAboutRequest d = false) w')
    (hf : ∀ det, (f det).interruptPending = det.interruptPending) : w.KeepsRequest d w' := by
  refine ⟨?_, hj⟩
  rw [interruptPending, hdet, getElem?_modifyDetector, interruptPending]
  split
  · cases w.detectors[d]? with
    | none => rfl
    | some det => exact hf det
  · rfl

theorem World.keepsRequest_arm (w : World) (d₀ : Nat) : w.KeepsRequest d (w.arm d₀) :=
  keepsRequest_of_modify rfl (.one rfl rfl) fun _ => rfl

theorem World.keepsRequest_send (w : World) (d₀ : Nat) (det : Detector) (r : Report) :
    w.KeepsRequest d (w.send d₀ det r) := by
  have hsent : w.KeepsRequest d ((w.modifyDetector d₀ fun det' =>
      { det' with sink := (det.sink.emit r).1 }).record (.report d₀ r)) :=
    keepsRequest_of_modify rfl (.one rfl rfl) fun _ => rfl
  exact hsent.trans (World.keepsRequest_logAll _ _)

theorem World.keepsRequest_enter (w : World) (d₀ id : Nat) (call : CallRecord) :
    w.KeepsRequest d (w.enter d₀ id call) :=
  keepsRequest_of_modify rfl (.one rfl rfl) fun _ => rfl

theorem World.keepsRequest_clearIfIdle (w : World) (d₀ : Nat) :
    w.KeepsRequest d (w.clearIfIdle d₀) := by
  rw [clearIfIdle]
  split
  · exact keepsRequest_of_modify rfl (.one rfl rfl) fun _ => rfl
  · exact ⟨rfl, .of_eq rfl⟩

/-- All moves leave the requests alone but those that are about them. -/
theorem Move.keepsRequest (h : Move w w') (d : Nat) :
    w.KeepsRequest d w' ∨ ∃ d₀ pending, w' = w.setInterrupt d₀ pending := by
  cases h with
  | interrupt d₀ pending => exact .inr ⟨d₀, pending, rfl⟩
  | quiet hdet _ _ hes =>
      obtain ⟨es, hes, hneutral⟩ := hes
      exact .inl (World.keepsRequest_of_detectors hdet hes fun e he =>
        e.isAboutRequest_of_isNeutral (hneutral e he))
  | enterNative index _ _ _ => exact .inl (w.keepsRequest_enter _ _ _)
  | enterPublic index _ _ _ =>
      exact .inl ((w.keepsRequest_clearIfIdle _).trans (World.keepsRequest_enter _ _ _ _))
  | @leave d₀ id call rest _ =>
      rw [leaveCall_eq]
      exact .inl ((w.keepsRequest_logAll _).trans
        (World.keepsRequest_of_modify rfl (.one rfl rfl) fun _ => rfl))
  | suppressFailure id vm f _ _ => exact .inl (w.keepsRequest_record rfl)
  | @reportFailure d₀ id vm det m i f _ _ _ _ =>
      exact .inl (((w.keepsRequest_record (e := .failed d₀ id vm f) rfl).trans
        (World.keepsRequest_arm _ d₀)).trans (World.keepsRequest_send _ _ _ _))
  | @terminate d₀ det kind pending _ _ =>
      exact .inl (World.keepsRequest_of_modify rfl (.one rfl rfl) fun _ => rfl)
  | crashAgain _ _ => exact .inl (w.keepsRequest_record rfl)
  | @crash d₀ det _ _ =>
      exact .inl ((w.keepsRequest_arm d₀).trans (World.keepsRequest_record _ rfl))
  | report _ _ => exact .inl (w.keepsRequest_send _ _ _)
  | @attach d₀ vm det m i _ _ _ _ _ =>
      exact .inl (World.keepsRequest_of_modify rfl (.one rfl rfl) fun _ => rfl)
  | @detach d₀ id vm det m _ _ _ =>
      exact .inl (World.keepsRequest_of_modify rfl (.one rfl rfl) fun _ => rfl)

/-- The detector exists, and its journal tells whether a request waits and the latch is armed. -/
structure World.TellsTruth (w : World) (d : Nat) : Prop where
  exist : ∃ det, w.detectors[d]? = some det
  requested : w.interruptPending d = isRequested d w.journal
  latched : w.latchArmed d = isLatched d w.journal

theorem Move.tellsRequest (h : Move w w') {det : Detector} (hdet : w.detectors[d]? = some det)
    (hw : w.interruptPending d = isRequested d w.journal) :
    w'.interruptPending d = isRequested d w'.journal := by
  rcases h.keepsRequest d with ⟨hpending, es, hes, hother⟩ | ⟨d₀, pending, rfl⟩
  · rw [hpending, hw, hes, isRequested_append_of_other hother]
  · by_cases hd : d₀ = d
    · subst hd
      rw [World.interruptPending_of_some (World.detectors_setInterrupt hdet pending)]
      cases pending <;> simp [World.setInterrupt, isRequested]
    · have hsame : (w.setInterrupt d₀ pending).interruptPending d = w.interruptPending d := by
        rw [World.interruptPending, World.setInterrupt, World.detectors_record,
          World.getElem?_modifyDetector, if_neg hd, World.interruptPending]
      have hd' : (d₀ == d) = false := beq_eq_false_iff_ne.mpr hd
      rw [hsame, hw]
      cases pending <;> simp [World.setInterrupt, isRequested, hd', bne]

theorem Move.tellsLatch (h : Move w w') (hw : w.latchArmed d = isLatched d w.journal) :
    w'.latchArmed d = isLatched d w'.journal := by
  cases h.latch d with
  | keep es hl hj hnone => rw [hl, hw, hj, isLatched_append_of_other hnone]
  | suppress hb ha hj =>
      rw [ha, hj]
      exact hb.symm.trans hw
  | report _ _ _ _ ha hj hquiet =>
      have hlogs := isLatched_append_of_other (d := d) fun e he =>
        e.isAboutLatch_of_isNeutral d (hquiet e he)
      rw [ha, hj, hlogs]
      simp [isLatched]
  | crash es ha hj harmed =>
      rw [ha, hj]
      rcases harmed with ⟨rfl, hb⟩ | ⟨rfl, -⟩
      · exact hb.symm.trans hw
      · simp [isLatched]
  | clear _ _ _ ha hj =>
      rw [ha, hj]
      simp [isLatched]

theorem Moves.tellsTruth (h : Moves w w') (hw : w.TellsTruth d) : w'.TellsTruth d := by
  induction h with
  | refl => exact hw
  | tail _ hmove ih =>
      obtain ⟨⟨det, hdet⟩, hrequest, hlatch⟩ := ih
      refine ⟨?_, hmove.tellsRequest hdet hrequest, hmove.tellsLatch hlatch⟩
      obtain ⟨r, hr, -⟩ := hmove.keepsInstances d _ (World.registryAt?_of_some hdet)
      obtain ⟨det', hdet', -⟩ := Option.map_eq_some_iff.mp hr
      exact ⟨det', hdet'⟩

theorem World.Fresh.tellsTruth (hw : w.Fresh) (hd : d < w.detectors.length)
    (hnone : w.interruptPending d = false) : w.TellsTruth d := by
  refine ⟨⟨_, List.getElem?_eq_getElem hd⟩, ?_, ?_⟩
  · rw [hnone, hw.journal]
    rfl
  · rw [World.latchArmed_of_some (List.getElem?_eq_getElem hd),
      hw.registries _ (List.getElem_mem hd), hw.journal]
    rfl

/-! ## Requests that are taken -/

/-- Whether an event is that this detector takes a request, or reports an interrupt. -/
def Event.isAnswerOf (d : Nat) : Event → Bool
  | .interruptTaken d' => d' == d
  | .report d' r => d' == d && r.kind == .interrupt
  | _ => false

theorem Event.isAnswerOf_of_isAnswer {e : Event} (h : e.isAnswer = false) (d : Nat) :
    e.isAnswerOf d = false := by
  cases e with
  | interruptTaken d' => cases h
  | report d' r =>
      have hkind : (r.kind == .interrupt) = false := h
      rw [isAnswerOf, hkind, Bool.and_false]
  | _ => rfl

theorem Event.isAnswer_of_isNeutral {e : Event} (h : e.isNeutral = true) : e.isAnswer = false := by
  cases e <;> first | rfl | cases h

/-- Requests are taken only when one is waiting, and it depends on the latch whether the report of
the interrupt is the next event. No interrupt is reported without a request. -/
inductive Answered (d : Nat) : List Event → Prop where
  | nil : Answered d []
  | other {e : Event} {past : List Event} (other : e.isAnswerOf d = false)
      (answered : Answered d past) : Answered d (e :: past)
  | lost {past : List Event} (requested : isRequested d past = true)
      (latched : isLatched d past = true) (answered : Answered d past) :
      Answered d (.interruptTaken d :: past)
  | reported {r : Report} {past : List Event} (kind : r.kind = .interrupt)
      (requested : isRequested d past = true) (clear : isLatched d past = false)
      (answered : Answered d past) : Answered d (.report d r :: .interruptTaken d :: past)

theorem Answered.append_of_other {es past : List Event} (h : Answered d past)
    (hes : ∀ e ∈ es, e.isAnswer = false) : Answered d (es ++ past) := by
  induction es with
  | nil => exact h
  | cons e es ih =>
      exact .other (e.isAnswerOf_of_isAnswer (hes e List.mem_cons_self) d)
        (ih fun e he => hes e (List.mem_cons_of_mem _ he))

theorem Answered.hook {d₀ id vm : Nat} (h : Answered d w.journal) (hw : w.TellsTruth d)
    (hid : w.HasInstance d₀ id) (hvm : vm < w.machines.length) :
    Answered d ((noticeInterrupt d₀ id vm).after w).journal := by
  obtain ⟨det, i, hdet, hi, -⟩ := hid.detector
  obtain ⟨w', hok, hcases⟩ := noticeInterrupt_cases hdet (List.getElem?_eq_getElem hvm) hi
  have hreplies : ∀ lines : List LogLine, ∀ e ∈ (lines.map Event.log).reverse,
      e.isAnswer = false := fun _ e he => e.isAnswer_of_isNeutral (isNeutral_of_mem_log e he)
  rw [after_of_ok hok]
  by_cases hd : d₀ = d
  · subst hd
    have hrequested := hw.requested.symm.trans (World.interruptPending_of_some hdet)
    have hlatched := hw.latched.symm.trans (World.latchArmed_of_some hdet)
    rcases hcases with ⟨-, rfl⟩ | ⟨hp, ha, rfl⟩ | ⟨hp, ha, r, hkind, rfl⟩
    · exact h
    · exact .lost (hrequested.trans hp) (hlatched.trans ha) h
    · rw [World.journal_send]
      exact (Answered.reported hkind (hrequested.trans hp) (hlatched.trans ha) h).append_of_other
        (hreplies _)
  · have hne : (d₀ == d) = false := beq_eq_false_iff_ne.mpr hd
    have htaken : (Event.interruptTaken d₀).isAnswerOf d = false := hne
    rcases hcases with ⟨-, rfl⟩ | ⟨-, -, rfl⟩ | ⟨-, -, r, -, rfl⟩
    · exact h
    · exact .other htaken h
    · have hreport : (Event.report d₀ r).isAnswerOf d = false := by
        rw [Event.isAnswerOf, hne, Bool.false_and]
      rw [World.journal_send]
      exact (Answered.other hreport (.other htaken h)).append_of_other (hreplies _)

theorem Deed.answered (h : Deed w w') (hw : w.TellsTruth d) (ha : Answered d w.journal) :
    Answered d w'.journal := by
  cases h with
  | other _ hu =>
      obtain ⟨es, hes, hu⟩ := hu
      rw [hes]
      exact ha.append_of_other hu
  | hook hid hvm => exact ha.hook hw hid hvm

theorem Deeds.answered (h : Deeds w w') (hw : w.TellsTruth d) (ha : Answered d w.journal) :
    Answered d w'.journal := by
  induction h with
  | refl => exact ha
  | tail hto hdeed ih =>
      exact hdeed.answered ((Turns.moves (Deeds.turns hto)).tellsTruth hw) ih

/-- Of later events, latest first, the one that comes first is a report of an interrupt. -/
def BeginsWithReport (d : Nat) (later : List Event) : Prop :=
  ∃ r, later.getLast? = some (.report d r) ∧ r.kind = .interrupt

theorem beginsWithReport_cons {e : Event} (he : ∀ r, e = .report d r → r.kind ≠ .interrupt)
    (later : List Event) : BeginsWithReport d (e :: later) ↔ BeginsWithReport d later := by
  cases later with
  | nil =>
      refine iff_of_false ?_ ?_
      · rintro ⟨r, hr, hkind⟩
        exact he r (Option.some.inj hr) hkind
      · rintro ⟨r, hr, -⟩
        cases hr
  | cons e' later => rw [BeginsWithReport, BeginsWithReport, List.getLast?_cons_cons]

/-- A request that is taken was waiting, and is reported at once exactly if the latch is clear. -/
theorem Answered.of_taken {later past : List Event}
    (h : Answered d (later ++ .interruptTaken d :: past)) :
    isRequested d past = true ∧ (BeginsWithReport d later ↔ isLatched d past = false) := by
  have hnil : ¬BeginsWithReport d [] := by
    rintro ⟨r, hr, -⟩
    cases hr
  have htaken : ∀ r, Event.interruptTaken d = .report d r → r.kind ≠ .interrupt := by
    intro r h
    cases h
  generalize hes : later ++ .interruptTaken d :: past = es at h
  induction h generalizing later with
  | nil => cases later <;> cases hes
  | @other e es hother _ ih =>
      cases later with
      | nil =>
          cases hes
          simp [Event.isAnswerOf] at hother
      | cons e' later =>
          obtain ⟨rfl, hrest⟩ := List.cons.inj hes
          have he : ∀ r, e' = .report d r → r.kind ≠ .interrupt := by
            rintro r rfl hkind
            simp [Event.isAnswerOf, hkind] at hother
          rw [beginsWithReport_cons he]
          exact ih hrest
  | lost hrequested hlatched _ ih =>
      cases later with
      | nil =>
          cases hes
          exact ⟨hrequested, iff_of_false hnil (by simp [hlatched])⟩
      | cons e' later =>
          obtain ⟨rfl, hrest⟩ := List.cons.inj hes
          rw [beginsWithReport_cons htaken]
          exact ih hrest
  | @reported r es hkind hrequested hclear _ ih =>
      cases later with
      | nil => cases hes
      | cons e' later =>
          obtain ⟨rfl, hrest⟩ := List.cons.inj hes
          cases later with
          | nil =>
              cases hrest
              exact ⟨hrequested, iff_of_true ⟨r, rfl, hkind⟩ hclear⟩
          | cons e' later =>
              obtain ⟨rfl, hrest'⟩ := List.cons.inj hrest
              rw [BeginsWithReport, List.getLast?_cons_cons, ← BeginsWithReport,
                beginsWithReport_cons htaken]
              exact ih hrest'

/-- An interrupt is reported right after a request was taken with the latch clear. -/
theorem Answered.of_report {later past : List Event} {r : Report}
    (h : Answered d (later ++ .report d r :: past)) (hkind : r.kind = .interrupt) :
    ∃ earlier, past = .interruptTaken d :: earlier ∧ isRequested d earlier = true ∧
      isLatched d earlier = false := by
  generalize hes : later ++ .report d r :: past = es at h
  induction h generalizing later with
  | nil => cases later <;> cases hes
  | @other e es hother _ ih =>
      cases later with
      | nil =>
          cases hes
          simp [Event.isAnswerOf, hkind] at hother
      | cons e later => exact ih (List.cons.inj hes).2
  | lost _ _ _ ih =>
      cases later with
      | nil => cases hes
      | cons e later => exact ih (List.cons.inj hes).2
  | reported _ hrequested hclear _ ih =>
      cases later with
      | nil =>
          cases hes
          exact ⟨_, rfl, hrequested, hclear⟩
      | cons e later =>
          cases later with
          | nil => cases (List.cons.inj hes).2
          | cons e later => exact ih (List.cons.inj (List.cons.inj hes).2).2

/-- Between two reports of interrupts there is a request. -/
theorem Answered.requested_between {later between past : List Event} {r r' : Report}
    (h : Answered d (later ++ .report d r :: (between ++ .report d r' :: past)))
    (hr : r.kind = .interrupt) (hr' : r'.kind = .interrupt) :
    .interruptRequested d ∈ between := by
  obtain ⟨earlier, hearlier, hrequested, -⟩ := h.of_report hr
  rw [← List.cons_append, ← List.append_assoc] at h
  obtain ⟨_, rfl, -⟩ := h.of_report hr'
  cases between with
  | nil => cases hearlier
  | cons e between =>
      obtain ⟨-, rfl⟩ := List.cons.inj hearlier
      refine List.mem_cons_of_mem _ ((mem_or_isRequested between hrequested).resolve_right ?_)
      simp [isRequested]

/-! ## Every run -/

/-- What a hook does about a request: without one, nothing; otherwise it takes the request, and
reports the interrupt unless the latch is armed. -/
def World.AnswersRequest (d : Nat) (w w' : World) : Prop :=
  if isRequested d w.journal then
    if isLatched d w.journal then w'.journal = .interruptTaken d :: w.journal
    else ∃ logs r, (∀ e ∈ logs, e.isNeutral = true) ∧ r.kind = .interrupt ∧
      w'.journal = logs ++ .report d r :: .interruptTaken d :: w.journal
  else w' = w

theorem World.TellsTruth.hook (hw : w.TellsTruth d) {id vm : Nat} (hid : w.HasInstance d id)
    (hvm : vm < w.machines.length) (next : Act Unit) :
    ∃ w', interceptHook d id vm next w = next w' ∧ w.AnswersRequest d w' := by
  obtain ⟨det, i, hdet, hi, -⟩ := hid.detector
  obtain ⟨w', hok, hcases⟩ := noticeInterrupt_cases hdet (List.getElem?_eq_getElem hvm) hi
  have hrequested := hw.requested.symm.trans (World.interruptPending_of_some hdet)
  have hlatched := hw.latched.symm.trans (World.latchArmed_of_some hdet)
  refine ⟨w', by rw [interceptHook_eq, bind_of_ok hok], ?_⟩
  rw [AnswersRequest, hrequested, hlatched]
  rcases hcases with ⟨hp, rfl⟩ | ⟨hp, ha, rfl⟩ | ⟨hp, ha, r, hkind, rfl⟩
  · rw [hp, if_neg Bool.false_ne_true]
  · rw [hp, if_pos rfl, ha, if_pos rfl]
    rfl
  · rw [hp, if_pos rfl, ha, if_neg Bool.false_ne_true]
    exact ⟨_, r, isNeutral_of_mem_log, hkind, World.journal_send _ _ _ _⟩

/-- **A request is reported exactly if the latch is clear when it is taken.** From a world in which
no detector was used and no request waits, a session is a run made of deeds, and the next session
goes on with it. At every moment the journal tells whether a request waits and whether the latch is
armed. A hook, of whatever machine, takes a request that waits, however often it was made, and
reports it at once unless the latch is armed; without a request it does nothing. In the run, every
request taken had been waiting, and the report is the next event exactly if the latch was clear; and
every report of an interrupt comes of such a request, so that between two of them there is another
request. -/
theorem requests_are_reported_iff_clear (hw₀ : w₀.Fresh) (hd : d < w₀.detectors.length)
    (hnone : w₀.interruptPending d = false) (hdeeds : Deeds w₀ w) :
    (∀ fuel steps, Deeds w (Session.performAll fuel steps w).2) ∧
      (w.interruptPending d = isRequested d w.journal ∧
        w.latchArmed d = isLatched d w.journal) ∧
      (∀ id vm next, w.HasInstance d id → vm < w.machines.length →
        ∃ w', interceptHook d id vm next w = next w' ∧ w.AnswersRequest d w') ∧
      (∀ later past, w.journal = later ++ .interruptTaken d :: past →
        isRequested d past = true ∧ (BeginsWithReport d later ↔ isLatched d past = false)) ∧
      (∀ later r past, w.journal = later ++ .report d r :: past → r.kind = .interrupt →
        ∃ earlier, past = .interruptTaken d :: earlier ∧ isRequested d earlier = true ∧
          isLatched d earlier = false) ∧
      ∀ later r between r' past,
        w.journal = later ++ .report d r :: (between ++ .report d r' :: past) →
        r.kind = .interrupt → r'.kind = .interrupt → .interruptRequested d ∈ between := by
  have hmoves := Turns.moves (Deeds.turns hdeeds)
  have htruth₀ := hw₀.tellsTruth hd hnone
  have htruth := hmoves.tellsTruth htruth₀
  have hanswered : Answered d w.journal :=
    Deeds.answered hdeeds htruth₀ (by rw [hw₀.journal]; exact .nil)
  refine ⟨fun fuel steps => (balancedDeeds_performAll fuel steps (hmoves.valid hw₀.valid)).deeds,
    ⟨htruth.requested, htruth.latched⟩, fun id vm next hid hvm => htruth.hook hid hvm next,
    fun later past hj => ?_, fun later r past hj hr => ?_,
    fun later r between r' past hj hr hr' => ?_⟩
  · rw [hj] at hanswered
    exact hanswered.of_taken
  · rw [hj] at hanswered
    exact hanswered.of_report hr
  · rw [hj] at hanswered
    exact hanswered.requested_between hr hr'

/-- A host with a public that fails and one that completes an instruction. Its machine has a hook of
its own. -/
def stumblingHost : World where
  machines := [{ Machine.ofSize ⟨1⟩ 64 with
    slots := { hook := [.base] }
    publics := [{ name := "Fail", address := 64, body := [.fail .bounds] },
      { name := "Ok", address := 96, body := [.step] }] }]
  detectors := [{}]

theorem stumblingHost_fresh : stumblingHost.Fresh :=
  World.fresh_of_arePlain rfl (by simp [stumblingHost]) rfl

/-- A request is made after the failure is over: the next hook reports it. -/
theorem stumblingHost_reports_request :
    let w := (Session.performAll 8 [.attach 0 0, .exec 0 0, .exec 0 1, .interrupt 0]
      stumblingHost).2
    stumblingHost.Fresh ∧ 0 < stumblingHost.detectors.length ∧
      stumblingHost.interruptPending 0 = false ∧ Deeds stumblingHost w ∧
      ∃ w' logs r, interceptHook 0 0 0 (pure ()) w = .ok () w' ∧ r.kind = .interrupt ∧
        w'.journal = logs ++ .report 0 r :: .interruptTaken 0 :: w.journal := by
  intro w
  have hd : 0 < stumblingHost.detectors.length := by decide
  have hnone : stumblingHost.interruptPending 0 = false := by decide
  have hdeeds : Deeds stumblingHost w :=
    (requests_are_reported_iff_clear stumblingHost_fresh hd hnone .refl).1 8
      [.attach 0 0, .exec 0 0, .exec 0 1, .interrupt 0]
  obtain ⟨-, -, hhook, -⟩ := requests_are_reported_iff_clear stumblingHost_fresh hd hnone hdeeds
  have hid : w.HasInstance 0 0 := by decide +kernel
  have hvm : 0 < w.machines.length := by decide +kernel
  have hrequested : isRequested 0 w.journal = true := by decide +kernel
  have hclear : isLatched 0 w.journal = false := by decide +kernel
  -- what follows holds of any world, and this one need not be computed again
  clear_value w
  obtain ⟨w', hok, hanswers⟩ := hhook 0 0 (pure ()) hid hvm
  rw [pure_apply] at hok
  obtain ⟨logs, r, -, hkind, hj⟩ : ∃ logs r, (∀ e ∈ logs, e.isNeutral = true) ∧
      r.kind = .interrupt ∧ w'.journal = logs ++ .report 0 r :: .interruptTaken 0 :: w.journal := by
    rwa [World.AnswersRequest, hrequested, if_pos rfl, hclear, if_neg Bool.false_ne_true]
      at hanswers
  exact ⟨stumblingHost_fresh, hd, hnone, hdeeds, w', logs, r, hok, hkind, hj⟩

/-- The request comes before the failure is over. A hook takes it while the latch is armed, and when
a hook is called with the latch clear, there is nothing left to report. -/
theorem request_gets_lost :
    let w := (Session.performAll 8
      [.attach 0 0, .exec 0 0, .interrupt 0, .completeInstruction 0, .exec 0 1] stumblingHost).2
    .interruptRequested 0 ∈ w.journal ∧ w.latchArmed 0 = false ∧
      notices 0 w.journal = [.report .runtimeError] ∧
      (Session.perform 8 (.completeInstruction 0) w).2.journal = .base 0 .hook :: w.journal := by
  decide +kernel

end ScriptDiag
