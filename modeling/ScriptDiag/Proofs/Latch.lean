import ScriptDiag.Proofs.Tracking

/-!
# The latch

What a move can do to the latch of a detector, together with what it then writes into the journal,
is one of five things (`LatchEffect`): nothing, suppress a failure, report one, note a crash, or
clear the latch. The last happens only where `World.clearsLatch` allows it, and `clearsLatch_iff`
says in terms of the calls in flight where that is.
-/

namespace ScriptDiag

open Act

variable {w w' w₀ : World}

/-! ## What the latch depends on -/

def World.latchArmed (w : World) (d : Nat) : Bool :=
  (w.registryAt? d).any Registry.latchArmed

/-- Whether a detector demanded the end of the process. -/
def World.terminating (w : World) (d : Nat) : Bool :=
  w.detectors[d]?.any Detector.terminating

def World.IsRegistered (w : World) (d id : Nat) : Prop :=
  ∃ r handle, w.registryAt? d = some r ∧ r.find? handle = some id

instance World.decidableIsRegistered (w : World) (d id : Nat) : Decidable (w.IsRegistered d id) :=
  decidable_of_iff ((w.registryAt? d).any
      (fun r => r.registered.any fun e => decide (r.find? e.1 = some id)) = true) <| by
    simp only [Option.any_eq_true, List.any_eq_true, decide_eq_true_eq, IsRegistered]
    constructor
    · rintro ⟨r, hr, e, -, hfind⟩
      exact ⟨r, e.1, hr, hfind⟩
    · rintro ⟨r, handle, hr, hfind⟩
      exact ⟨r, hr, (handle, id), HandleMap.mem_of_find? hfind, hfind⟩

theorem World.latchArmed_of_some {d : Nat} {det : Detector} (h : w.detectors[d]? = some det) :
    w.latchArmed d = det.registry.latchArmed := by
  rw [latchArmed, registryAt?_of_some h]
  rfl

theorem HandleMap.find?_of_mem {map : HandleMap} {handle : VmHandle} {id : Nat}
    (hkeys : (map.map Prod.fst).Nodup) (h : (handle, id) ∈ map) : map.find? handle = some id := by
  induction map with
  | nil => cases h
  | cons e map ih =>
      obtain ⟨key, id'⟩ := e
      obtain ⟨hkey, hkeys⟩ := List.nodup_cons.mp hkeys
      rw [find?_cons]
      rcases List.mem_cons.mp h with heq | hmem
      · obtain ⟨rfl, rfl⟩ := Prod.mk.inj heq
        exact if_pos rfl
      · have hne : handle ≠ key := fun heq => hkey (List.mem_map.mpr ⟨_, hmem, heq⟩)
        rw [if_neg hne]
        exact ih hkeys hmem

theorem Registry.allIdle_iff (r : Registry) :
    r.allIdle = true ↔ ∀ e ∈ r.registered, ∀ i, r.instance? e.2 = some i → i.calls = [] := by
  simp only [allIdle, registeredInstances, List.all_eq_true, List.mem_filterMap,
    Option.map_eq_some_iff, List.isEmpty_iff]
  constructor
  · intro h e he i hi
    exact h (e.2, i) ⟨e, he, i, hi, rfl⟩
  · rintro h ⟨id, i⟩ ⟨e, he, i', hi, heq⟩
    obtain ⟨-, rfl⟩ := Prod.mk.inj heq
    exact h e he i' hi

/-- A detector sees no call in flight if those that are in flight are all on instances that are no
longer registered. -/
theorem World.Tracked.allIdle_iff {d : Nat} {det : Detector} (ht : w.Tracked) (hv : w.Valid)
    (hdet : w.detectors[d]? = some det) :
    det.registry.allIdle = true ↔
      ∀ o ∈ openCalls w.journal, o.detector = d → ¬ w.IsRegistered d o.instanceId := by
  have hr := registryAt?_of_some hdet
  rw [Registry.allIdle_iff]
  constructor
  · rintro hidle ⟨d', id, call⟩ ho rfl ⟨r, handle, hr', hfind⟩
    obtain rfl := Option.some.inj (hr.symm.trans hr')
    obtain ⟨r', hr'', hid⟩ := ht.exist _ ho
    obtain rfl := Option.some.inj (hr.symm.trans hr'')
    have hi : det.registry.instance? id = some det.registry.instances[id] :=
      List.getElem?_eq_getElem hid
    have hempty := hidle _ (HandleMap.mem_of_find? hfind) _ hi
    rw [ht.calls _ _ _ _ hr hi, List.eq_nil_iff_forall_not_mem] at hempty
    exact hempty call (mem_callsOf.mpr ho)
  · intro hopen e he i hi
    rw [ht.calls d _ e.2 i hr hi, List.eq_nil_iff_forall_not_mem]
    intro call hcall
    refine hopen _ (mem_callsOf.mp hcall) rfl ⟨_, e.1, hr, ?_⟩
    exact HandleMap.find?_of_mem (hv.keys d _ hr) he

theorem World.Tracked.clearsLatch_iff (ht : w.Tracked) (hv : w.Valid) (d : Nat) :
    w.clearsLatch d = true ↔
      w.latchArmed d = true ∧ w.terminating d = false ∧
        ∀ o ∈ openCalls w.journal, o.detector = d → ¬ w.IsRegistered d o.instanceId := by
  cases hdet : w.detectors[d]? with
  | none => simp [clearsLatch, latchArmed, registryAt?, hdet]
  | some det =>
      rw [← ht.allIdle_iff hv hdet, latchArmed_of_some hdet, clearsLatch, terminating, hdet]
      simp [and_assoc]

/-! ## What a move does to the latch -/

/-- Whether an event tells of a failure, of its report, or of the latch of a detector. -/
def Event.isAboutLatch (d : Nat) : Event → Bool
  | .failed d' _ _ _ | .latchArmed d' | .latchCleared d' | .crashed d' => d' == d
  | .report d' r => d' == d && r.isFailure
  | _ => false

/-- What a move can do to the latch of a detector, with what it writes down about it. -/
inductive LatchEffect (d : Nat) (w : World) : World → Prop where
  | keep {w' : World} (es : List Event) (latch : w'.latchArmed d = w.latchArmed d)
      (journal : w'.journal = es ++ w.journal) (none : ∀ e ∈ es, e.isAboutLatch d = false) :
      LatchEffect d w w'
  | suppress {w' : World} {id vm : Nat} {f : Failure} (before : w.latchArmed d = true)
      (after : w'.latchArmed d = true) (journal : w'.journal = .failed d id vm f :: w.journal) :
      LatchEffect d w w'
  | report {w' : World} {id vm : Nat} {det : Detector} {m : Machine} {i : Instance} {f : Failure}
      {logs : List Event} (detector : w.detectors[d]? = some det)
      (machine : w.machines[vm]? = some m) (exist : det.registry.instance? id = some i)
      (before : w.latchArmed d = false) (after : w'.latchArmed d = true)
      (journal : w'.journal = logs ++ .report d (det.failureReport m i f) :: .latchArmed d ::
        .failed d id vm f :: w.journal)
      (quiet : ∀ e ∈ logs, e.isNeutral = true) : LatchEffect d w w'
  | crash {w' : World} (es : List Event) (after : w'.latchArmed d = true)
      (journal : w'.journal = .crashed d :: es ++ w.journal)
      (armed : es = [] ∧ w.latchArmed d = true ∨ es = [.latchArmed d] ∧ w.latchArmed d = false) :
      LatchEffect d w w'
  | clear {id vm : Nat} {det : Detector} {m : Machine} {index : Cell}
      (detector : w.detectors[d]? = some det) (machine : w.machines[vm]? = some m)
      (clears : w.clearsLatch d = true)
      (after : ((w.clearIfIdle d).enter d id
        (det.registry.nextCall m .toPublic index)).latchArmed d = false)
      (journal : ((w.clearIfIdle d).enter d id
        (det.registry.nextCall m .toPublic index)).journal =
          .entered d id (det.registry.nextCall m .toPublic index) :: .latchCleared d :: w.journal) :
      LatchEffect d w ((w.clearIfIdle d).enter d id (det.registry.nextCall m .toPublic index))

theorem Event.isAboutLatch_of_isNeutral {e : Event} (d : Nat) (h : e.isNeutral = true) :
    e.isAboutLatch d = false := by
  cases e <;> first | rfl | cases h

theorem World.latchArmed_of_changesBy {d₀ : Nat} {f : Registry → Registry}
    (hc : w.ChangesBy d₀ f w') (hf : ∀ r, (f r).latchArmed = r.latchArmed) (d : Nat) :
    w'.latchArmed d = w.latchArmed d := by
  rw [latchArmed, hc, latchArmed]
  split
  · cases w.registryAt? d with
    | none => rfl
    | some r => exact hf r
  · rfl

/-- A change to another detector's registry. -/
theorem World.latchArmed_of_ne {d₀ d : Nat} {f : Registry → Registry} (hc : w.ChangesBy d₀ f w')
    (hd : d₀ ≠ d) : w'.latchArmed d = w.latchArmed d := by
  rw [latchArmed, hc, if_neg hd, latchArmed]

theorem World.latchArmed_arm {d : Nat} {det : Detector} (h : w.detectors[d]? = some det) :
    (w.arm d).latchArmed d = true :=
  latchArmed_of_some (detectors_arm w h)

/-- An event that is about another detector's latch. -/
theorem LatchEffect.keep_one {d : Nat} {e : Event} (hl : w'.latchArmed d = w.latchArmed d)
    (hj : w'.journal = e :: w.journal) (he : e.isAboutLatch d = false) : LatchEffect d w w' :=
  .keep [e] hl hj fun _ h => List.mem_singleton.mp h ▸ he

theorem World.isAboutLatch_log {d : Nat} {lines : List LogLine} :
    ∀ e ∈ (lines.map Event.log).reverse, e.isAboutLatch d = false :=
  fun e he => e.isAboutLatch_of_isNeutral d (isNeutral_of_mem_log e he)

theorem LatchEffect.of_reportFailure {d₀ id vm : Nat} {det : Detector} {m : Machine} {i : Instance}
    (f : Failure) (hdet : w.detectors[d₀]? = some det) (hclear : det.registry.latchArmed = false)
    (hm : w.machines[vm]? = some m) (hi : det.registry.instance? id = some i) (d : Nat) :
    LatchEffect d w (w.reportFailure d₀ id vm det m i f) := by
  have hj := w.journal_reportFailure d₀ id vm det m i f
  by_cases hd : d₀ = d
  · subst hd
    refine .report hdet hm hi ?_ ?_ hj isNeutral_of_mem_log
    · rw [World.latchArmed_of_some hdet, hclear]
    · exact World.latchArmed_of_some (World.detectors_reportFailure hdet id vm m i f)
  · have hc : (w.reportFailure d₀ id vm det m i f).latchArmed d = w.latchArmed d := by
      rw [World.latchArmed, World.reportFailure, World.registryAt?_send, World.registryAt?_arm,
        if_neg hd]
      rfl
    refine .keep _ hc (hj.trans (List.append_assoc _
      [Event.report d₀ _, .latchArmed d₀, .failed d₀ id vm f] _).symm) fun e he => ?_
    rcases List.mem_append.mp he with he | he
    · exact World.isAboutLatch_log e he
    · simp only [List.mem_cons, List.not_mem_nil, or_false] at he
      rcases he with rfl | rfl | rfl <;> simp [Event.isAboutLatch, hd]

theorem World.clearIfIdle_of_false {d : Nat} (h : w.clearsLatch d = false) :
    w.clearIfIdle d = w := by
  rw [clearIfIdle, h, if_neg Bool.false_ne_true]

theorem World.clearIfIdle_of_true {d : Nat} (h : w.clearsLatch d = true) :
    w.clearIfIdle d = w.disarm d := by
  rw [clearIfIdle, h, if_pos rfl]

theorem LatchEffect.of_enterPublic {d₀ id vm : Nat} {det : Detector} {m : Machine} (index : Cell)
    (hdet : w.detectors[d₀]? = some det) (hm : w.machines[vm]? = some m) (d : Nat) :
    LatchEffect d w
      ((w.clearIfIdle d₀).enter d₀ id (det.registry.nextCall m .toPublic index)) := by
  have henter := World.latchArmed_of_changesBy (w := w.clearIfIdle d₀)
    ((w.clearIfIdle d₀).changesBy_enter d₀ id (det.registry.nextCall m .toPublic index))
    (fun _ => rfl) d
  cases hclears : w.clearsLatch d₀ with
  | false =>
      rw [World.clearIfIdle_of_false hclears] at henter ⊢
      exact .keep_one henter rfl rfl
  | true =>
      have hdisarm := World.clearIfIdle_of_true hclears
      by_cases hd : d₀ = d
      · subst hd
        refine .clear hdet hm hclears (henter.trans ?_) (by rw [hdisarm]; rfl)
        rw [World.latchArmed_of_some (w.detectors_clearIfIdle hdet), hclears]
        simp
      · have hclear := World.latchArmed_of_ne (w.changesBy_clearIfIdle d₀) hd
        rw [hdisarm] at henter hclear ⊢
        refine .keep [.entered d₀ id _, .latchCleared d₀] (henter.trans hclear) rfl
          fun e he => ?_
        simp only [List.mem_cons, List.not_mem_nil, or_false] at he
        rcases he with rfl | rfl <;> simp [Event.isAboutLatch, hd]

theorem LatchEffect.of_crash {d₀ : Nat} {det : Detector} (hdet : w.detectors[d₀]? = some det)
    (hclear : det.registry.latchArmed = false) (d : Nat) :
    LatchEffect d w ((w.arm d₀).record (.crashed d₀)) := by
  by_cases hd : d₀ = d
  · subst hd
    refine .crash [.latchArmed d₀] (World.latchArmed_arm hdet) rfl (.inr ⟨rfl, ?_⟩)
    rw [World.latchArmed_of_some hdet, hclear]
  · have harm : (w.arm d₀).latchArmed d = w.latchArmed d :=
      World.latchArmed_of_ne (w.registryAt?_arm d₀) hd
    refine .keep [.crashed d₀, .latchArmed d₀] harm rfl fun e he => ?_
    simp only [List.mem_cons, List.not_mem_nil, or_false] at he
    rcases he with rfl | rfl <;> simp [Event.isAboutLatch, hd]

theorem Move.latch (h : Move w w') (d : Nat) : LatchEffect d w w' := by
  cases h with
  | quiet hdet hlen hslots hes =>
      obtain ⟨es, hes, hneutral⟩ := hes
      refine .keep es ?_ hes fun e he => e.isAboutLatch_of_isNeutral d (hneutral e he)
      rw [World.latchArmed, World.latchArmed, World.registryAt?, World.registryAt?, hdet]
  | @enterNative d₀ id vm det m index hdet hm hid =>
      exact .keep_one (World.latchArmed_of_changesBy (w.changesBy_enter d₀ id _) (fun _ => rfl) d)
        rfl rfl
  | enterPublic index hdet hm hid => exact .of_enterPublic index hdet hm d
  | @leave d₀ id call rest hinner =>
      refine .keep _
        (World.latchArmed_of_changesBy (w.changesBy_leaveCall d₀ id _) (fun _ => rfl) d)
        (journal_leaveCall d₀ id call.seq w) fun e he => ?_
      rcases List.mem_cons.mp he with rfl | he
      · rfl
      · exact World.isAboutLatch_log e he
  | @suppressFailure d₀ det id vm f hdet harmed =>
      by_cases hd : d₀ = d
      · subst hd
        exact .suppress (by rw [World.latchArmed_of_some hdet, harmed])
          (by rw [← harmed]; exact World.latchArmed_of_some hdet) rfl
      · exact .keep_one rfl rfl (by simpa [Event.isAboutLatch] using hd)
  | reportFailure f hdet hclear hm hi => exact .of_reportFailure f hdet hclear hm hi d
  | @terminate d₀ det kind pending _ _ =>
      refine .keep_one ?_ rfl rfl
      rw [World.latchArmed, World.registryAt?_endProcess, World.latchArmed]
  | @crashAgain d₀ det hdet harmed =>
      by_cases hd : d₀ = d
      · subst hd
        have ha : w.latchArmed d₀ = true := by rw [World.latchArmed_of_some hdet, harmed]
        exact .crash [] ha rfl (.inl ⟨rfl, ha⟩)
      · exact .keep_one rfl rfl (by simpa [Event.isAboutLatch] using hd)
  | crash hdet hclear => exact .of_crash hdet hclear d
  | @report d₀ det r hdet hother =>
      refine .keep _ ?_
        ((w.journal_send d₀ det r).trans (List.append_assoc _ [Event.report d₀ r] _).symm)
        fun e he => ?_
      · rw [World.latchArmed, World.registryAt?_send, World.latchArmed]
      · rcases List.mem_append.mp he with he | he
        · exact World.isAboutLatch_log e he
        · rw [List.mem_singleton.mp he, Event.isAboutLatch, hother, Bool.and_false]
  | interrupt d₀ pending =>
      refine .keep_one ?_ rfl (by cases pending <;> rfl)
      rw [World.latchArmed, World.registryAt?_setInterrupt, World.latchArmed]
  | @attach d₀ vm det m i hdet _ _ _ _ =>
      exact .keep_one (World.latchArmed_of_changesBy (w.changesBy_attach d₀ vm det _ i)
        (fun _ => rfl) d) rfl rfl
  | @detach d₀ id vm det m _ _ _ =>
      exact .keep_one (World.latchArmed_of_changesBy (w.changesBy_detach d₀ id vm _)
        (fun _ => rfl) d) rfl rfl

/-- From one world to the other a public is entered on an instance of a detector. -/
def World.EntersPublic (d : Nat) (w w' : World) : Prop :=
  ∃ (id vm : Nat) (det : Detector) (m : Machine) (index : Cell),
    w.detectors[d]? = some det ∧ w.machines[vm]? = some m ∧
      w' = (w.clearIfIdle d).enter d id (det.registry.nextCall m .toPublic index)

/-- A latch that was armed and is clear has been cleared at the start of a public. -/
theorem Move.clears {d : Nat} (h : Move w w') (harmed : w.latchArmed d = true)
    (hclear : w'.latchArmed d = false) : w.clearsLatch d = true ∧ w.EntersPublic d w' := by
  have hcontra : w'.latchArmed d = true → w.clearsLatch d = true ∧ w.EntersPublic d w' :=
    fun h => absurd (h.symm.trans hclear) Bool.noConfusion
  cases h.latch d with
  | keep _ hl _ _ => exact hcontra (hl.trans harmed)
  | suppress _ ha _ => exact hcontra ha
  | report _ _ _ _ ha _ _ => exact hcontra ha
  | crash _ ha _ _ => exact hcontra ha
  | clear hdet hm hclears _ _ => exact ⟨hclears, _, _, _, _, _, hdet, hm, rfl⟩

theorem World.latchArmed_clearIfIdle (w : World) (d : Nat) :
    (w.clearIfIdle d).latchArmed d = (w.latchArmed d && !w.clearsLatch d) := by
  cases hdet : w.detectors[d]? with
  | none => simp [clearIfIdle, clearsLatch, hdet, latchArmed, registryAt?]
  | some det => rw [latchArmed_of_some (w.detectors_clearIfIdle hdet), latchArmed_of_some hdet]

/-! ## A call that stays in flight -/

theorem World.IsRegistered.of_changesBy {d₀ d id : Nat} {f : Registry → Registry}
    (h : w.IsRegistered d id) (hc : w.ChangesBy d₀ f w')
    (hf : ∀ r, (f r).registered = r.registered) : w'.IsRegistered d id := by
  obtain ⟨r, handle, hr, hid⟩ := h
  rw [IsRegistered, hc, hr]
  split
  · refine ⟨f r, handle, rfl, ?_⟩
    rw [Registry.find?, hf]
    exact hid
  · exact ⟨r, handle, rfl, hid⟩

/-- An instance stays registered until its detector is detached from the machine. -/
theorem Move.isRegistered {d id : Nat} (h : Move w w') (hr : w.IsRegistered d id)
    (hnot : ∀ vm es, w'.journal = es ++ w.journal → .detached d id vm ∉ es) :
    w'.IsRegistered d id := by
  cases h.effect with
  | keep _ _ hc _ hf => exact hr.of_changesBy hc hf
  | @enter w₁ d₀ id₀ _ _ _ _ call _ _ hc _ hf _ _ _ _ _ _ =>
      exact (hr.of_changesBy hc hf).of_changesBy (w₁.changesBy_enter d₀ id₀ call) fun _ => rfl
  | @leave d₀ id₀ call _ _ =>
      exact hr.of_changesBy (w.changesBy_leaveCall d₀ id₀ call.seq) fun _ => rfl
  | @attach d₀ vm det m i hdet _ hfree _ _ =>
      obtain ⟨r, handle, hr, hid⟩ := hr
      rw [World.IsRegistered, w.changesBy_attach d₀ vm det m.handle i d, hr]
      split
      case isTrue hd =>
        subst hd
        obtain rfl := Option.some.inj ((World.registryAt?_of_some hdet).symm.trans hr)
        refine ⟨_, handle, rfl, ?_⟩
        have hne : handle ≠ m.handle := by
          rintro rfl
          rw [Registry.contains, hid] at hfree
          cases hfree
        exact (HandleMap.find?_insert _ _ _ _).trans ((if_neg hne).trans hid)
      case isFalse => exact ⟨r, handle, rfl, hid⟩
  | @detach d₀ id₀ vm det m hdet hreg =>
      obtain ⟨r, handle, hr, hid⟩ := hr
      rw [World.IsRegistered, w.changesBy_detach d₀ id₀ vm m.handle d, hr]
      split
      case isTrue hd =>
        subst hd
        obtain rfl := Option.some.inj ((World.registryAt?_of_some hdet).symm.trans hr)
        refine ⟨_, handle, rfl, ?_⟩
        have hne : handle ≠ m.handle := by
          rintro rfl
          obtain rfl := Option.some.inj (hreg.symm.trans hid)
          exact hnot vm [_] rfl List.mem_cons_self
        exact (HandleMap.find?_erase _ _ _).trans ((if_neg hne).trans hid)
      case isFalse => exact ⟨r, handle, rfl, hid⟩

/-- Whether a detector has given out at least this number. -/
def World.HasNumbered (w : World) (d seq : Nat) : Prop :=
  ∃ r, w.registryAt? d = some r ∧ seq ≤ r.lastSeq

theorem World.HasNumbered.of_changesBy {d₀ d seq : Nat} {f : Registry → Registry}
    (h : w.HasNumbered d seq) (hc : w.ChangesBy d₀ f w')
    (hf : ∀ r, r.lastSeq ≤ (f r).lastSeq) : w'.HasNumbered d seq := by
  obtain ⟨r, hr, hle⟩ := h
  rw [HasNumbered, hc, hr]
  split
  · exact ⟨f r, rfl, Nat.le_trans hle (hf r)⟩
  · exact ⟨r, rfl, hle⟩

theorem Move.hasNumbered {d seq : Nat} (h : Move w w') (hn : w.HasNumbered d seq) :
    w'.HasNumbered d seq := by
  cases h.effect with
  | keep _ _ hc hf _ => exact hn.of_changesBy hc fun r => Nat.le_of_eq (hf.lastSeq r).symm
  | @enter w₁ d₀ id₀ _ _ _ _ call _ _ hc hf _ _ _ _ _ _ _ =>
      exact (hn.of_changesBy hc fun r => Nat.le_of_eq (hf.lastSeq r).symm).of_changesBy
        (w₁.changesBy_enter d₀ id₀ call) fun r => Nat.le_succ r.lastSeq
  | @leave d₀ id₀ call _ _ =>
      exact hn.of_changesBy (w.changesBy_leaveCall d₀ id₀ call.seq) fun r => Nat.le_refl _
  | @attach d₀ vm det m i _ _ _ _ _ =>
      exact hn.of_changesBy (w.changesBy_attach d₀ vm det m.handle i) fun r => Nat.le_refl _
  | @detach d₀ id₀ vm _ m _ _ =>
      exact hn.of_changesBy (w.changesBy_detach d₀ id₀ vm m.handle) fun r => Nat.le_refl _

theorem Moves.hasNumbered {d seq : Nat} (h : Moves w w') (hn : w.HasNumbered d seq) :
    w'.HasNumbered d seq := by
  induction h with
  | refl => exact hn
  | tail _ hmove ih => exact hmove.hasNumbered ih

/-- A call that is in flight after a move was so before, unless its number is a new one. -/
theorem Move.open_before {o : OpenCall} (h : Move w w') (ho : o ∈ openCalls w'.journal)
    (hn : w.HasNumbered o.detector o.call.seq) (ht : w.Tracked) : o ∈ openCalls w.journal := by
  cases h.effect with
  | keep _ hopen _ _ _ => exact hopen ▸ ho
  | @enter w₁ d₀ id₀ _ _ det _ call _ hopen _ _ _ hdet _ hseq _ _ _ =>
      rcases List.mem_cons.mp ho with rfl | ho
      · obtain ⟨r, hr, hle⟩ := hn
        obtain rfl := Option.some.inj ((World.registryAt?_of_some hdet).symm.trans hr)
        exact absurd (hseq ▸ hle) (Nat.not_succ_le_self _)
      · exact hopen ▸ ho
  | @leave d₀ id₀ call rest hinner =>
      rw [journal_leaveCall, ht.leaveLog_innermost hinner] at ho
      rw [List.map_nil, List.reverse_nil, List.singleton_append, openCalls_leave hinner] at ho
      exact hinner ▸ List.mem_cons_of_mem _ ho
  | attach _ _ _ _ _ => exact ho
  | detach _ _ => exact ho

/-- While a call on a registered instance is in flight, the latch is not cleared. -/
theorem World.Tracked.not_clearsLatch {d id : Nat} {call : CallRecord} (ht : w.Tracked)
    (hv : w.Valid) (ho : ⟨d, id, call⟩ ∈ openCalls w.journal) (hr : w.IsRegistered d id) :
    w.clearsLatch d = false := by
  rw [← Bool.not_eq_true, ht.clearsLatch_iff hv d]
  rintro ⟨-, -, hnone⟩
  exact hnone _ ho rfl hr

end ScriptDiag
