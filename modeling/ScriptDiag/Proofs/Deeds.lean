import ScriptDiag.Proofs.Turns

/-!
# Deeds

Requests for interrupts are looked for in one place only, the interceptor in a hook slot
(`noticeInterrupt`). Turns do not say so: of a turn in which no detector speaks, they leave open
whether a request was taken. A `Deed` is either what a hook does, or a turn in which nobody takes a
request or reports an interrupt. `Deeds` are a run made of them, and every deed is made of turns
(`Deeds.turns`).
-/

namespace ScriptDiag

open Act

variable {w w' w'' : World}

/-! ## Turns that leave requests alone -/

/-- Whether an event is that a request for an interrupt is taken, or the report of an interrupt. -/
def Event.isAnswer : Event → Bool
  | .interruptTaken _ => true
  | .report _ r => r.kind == .interrupt
  | _ => false

/-- From one world to the other no request for an interrupt is answered. -/
abbrev World.Unanswered (w w' : World) : Prop :=
  w.GrowsBy (fun e => e.isAnswer = false) w'

/-- Whether a detector speaks or takes a request. -/
def Event.isReply : Event → Bool
  | .report _ _ | .terminate _ _ _ | .interruptTaken _ => true
  | _ => false

/-- From one world to the other no detector speaks or takes a request. -/
abbrev World.Mute (w w' : World) : Prop :=
  w.GrowsBy (fun e => e.isReply = false) w'

theorem World.GrowsBy.imp {p q : Event → Prop} (h : w.GrowsBy p w') (hpq : ∀ e, p e → q e) :
    w.GrowsBy q w' := by
  obtain ⟨es, hes, hp⟩ := h
  exact ⟨es, hes, fun e he => hpq e (hp e he)⟩

theorem World.Mute.silent (h : w.Mute w') : w.Silent w' :=
  h.imp fun e he => by cases e <;> first | rfl | cases he

theorem World.Mute.unanswered (h : w.Mute w') : w.Unanswered w' :=
  h.imp fun e he => by cases e <;> first | rfl | cases he

theorem Event.isReply_of_isNeutral {e : Event} (h : e.isNeutral = true) : e.isReply = false := by
  cases e <;> first | rfl | cases h

theorem isReply_of_mem_log {lines : List LogLine} :
    ∀ e ∈ (lines.map Event.log).reverse, e.isReply = false :=
  fun e he => e.isReply_of_isNeutral (isNeutral_of_mem_log e he)

theorem World.mute_leaveCall (w : World) (d id seq : Nat) : w.Mute (leaveCall d id seq w) := by
  refine ⟨.left d id seq :: ((w.leaveLog d id seq).map Event.log).reverse,
    journal_leaveCall d id seq w, fun e he => ?_⟩
  rcases List.mem_cons.mp he with rfl | he
  · rfl
  · exact isReply_of_mem_log e he

/-- A report that is not about an interrupt. -/
theorem World.unanswered_send (w : World) (d : Nat) (det : Detector) {r : Report}
    (h : r.kind ≠ .interrupt) : w.Unanswered (w.send d det r) := by
  refine ⟨((det.sink.emit r).2.map Event.log).reverse ++ [.report d r],
    (w.journal_send d det r).trans (List.append_assoc _ [Event.report d r] _).symm, fun e he => ?_⟩
  rcases List.mem_append.mp he with he | he
  · have hreply := isReply_of_mem_log e he
    cases e <;> first | rfl | cases hreply
  · rw [List.mem_singleton.mp he]
    simpa [Event.isAnswer] using h

theorem World.unanswered_reportFailure (w : World) (d id vm : Nat) (det : Detector) (m : Machine)
    (i : Instance) (f : Failure) : w.Unanswered (w.reportFailure d id vm det m i f) := by
  have hfailed : w.Unanswered ((w.record (.failed d id vm f)).arm d) := by
    refine ⟨[.latchArmed d, .failed d id vm f], rfl, ?_⟩
    simp [Event.isAnswer]
  have hkind : (det.failureReport m i f).kind ≠ .interrupt := by
    cases f <;> exact nofun
  exact hfailed.trans (World.unanswered_send _ d det hkind)

theorem World.unanswered_endProcess (w : World) (d : Nat) (kind : FailureKind) (pending : Nat) :
    w.Unanswered (w.endProcess d kind pending) :=
  .one rfl rfl

/-! ## What a hook does -/

/-- What the interceptor in the hook slot does before it forwards. -/
def noticeInterrupt (d id vm : Nat) : Act Unit := do
  if ← takeInterrupt d then
    let _ ← onInterrupt d id vm

theorem interceptHook_eq (d id vm : Nat) (next : Act Unit) :
    interceptHook d id vm next = noticeInterrupt d id vm >>= fun _ => next := by
  rw [interceptHook, noticeInterrupt, bind_assoc]
  congr 1
  funext taken
  cases taken <;> simp

/-- There is no request, or it is taken, and then it is reported unless the latch is armed. -/
theorem noticeInterrupt_cases {d id vm : Nat} {det : Detector} {m : Machine} {i : Instance}
    (hdet : w.detectors[d]? = some det) (hm : w.machines[vm]? = some m)
    (hi : det.registry.instance? id = some i) :
    ∃ w', noticeInterrupt d id vm w = .ok () w' ∧
      (det.interruptPending = false ∧ w' = w ∨
        det.interruptPending = true ∧ det.registry.latchArmed = true ∧ w' = w.setInterrupt d false ∨
        det.interruptPending = true ∧ det.registry.latchArmed = false ∧
          ∃ r : Report, r.kind = .interrupt ∧
            w' = (w.setInterrupt d false).send d { det with interruptPending := false } r) := by
  cases hp : det.interruptPending with
  | false => exact ⟨w, Act.bind_of_ok (takeInterrupt_of_not_pending hdet hp), .inl ⟨rfl, rfl⟩⟩
  | true =>
      have hdet' := World.detectors_setInterrupt hdet false
      have htake := takeInterrupt_of_pending hdet hp
      cases ha : det.registry.latchArmed with
      | true =>
          exact ⟨_, (Act.bind_of_ok htake).trans (Act.bind_of_ok (onInterrupt_of_armed hdet' ha)),
            .inr (.inl ⟨rfl, rfl, rfl⟩)⟩
      | false =>
          exact ⟨_, (Act.bind_of_ok htake).trans
            (Act.bind_of_ok (onInterrupt_of_clear hdet' ha hm hi)),
            .inr (.inr ⟨rfl, rfl, _, rfl, rfl⟩)⟩

theorem World.HasInstance.detector {d id : Nat} (h : w.HasInstance d id) :
    ∃ det i, w.detectors[d]? = some det ∧ det.registry.instance? id = some i ∧
      id < det.registry.instances.length := by
  obtain ⟨r, hr, hid⟩ := h
  obtain ⟨det, hdet, rfl⟩ := Option.map_eq_some_iff.mp hr
  exact ⟨det, _, hdet, List.getElem?_eq_getElem hid, hid⟩

/-! ## Deeds -/

/-- A turn in which no request for an interrupt is answered, or what a hook does. -/
inductive Deed : World → World → Prop where
  | other {w w' : World} (turn : Turn w w') (unanswered : w.Unanswered w') : Deed w w'
  /-- The hook of a machine gets to the interceptor of an instance. -/
  | hook {w : World} {d id vm : Nat} (exist : w.HasInstance d id)
      (machine : vm < w.machines.length) : Deed w ((noticeInterrupt d id vm).after w)

/-- A run made of deeds. -/
abbrev Deeds : World → World → Prop :=
  Relation.ReflTransGen Deed

theorem Deed.turns (h : Deed w w') : Turns w w' := by
  cases h with
  | other hturn _ => exact .single hturn
  | @hook d id vm hid hvm =>
      obtain ⟨det, i, hdet, hi, -⟩ := hid.detector
      obtain ⟨w', hok, ⟨-, rfl⟩ | ⟨-, -, rfl⟩ | ⟨-, hclear, r, hkind, rfl⟩⟩ :=
        noticeInterrupt_cases hdet (List.getElem?_eq_getElem hvm) hi
      · rw [after_of_ok hok]
      · rw [after_of_ok hok]
        exact .single (.silent (.interrupt d false) (.one rfl rfl))
      · rw [after_of_ok hok]
        exact .single (.interrupt hdet hclear hkind)

theorem Deeds.turns (h : Deeds w w') : Turns w w' := by
  induction h with
  | refl => exact .refl
  | tail _ hdeed ih => exact ih.trans hdeed.turns

end ScriptDiag
