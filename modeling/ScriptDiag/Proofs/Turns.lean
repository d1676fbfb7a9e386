import ScriptDiag.Proofs.Growth
import ScriptDiag.Proofs.Moves

/-!
# Turns

A detector speaks in two ways: it reports, and it demands the end of the process. These are the
notices of `notices`. Moves are too fine to say in which order they come, since a report and the
demand that follows it are two moves. A `Turn` is all that a detector does at once: one move in
which no detector speaks, or the whole of its answer to a failure, a crash or an interrupt.
`Turns` are a run made of them, and every turn is made of moves (`Turns.moves`).
`ScriptDiag.Proofs.BalancedActs` shows that all that machines and hosts do is such a run.
-/

namespace ScriptDiag

variable {w w' : World}

/-! ## Notices -/

/-- What a detector says to the outside. -/
inductive Notice where
  | report (kind : FailureKind)
  | terminate (kind : FailureKind)
deriving DecidableEq, Repr, Inhabited

def Event.notice? (d : Nat) : Event → Option Notice
  | .report d' r => if d' = d then some (.report r.kind) else none
  | .terminate d' kind _ => if d' = d then some (.terminate kind) else none
  | _ => none

/-- What a detector said, latest first. -/
def notices (d : Nat) (journal : List Event) : List Notice :=
  journal.filterMap (Event.notice? d)

/-- Whether an event is a report or a demand for the end of the process, by whatever detector. -/
def Event.isNotice : Event → Bool
  | .report _ _ | .terminate _ _ _ => true
  | _ => false

theorem Event.notice?_of_isNotice {e : Event} (h : e.isNotice = false) (d : Nat) :
    e.notice? d = none := by
  cases e <;> first | rfl | cases h

theorem Event.isNotice_of_isNeutral {e : Event} (h : e.isNeutral = true) : e.isNotice = false := by
  cases e <;> first | rfl | cases h

theorem isNotice_of_mem_log {lines : List LogLine} :
    ∀ e ∈ (lines.map Event.log).reverse, e.isNotice = false :=
  fun e he => e.isNotice_of_isNeutral (isNeutral_of_mem_log e he)

theorem notices_append_of_silent {es : List Event} (h : ∀ e ∈ es, e.isNotice = false) (d : Nat)
    (past : List Event) : notices d (es ++ past) = notices d past := by
  have hnone : es.filterMap (Event.notice? d) = [] :=
    List.filterMap_eq_nil_iff.mpr fun e he => e.notice?_of_isNotice (h e he) d
  rw [notices, List.filterMap_append, hnone, List.nil_append, notices]

theorem notices_report (d d' : Nat) (r : Report) (past : List Event) :
    notices d' (.report d r :: past) =
      (if d = d' then [.report r.kind] else []) ++ notices d' past := by
  rw [notices, List.filterMap_cons, Event.notice?]
  split <;> simp_all [notices]

theorem notices_terminate (d d' : Nat) (kind : FailureKind) (pending : Nat) (past : List Event) :
    notices d' (.terminate d kind pending :: past) =
      (if d = d' then [.terminate kind] else []) ++ notices d' past := by
  rw [notices, List.filterMap_cons, Event.notice?]
  split <;> simp_all [notices]

theorem World.notices_send (w : World) (d : Nat) (det : Detector) (r : Report) (d' : Nat) :
    notices d' (w.send d det r).journal =
      (if d = d' then [.report r.kind] else []) ++ notices d' w.journal := by
  rw [journal_send, notices_append_of_silent isNotice_of_mem_log, notices_report]

theorem World.notices_endProcess (w : World) (d : Nat) (kind : FailureKind) (pending d' : Nat) :
    notices d' (w.endProcess d kind pending).journal =
      (if d = d' then [.terminate kind] else []) ++ notices d' w.journal :=
  notices_terminate d d' kind pending w.journal

/-! ## Silence -/

/-- From one world to the other no detector speaks. -/
abbrev World.Silent (w w' : World) : Prop :=
  w.GrowsBy (fun e => e.isNotice = false) w'

theorem World.Silent.notices_eq (h : w.Silent w') (d : Nat) :
    notices d w'.journal = notices d w.journal := by
  obtain ⟨es, hes, hs⟩ := h
  rw [hes, notices_append_of_silent hs]

/-! ## Turns -/

/-- What a detector does at once. -/
inductive Turn : World → World → Prop where
  /-- No detector speaks. -/
  | silent {w w' : World} (move : Move w w') (silent : w.Silent w') : Turn w w'
  /-- A failure is reported, and the process goes on. -/
  | failure {w : World} {d id vm : Nat} {det : Detector} {m : Machine} {i : Instance} {f : Failure}
      (detector : w.detectors[d]? = some det) (clear : det.registry.latchArmed = false)
      (machine : w.machines[vm]? = some m) (exist : det.registry.instance? id = some i)
      (survives : f.kind = .runtimeError → det.settings.dieOnError = false) :
      Turn w (w.reportFailure d id vm det m i f)
  /-- A runtime error is reported, and the settings demand the end of the process. -/
  | fatal {w : World} {d id vm : Nat} {det : Detector} {m : Machine} {i : Instance} {index : Cell}
      {e : VmError} (detector : w.detectors[d]? = some det)
      (clear : det.registry.latchArmed = false) (machine : w.machines[vm]? = some m)
      (exist : det.registry.instance? id = some i) (dies : det.settings.dieOnError = true)
      (pending : Nat) :
      Turn w ((w.reportFailure d id vm det m i (.runtime index e)).endProcess d .runtimeError
        pending)
  /-- A crash is reported, and demands the end of the process. -/
  | crash {w w₁ : World} {d : Nat} {det : Detector} {r : Report} (es : List Event)
      (move : Move w w₁) (silent : w.Silent w₁)
      (journal : w₁.journal = .crashed d :: es ++ w.journal)
      (detector : w₁.detectors[d]? = some det) (armed : det.registry.latchArmed = true)
      (kind : r.kind = .hostCrash) (pending : Nat) :
      Turn w ((w₁.send d det r).endProcess d .hostCrash pending)
  /-- The request for an interrupt is taken and reported. -/
  | interrupt {w : World} {d : Nat} {det : Detector} {r : Report}
      (detector : w.detectors[d]? = some det) (clear : det.registry.latchArmed = false)
      (kind : r.kind = .interrupt) :
      Turn w ((w.setInterrupt d false).send d { det with interruptPending := false } r)

/-- A run made of turns. -/
abbrev Turns : World → World → Prop :=
  Relation.ReflTransGen Turn

theorem World.detectors_setInterrupt {d : Nat} {det : Detector} (h : w.detectors[d]? = some det)
    (pending : Bool) :
    (w.setInterrupt d pending).detectors[d]? = some { det with interruptPending := pending } := by
  rw [setInterrupt, detectors_record, getElem?_modifyDetector, if_pos rfl, h]
  rfl

theorem Turn.moves (h : Turn w w') : Moves w w' := by
  have hother : ∀ {r : Report}, r.kind = .hostCrash ∨ r.kind = .interrupt →
      r.isFailure = false := by
    rintro r (h | h) <;> simp [Report.isFailure, h]
  cases h with
  | silent move _ => exact .single move
  | failure hdet hclear hm hi _ => exact .single (.reportFailure _ hdet hclear hm hi)
  | @fatal d id vm det m i index e hdet hclear hm hi _ pending =>
      refine (Relation.ReflTransGen.single
        (.reportFailure (.runtime index e) hdet hclear hm hi)).tail ?_
      exact .terminate _ pending (World.detectors_reportFailure hdet _ _ _ _ _) rfl
  | @crash w₁ d det r _ move _ _ hdet harmed hkind pending =>
      refine ((Relation.ReflTransGen.single move).tail (.report hdet (hother (.inl hkind)))).tail ?_
      exact .terminate _ pending (World.detectors_send hdet r) harmed
  | @interrupt d det r hdet _ hkind =>
      refine (Relation.ReflTransGen.single (.interrupt d false)).tail ?_
      exact .report (World.detectors_setInterrupt hdet false) (hother (.inr hkind))

theorem Turns.moves (h : Turns w w') : Moves w w' := by
  induction h with
  | refl => exact .refl
  | tail _ hturn ih => exact ih.trans hturn.moves

end ScriptDiag
