import Mathlib.Data.List.Induction
import ScriptDiag.Guard

/-!
# What guards leave on the stack

Guards are dropped in any order, or never, and calls may share a number. A `GuardLedger` has a line
for each call that was entered, with what has become of its guard; it knows nothing of the stack.
Yet it tells what the stack holds: of every number as many records as there are guards of that
number that are held or leaked (`GuardedStack.Tracks`). This is why a guard that is dropped always
finds a record, though perhaps that of another call of its number.

A guard that an unwinding failure drops is dropped like any other. `GuardStep.unwind` is entering
and such a drop in one.
-/

namespace ScriptDiag

/-! ## Leaving -/

namespace CallStack

variable {s above below : CallStack} {r : CallRecord} {seq : Nat}

/-- Among the records of a number one is nearest the top. -/
theorem exists_nearest (h : ∃ r ∈ s, r.seq = seq) :
    ∃ above r below, s = above ++ r :: below ∧ r.seq = seq ∧ ∀ o ∈ above, o.seq ≠ seq := by
  obtain ⟨r, hr, hseq⟩ := h
  obtain ⟨found, above, below, habove, hfound, hsplit, -⟩ :=
    List.exists_of_eraseP (p := fun r : CallRecord => r.seq == seq) hr (beq_iff_eq.2 hseq)
  exact ⟨above, found, below, hsplit, beq_iff_eq.1 hfound, fun o ho => by simpa using habove o ho⟩

theorem countP_nearest : (above ++ r :: below).countP (fun r => r.seq == seq) =
    (above ++ below).countP (fun r => r.seq == seq) + if r.seq = seq then 1 else 0 := by
  simp only [List.countP_append, List.countP_cons, beq_iff_eq, Nat.add_assoc]

theorem leave_of_nearest (hr : r.seq = seq) (habove : ∀ o ∈ above, o.seq ≠ seq) :
    CallStack.leave (above ++ r :: below) seq = above ++ below := by
  rw [leave, List.eraseP_append_right _ fun o ho => by simpa using habove o ho,
    List.eraseP_cons_of_pos (by simpa using hr)]

theorem leaveWarning?_of_nearest (hr : r.seq = seq) (habove : ∀ o ∈ above, o.seq ≠ seq) :
    CallStack.leaveWarning? (above ++ r :: below) seq =
      if above = [] then none else some { seq, newer := above.length } := by
  have hindex : (above ++ r :: below).findIdx? (fun r => r.seq == seq) = some above.length := by
    rw [List.findIdx?_append, List.findIdx?_eq_none_iff.2 fun o ho => by simpa using habove o ho]
    simp [List.findIdx?_cons, hr]
  rw [leaveWarning?, hindex]
  cases above <;> simp

end CallStack

/-! ## The ledger -/

/-- What has become of a guard. -/
inductive GuardFate where
  | held
  | dropped
  | leaked
deriving DecidableEq, Repr, Inhabited

/-- A call that was entered, and what has become of its guard. -/
structure GuardedCall where
  record : CallRecord
  fate : GuardFate := .held
deriving DecidableEq, Repr, Inhabited

/-- The number that a call's guard keeps while it is held. -/
def GuardedCall.guard? (c : GuardedCall) : Option Nat :=
  if c.fate = .held then some c.record.seq else none

/-- The calls entered so far, in order. The place of a call is the number of its guard. -/
abbrev GuardLedger := List GuardedCall

namespace GuardLedger

/-- The ledger with guard `n` given up, which is possible only while it is held. -/
def settle (l : GuardLedger) (n : Nat) (fate : GuardFate) : GuardLedger :=
  l.modify n fun c => if c.fate = .held then { c with fate } else c

/-- The ledger after a step. A call that is unwound is over at once, so it has no line. -/
def step (l : GuardLedger) : GuardStep → GuardLedger
  | .enter r => l ++ [{ record := r }]
  | .drop n => l.settle n .dropped
  | .leak n => l.settle n .leaked
  | .unwind _ => l

/-- The ledger of a sequence of steps. -/
def ofSteps (steps : List GuardStep) : GuardLedger :=
  steps.foldl step []

/-- How many guards of calls numbered `seq` have that fate. -/
def count (l : GuardLedger) (fate : GuardFate) (seq : Nat) : Nat :=
  l.countP fun c => c.record.seq == seq && c.fate == fate

/-- The records of the calls whose guards were not dropped, in order of entry. -/
def remaining (l : GuardLedger) : List CallRecord :=
  (l.filter fun c => c.fate != .dropped).map GuardedCall.record

/-- The numbers of the calls, in order of entry. -/
def numbers (l : GuardLedger) : List Nat :=
  l.map fun c => c.record.seq

variable {l before after : GuardLedger} {c : GuardedCall} {n seq : Nat} {fate : GuardFate}

/-- Giving up a guard changes the fate of a line, or nothing if the guard is not held. -/
theorem settle_cases (l : GuardLedger) (n : Nat) (fate : GuardFate) :
    (∃ before c after, l = before ++ c :: after ∧ before.length = n ∧ c.fate = .held ∧
      l.settle n fate = before ++ { c with fate } :: after) ∨
    ((∀ c, l[n]? = some c → c.fate ≠ .held) ∧ l.settle n fate = l) := by
  by_cases hn : n < l.length
  · obtain ⟨before, c, after, rfl, rfl, hsettle⟩ := List.exists_of_modify
      (fun c : GuardedCall => if c.fate = .held then { c with fate } else c) hn
    by_cases hheld : c.fate = .held
    · rw [if_pos hheld] at hsettle
      exact .inl ⟨before, c, after, rfl, rfl, hheld, hsettle⟩
    · rw [if_neg hheld] at hsettle
      exact .inr ⟨by simpa using hheld, hsettle⟩
  · refine .inr ⟨fun c hc => ?_, List.modify_eq_self (Nat.le_of_not_lt hn)⟩
    exact absurd (List.getElem?_eq_some_iff.1 hc).1 hn

theorem count_append_cons : count (before ++ c :: after) fate seq =
    count before fate seq + count after fate seq +
      if c.record.seq = seq ∧ c.fate = fate then 1 else 0 := by
  simp only [count, List.countP_append, List.countP_cons, Bool.and_eq_true, beq_iff_eq,
    Nat.add_assoc]

theorem numbers_append : numbers (before ++ after) = before.numbers ++ after.numbers :=
  List.map_append

theorem numbers_of_fate : numbers (before ++ { c with fate } :: after) =
    numbers (before ++ c :: after) := by
  simp only [numbers, List.map_append, List.map_cons]

theorem remaining_append_cons : remaining (before ++ c :: after) =
    before.remaining ++ (if c.fate = .dropped then [] else [c.record]) ++ after.remaining := by
  simp only [remaining, List.filter_append, List.map_append, List.filter_cons, bne_iff_ne, ite_not,
    List.append_assoc]
  split <;> rfl

theorem seq_of_mem_remaining {r : CallRecord} (h : r ∈ l.remaining) : r.seq ∈ l.numbers := by
  obtain ⟨c, hc, rfl⟩ := List.mem_map.1 h
  exact List.mem_map.2 ⟨c, (List.mem_filter.1 hc).1, rfl⟩

end GuardLedger

/-! ## The stack beside the ledger -/

namespace GuardedStack

/-- The stack after a sequence of steps. -/
def ofSteps (steps : List GuardStep) : GuardedStack :=
  steps.foldl (fun s step => (s.step step).1) {}

/-- The guards are those of the ledger, and of every number the stack holds as many records as
guards are held or leaked. If no number repeats, the ledger tells the whole stack. -/
structure Tracks (s : GuardedStack) (l : GuardLedger) : Prop where
  guards : s.guards = l.map GuardedCall.guard?
  count : ∀ seq, s.calls.countP (fun r => r.seq == seq) =
    l.count .held seq + l.count .leaked seq
  remaining : l.numbers.Nodup → s.calls = l.remaining.reverse

variable {s : GuardedStack} {l : GuardLedger} {n seq : Nat}

theorem Tracks.held?_eq_some_iff (h : s.Tracks l) :
    s.guards.held? n = some seq ↔ ∃ c, l[n]? = some c ∧ c.fate = .held ∧ c.record.seq = seq := by
  rw [h.guards, Guards.held?, List.getElem?_map, Option.join_eq_some_iff]
  simp [GuardedCall.guard?]

theorem Tracks.held?_eq_none (h : s.Tracks l) (hnone : ∀ c, l[n]? = some c → c.fate ≠ .held) :
    s.guards.held? n = none := by
  rw [Option.eq_none_iff_forall_ne_some]
  intro seq hseq
  obtain ⟨c, hc, hheld, -⟩ := h.held?_eq_some_iff.1 hseq
  exact hnone c hc hheld

/-- A guard that is held finds a record of its number. -/
theorem Tracks.exists_nearest {c : GuardedCall} (h : s.Tracks l) (hc : c ∈ l)
    (hheld : c.fate = .held) : ∃ above r below, s.calls = above ++ r :: below ∧
      r.seq = c.record.seq ∧ ∀ o ∈ above, o.seq ≠ c.record.seq := by
  have hguards : 0 < l.count .held c.record.seq :=
    List.countP_pos_iff.2 ⟨c, hc, by simp [hheld]⟩
  have hcalls : 0 < s.calls.countP fun r => r.seq == c.record.seq := by
    rw [h.count]
    omega
  obtain ⟨r, hr, hseq⟩ := List.countP_pos_iff.1 hcalls
  exact CallStack.exists_nearest ⟨r, hr, beq_iff_eq.1 hseq⟩

/-- A guard that is dropped takes the record of its number that is nearest the top. -/
theorem step_drop_of_nearest {above below : CallStack} {r : CallRecord}
    (hheld : s.guards.held? n = some seq) (hcalls : s.calls = above ++ r :: below)
    (hr : r.seq = seq) (habove : ∀ o ∈ above, o.seq ≠ seq) :
    s.step (.drop n) = ({ calls := above ++ below, guards := s.guards.release n }, .wasHeld true,
      if above = [] then none else some { seq, newer := above.length }) := by
  simp only [step, hheld, leave, hcalls]
  rw [CallStack.leave_of_nearest hr habove, CallStack.leaveWarning?_of_nearest hr habove]

theorem step_unwind (s : GuardedStack) (r : CallRecord) :
    s.step (.unwind r) = (s, .wasHeld true, none) := by
  simp only [step, leave, CallStack.leave_enter, CallStack.leaveWarning?_enter]

section Steps

variable {before after : GuardLedger} {c : GuardedCall} {fate : GuardFate}

theorem Tracks.held?_of_append (h : s.Tracks (before ++ c :: after)) (hheld : c.fate = .held) :
    s.guards.held? before.length = some c.record.seq :=
  h.held?_eq_some_iff.2 ⟨c, by simp, hheld, rfl⟩

theorem Tracks.release_eq (h : s.Tracks (before ++ c :: after)) (hfate : fate ≠ .held) :
    s.guards.release before.length =
      (before ++ { c with fate } :: after).map GuardedCall.guard? := by
  simp [h.guards, Guards.release, GuardedCall.guard?, hfate]

theorem Tracks.enter (h : s.Tracks l) (r : CallRecord) :
    (s.step (.enter r)).1.Tracks (l ++ [{ record := r }]) := by
  constructor
  case guards => simp [step, Guards.hold, h.guards, GuardedCall.guard?]
  case count =>
    intro seq
    have hnone : ∀ fate, GuardLedger.count [] fate seq = 0 := fun _ => rfl
    simp only [step, CallStack.enter, List.countP_cons, beq_iff_eq, h.count,
      GuardLedger.count_append_cons, hnone, reduceCtorEq, and_true, and_false, if_false]
    omega
  case remaining =>
    intro hdistinct
    rw [GuardLedger.numbers_append, List.nodup_append] at hdistinct
    rw [GuardLedger.remaining_append_cons]
    simp [step, CallStack.enter, h.remaining hdistinct.1, GuardLedger.remaining]

theorem Tracks.leak (h : s.Tracks (before ++ c :: after)) (hheld : c.fate = .held) :
    (s.step (.leak before.length)).1.Tracks
      (before ++ { c with fate := .leaked } :: after) := by
  have hstep : (s.step (.leak before.length)).1 =
      { s with guards := s.guards.release before.length } := by
    simp only [step, h.held?_of_append hheld]
  rw [hstep]
  constructor
  case guards => exact h.release_eq nofun
  case count =>
    intro seq
    have hcount := h.count seq
    simp only [GuardLedger.count_append_cons, hheld, reduceCtorEq, and_true, and_false,
      if_false] at hcount ⊢
    omega
  case remaining =>
    intro hdistinct
    rw [GuardLedger.numbers_of_fate] at hdistinct
    simp only [h.remaining hdistinct, GuardLedger.remaining_append_cons, hheld, reduceCtorEq]

theorem Tracks.drop (h : s.Tracks (before ++ c :: after)) (hheld : c.fate = .held) :
    (s.step (.drop before.length)).1.Tracks
      (before ++ { c with fate := .dropped } :: after) := by
  obtain ⟨above, r, below, hcalls, hr, habove⟩ := h.exists_nearest (by simp) hheld
  rw [step_drop_of_nearest (h.held?_of_append hheld) hcalls hr habove]
  constructor
  case guards => exact h.release_eq nofun
  case count =>
    intro seq
    have hcount := h.count seq
    simp only [hcalls, CallStack.countP_nearest, hr, GuardLedger.count_append_cons, hheld,
      reduceCtorEq, and_true, and_false, if_false] at hcount ⊢
    omega
  case remaining =>
    -- where no number repeats, the record that leaves is that of the call itself
    intro hdistinct
    rw [GuardLedger.numbers_of_fate] at hdistinct
    have hown : s.calls = after.remaining.reverse ++ c.record :: before.remaining.reverse := by
      rw [h.remaining hdistinct, GuardLedger.remaining_append_cons]
      simp [hheld]
    have hafter : ∀ o ∈ after.remaining.reverse, o.seq ≠ c.record.seq := by
      intro o ho heq
      rw [GuardLedger.numbers_append, List.nodup_append] at hdistinct
      have hnot : c.record.seq ∉ after.numbers := (List.nodup_cons.1 hdistinct.2.1).1
      exact hnot (heq ▸ GuardLedger.seq_of_mem_remaining (List.mem_reverse.1 ho))
    calc above ++ below
      _ = s.calls.leave c.record.seq := by rw [hcalls, CallStack.leave_of_nearest hr habove]
      _ = after.remaining.reverse ++ before.remaining.reverse := by
        rw [hown, CallStack.leave_of_nearest rfl hafter]
      _ = (GuardLedger.remaining (before ++ { c with fate := .dropped } :: after)).reverse := by
        rw [GuardLedger.remaining_append_cons]
        simp

theorem Tracks.step (h : s.Tracks l) (x : GuardStep) : (s.step x).1.Tracks (l.step x) := by
  cases x with
  | enter r => exact h.enter r
  | drop n =>
    rw [GuardLedger.step]
    obtain ⟨before, c, after, rfl, rfl, hheld, hsettle⟩ | ⟨hnone, hsettle⟩ :=
      GuardLedger.settle_cases l n .dropped
    · rw [hsettle]
      exact h.drop hheld
    · rw [hsettle, GuardedStack.step, h.held?_eq_none hnone]
      exact h
  | leak n =>
    rw [GuardLedger.step]
    obtain ⟨before, c, after, rfl, rfl, hheld, hsettle⟩ | ⟨hnone, hsettle⟩ :=
      GuardLedger.settle_cases l n .leaked
    · rw [hsettle]
      exact h.leak hheld
    · rw [hsettle, GuardedStack.step, h.held?_eq_none hnone]
      exact h
  | unwind r =>
    rw [step_unwind]
    exact h

end Steps

theorem tracks_nil : Tracks {} [] := by
  constructor
  case guards => rfl
  case count => exact fun seq => rfl
  case remaining => exact fun _ => rfl

/-- Whatever the steps, the stack agrees with their ledger. -/
theorem tracks_ofSteps (steps : List GuardStep) :
    (ofSteps steps).Tracks (GuardLedger.ofSteps steps) := by
  induction steps using List.reverseRecOn with
  | nil => exact tracks_nil
  | append_singleton steps x ih =>
    rw [ofSteps, GuardLedger.ofSteps, List.foldl_append, List.foldl_append]
    exact ih.step x

/-- **Guards account for the stack.** After any steps, the guards held are those that the ledger has
as held, and of each number the stack holds as many records as guards are held or leaked. A guard
that is dropped then removes one record, the one of its number that is nearest the top, and leaves
the others in order. It warns exactly if another number is on top, and then of as many records as
lie above. An unwound call leaves no trace. If no number repeats, the stack holds just the calls
entered whose guards were not dropped, in order of entry. -/
theorem guards_account_for_stack (steps : List GuardStep) :
    let s := ofSteps steps
    let l := GuardLedger.ofSteps steps
    (∀ n seq, s.guards.held? n = some seq ↔
      ∃ c, l[n]? = some c ∧ c.fate = .held ∧ c.record.seq = seq) ∧
    (∀ seq, s.calls.countP (fun r => r.seq == seq) = l.count .held seq + l.count .leaked seq) ∧
    (∀ n c, l[n]? = some c → c.fate = .held →
      ∃ above r below, s.calls = above ++ r :: below ∧ r.seq = c.record.seq ∧
        (∀ o ∈ above, o.seq ≠ c.record.seq) ∧
        (s.step (.drop n)).1.calls = above ++ below ∧
        ∀ w, (s.step (.drop n)).2.2 = some w ↔
          s.calls.top?.map CallRecord.seq ≠ some c.record.seq ∧
            w = { seq := c.record.seq, newer := above.length }) ∧
    (∀ r, s.step (.unwind r) = (s, .wasHeld true, none)) ∧
    (l.numbers.Nodup → s.calls.outermostFirst = l.remaining) := by
  have htracks := tracks_ofSteps steps
  refine ⟨fun n seq => htracks.held?_eq_some_iff, htracks.count, ?dropped, step_unwind _, ?distinct⟩
  case dropped =>
    intro n c hc hheld
    obtain ⟨above, r, below, hcalls, hr, habove⟩ :=
      htracks.exists_nearest (List.mem_of_getElem? hc) hheld
    have hstep := step_drop_of_nearest (htracks.held?_eq_some_iff.2 ⟨c, hc, hheld, rfl⟩) hcalls hr
      habove
    refine ⟨above, r, below, hcalls, hr, habove, ?_, ?_⟩
    · rw [hstep]
    · intro w
      rw [hstep, hcalls]
      cases above with
      | nil => simp [CallStack.top?, hr]
      | cons o above => simp [CallStack.top?, habove o (.head _), eq_comm]
  case distinct =>
    intro hdistinct
    rw [htracks.remaining hdistinct, CallStack.outermostFirst, List.reverse_reverse]

end GuardedStack

end ScriptDiag
