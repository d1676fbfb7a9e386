import ScriptDiag.Trace.Walk

/-!
# Walks end

`Walk.unroll` makes a frame at a time and looks ahead for one more. Here a walk is a loop that takes
one round after the other and keeps what it has collected: a round makes a frame and takes it in, if
there is room (`Walk.emit`), or it goes from a boundary into script code and makes none. The loop
gets to the trace that `unroll` makes, in no more than two rounds for each frame that there is room
for, and two more (`TraceContext.trace_ends`).

Nothing is asked of the machine. Its links may form a circle, and the loop follows them as long as
there is room: what gets less with every round is the room, or else the number of rounds that can be
taken before the next frame (`Walk.roundsLeft`).
-/

namespace ScriptDiag

namespace Walk

/-! ## Rounds -/

/-- What a round comes to: a walk that goes on, with the frames collected so far, or the end. -/
inductive Round where
  | more (w : Walk) (out : StackTrace)
  | over (out : StackTrace)

/-- Takes in a frame and goes on with `w`. A frame too many ends the walk. -/
def emit (depth : Nat) (out : StackTrace) (step : TraceFrame × Walk) : Round :=
  if depth ≤ out.frames.length then .over { out with truncated := true }
  else .more step.2 { out with frames := out.frames ++ [step.1] }

/-- One round. From the start and from a boundary it takes in the frame of the native whose record
is next; if there is none it gets to the script code without a frame. -/
def round (c : TraceContext) (depth : Nat) (w : Walk) (out : StackTrace) : Round :=
  match w.position, w.records with
  | .done, _ => .over out
  | .start, [] =>
    if c.vm.registers.frm = 0 then .over out
    else .more ⟨.script c.vm.registers.frm c.vm.registers.cip true, []⟩ out
  | .start, r :: rest =>
    if r.kind = .toNative then emit depth out (enterNative c r rest)
    else .more ⟨.script c.vm.registers.frm c.vm.registers.cip true, r :: rest⟩ out
  | .script frm cip entered, records => emit depth out (enterScript c frm cip entered records)
  | .boundary _, [] => .over out
  | .boundary call, r :: rest =>
    if r.kind = .toNative then emit depth out (enterNative c r rest)
    else .more ⟨.script call.frm call.cip true, r :: rest⟩ out

/-- The trace that a walk comes to in at most `rounds` rounds, if it ends in so many. -/
def runFor (c : TraceContext) (depth : Nat) : (rounds : Nat) → Walk → StackTrace → Option StackTrace
  | 0, _, _ => none
  | rounds + 1, w, out =>
    match round c depth w out with
    | .over out => some out
    | .more w out => runFor c depth rounds w out

/-! ## What gets less -/

/-- The rounds until a frame is made or the walk is over. -/
def phase (w : Walk) : Nat :=
  match w.position with
  | .start | .boundary _ => 2
  | .script _ _ _ | .done => 1

/-- The rounds that a walk can still take. -/
def roundsLeft (depth : Nat) (w : Walk) (out : StackTrace) : Nat :=
  2 * (depth - out.frames.length) + w.phase

variable {c : TraceContext} {depth : Nat}

/-- A round ends the walk where there is no frame left, or makes the next frame, or gets to where
the next frame is the same and the phase has passed. -/
theorem round_cases (c : TraceContext) (depth : Nat) (w : Walk) (out : StackTrace) :
    (w.next? c = none ∧ w.round c depth out = .over out) ∨
    (∃ step, w.next? c = some step ∧ w.round c depth out = emit depth out step) ∨
    (∃ w', w.round c depth out = .more w' out ∧ w'.next? c = w.next? c ∧ w'.phase < w.phase) := by
  obtain ⟨position, records⟩ := w
  cases position with
  | done => exact .inl ⟨rfl, rfl⟩
  | script frm cip entered => exact .inr (.inl ⟨_, rfl, rfl⟩)
  | start =>
    cases records with
    | nil =>
      by_cases hfrm : c.vm.registers.frm = 0
      · exact .inl ⟨if_pos hfrm, if_pos hfrm⟩
      · exact .inr (.inr ⟨_, if_neg hfrm, (if_neg hfrm).symm, Nat.one_lt_two⟩)
    | cons r rest =>
      by_cases hnative : r.kind = .toNative
      · exact .inr (.inl ⟨_, if_pos hnative, if_pos hnative⟩)
      · exact .inr (.inr ⟨_, if_neg hnative, (if_neg hnative).symm, Nat.one_lt_two⟩)
  | boundary call =>
    cases records with
    | nil => exact .inl ⟨rfl, rfl⟩
    | cons r rest =>
      by_cases hnative : r.kind = .toNative
      · exact .inr (.inl ⟨_, if_pos hnative, if_pos hnative⟩)
      · exact .inr (.inr ⟨_, if_neg hnative, (if_neg hnative).symm, Nat.one_lt_two⟩)

theorem phase_le (w : Walk) : w.phase ≤ 2 := by
  unfold phase
  split <;> decide

theorem phase_pos (w : Walk) : 0 < w.phase := by
  unfold phase
  split <;> decide

/-- Every round after which the walk goes on leaves fewer rounds. -/
theorem roundsLeft_lt {w w' : Walk} {out out' : StackTrace}
    (h : w.round c depth out = .more w' out') :
    roundsLeft depth w' out' < roundsLeft depth w out := by
  unfold roundsLeft
  have hle := w'.phase_le
  have hpos := w.phase_pos
  obtain ⟨-, hover⟩ | ⟨step, -, hemit⟩ | ⟨w'', hmore, -, hphase⟩ := round_cases c depth w out
  · cases h.symm.trans hover
  · rw [h, emit] at hemit
    split at hemit
    · cases hemit
    · cases hemit
      simp only [List.length_append, List.length_singleton]
      omega
  · cases h.symm.trans hmore
    omega

/-! ## The trace that a walk comes to -/

theorem unroll_congr {w w' : Walk} (h : w'.next? c = w.next? c) :
    unroll c depth w' = unroll c depth w := by
  cases depth with
  | zero => rw [unroll, unroll, h]
  | succ depth => rw [unroll, unroll, h]

/-- A walk with room for `room` more frames comes to what was collected and what `unroll` makes of
it. -/
theorem runFor_eq {rounds room : Nat} (w : Walk) (out : StackTrace)
    (hroom : out.frames.length + room = depth) (hout : out.truncated = false)
    (hrounds : roundsLeft depth w out ≤ rounds) :
    runFor c depth rounds w out =
      some { frames := out.frames ++ (unroll c room w).frames
             truncated := (unroll c room w).truncated } := by
  induction rounds generalizing room w out with
  | zero =>
    have hpos := w.phase_pos
    unfold roundsLeft at hrounds
    omega
  | succ rounds ih =>
    have hless : ∀ w' out', w.round c depth out = .more w' out' →
        roundsLeft depth w' out' ≤ rounds :=
      fun w' out' h => Nat.le_of_lt_succ (Nat.lt_of_lt_of_le (roundsLeft_lt h) hrounds)
    rw [runFor]
    obtain ⟨hnone, hover⟩ | ⟨⟨frame, w'⟩, hsome, hemit⟩ | ⟨w', hmore, hnext, -⟩ :=
      round_cases c depth w out
    · rw [hover]
      cases room <;> rw [unroll, hnone] <;> simp [← hout]
    · cases room with
      | zero =>
        rw [hemit, emit, if_pos (by omega), unroll, hsome]
        simp
      | succ room =>
        have hstep : w.round c depth out =
            .more w' { out with frames := out.frames ++ [frame] } := by
          rw [hemit, emit, if_neg (by omega)]
        have hroom' : (out.frames ++ [frame]).length + room = depth := by
          rw [List.length_append, List.length_singleton]
          omega
        rw [hstep, unroll, hsome]
        refine (ih w' { out with frames := out.frames ++ [frame] } hroom' hout
          (hless _ _ hstep)).trans ?_
        simp
    · rw [hmore]
      refine (ih w' out hroom hout (hless _ _ hmore)).trans ?_
      rw [unroll_congr hnext]

theorem length_unroll_le (c : TraceContext) (depth : Nat) (w : Walk) :
    (unroll c depth w).frames.length ≤ depth := by
  induction depth generalizing w with
  | zero => exact Nat.le_refl 0
  | succ depth ih =>
    rw [unroll]
    split
    · exact Nat.zero_le _
    · exact Nat.succ_le_succ (ih _)

/-- Frames are only left out where there was no room. -/
theorem length_unroll_of_truncated {w : Walk} (h : (unroll c depth w).truncated = true) :
    (unroll c depth w).frames.length = depth := by
  induction depth generalizing w with
  | zero => rfl
  | succ depth ih =>
    rw [unroll] at h ⊢
    split at h
    · cases h
    next => exact congrArg (· + 1) (ih h)

end Walk

/-- **Every walk ends within its bound.** Whatever can be read from the machine, and whatever calls
are recorded as being in flight, the walk is over after at most two rounds for each frame that there
is room for, and two more. It comes to at most `depth` frames, and says that some were left out only
if it has exactly `depth`. -/
theorem TraceContext.trace_ends (c : TraceContext) (depth : Nat) (calls : CallStack) :
    Walk.runFor c depth (2 * depth + 2) ⟨.start, calls⟩ {} = some (c.trace depth calls) ∧
    (c.trace depth calls).frames.length ≤ depth ∧
    ((c.trace depth calls).truncated = true → (c.trace depth calls).frames.length = depth) := by
  refine ⟨?_, Walk.length_unroll_le c depth _, Walk.length_unroll_of_truncated⟩
  exact Walk.runFor_eq _ _ (Nat.zero_add depth) rfl (Nat.le_refl _)

end ScriptDiag
