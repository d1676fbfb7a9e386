import ScriptDiag.Proofs.WalkRounds

/-!
# Frames of a trace

Two laws of all walks, whatever can be read from the machine and whatever calls are recorded. A
trace with less room is the one with more room, cut (`Walk.unroll_eq_cut`). And the records are
taken innermost first: a step of a walk makes the frame of the native whose record it takes, or it
takes no record of a native, so the frames of natives that were made and the records of natives that
are left stay the same list (`Walk.natives_next?`).
-/

namespace ScriptDiag

/-! ## Natives in traces -/

def TraceFrame.isNative : TraceFrame → Bool
  | .native _ _ _ => true
  | .script _ _ _ => false

/-- The index of the native that a frame shows. -/
def TraceFrame.nativeIndex? : TraceFrame → Option Cell
  | .native index _ _ => some index
  | .script _ _ _ => none

/-- The records of natives. -/
def CallStack.natives (calls : CallStack) : CallStack :=
  calls.filter fun call => call.kind == .toNative

/-- The frames of natives. -/
def StackTrace.natives (trace : StackTrace) : List TraceFrame :=
  trace.frames.filter TraceFrame.isNative

theorem CallStack.natives_cons_of_toPublic {r : CallRecord} (h : r.kind = .toPublic)
    (rest : CallStack) :
    natives (r :: rest) = natives rest :=
  List.filter_cons_of_neg (by rw [h]; decide)

theorem CallStack.natives_cons_of_toNative {r : CallRecord} (h : r.kind = .toNative)
    (rest : CallStack) :
    natives (r :: rest) = r :: natives rest :=
  List.filter_cons_of_pos (by rw [h]; decide)

theorem TraceContext.isNative_scriptFrame (c : TraceContext) (address : UCell) :
    (c.scriptFrame address).isNative = false := by
  rw [scriptFrame]
  cases c.debug.resolve? address <;> rfl

theorem TraceContext.isNative_publicFrame (c : TraceContext) (call : CallRecord) :
    (c.publicFrame call).isNative = false := by
  rw [publicFrame]
  split
  · rfl
  next entry _ =>
    split
    · rfl
    · exact c.isNative_scriptFrame entry.address

theorem StackTrace.filterMap_nativeIndex? (trace : StackTrace) :
    trace.frames.filterMap TraceFrame.nativeIndex? =
      trace.natives.filterMap TraceFrame.nativeIndex? := by
  rw [natives, List.filterMap_filter]
  congr 1
  funext frame
  cases frame <;> rfl

/-! ## Less room -/

/-- A trace with the first `depth` of its frames. -/
def StackTrace.cut (trace : StackTrace) (depth : Nat) : StackTrace where
  frames := trace.frames.take depth
  truncated := trace.truncated || decide (depth < trace.frames.length)

namespace Walk

variable {c : TraceContext}

/-- A walk makes the same frames whatever room there is, and says that it was cut off if it would
have made more. -/
theorem unroll_eq_cut {depth deeper : Nat} (h : depth ≤ deeper) (w : Walk) :
    unroll c depth w = (unroll c deeper w).cut depth := by
  induction depth generalizing deeper w with
  | zero =>
    cases deeper with
    | zero => simp [unroll, StackTrace.cut]
    | succ deeper =>
      rw [unroll, unroll]
      cases next? c w <;> simp [StackTrace.cut]
  | succ depth ih =>
    obtain ⟨deeper, rfl⟩ : ∃ n, deeper = n + 1 := ⟨deeper - 1, by omega⟩
    rw [unroll, unroll]
    cases next? c w with
    | none => rfl
    | some step =>
      dsimp only
      rw [ih (Nat.le_of_succ_le_succ h) step.2]
      simp [StackTrace.cut]

/-! ## Records innermost first -/

/-- A step makes the frame of the native whose record is next and takes that record, or it makes a
frame of the script. -/
theorem next?_cases {w : Walk} {step : TraceFrame × Walk} (h : w.next? c = some step) :
    (∃ r rest, w.records = r :: rest ∧ r.kind = .toNative ∧ step = enterNative c r rest) ∨
    (∃ frm cip entered, step = enterScript c frm cip entered w.records) := by
  obtain ⟨position, records⟩ := w
  cases position with
  | done => cases h
  | script frm cip entered => exact .inr ⟨frm, cip, entered, (Option.some.inj h).symm⟩
  | start =>
    cases records with
    | nil =>
      dsimp only [next?] at h
      split at h
      · cases h
      · exact .inr ⟨_, _, _, (Option.some.inj h).symm⟩
    | cons r rest =>
      dsimp only [next?] at h
      split at h
      case isTrue hkind => exact .inl ⟨r, rest, rfl, hkind, (Option.some.inj h).symm⟩
      case isFalse => exact .inr ⟨_, _, _, (Option.some.inj h).symm⟩
  | boundary call =>
    cases records with
    | nil => cases h
    | cons r rest =>
      dsimp only [next?] at h
      split at h
      case isTrue hkind => exact .inl ⟨r, rest, rfl, hkind, (Option.some.inj h).symm⟩
      case isFalse => exact .inr ⟨_, _, _, (Option.some.inj h).symm⟩

/-- On the way out of a frame at most the record of a public is taken. -/
theorem natives_pastFrame (frm : UCell) (records : CallStack) :
    (pastFrame c frm records).records.natives = records.natives := by
  unfold pastFrame
  split
  · rfl
  · split
    case isFalse => rfl
    case isTrue =>
      cases records with
      | nil => rfl
      | cons r rest =>
        dsimp only
        split
        case isFalse => rfl
        case isTrue hpublic => exact (CallStack.natives_cons_of_toPublic hpublic rest).symm

/-- In script code no frame of a native is made, and no record of a native is taken. -/
theorem natives_enterScript (frm cip : UCell) (entered : Bool) (records : CallStack) :
    (enterScript c frm cip entered records).1.isNative = false ∧
      (enterScript c frm cip entered records).2.records.natives = records.natives := by
  rw [enterScript]
  split
  case h_1 r rest hframeless =>
    refine ⟨c.isNative_publicFrame r, ?_⟩
    cases records with
    | nil => cases hframeless
    | cons r' rest' =>
      rw [frameless?] at hframeless
      split at hframeless
      case isFalse => cases hframeless
      case isTrue hpublic =>
        cases hframeless
        exact (CallStack.natives_cons_of_toPublic hpublic.2.1 rest).symm
  case h_2 => exact ⟨c.isNative_scriptFrame cip, natives_pastFrame frm records⟩

/-- What a step makes of natives, and what it leaves of them, is what there was. -/
theorem natives_next? {w : Walk} {step : TraceFrame × Walk} (h : w.next? c = some step) :
    [step.1].filter TraceFrame.isNative ++ step.2.records.natives.map c.nativeFrame =
      w.records.natives.map c.nativeFrame := by
  obtain ⟨r, rest, hrecords, hkind, rfl⟩ | ⟨frm, cip, entered, rfl⟩ := next?_cases h
  · rw [hrecords, CallStack.natives_cons_of_toNative hkind]
    rfl
  · obtain ⟨hframe, hrecords⟩ := natives_enterScript (c := c) frm cip entered w.records
    rw [hrecords, List.filter_cons_of_neg (by rw [hframe]; decide)]
    rfl

/-- The natives in the frames of a walk are the first of those whose records it had. -/
theorem natives_unroll_isPrefix (depth : Nat) (w : Walk) :
    (unroll c depth w).natives <+: w.records.natives.map c.nativeFrame := by
  induction depth generalizing w with
  | zero => exact List.nil_prefix
  | succ depth ih =>
    rw [unroll]
    cases hnext : next? c w with
    | none => exact List.nil_prefix
    | some step =>
      have hsplit : StackTrace.natives
          { unroll c depth step.2 with frames := step.1 :: (unroll c depth step.2).frames } =
          [step.1].filter TraceFrame.isNative ++ (unroll c depth step.2).natives :=
        List.filter_append [step.1] (unroll c depth step.2).frames
      rw [← natives_next? hnext]
      exact hsplit ▸ (List.prefix_append_right_inj _).2 (ih step.2)

end Walk

namespace TraceContext

/-- **The depth only cuts.** Whatever the machine, the calls in flight, the debug tables and the
number of jump stubs that are followed: with room for fewer frames a trace has the first of the
frames that it has with more room, and it is marked as truncated exactly if it then has more. -/
theorem trace_cut_by_depth (c : TraceContext) {depth deeper : Nat} (h : depth < deeper)
    (calls : CallStack) :
    (c.trace depth calls).frames = (c.trace deeper calls).frames.take depth ∧
    ((c.trace depth calls).truncated = true ↔ depth < (c.trace deeper calls).frames.length) := by
  have hcut : c.trace depth calls = (c.trace deeper calls).cut depth :=
    Walk.unroll_eq_cut (Nat.le_of_lt h) _
  have hfull : (c.trace deeper calls).truncated = true →
      (c.trace deeper calls).frames.length = deeper := Walk.length_unroll_of_truncated
  refine ⟨congrArg StackTrace.frames hcut, ?_⟩
  rw [hcut, StackTrace.cut, Bool.or_eq_true, decide_eq_true_eq]
  exact or_iff_right_of_imp fun htruncated => (hfull htruncated).symm ▸ h

/-- A machine whose frame at 16 is its own caller. -/
def circular : TraceContext where
  vm :=
    { handle := ⟨1⟩, registers := { frm := 16, cip := 8 }, readCell := fun _ => some 16
      natives := [⟨"log", some 4096⟩], publics := [], path := none, debugBlock := none }
  debug := .empty
  symbols := NativeSymbol.unknown
  code := .nothing
  abi := .x86
  maxHops := 8

/-- Of the endless walk below the native, a trace with room for two frames shows one. -/
theorem circular_trace_cut :
    2 < 4 ∧
    (circular.trace 2 [⟨.toNative, 0, 16, 8, 1⟩]).frames =
      [.native 0 (some "log") (some (.unknown 4096)), .script 8 none none] ∧
    (circular.trace 2 [⟨.toNative, 0, 16, 8, 1⟩]).truncated = true := by
  obtain ⟨hframes, htruncated⟩ :=
    circular.trace_cut_by_depth (show 2 < 4 by decide) [⟨.toNative, 0, 16, 8, 1⟩]
  refine ⟨by decide, hframes.trans ?_, htruncated.2 ?_⟩ <;> decide +kernel

/-- **Natives are shown innermost first.** Whatever can be read from the machine, the natives in a
trace are those of some number of the innermost records of natives, in their order: none is shown
twice, out of order, or in place of one further in. -/
theorem trace_natives_innermost_first (c : TraceContext) (depth : Nat) (calls : CallStack) :
    ∃ k ≤ calls.natives.length,
      (c.trace depth calls).frames.filterMap TraceFrame.nativeIndex? =
        (calls.natives.take k).map CallRecord.index ∧
      (c.trace depth calls).natives = (calls.natives.take k).map c.nativeFrame := by
  have hprefix : (c.trace depth calls).natives <+: calls.natives.map c.nativeFrame :=
    Walk.natives_unroll_isPrefix depth _
  have hlength := hprefix.length_le
  rw [List.length_map] at hlength
  obtain ⟨k, hk, hnatives⟩ : ∃ k ≤ calls.natives.length,
      (c.trace depth calls).natives = (calls.natives.take k).map c.nativeFrame :=
    ⟨_, hlength, by rw [List.map_take]; exact List.prefix_iff_eq_take.1 hprefix⟩
  refine ⟨k, hk, ?_, hnatives⟩
  rw [StackTrace.filterMap_nativeIndex?, hnatives, List.filterMap_map]
  exact congrFun List.filterMap_eq_map _

end TraceContext

end ScriptDiag
