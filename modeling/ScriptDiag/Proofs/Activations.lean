import ScriptDiag.Session

/-!
# Activations in flight

The journal tells which calls of a machine are in flight through the interceptors of an instance,
and which script functions each of them runs: `liveCalls` reads them off, innermost first. This is
what a trace should show, one frame for each (`LiveCall.frames`), and what `Faithful` compares every
trace in a journal with. What is done behind an interceptor is done with its call among them
(`RunsAsCall.liveCalls`).

A function that fails does not return. So the functions of a public that fails count as in flight
until the call of the public leaves.
-/

namespace ScriptDiag

/-! ## What is in flight -/

/-- A place in script code: a frame and a code address. -/
structure Place where
  frm : UCell
  cip : UCell
deriving DecidableEq, Repr, Inhabited

/-- A call in flight, and the script functions that run in it, innermost first, each where it is. -/
structure LiveCall where
  call : CallRecord
  functions : List Place
deriving DecidableEq, Repr, Inhabited

namespace LiveCall

/-- The place from which the call was made. -/
def origin (c : LiveCall) : Place :=
  ⟨c.call.frm, c.call.cip⟩

/-- Where the machine is while the call is the innermost one. -/
def place (c : LiveCall) : Place :=
  c.functions.headD c.origin

/-- The frames of a call: one for a native, one for each function of a public, and one for a public
that has no function yet. -/
def frames (c : TraceContext) (live : LiveCall) : List TraceFrame :=
  match live.call.kind, live.functions with
  | .toNative, _ => [c.nativeFrame live.call]
  | .toPublic, [] => [c.publicFrame live.call]
  | .toPublic, p :: ps => (p :: ps).map fun p => c.scriptFrame p.cip

/-- The innermost function of the innermost call, if that call has any. -/
def innermost? (g : List LiveCall) : Option Place :=
  g.head?.bind fun c => c.functions.head?

/-- The calls with a change to the functions of the innermost one. -/
def onTop (f : List Place → List Place) (g : List LiveCall) : List LiveCall :=
  g.modifyHead fun c => { c with functions := f c.functions }

/-- The functions with the innermost one moved. -/
def moveTo (cip : UCell) (functions : List Place) : List Place :=
  functions.modifyHead fun p => { p with cip }

end LiveCall

open LiveCall in
/-- The calls in flight on an instance after an event, where `g` were in flight before. -/
def Event.change (d id vm : Nat) (g : List LiveCall) : Event → List LiveCall
  | .entered d' id' call => if d' = d ∧ id' = id then ⟨call, []⟩ :: g else g
  | .left d' id' seq =>
    if d' = d ∧ id' = id then (g.dropWhile fun c => c.call.seq ≠ seq).tail else g
  | .called vm' frm address _ => if vm' = vm then onTop (⟨frm, address⟩ :: ·) g else g
  | .returned vm' => if vm' = vm then onTop List.tail g else g
  | .moved vm' cip => if vm' = vm then onTop (moveTo cip) g else g
  | _ => g

/-- The calls in flight on an instance that is attached to `vm`, after the events of a journal. -/
def liveCalls (d id vm : Nat) : List Event → List LiveCall
  | [] => []
  | e :: past => e.change d id vm (liveCalls d id vm past)

/-! ## Frames in order -/

/-- Whether a function that is called gets a frame that is not at address zero, and is not called
from code address zero. -/
def Event.framed (vm : Nat) (g : List LiveCall) : Event → Bool
  | .called vm' frm _ _ =>
    vm' != vm || (frm != 0 && (LiveCall.innermost? g).all fun p => p.cip != 0)
  | _ => true

/-- Whether this is so for all functions called. -/
def wellFramed (d id vm : Nat) : List Event → Bool
  | [] => true
  | e :: past => e.framed vm (liveCalls d id vm past) && wellFramed d id vm past

/-- No function has its frame at address zero, and none but the innermost of a call is at code
address zero. -/
def LiveCall.Framed (g : List LiveCall) : Prop :=
  ∀ c ∈ g, (∀ p ∈ c.functions, p.frm ≠ 0) ∧ ∀ p ∈ c.functions.tail, p.cip ≠ 0

theorem LiveCall.Framed.tail {c : LiveCall} {g : List LiveCall} (h : Framed (c :: g)) :
    Framed g :=
  fun c' hc' => h c' (List.mem_cons_of_mem _ hc')

theorem LiveCall.Framed.cons {c : LiveCall} {g : List LiveCall} (hg : Framed g)
    (hfrm : ∀ p ∈ c.functions, p.frm ≠ 0) (hcip : ∀ p ∈ c.functions.tail, p.cip ≠ 0) :
    Framed (c :: g) := by
  intro c' hc'
  rcases List.mem_cons.mp hc' with rfl | hc'
  · exact ⟨hfrm, hcip⟩
  · exact hg c' hc'

theorem LiveCall.Framed.onTop {g : List LiveCall} {f : List Place → List Place} (h : Framed g)
    (hf : ∀ ps, (∀ p ∈ ps, p.frm ≠ 0) → (∀ p ∈ ps.tail, p.cip ≠ 0) →
      (∀ p ∈ f ps, p.frm ≠ 0) ∧ ∀ p ∈ (f ps).tail, p.cip ≠ 0) : Framed (onTop f g) := by
  cases g with
  | nil => exact h
  | cons c g =>
      obtain ⟨hfrm, hcip⟩ := h c List.mem_cons_self
      obtain ⟨hfrm', hcip'⟩ := hf c.functions hfrm hcip
      exact h.tail.cons hfrm' hcip'

theorem Event.framed_change {d id vm : Nat} {g : List LiveCall} {e : Event}
    (h : LiveCall.Framed g) (he : e.framed vm g = true) :
    LiveCall.Framed (e.change d id vm g) := by
  cases e with
  | entered d' id' call =>
      simp only [change]
      split
      · exact h.cons (by simp) (by simp)
      · exact h
  | left d' id' seq =>
      simp only [change]
      split
      · exact fun c hc => h c ((List.dropWhile_sublist _).subset (List.mem_of_mem_tail hc))
      · exact h
  | called vm' frm address entry =>
      simp only [change]
      split
      case isTrue hvm =>
        subst hvm
        simp only [framed, bne_self_eq_false, Bool.false_or, Bool.and_eq_true, bne_iff_ne] at he
        obtain ⟨hne, hall⟩ := he
        cases g with
        | nil => exact h
        | cons c g =>
            obtain ⟨hfrm, hcip⟩ := h c List.mem_cons_self
            refine h.tail.cons (List.forall_mem_cons.mpr ⟨hne, hfrm⟩) ?_
            show ∀ p ∈ c.functions, p.cip ≠ 0
            cases hfs : c.functions with
            | nil => simp
            | cons p ps =>
                rw [LiveCall.innermost?, List.head?_cons, Option.bind_some, hfs, List.head?_cons,
                  Option.all_some, bne_iff_ne] at hall
                rw [hfs] at hcip
                exact List.forall_mem_cons.mpr ⟨hall, hcip⟩
      case isFalse => exact h
  | returned vm' =>
      simp only [change]
      split
      · refine h.onTop fun ps hfrm hcip => ⟨fun p hp => hfrm p (List.mem_of_mem_tail hp), ?_⟩
        exact fun p hp => hcip p (List.mem_of_mem_tail hp)
      · exact h
  | moved vm' cip =>
      simp only [change]
      split
      · refine h.onTop fun ps hfrm hcip => ?_
        cases ps with
        | nil => exact ⟨hfrm, hcip⟩
        | cons p ps =>
            obtain ⟨hp, hps⟩ := List.forall_mem_cons.mp hfrm
            exact ⟨List.forall_mem_cons.mpr ⟨hp, hps⟩, hcip⟩
      · exact h
  | _ => exact h

theorem framed_liveCalls {d id vm : Nat} {es : List Event} (h : wellFramed d id vm es = true) :
    LiveCall.Framed (liveCalls d id vm es) := by
  induction es with
  | nil => exact fun c hc => by cases hc
  | cons e past ih =>
      rw [wellFramed, Bool.and_eq_true] at h
      exact e.framed_change (ih h.2) h.1

/-! ## Traces in a journal -/

/-- The trace that an event shows: a body or a report of a detector has taken it. -/
def Event.trace? (d : Nat) : Event → Option (Option StackTrace)
  | .note (.trace t) => some t
  | .report d' r => if d' = d then some r.trace else none
  | _ => none

/-- The trace that shows all that is in flight, as far as `depth` frames. -/
def expectedTrace (c : TraceContext) (depth : Nat) (g : List LiveCall) : StackTrace :=
  let frames := g.flatMap (LiveCall.frames c)
  { frames := frames.take depth, truncated := decide (depth < frames.length) }

/-- Every trace in a journal is the one expected at its moment. -/
def Faithful (d id vm : Nat) (c : TraceContext) (depth : Nat) (es : List Event) : Prop :=
  ∀ after e before t, es = after ++ e :: before → e.trace? d = some t →
    wellFramed d id vm before = true →
      t = some (expectedTrace c depth (liveCalls d id vm before))

/-- Every trace in a journal is as it should be after the events before it. -/
def TracesShow (d : Nat) (shows : List Event → Option StackTrace → Prop) (es : List Event) : Prop :=
  ∀ after e before t, es = after ++ e :: before → e.trace? d = some t → shows before t

theorem TracesShow.cons {d : Nat} {shows : List Event → Option StackTrace → Prop}
    {es : List Event} {e : Event} (h : TracesShow d shows es)
    (he : ∀ t, e.trace? d = some t → shows es t) : TracesShow d shows (e :: es) := by
  rintro (_ | ⟨e', after⟩) e₀ before t heq ht
  · obtain ⟨rfl, rfl⟩ := List.cons.inj heq
    exact he t ht
  · obtain ⟨rfl, rfl⟩ := List.cons.inj heq
    exact h after e₀ before t rfl ht

/-- Whether an event tells that a body caught an error. -/
def Event.isCatch : Event → Bool
  | .note (.attempted (.error _)) => true
  | _ => false

/-- Whether an event lets a call leave. -/
def Event.isLeft : Event → Bool
  | .left _ _ _ => true
  | _ => false

/-- Whether an event is no trace, and changes nothing that is in flight. -/
def Event.isPlain : Event → Bool
  | .note (.trace _) | .report _ _ | .entered _ _ _ | .left _ _ _ | .called _ _ _ _ | .returned _
  | .moved _ _ => false
  | _ => true

theorem Event.change_of_isPlain {e : Event} (h : e.isPlain = true) (d id vm : Nat)
    (g : List LiveCall) : e.change d id vm g = g := by
  cases e <;> first | rfl | cases h

theorem Event.trace?_of_isPlain {e : Event} (h : e.isPlain = true) (d : Nat) :
    e.trace? d = none := by
  cases e with
  | note n => cases n <;> first | rfl | cases h
  | report d' r => cases h
  | _ => rfl

end ScriptDiag
