import ScriptDiag.Proofs.Layout

/-!
# Walks over linked frames

Where the frames of all calls in flight are linked, a walk makes one frame for each activation that
it reaches, from the innermost on (`trace_eq_expected`). It goes along the functions of a public by
their links, and from the outermost of them to the call outside the public by the record of that
call (`yields_reached`). A public without a function is told from one with functions by the frame
that it was called from: the frame of a function lies below it.

A native makes no frame in memory, and the walk passes it by its record. But if it was called by
another native, the record of that one is next where the script that both run for ends, and not the
one of the public: there the walk ends (`yields_host`). So it reaches all that is in flight where no
native was called by a native (`reached_eq_self`).
-/

namespace ScriptDiag

open LiveCall

/-! ## What a walk makes -/

/-- A walk makes these frames and ends. -/
inductive Walk.Yields (c : TraceContext) : Walk → List TraceFrame → Prop where
  | done {w : Walk} (none : w.next? c = none) : Yields c w []
  | step {w w' : Walk} {frame : TraceFrame} {frames : List TraceFrame}
      (some : w.next? c = some (frame, w')) (rest : Yields c w' frames) :
      Yields c w (frame :: frames)

variable {c : TraceContext}

theorem Walk.Yields.of_next?_eq {w w' : Walk} {frames : List TraceFrame}
    (h : w.Yields c frames) (heq : w'.next? c = w.next? c) : w'.Yields c frames := by
  cases h with
  | done hnone => exact .done (heq.trans hnone)
  | step hsome hrest => exact .step (heq.trans hsome) hrest

/-- A walk is followed as far as the bound allows. -/
theorem Walk.Yields.unroll {w : Walk} {frames : List TraceFrame} (h : w.Yields c frames)
    (depth : Nat) :
    Walk.unroll c depth w =
      { frames := frames.take depth, truncated := decide (depth < frames.length) } := by
  induction h generalizing depth with
  | done hnone =>
      cases depth with
      | zero => rw [Walk.unroll, hnone]; rfl
      | succ depth => rw [Walk.unroll, hnone]; rfl
  | step hsome hrest ih =>
      cases depth with
      | zero => rw [Walk.unroll, hsome]; rfl
      | succ depth =>
          rw [Walk.unroll, hsome]
          simp only [ih, List.take_succ_cons, List.length_cons, Nat.add_lt_add_iff_right]

/-! ## Along the functions of a public -/

variable {m : Machine} {start : Place} {bound : Nat}

/-- The public on top of the records was not called from this frame, or no chain begins here. -/
theorem Walk.frameless?_of_ne {frm : UCell} {entered : Bool} {call : CallRecord}
    {rest : CallStack} (h : entered = true → call.kind = .toPublic → call.frm ≠ frm) :
    Walk.frameless? frm entered (call :: rest) = none :=
  if_neg fun hall => h hall.1 hall.2.1 hall.2.2

theorem Walk.enterScript_of_none {frm cip : UCell} {entered : Bool} {records : CallStack}
    (h : Walk.frameless? frm entered records = none) :
    Walk.enterScript c frm cip entered records =
      (c.scriptFrame cip, Walk.pastFrame c frm records) := by
  rw [Walk.enterScript, h]

/-- Past the function that a public starts with, the next record has to be the one of the public. -/
theorem Walk.pastFrame_of_isEntry {frm : UCell} {link : FrameLink} (call : CallRecord)
    (rest : CallStack) (hlink : c.vm.frameLink? frm = some link) (hentry : link.isEntry = true) :
    Walk.pastFrame c frm (call :: rest) =
      if call.kind = .toPublic then ⟨.boundary call, rest⟩ else ⟨.done, call :: rest⟩ := by
  rw [Walk.pastFrame, hlink]
  exact if_pos hentry

/-- Along the links of the functions of a public, a walk makes a frame for each of them, and then
what it makes past the outermost one. -/
theorem yields_functions (hvm : c.vm = m.view) {call : CallRecord} {rest : CallStack}
    {origin : Place} {frames : List TraceFrame} (hbound : bound < UInt32.size)
    (hpast : Walk.Yields c
      (if call.kind = .toPublic then ⟨.boundary call, rest⟩ else ⟨.done, call :: rest⟩) frames)
    (p : Place) (ps : List Place) (entered : Bool)
    (hentered : entered = true → call.kind = .toPublic → call.frm ≠ p.frm)
    (hlinked : FunctionsLinked m.memory origin bound (p :: ps))
    (hfrm : ∀ q ∈ p :: ps, q.frm ≠ 0) (hcip : ∀ q ∈ ps, q.cip ≠ 0) :
    Walk.Yields c ⟨.script p.frm p.cip entered, call :: rest⟩
      ((p :: ps).map (fun p => c.scriptFrame p.cip) ++ frames) := by
  induction ps generalizing p entered with
  | nil =>
      obtain ⟨hle, hlink, -⟩ := hlinked
      have hlt : p.frm.toNat + linkBytes < UInt32.size := Nat.lt_of_le_of_lt hle hbound
      have hread := frameLink?_of_hasLink hlink hlt (hfrm p List.mem_cons_self)
      refine .step (congrArg some (Walk.enterScript_of_none (Walk.frameless?_of_ne hentered))) ?_
      rw [Walk.pastFrame_of_isEntry call rest ((congrArg (VmView.frameLink? · _) hvm).trans hread)
        rfl]
      exact hpast
  | cons q ps ih =>
      obtain ⟨hle, hlink, hq⟩ := hlinked
      have hlowest := hq.lowest_le
      have hlt : p.frm.toNat + linkBytes < UInt32.size :=
        Nat.lt_of_le_of_lt (Nat.le_trans hle hlowest) hbound
      have hread := frameLink?_of_hasLink hlink hlt (hfrm p List.mem_cons_self)
      have hnot : (FrameLink.isEntry ⟨q.frm, q.cip, 0⟩) = false :=
        beq_eq_false_iff_ne.mpr (hcip q List.mem_cons_self)
      refine .step (congrArg some (Walk.enterScript_of_none (Walk.frameless?_of_ne hentered))) ?_
      have hcaller : Walk.pastFrame c p.frm (call :: rest) =
          ⟨.script q.frm q.cip false, call :: rest⟩ := by
        rw [Walk.pastFrame, hvm, hread]
        exact if_neg (Bool.eq_false_iff.mp hnot)
      rw [hcaller]
      exact ih q false (fun h => Bool.noConfusion h) hq
        (fun r hr => hfrm r (List.mem_cons_of_mem _ hr))
        fun r hr => hcip r (List.mem_cons_of_mem _ hr)

/-! ## Across calls -/

namespace CallStack

/-- Whether the innermost call is one of a native. -/
def inNative (calls : CallStack) : Bool :=
  calls.head?.any fun call => call.kind == .toNative

/-- Whether a native in flight was called by a native. -/
def nestsNatives : CallStack → Bool
  | [] => false
  | call :: calls => (call.kind == .toNative && inNative calls) || nestsNatives calls

end CallStack

namespace LiveCall

/-- The calls in flight that a walk reaches. From a native it goes on to the script that the native
runs for; there it ends if the native was called by another one, since the record of that one is not
the record of the public that it looks for. -/
def reached : List LiveCall → List LiveCall
  | [] => []
  | c :: g =>
    c :: if c.call.kind == .toNative && CallStack.inNative (g.map call) then (host g).take 1
      else reached g

/-- Where every native was called by a script, a walk reaches all that is in flight. -/
theorem reached_eq_self {g : List LiveCall} (h : CallStack.nestsNatives (g.map call) = false) :
    reached g = g := by
  induction g with
  | nil => rfl
  | cons live g ih =>
      rw [List.map_cons, CallStack.nestsNatives, Bool.or_eq_false_iff] at h
      rw [reached, h.1, if_neg Bool.false_ne_true, ih h.2]

theorem reached_public {live : LiveCall} (h : live.call.kind = .toPublic) (g : List LiveCall) :
    reached (live :: g) = live :: reached g := by
  rw [reached, h]
  rfl

theorem flatMap_frames_reached {live : LiveCall} (h : live.call.kind = .toNative)
    (g : List LiveCall) : (reached (live :: g)).flatMap (frames c) =
      c.nativeFrame live.call :: (reached (live :: g)).tail.flatMap (frames c) := by
  rw [reached, List.flatMap_cons, frames, h]
  rfl

theorem inNative_cons (live : LiveCall) (g : List LiveCall) :
    CallStack.inNative ((live :: g).map call) = (live.call.kind == .toNative) := rfl

end LiveCall

/-- The functions of a public lie below the frame that the public was called from. -/
theorem LiveCall.Linked.frm_ne {live : LiveCall} {g : List LiveCall} {p : Place}
    {ps : List Place} (h : Linked m.memory start bound (live :: g))
    (hstart : start.frm = 0 ∨ bound ≤ start.frm.toNat) (hps : live.functions = p :: ps)
    (hne : p.frm ≠ 0) : live.call.frm ≠ p.frm := by
  obtain ⟨horigin, -, hfunctions, hg⟩ := h
  rw [hps] at hfunctions
  have hle := hfunctions.1
  have hlowest := hfunctions.2.2.lowest_le
  simp only [linkBytes] at hle
  have hfrm : live.call.frm = (placeOf start g).frm := congrArg Place.frm horigin
  rintro heq
  rcases hg.floor_le_place hstart with hzero | hfloor
  · exact hne (heq.symm.trans (hfrm.trans hzero))
  · rw [← hfrm, heq] at hfloor
    omega

/-- Into the functions of the public that is next in the records, a walk makes a frame for each of
them, or one for the public if it has none. -/
theorem yields_public (hvm : c.vm = m.view) (hstart : start.frm = 0 ∨ bound ≤ start.frm.toNat)
    (hbound : bound < UInt32.size) {live : LiveCall} {g : List LiveCall}
    {tail : List TraceFrame} (hlinked : Linked m.memory start bound (live :: g))
    (hframed : Framed (live :: g)) (hpublic : live.call.kind = .toPublic)
    (hpast : Walk.Yields c ⟨.boundary live.call, g.map LiveCall.call⟩ tail) :
    Walk.Yields c ⟨.script (placeOf start (live :: g)).frm (placeOf start (live :: g)).cip true,
      (live :: g).map LiveCall.call⟩ (frames c live ++ tail) := by
  rw [frames, hpublic, placeOf, place, List.map_cons]
  cases hps : live.functions with
  | nil =>
      -- the machine is still in the frame from which the public was called
      refine .step (congrArg some ?_) hpast
      have hframeless : Walk.frameless? live.call.frm true (live.call :: g.map LiveCall.call) =
          some (live.call, g.map LiveCall.call) := if_pos ⟨rfl, hpublic, rfl⟩
      rw [List.headD_nil, origin, Walk.enterScript, hframeless]
  | cons p ps =>
      obtain ⟨hfrm, hcip⟩ := hframed live List.mem_cons_self
      have hne := hlinked.frm_ne hstart hps (hfrm p (hps ▸ List.mem_cons_self))
      obtain ⟨-, -, hfunctions, hg⟩ := hlinked
      rw [hps] at hfrm hcip hfunctions
      have hlt := Nat.lt_of_le_of_lt hg.floor_le hbound
      refine yields_functions hvm hlt ?_ p ps true (fun _ _ => hne) hfunctions hfrm hcip
      rw [if_pos hpublic]
      exact hpast

/-- Into the script that natives run for, with the record of a native next, a walk makes the frames
of that script, and ends. -/
theorem yields_host (hvm : c.vm = m.view) (hbound : bound < UInt32.size) {g : List LiveCall}
    (hlinked : Linked m.memory start bound g) (hframed : Framed g) (hhosted : Hosted g)
    {call : CallRecord} {rest : CallStack} (hnative : call.kind = .toNative) :
    Walk.Yields c ⟨.script (placeOf start g).frm (placeOf start g).cip true, call :: rest⟩
      (((host g).take 1).flatMap (frames c)) := by
  induction g with
  | nil =>
      obtain ⟨_, _, hnil, -⟩ := hhosted
      cases hnil
  | cons live g ih =>
      obtain ⟨horigin, hcalled, hfunctions, hg⟩ := hlinked
      cases hkind : live.call.kind with
      | toNative =>
          -- the native is where it was called
          obtain ⟨hnone, hhost⟩ := hcalled hkind
          rw [host_native hkind, placeOf, place, hnone, List.headD_nil, horigin]
          exact ih hg hframed.tail hhost
      | toPublic =>
          rw [Hosted, host_public hkind] at hhosted
          obtain ⟨live, g, heq, -, hsome⟩ := hhosted
          obtain ⟨rfl, rfl⟩ := List.cons.inj heq
          obtain ⟨hfrm, hcip⟩ := hframed _ List.mem_cons_self
          rw [host_public hkind, List.take_succ_cons, List.take_zero, List.flatMap_cons, frames,
            hkind, placeOf, place]
          cases hps : live.functions with
          | nil => exact absurd hps hsome
          | cons p ps =>
              rw [hps] at hfrm hcip hfunctions
              have hlt := Nat.lt_of_le_of_lt hg.floor_le hbound
              have hnot : call.kind ≠ .toPublic := fun h => (by cases hnative.symm.trans h)
              refine yields_functions hvm hlt ?_ p ps true (fun _ h => absurd h hnot) hfunctions
                hfrm hcip
              rw [if_neg hnot]
              exact .done rfl

/-- Past a native, a walk makes the frames of the script that it runs for, and of all that it
reaches beyond it. -/
theorem yields_pastNative (hvm : c.vm = m.view) (hbound : bound < UInt32.size) {live : LiveCall}
    {g : List LiveCall} (hlinked : Linked m.memory start bound (live :: g))
    (hframed : Framed (live :: g)) (hnative : live.call.kind = .toNative)
    (hscript : ∀ outer g', g = outer :: g' → outer.call.kind = .toPublic →
      Walk.Yields c ⟨.script (placeOf start g).frm (placeOf start g).cip true,
        g.map LiveCall.call⟩ ((reached g).flatMap (frames c))) :
    Walk.Yields c ⟨.script live.call.frm live.call.cip true, g.map LiveCall.call⟩
      ((reached (live :: g)).tail.flatMap (frames c)) := by
  obtain ⟨horigin, hcalled, -, hg⟩ := hlinked
  have hhosted := (hcalled hnative).2
  have hplace : (⟨live.call.frm, live.call.cip⟩ : Place) = placeOf start g := horigin
  show Walk.Yields c ⟨.script (Place.mk live.call.frm live.call.cip).frm
    (Place.mk live.call.frm live.call.cip).cip true, _⟩ _
  rw [hplace, reached, hnative, List.tail_cons]
  cases g with
  | nil =>
      obtain ⟨_, _, hnil, -⟩ := hhosted
      cases hnil
  | cons outer g =>
      rw [inNative_cons]
      cases hkind : outer.call.kind with
      | toNative => exact yields_host hvm hbound hg hframed.tail hhosted hkind
      | toPublic => exact hscript outer g rfl hkind

/-- Past a public, and into the functions of one, a walk makes the frames of all that it reaches. -/
theorem yields_reached (hvm : c.vm = m.view) (hstart : start.frm = 0 ∨ bound ≤ start.frm.toNat)
    (hbound : bound < UInt32.size) {g : List LiveCall} (hlinked : Linked m.memory start bound g)
    (hframed : Framed g) :
    (∀ call : CallRecord, (⟨call.frm, call.cip⟩ : Place) = placeOf start g →
      Walk.Yields c ⟨.boundary call, g.map LiveCall.call⟩ ((reached g).flatMap (frames c))) ∧
    (∀ live g', g = live :: g' → live.call.kind = .toPublic →
      Walk.Yields c ⟨.script (placeOf start g).frm (placeOf start g).cip true,
        g.map LiveCall.call⟩ ((reached g).flatMap (frames c))) := by
  induction g with
  | nil => exact ⟨fun _ _ => .done rfl, fun _ _ h => by cases h⟩
  | cons live g ih =>
      obtain ⟨hboundary, hscript⟩ := ih hlinked.2.2.2 hframed.tail
      have hinto : live.call.kind = .toPublic →
          Walk.Yields c ⟨.script (placeOf start (live :: g)).frm
            (placeOf start (live :: g)).cip true, (live :: g).map LiveCall.call⟩
            ((reached (live :: g)).flatMap (frames c)) := by
        intro hpublic
        rw [reached_public hpublic, List.flatMap_cons]
        exact yields_public hvm hstart hbound hlinked hframed hpublic
          (hboundary live.call hlinked.1)
      refine ⟨fun call hcall => ?_, fun live' g' heq hpublic => ?_⟩
      · cases hkind : live.call.kind with
        | toNative =>
            -- a native has no frame: the walk goes on from the registers in the native's record
            rw [flatMap_frames_reached hkind]
            exact .step (if_pos hkind) (yields_pastNative hvm hbound hlinked hframed hkind hscript)
        | toPublic =>
            refine (hinto hkind).of_next?_eq ?_
            rw [← hcall]
            exact if_neg (by rw [hkind]; simp)
      · obtain ⟨rfl, rfl⟩ := List.cons.inj heq
        exact hinto hpublic

/-- **A walk makes the frames of the calls that it reaches, innermost first.** If a script runs, the
machine has to be where it is. -/
theorem trace_eq_expected (hvm : c.vm = m.view) (hstart : start.frm = 0 ∨ bound ≤ start.frm.toNat)
    (hbound : bound < UInt32.size) {g : List LiveCall} (hlinked : Linked m.memory start bound g)
    (hframed : Framed g) (hsome : g ≠ [])
    (hat : RunsNative g ∨ AtPlace start bound g m.registers) (depth : Nat) :
    c.trace depth (g.map LiveCall.call) = expectedTrace c depth (reached g) := by
  refine Walk.Yields.unroll ?_ depth
  cases g with
  | nil => exact absurd rfl hsome
  | cons live g =>
      cases hkind : live.call.kind with
      | toNative =>
          obtain ⟨-, hscript⟩ := yields_reached hvm hstart hbound hlinked.2.2.2 hframed.tail
          rw [flatMap_frames_reached hkind]
          exact .step (if_pos hkind) (yields_pastNative hvm hbound hlinked hframed hkind hscript)
      | toPublic =>
          obtain ⟨-, hscript⟩ := yields_reached hvm hstart hbound hlinked hframed
          refine (hscript live g rfl hkind).of_next?_eq ?_
          rcases hat with ⟨live', g', heq, hnative⟩ | hat
          · obtain ⟨rfl, rfl⟩ := List.cons.inj heq
            rw [hkind] at hnative
            cases hnative
          · have hregs : c.vm.registers = m.registers := congrArg VmView.registers hvm
            rw [← hat.frm, ← hat.cip, ← hregs]
            exact if_neg (by rw [hkind]; simp)

end ScriptDiag
