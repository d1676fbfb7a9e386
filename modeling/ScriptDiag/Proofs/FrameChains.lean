import ScriptDiag.Proofs.Layout
import ScriptDiag.Proofs.StillActs

/-!
# Chains of frames

Which frames are in flight on a machine is read off the journal: `liveFrames` has one for each
function that was called and has not returned, innermost first, those of functions that failed
included. Those of the innermost public are `publicFrames?`.

If the frames are linked in memory, each to the one outside it, then whoever follows the callers
from the innermost frame on visits the frames of the innermost public, each once and upwards, and
comes to the one that the host entered (`visits_of_linked`).
-/

namespace ScriptDiag

/-! ## Frames in flight -/

/-- The frame of a function in flight. It is an `entry` if the host called the function as a public.
-/
structure LiveFrame where
  frm : UCell
  entry : Bool
deriving DecidableEq, Repr, Inhabited

/-- The frames in flight on a machine after an event, where `fs` were in flight before. -/
def Event.reframe (vm : Nat) (fs : List LiveFrame) : Event → List LiveFrame
  | .called vm' frm _ entry => if vm' = vm then ⟨frm, entry⟩ :: fs else fs
  | .returned vm' => if vm' = vm then fs.tail else fs
  | _ => fs

/-- The frames in flight on a machine after the events of a journal, innermost first. -/
def liveFrames (vm : Nat) : List Event → List LiveFrame
  | [] => []
  | e :: past => e.reframe vm (liveFrames vm past)

/-- The frames of the innermost public: those up to the innermost that is an entry. -/
def publicFrames? : List LiveFrame → Option (List LiveFrame)
  | [] => none
  | f :: fs => if f.entry then some [f] else (publicFrames? fs).map (f :: ·)

theorem Event.reframe_of_not_isFraming {vm : Nat} {e : Event} (h : e.isFraming vm = false)
    (fs : List LiveFrame) : e.reframe vm fs = fs := by
  cases e with
  | called vm' frm address entry => exact if_neg (by simpa [isFraming] using h)
  | returned vm' => exact if_neg (by simpa [isFraming] using h)
  | _ => rfl

theorem liveFrames_append {vm : Nat} {es : List Event} (h : ∀ e ∈ es, e.isFraming vm = false)
    (past : List Event) : liveFrames vm (es ++ past) = liveFrames vm past := by
  induction es with
  | nil => rfl
  | cons e es ih =>
      obtain ⟨he, hes⟩ := List.forall_mem_cons.mp h
      rw [List.cons_append, liveFrames, Event.reframe_of_not_isFraming he, ih hes]

section

variable {fs ps : List LiveFrame}

theorem prefix_of_publicFrames? (h : publicFrames? fs = some ps) : ps <+: fs := by
  induction fs generalizing ps with
  | nil => cases h
  | cons f fs ih =>
      rw [publicFrames?] at h
      split at h
      · cases h
        exact ⟨fs, rfl⟩
      · obtain ⟨ps', hps, rfl⟩ := Option.map_eq_some_iff.mp h
        exact List.cons_prefix_cons.mpr ⟨rfl, ih hps⟩

/-- The last of them is an entry. -/
theorem getLast?_of_publicFrames? (h : publicFrames? fs = some ps) :
    ∃ f, ps.getLast? = some f ∧ f.entry = true := by
  induction fs generalizing ps with
  | nil => cases h
  | cons f fs ih =>
      rw [publicFrames?] at h
      split at h
      next hentry =>
        cases h
        exact ⟨f, rfl, hentry⟩
      next =>
        obtain ⟨ps', hps, rfl⟩ := Option.map_eq_some_iff.mp h
        obtain ⟨g, hg, hentry⟩ := ih hps
        exact ⟨g, by rw [List.getLast?_cons, hg]; rfl, hentry⟩

end

/-! ## Following the callers -/

/-- The frames that are visited from `frm` on, `count` of them, each the caller's frame of the one
before it. It stops where there is no link. -/
def VmView.follow (vm : VmView) : (count : Nat) → (frm : UCell) → List UCell
  | 0, _ => []
  | count + 1, frm =>
    match vm.frameLink? frm with
    | some link => frm :: vm.follow count link.callerFrm
    | none => []

/-- Who follows the callers from the frame register on visits these frames and no others, going
upwards, and comes to the one that the host entered. -/
structure VmView.Visits (vm : VmView) (ps : List LiveFrame) : Prop where
  frames : vm.follow ps.length vm.registers.frm = ps.map LiveFrame.frm
  ascending : (ps.map LiveFrame.frm).Pairwise (· < ·)
  entry : ∃ f link, ps.getLast? = some f ∧ vm.frameLink? f.frm = some link ∧ link.isEntry = true

namespace LiveFrame

/-! ## Frames linked in memory -/

/-- The innermost of some frames, or `start` if there are none. -/
def innermost (start : UCell) : List LiveFrame → UCell
  | [] => start
  | f :: _ => f.frm

/-- The lowest address of some frames, or `bound` if there are none. -/
def lowest (bound : Nat) : List LiveFrame → Nat
  | [] => bound
  | f :: _ => f.frm.toNat

/-- Each frame lies below those outside it, and links to the next of them; an entry has no address
to return to. -/
def Linked (memory : Memory) (start : UCell) (bound : Nat) : List LiveFrame → Prop
  | [] => True
  | f :: fs =>
    f.frm.toNat + linkBytes ≤ lowest bound fs ∧
      (∃ cip, memory.HasLink f.frm ⟨innermost start fs, cip⟩ ∧ (f.entry = true → cip = 0)) ∧
      Linked memory start bound fs

variable {memory memory' : Memory} {start : UCell} {bound : Nat} {fs ps : List LiveFrame}

theorem Linked.lowest_le (h : Linked memory start bound fs) : lowest bound fs ≤ bound := by
  induction fs with
  | nil => exact Nat.le_refl _
  | cons f fs ih =>
      have hfs := ih h.2.2
      have hf : f.frm.toNat + linkBytes ≤ lowest bound fs := h.1
      rw [lowest]
      omega

/-- Only the memory from the lowest frame on matters. -/
theorem Linked.of_eq_above (h : Linked memory start bound fs) (hbound : bound < UInt32.size)
    (heq : ∀ a : UCell, lowest bound fs ≤ a.toNat → memory'.read? a = memory.read? a) :
    Linked memory' start bound fs := by
  induction fs with
  | nil => trivial
  | cons f fs ih =>
      obtain ⟨hle, ⟨cip, hlink, hcip⟩, hfs⟩ := h
      have hlow : lowest bound (f :: fs) = f.frm.toNat := rfl
      have hlowest := hfs.lowest_le
      refine ⟨hle, ⟨cip, ?_, hcip⟩, ih hfs fun a ha => heq a (by omega)⟩
      exact LiveCall.hasLink_of_eq_above hlink (by omega) fun a ha => heq a ha

theorem Linked.pairwise (h : Linked memory start bound fs) :
    (fs.map LiveFrame.frm).Pairwise (· < ·) := by
  induction fs with
  | nil => exact .nil
  | cons f fs ih =>
      have hfs := ih h.2.2
      have hle : f.frm.toNat + linkBytes ≤ lowest bound fs := h.1
      refine .cons (fun frm hfrm => ?_) hfs
      cases fs with
      | nil => cases hfrm
      | cons g fs =>
          have hlt : f.frm.toNat < f.frm.toNat + linkBytes := Nat.lt_add_of_pos_right (by decide)
          have hfg : f.frm < g.frm := UInt32.lt_iff_toNat_lt.mpr (Nat.lt_of_lt_of_le hlt hle)
          rcases List.mem_cons.mp hfrm with rfl | hfrm
          · exact hfg
          · exact UInt32.lt_trans hfg (List.rel_of_pairwise_cons hfs hfrm)

/-! ## Linked frames are visited -/

section

variable {m : Machine}

theorem Linked.frameLink?_eq {f : LiveFrame} (h : Linked m.memory start bound (f :: fs))
    (hbound : bound < UInt32.size) (hne : f.frm ≠ 0) :
    ∃ cip, m.view.frameLink? f.frm = some ⟨innermost start fs, cip, 0⟩ ∧
      (f.entry = true → cip = 0) := by
  obtain ⟨hle, ⟨cip, hlink, hcip⟩, hfs⟩ := h
  have hlowest := hfs.lowest_le
  exact ⟨cip, frameLink?_of_hasLink hlink (by omega) hne, hcip⟩

theorem Linked.follow_eq (h : Linked m.memory start bound fs) (hbound : bound < UInt32.size)
    (hps : publicFrames? fs = some ps) (hne : ∀ f ∈ ps, f.frm ≠ 0) :
    m.view.follow ps.length (innermost start fs) = ps.map LiveFrame.frm := by
  induction fs generalizing ps with
  | nil => cases hps
  | cons f fs ih =>
      rw [publicFrames?] at hps
      split at hps
      next =>
        cases hps
        obtain ⟨cip, hlink, -⟩ := h.frameLink?_eq hbound (hne f List.mem_cons_self)
        show m.view.follow 1 f.frm = _
        rw [VmView.follow, hlink]
        rfl
      next =>
        obtain ⟨ps', hps', rfl⟩ := Option.map_eq_some_iff.mp hps
        obtain ⟨cip, hlink, -⟩ := h.frameLink?_eq hbound (hne f List.mem_cons_self)
        have hrest := ih h.2.2 hps' fun g hg => hne g (List.mem_cons_of_mem f hg)
        show m.view.follow (ps'.length + 1) f.frm = _
        rw [VmView.follow, hlink]
        exact congrArg (f.frm :: ·) hrest

theorem Linked.entry_link (h : Linked m.memory start bound fs) (hbound : bound < UInt32.size)
    {f : LiveFrame} (hf : f ∈ fs) (hne : f.frm ≠ 0) (hentry : f.entry = true) :
    ∃ link, m.view.frameLink? f.frm = some link ∧ link.isEntry = true := by
  induction fs with
  | nil => cases hf
  | cons g fs ih =>
      rcases List.mem_cons.mp hf with rfl | hf
      · obtain ⟨cip, hlink, hcip⟩ := h.frameLink?_eq hbound hne
        rw [hcip hentry] at hlink
        exact ⟨_, hlink, rfl⟩
      · exact ih h.2.2 hf

/-- A machine that is in the innermost of linked frames shows the frames of the innermost public. -/
theorem visits_of_linked (h : Linked m.memory start bound fs) (hbound : bound < UInt32.size)
    (hfrm : m.registers.frm = innermost start fs) (hps : publicFrames? fs = some ps)
    (hne : ∀ f ∈ ps, f.frm ≠ 0) : m.view.Visits ps := by
  have hfront := prefix_of_publicFrames? hps
  refine ⟨?_, ?_, ?_⟩
  · show m.view.follow ps.length m.registers.frm = _
    rw [hfrm]
    exact h.follow_eq hbound hps hne
  · exact h.pairwise.sublist (hfront.map LiveFrame.frm).sublist
  · obtain ⟨f, hlast, hentry⟩ := getLast?_of_publicFrames? hps
    have hf : f ∈ ps := List.mem_of_getLast? hlast
    obtain ⟨link, hlink, hisEntry⟩ := h.entry_link hbound (hfront.subset hf) (hne f hf) hentry
    exact ⟨f, link, hlast, hlink, hisEntry⟩

end

end LiveFrame

end ScriptDiag
