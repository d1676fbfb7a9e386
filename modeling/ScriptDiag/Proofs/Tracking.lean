import Mathlib.Data.List.Pairwise
import ScriptDiag.Proofs.Runs

/-!
# The stacks and the journal

At every moment of every run, the call stack of an instance lists the calls that are in flight on
it by the journal. The invariant is `World.Tracked`: the stacks are what `callsOf` reads off the
journal, and the calls in flight of a detector have descending numbers from the innermost on, none
above the last one given out. A call gets the next number, so entering keeps the order
(`Tracked.enter`); and the innermost call is therefore on top of its stack, so leaving takes away
that one and no other (`Tracked.leave`).

That these are the calls through which a run got there is shown in `ScriptDiag.Proofs.CallsInFlight`.
-/

namespace ScriptDiag

open Act

variable {w w' w₀ : World}

/-! ## The calls of one instance -/

/-- The records of those calls in flight that belong to one instance. -/
def callsOf (d id : Nat) (os : List OpenCall) : CallStack :=
  (os.filter fun o => o.instanceId == id && o.detector == d).map OpenCall.call

theorem callsOf_cons_self (d id : Nat) (call : CallRecord) (os : List OpenCall) :
    callsOf d id (⟨d, id, call⟩ :: os) = call :: callsOf d id os := by
  simp [callsOf]

theorem callsOf_cons_of_ne {d id d' id' : Nat} (h : d' = d → id' ≠ id) (call : CallRecord)
    (os : List OpenCall) : callsOf d id (⟨d', id', call⟩ :: os) = callsOf d id os := by
  rw [callsOf, List.filter_cons_of_neg, callsOf]
  simpa using fun hid hd => h hd hid

/-- A call of the instance that leaves is taken out of its records. -/
theorem callsOf_eraseP (d id seq : Nat) (os : List OpenCall) :
    callsOf d id (os.eraseP fun o => o.matches d id seq) =
      (callsOf d id os).eraseP fun call => call.seq == seq := by
  induction os with
  | nil => rfl
  | cons o os ih =>
      obtain ⟨d', id', call⟩ := o
      by_cases ho : d' = d ∧ id' = id
      · obtain ⟨rfl, rfl⟩ := ho
        by_cases hseq : call.seq = seq
        · rw [callsOf_cons_self, List.eraseP_cons_of_pos (by simp [OpenCall.matches, hseq]),
            List.eraseP_cons_of_pos (by simp [hseq])]
        · rw [callsOf_cons_self, List.eraseP_cons_of_neg (by simp [OpenCall.matches, hseq]),
            List.eraseP_cons_of_neg (by simp [hseq]), callsOf_cons_self, ih]
      · have hne : d' = d → id' ≠ id := fun hd hid => ho ⟨hd, hid⟩
        have hnot : ¬ (OpenCall.mk d' id' call).matches d id seq = true := by
          simp only [OpenCall.matches, Bool.and_eq_true, beq_iff_eq]
          exact fun h => ho h.1
        rw [List.eraseP_cons_of_neg (p := fun o => OpenCall.matches o d id seq) hnot,
          callsOf_cons_of_ne hne, callsOf_cons_of_ne hne, ih]

theorem mem_callsOf {d id : Nat} {call : CallRecord} {os : List OpenCall} :
    call ∈ callsOf d id os ↔ (⟨d, id, call⟩ : OpenCall) ∈ os := by
  simp only [callsOf, List.mem_map, List.mem_filter, Bool.and_eq_true, beq_iff_eq]
  constructor
  · rintro ⟨⟨d', id', call'⟩, ⟨hmem, rfl, rfl⟩, rfl⟩
    exact hmem
  · intro hmem
    exact ⟨_, ⟨hmem, rfl, rfl⟩, rfl⟩

/-! ## The invariant -/

/-- What the detectors keep about calls is what is in flight. -/
structure World.Tracked (w : World) : Prop where
  exist : ∀ o ∈ openCalls w.journal, w.HasInstance o.detector o.instanceId
  calls : ∀ d r id i, w.registryAt? d = some r → r.instance? id = some i →
    i.calls = callsOf d id (openCalls w.journal)
  bounded : ∀ o ∈ openCalls w.journal, ∀ r, w.registryAt? o.detector = some r →
    o.call.seq ≤ r.lastSeq
  ordered : ∀ d, ((openCalls w.journal).filter fun o => o.detector == d).Pairwise
    fun inner outer => outer.call.seq < inner.call.seq

theorem World.Tracked.of_keepsCalls {d : Nat} {f : Registry → Registry} (ht : w.Tracked)
    (hopen : openCalls w'.journal = openCalls w.journal) (hc : w.ChangesBy d f w')
    (hf : Registry.KeepsCalls f) : w'.Tracked := by
  have hk : w.KeepsInstances w' := World.keepsInstances_of_mild hc hf.isMild
  refine ⟨fun o ho => ?_, fun d' r' id i' hr' hi' => ?_, fun o ho r' hr' => ?_, fun d' => ?_⟩
  · rw [hopen] at ho
    exact (ht.exist o ho).mono hk
  · rw [hopen]
    rw [hc] at hr'
    split at hr'
    · obtain ⟨r, hr, rfl⟩ := Option.map_eq_some_iff.mp hr'
      rw [Registry.instance?, hf.instances] at hi'
      exact ht.calls d' r id i' hr hi'
    · exact ht.calls d' r' id i' hr' hi'
  · rw [hopen] at ho
    rw [hc] at hr'
    split at hr'
    · obtain ⟨r, hr, rfl⟩ := Option.map_eq_some_iff.mp hr'
      rw [hf.lastSeq]
      exact ht.bounded o ho r hr
    · exact ht.bounded o ho r' hr'
  · rw [hopen]
    exact ht.ordered d'

/-! ## Entering and leaving -/

theorem World.registryAt?_enter_self {d id : Nat} {call : CallRecord} {r : Registry}
    (hr : w.registryAt? d = some r) :
    (w.enter d id call).registryAt? d = some (r.nextSeq.2.enterCall id call) := by
  rw [registryAt?_enter, if_pos rfl, hr]
  rfl

/-- The call entered gets a number above all others of its detector. -/
theorem World.Tracked.enter {d id : Nat} {call : CallRecord} {r : Registry} (ht : w.Tracked)
    (hr : w.registryAt? d = some r) (hid : id < r.instances.length)
    (hseq : call.seq = r.lastSeq + 1) : (w.enter d id call).Tracked := by
  have hopen : openCalls (w.enter d id call).journal = ⟨d, id, call⟩ :: openCalls w.journal := rfl
  have hc := w.changesBy_enter d id call
  have hk := w.keepsInstances_enter d id call
  refine ⟨fun o ho => ?_, fun d' r' id' i' hr' hi' => ?_, fun o ho r' hr' => ?_, fun d' => ?_⟩
  · rcases List.mem_cons.mp (hopen ▸ ho) with rfl | ho
    · exact HasInstance.mono ⟨r, hr, hid⟩ hk
    · exact (ht.exist o ho).mono hk
  · rw [hopen]
    by_cases hd : d = d'
    · subst hd
      obtain rfl := Option.some.inj ((registryAt?_enter_self hr).symm.trans hr')
      simp only [Registry.instance?, Registry.enterCall, Registry.modifyInstance,
        Registry.nextSeq, List.getElem?_modify] at hi'
      obtain ⟨i, hi, rfl⟩ := Option.map_eq_some_iff.mp hi'
      have hcalls := ht.calls d r id' i hr hi
      by_cases hid' : id = id'
      · subst hid'
        rw [if_pos rfl, callsOf_cons_self, ← hcalls]
        rfl
      · rw [if_neg hid', callsOf_cons_of_ne fun _ => hid']
        exact hcalls
    · rw [hc, if_neg hd] at hr'
      rw [callsOf_cons_of_ne fun h => absurd h hd]
      exact ht.calls d' r' id' i' hr' hi'
  · rcases List.mem_cons.mp (hopen ▸ ho) with rfl | ho
    · obtain rfl := Option.some.inj ((registryAt?_enter_self hr).symm.trans hr')
      exact Nat.le_of_eq hseq
    · rw [hc] at hr'
      split at hr'
      · obtain ⟨r₁, hr₁, rfl⟩ := Option.map_eq_some_iff.mp hr'
        exact Nat.le_succ_of_le (ht.bounded o ho r₁ hr₁)
      · exact ht.bounded o ho r' hr'
  · rw [hopen]
    by_cases hd : d = d'
    · subst hd
      rw [List.filter_cons_of_pos (by simp), List.pairwise_cons]
      refine ⟨fun o ho => ?_, ht.ordered d⟩
      obtain ⟨ho, hod⟩ := List.mem_filter.mp ho
      have hle := ht.bounded o ho r (by rw [beq_iff_eq.mp hod, hr])
      exact hseq ▸ Nat.lt_succ_of_le hle
    · rw [List.filter_cons_of_neg (by simpa using hd)]
      exact ht.ordered d'

theorem World.Tracked.calls?_innermost {d id : Nat} {call : CallRecord} {rest : List OpenCall}
    (ht : w.Tracked) (h : openCalls w.journal = ⟨d, id, call⟩ :: rest) :
    w.calls? d id = some (call :: callsOf d id rest) := by
  have hexist := ht.exist ⟨d, id, call⟩ (h ▸ List.mem_cons_self)
  obtain ⟨r, hr, hid⟩ := hexist
  have hi : r.instance? id = some r.instances[id] := List.getElem?_eq_getElem hid
  rw [calls?, instance?, hr, Option.bind_some, hi, Option.map_some, ht.calls d r id _ hr hi, h,
    callsOf_cons_self]

theorem World.Tracked.leaveLog_innermost {d id : Nat} {call : CallRecord} {rest : List OpenCall}
    (ht : w.Tracked) (h : openCalls w.journal = ⟨d, id, call⟩ :: rest) :
    w.leaveLog d id call.seq = [] := by
  rw [leaveLog, ht.calls?_innermost h, Option.bind_some]
  have hnone := CallStack.leaveWarning?_enter (callsOf d id rest) call
  rw [CallStack.enter] at hnone
  rw [hnone]
  rfl

theorem World.Tracked.leave {d id : Nat} {call : CallRecord} {rest : List OpenCall}
    (ht : w.Tracked) (h : openCalls w.journal = ⟨d, id, call⟩ :: rest) :
    (leaveCall d id call.seq w).Tracked := by
  have hopen : openCalls (leaveCall d id call.seq w).journal = rest := by
    rw [journal_leaveCall, ht.leaveLog_innermost h]
    exact openCalls_leave h
  have hc := w.changesBy_leaveCall d id call.seq
  have hk := w.keepsInstances_leaveCall d id call.seq
  have hmem : ∀ o ∈ rest, o ∈ openCalls w.journal := fun o ho => h ▸ List.mem_cons_of_mem _ ho
  refine ⟨fun o ho => ?_, fun d' r' id' i' hr' hi' => ?_, fun o ho r' hr' => ?_, fun d' => ?_⟩
  · exact (ht.exist o (hmem o (hopen ▸ ho))).mono hk
  · rw [hopen]
    rw [hc] at hr'
    by_cases hd : d = d'
    · subst hd
      rw [if_pos rfl] at hr'
      obtain ⟨r, hr, rfl⟩ := Option.map_eq_some_iff.mp hr'
      simp only [Registry.instance?, Registry.leaveCall, Registry.modifyInstance,
        List.getElem?_modify] at hi'
      obtain ⟨i, hi, rfl⟩ := Option.map_eq_some_iff.mp hi'
      have hcalls := ht.calls d r id' i hr hi
      rw [h] at hcalls
      by_cases hid' : id = id'
      · subst hid'
        rw [callsOf_cons_self] at hcalls
        rw [if_pos rfl, hcalls]
        exact CallStack.leave_enter (callsOf d id rest) call
      · rw [callsOf_cons_of_ne fun _ => hid'] at hcalls
        rw [if_neg hid']
        exact hcalls
    · rw [if_neg hd] at hr'
      have hcalls := ht.calls d' r' id' i' hr' hi'
      rwa [h, callsOf_cons_of_ne fun heq => absurd heq hd] at hcalls
  · have hbound := ht.bounded o (hmem o (hopen ▸ ho))
    rw [hc] at hr'
    split at hr'
    · obtain ⟨r, hr, rfl⟩ := Option.map_eq_some_iff.mp hr'
      exact hbound r hr
    · exact hbound r' hr'
  · rw [hopen]
    have hord := ht.ordered d'
    rw [h] at hord
    exact hord.sublist ((List.sublist_cons_self _ rest).filter _)

/-! ## Attaching -/

theorem World.Tracked.attach {d vm : Nat} {det : Detector} {handle : VmHandle} {i : Instance}
    (ht : w.Tracked) (hdet : w.detectors[d]? = some det) (hidle : i.calls = []) :
    (w.attach d vm det handle i).Tracked := by
  have hc := w.changesBy_attach d vm det handle i
  have hopen : openCalls (w.attach d vm det handle i).journal = openCalls w.journal := rfl
  have hk := w.keepsInstances_attach d vm det handle i
  have hr := World.registryAt?_of_some hdet
  refine ⟨fun o ho => (ht.exist o ho).mono hk, fun d' r' id i' hr' hi' => ?_,
    fun o ho r' hr' => ?_, ht.ordered⟩
  · rw [hopen]
    by_cases hd : d = d'
    · subst hd
      rw [hc, if_pos rfl, hr] at hr'
      obtain rfl := Option.some.inj hr'
      have hi' : (det.registry.instances ++ [i])[id]? = some i' := hi'
      rw [List.getElem?_append] at hi'
      split at hi'
      · exact ht.calls d _ id i' hr hi'
      case isFalse hlt =>
        -- No call in flight belongs to an instance that did not exist.
        obtain rfl := List.mem_singleton.mp (List.mem_of_getElem? hi')
        rw [hidle, eq_comm, List.eq_nil_iff_forall_not_mem]
        intro call hcall
        obtain ⟨r, hr₁, hid⟩ := ht.exist _ (mem_callsOf.mp hcall)
        obtain rfl := Option.some.inj (hr₁.symm.trans hr)
        exact hlt hid
    · rw [hc, if_neg hd] at hr'
      exact ht.calls d' r' id i' hr' hi'
  · have hbound := ht.bounded o ho
    rw [hc] at hr'
    split at hr'
    · obtain ⟨r, hr₁, rfl⟩ := Option.map_eq_some_iff.mp hr'
      exact hbound r hr₁
    · exact hbound r' hr'

/-! ## Every move, every run -/

theorem Move.tracked (h : Move w w') (ht : w.Tracked) : w'.Tracked := by
  cases h.effect with
  | keep _ hopen hc hf _ => exact ht.of_keepsCalls hopen hc hf
  | @enter w₁ d id _ f det _ call _ hopen hc hf _ hdet hid hseq _ _ _ =>
      have hr : w₁.registryAt? d = some (f det.registry) := by
        rw [hc, if_pos rfl, World.registryAt?_of_some hdet]
        rfl
      refine (ht.of_keepsCalls hopen hc hf).enter hr ?_ ?_
      · rw [hf.instances]
        exact hid
      · rw [hf.lastSeq]
        exact hseq
  | leave hinner => exact ht.leave hinner
  | attach hdet _ _ hidle _ => exact ht.attach hdet hidle
  | @detach d id vm _ m _ _ =>
      exact ht.of_keepsCalls rfl (w.changesBy_detach d id vm m.handle)
        (Registry.keepsCalls_dismiss m.handle)

theorem Moves.tracked (h : Moves w w') (ht : w.Tracked) : w'.Tracked := by
  induction h with
  | refl => exact ht
  | tail _ hmove ih => exact hmove.tracked ih

/-! ## From the beginning -/

/-- A world in which no detector was used yet. -/
structure World.Fresh (w : World) : Prop where
  journal : w.journal = []
  registries : ∀ det ∈ w.detectors, det.registry = {}
  slots : ∀ m ∈ w.machines, ∀ slot d id, Link.interceptor d id ∉ m.slots.get slot

/-- Whether no interceptor is in a chain. -/
def Chain.isPlain (chain : Chain) : Bool :=
  chain.all fun
    | .interceptor _ _ => false
    | _ => true

theorem Chain.not_mem_of_isPlain {chain : Chain} (h : Chain.isPlain chain = true) (d id : Nat) :
    Link.interceptor d id ∉ chain :=
  fun hmem => Bool.noConfusion (List.all_eq_true.mp h _ hmem)

/-- Whether no interceptor is in any slot. -/
def Slots.arePlain (s : Slots) : Bool :=
  Chain.isPlain s.hook && Chain.isPlain s.dispatcher && Chain.isPlain s.exec

theorem World.fresh_of_arePlain (hjournal : w.journal = [])
    (hregistries : ∀ det ∈ w.detectors, det.registry = {})
    (hslots : (w.machines.all fun m => m.slots.arePlain) = true) : w.Fresh := by
  refine ⟨hjournal, hregistries, fun m hm slot d id => ?_⟩
  have hplain := List.all_eq_true.mp hslots m hm
  rw [Slots.arePlain, Bool.and_eq_true, Bool.and_eq_true] at hplain
  obtain ⟨⟨hhook, hdispatcher⟩, hexec⟩ := hplain
  cases slot with
  | hook => exact Chain.not_mem_of_isPlain hhook d id
  | dispatcher => exact Chain.not_mem_of_isPlain hdispatcher d id
  | exec => exact Chain.not_mem_of_isPlain hexec d id

theorem World.Fresh.registryAt? {d : Nat} {r : Registry} (hf : w.Fresh)
    (hr : w.registryAt? d = some r) : r = {} := by
  obtain ⟨det, hdet, rfl⟩ := Option.map_eq_some_iff.mp hr
  exact hf.registries det (List.mem_of_getElem? hdet)

theorem World.Fresh.valid (hf : w.Fresh) : w.Valid := by
  refine ⟨fun m hm => ?_, fun d r hr i hi => ?_, fun d r hr e he => ?_, fun d r hr => ?_⟩
  · exact ⟨fun d id h => absurd h (hf.slots m hm .hook d id),
      fun d id h => absurd h (hf.slots m hm .dispatcher d id),
      fun d id h => absurd h (hf.slots m hm .exec d id)⟩
  · rw [hf.registryAt? hr] at hi
    cases hi
  · rw [hf.registryAt? hr] at he
    cases he
  · rw [hf.registryAt? hr]
    exact .nil

theorem World.Fresh.tracked (hf : w.Fresh) : w.Tracked := by
  have hnone : openCalls w.journal = [] := by
    rw [hf.journal]
    rfl
  refine ⟨fun o ho => ?_, fun d r id i hr hi => ?_, fun o ho => ?_, fun d => ?_⟩
  · rw [hnone] at ho
    cases ho
  · rw [hf.registryAt? hr] at hi
    cases hi
  · rw [hnone] at ho
    cases ho
  · rw [hnone]
    exact .nil

/-! ## The stacks at any moment -/

/-- What the stacks of a world say about its calls in flight. -/
structure World.MirrorsCalls (w : World) : Prop where
  /-- The stack of an instance lists the calls in flight through its interceptors, and no others. -/
  calls : ∀ d id i, w.instance? d id = some i → i.calls = callsOf d id (openCalls w.journal)
  /-- From the bottom to the top of a stack the numbers increase. -/
  increasing : ∀ d id i, w.instance? d id = some i →
    i.calls.outermostFirst.Pairwise fun outer inner => outer.seq < inner.seq
  /-- No two records of a detector have the same number. -/
  distinct : ∀ d id id' i i' r r', w.instance? d id = some i → w.instance? d id' = some i' →
    r ∈ i.calls → r' ∈ i'.calls → r.seq = r'.seq → id = id' ∧ r = r'
  /-- The call that leaves next is on top of its stack, so there is nothing to warn of. -/
  inOrder : ∀ d id call rest, openCalls w.journal = ⟨d, id, call⟩ :: rest →
    ∃ calls : CallStack, w.calls? d id = some (calls.enter call) ∧
      (calls.enter call).leaveWarning? call.seq = none

/-- Two calls in flight of one detector with the same number are the same call. -/
theorem World.Tracked.eq_of_seq_eq {o o' : OpenCall} (ht : w.Tracked)
    (ho : o ∈ openCalls w.journal) (ho' : o' ∈ openCalls w.journal)
    (hd : o.detector = o'.detector) (hseq : o.call.seq = o'.call.seq) : o = o' := by
  have hne : ((openCalls w.journal).filter fun x => x.detector == o.detector).Pairwise
      fun a b => a.call.seq ≠ b.call.seq :=
    (ht.ordered o.detector).imp fun h => (Nat.ne_of_lt h).symm
  have hsymm : Std.Symm fun a b : OpenCall => a.call.seq ≠ b.call.seq := ⟨fun _ _ h => h.symm⟩
  have hmem : o ∈ (openCalls w.journal).filter fun x => x.detector == o.detector :=
    List.mem_filter.mpr ⟨ho, by simp⟩
  have hmem' : o' ∈ (openCalls w.journal).filter fun x => x.detector == o.detector :=
    List.mem_filter.mpr ⟨ho', by simp [hd]⟩
  by_cases hoo : o = o'
  · exact hoo
  · exact absurd hseq (hne.forall hmem hmem' hoo)

theorem World.Tracked.mirrorsCalls (ht : w.Tracked) : w.MirrorsCalls := by
  have hcalls : ∀ d id i, w.instance? d id = some i →
      i.calls = callsOf d id (openCalls w.journal) := by
    intro d id i hi
    obtain ⟨r, hr, hi⟩ := Option.bind_eq_some_iff.mp hi
    exact ht.calls d r id i hr hi
  refine ⟨hcalls, fun d id i hi => ?_, fun d id id' i i' r r' hi hi' hr hr' h => ?_,
    fun d id call rest h => ?_⟩
  · rw [hcalls d id i hi, CallStack.outermostFirst, List.pairwise_reverse, callsOf,
      List.pairwise_map, ← List.filter_filter]
    exact (ht.ordered d).sublist List.filter_sublist
  · rw [hcalls d id i hi] at hr
    rw [hcalls d id' i' hi'] at hr'
    have heq := ht.eq_of_seq_eq (mem_callsOf.mp hr) (mem_callsOf.mp hr') rfl h
    exact ⟨congrArg OpenCall.instanceId heq, congrArg OpenCall.call heq⟩
  · exact ⟨_, ht.calls?_innermost h, CallStack.leaveWarning?_enter _ call⟩

/-- After something that leaves the calls in flight as they were, so are the stacks. -/
theorem BalancedDeeds.calls?_eq {d id : Nat} {calls : CallStack} (h : BalancedDeeds w w')
    (ht : w.Tracked) (hcalls : w.calls? d id = some calls) :
    w'.calls? d id = some calls := by
  obtain ⟨i, hi, rfl⟩ := Option.map_eq_some_iff.mp hcalls
  obtain ⟨r, hr, hid⟩ := Option.bind_eq_some_iff.mp hi
  obtain ⟨r', hr', hlt⟩ := World.HasInstance.mono ⟨r, hr, (List.getElem?_eq_some_iff.mp hid).1⟩
    h.moves.keepsInstances
  have hi' : r'.instance? id = some r'.instances[id] := List.getElem?_eq_getElem hlt
  rw [World.calls?, World.instance?, hr', Option.bind_some, hi', Option.map_some,
    (h.moves.tracked ht).calls d r' id _ hr' hi', h.open_eq, ← ht.calls d r id i hr hid]

end ScriptDiag
