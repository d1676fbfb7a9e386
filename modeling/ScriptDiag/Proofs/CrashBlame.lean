import ScriptDiag.Proofs.Termination

/-!
# Whom a crash is blamed on

When the host crashes, a native was running if some registered instance has one as its innermost
call (`World.NativeOnTop`), and the latest of these is blamed (`World.Blames`). The detector looks
for it among its instances in whatever order it holds them. The calls in flight have different
numbers, so there is one latest native only, and the order does not matter
(`mostRecentNative?_eq_of_perm`).

The report is `Detector.blameReport`, read off the registry and the machines given.
-/

namespace ScriptDiag

open Act

variable {w w₀ : World} {d id vm : Nat} {det : Detector} {i : Instance} {call : CallRecord}

/-! ## The latest of a list of calls -/

namespace Registry

theorem later_cases (a : Option (Nat × CallRecord)) (b : Nat × CallRecord) :
    (later a b = some b ∧ ∀ p, a = some p → p.2.seq ≤ b.2.seq) ∨
      ∃ p, a = some p ∧ later a b = some p ∧ b.2.seq < p.2.seq := by
  cases a with
  | none => exact .inl ⟨rfl, nofun⟩
  | some p =>
      by_cases h : p.2.seq ≤ b.2.seq
      · exact .inl ⟨if_pos h, fun q hq => Option.some.inj hq ▸ h⟩
      · exact .inr ⟨p, rfl, if_neg h, Nat.lt_of_not_le h⟩

theorem foldl_later_of_some {calls : List (Nat × CallRecord)} {a : Option (Nat × CallRecord)}
    {p : Nat × CallRecord} (h : calls.foldl later a = some p) :
    (a = some p ∨ p ∈ calls) ∧ (∀ q, a = some q → q.2.seq ≤ p.2.seq) ∧
      ∀ q ∈ calls, q.2.seq ≤ p.2.seq := by
  induction calls generalizing a with
  | nil => exact ⟨.inl h, fun q hq => Option.some.inj (hq.symm.trans h) ▸ Nat.le_refl _, nofun⟩
  | cons b calls ih =>
      obtain ⟨hmem, hle, hall⟩ := ih h
      rcases later_cases a b with ⟨hlater, ha⟩ | ⟨q, rfl, hlater, hlt⟩
      · have hb := hle b hlater
        refine ⟨.inr ?_, fun q hq => Nat.le_trans (ha q hq) hb, List.forall_mem_cons.mpr ⟨hb, hall⟩⟩
        rcases hmem with hp | hp
        · exact List.mem_cons.mpr (.inl (Option.some.inj (hp.symm.trans hlater)))
        · exact List.mem_cons_of_mem _ hp
      · have hq := hle q hlater
        refine ⟨hmem.imp (fun hp => hlater.symm.trans hp) (List.mem_cons_of_mem _),
          fun q' hq' => Option.some.inj hq' ▸ hq, List.forall_mem_cons.mpr ⟨?_, hall⟩⟩
        exact Nat.le_trans (Nat.le_of_lt hlt) hq

theorem foldl_later_eq_none_iff {calls : List (Nat × CallRecord)} :
    calls.foldl later none = none ↔ calls = [] := by
  have hsome : ∀ (calls : List (Nat × CallRecord)) (p : Nat × CallRecord),
      calls.foldl later (some p) ≠ none := by
    intro calls
    induction calls with
    | nil => exact fun _ => nofun
    | cons b calls ih =>
        intro p
        rcases later_cases (some p) b with ⟨hlater, -⟩ | ⟨q, -, hlater, -⟩
        · rw [List.foldl_cons, hlater]
          exact ih b
        · rw [List.foldl_cons, hlater]
          exact ih q
  cases calls with
  | nil => exact ⟨fun _ => rfl, fun _ => rfl⟩
  | cons b calls => exact ⟨fun h => absurd h (hsome calls b), nofun⟩

/-! ## Natives on top -/

/-- The instances that have a native as their innermost call, with that call. -/
def nativeTops (r : Registry) : List (Nat × CallRecord) :=
  r.registeredInstances.filterMap fun (id, i) =>
    (i.calls.top?.filter fun call => call.kind == .toNative).map fun call => (id, call)

theorem mostRecentNative?_eq (r : Registry) :
    r.mostRecentNative? = r.nativeTops.foldl later none := rfl

theorem mem_nativeTops {r : Registry} :
    (id, call) ∈ r.nativeTops ↔
      ∃ handle i, (handle, id) ∈ r.registered ∧ r.instance? id = some i ∧
        i.calls.top? = some call ∧ call.kind = .toNative := by
  simp only [nativeTops, registeredInstances, List.mem_filterMap, Option.map_eq_some_iff,
    Option.filter_eq_some_iff, beq_iff_eq]
  constructor
  · rintro ⟨⟨id', i⟩, ⟨⟨handle, id''⟩, hmem, i', hi, heq⟩, call', ⟨htop, hkind⟩, heq'⟩
    obtain ⟨rfl, rfl⟩ := Prod.mk.inj heq
    obtain ⟨rfl, rfl⟩ := Prod.mk.inj heq'
    exact ⟨handle, i', hmem, hi, htop, hkind⟩
  · rintro ⟨handle, i, hmem, hi, htop, hkind⟩
    exact ⟨(id, i), ⟨(handle, id), hmem, i, hi, rfl⟩, call, ⟨htop, hkind⟩, rfl⟩

/-- If no two natives on top have the same number, the order of the instances does not matter. -/
theorem mostRecentNative?_eq_of_perm {r : Registry} {registered : HandleMap}
    (hperm : registered.Perm r.registered)
    (hne : ∀ p ∈ r.nativeTops, ∀ q ∈ r.nativeTops, p.2.seq = q.2.seq → p = q) :
    mostRecentNative? { r with registered } = r.mostRecentNative? := by
  have htops : ({ r with registered } : Registry).nativeTops.Perm r.nativeTops :=
    (hperm.filterMap _).filterMap _
  rw [mostRecentNative?_eq, mostRecentNative?_eq]
  cases h : r.nativeTops.foldl later none with
  | none =>
      rw [foldl_later_eq_none_iff] at h ⊢
      exact (h ▸ htops).eq_nil
  | some p =>
      obtain ⟨hp, -, hpall⟩ := foldl_later_of_some h
      have hp := hp.resolve_left nofun
      cases h' : ({ r with registered } : Registry).nativeTops.foldl later none with
      | none =>
          rw [foldl_later_eq_none_iff] at h'
          rw [h'] at htops
          exact absurd (htops.symm.subset hp) List.not_mem_nil
      | some q =>
          obtain ⟨hq, -, hqall⟩ := foldl_later_of_some h'
          have hq := htops.subset (hq.resolve_left nofun)
          have hseq := Nat.le_antisymm (hpall q hq) (hqall p (htops.symm.subset hp))
          exact congrArg some (hne q hq p hp hseq)

end Registry

/-! ## Whom to blame -/

/-- The innermost call on a registered instance is this native. -/
structure World.NativeOnTop (w : World) (d id : Nat) (call : CallRecord) : Prop where
  registered : w.IsRegistered d id
  onTop : ∃ rest, w.calls? d id = some (call :: rest)
  native : call.kind = .toNative

/-- Of all natives that are innermost on a registered instance, this is the latest. -/
structure World.Blames (w : World) (d id : Nat) (call : CallRecord) : Prop where
  top : w.NativeOnTop d id call
  latest : ∀ id' call', w.NativeOnTop d id' call' → call'.seq ≤ call.seq

theorem World.instance?_of_some (hdet : w.detectors[d]? = some det) (id : Nat) :
    w.instance? d id = det.registry.instance? id := by
  rw [instance?, registryAt?_of_some hdet, Option.bind_some]

theorem World.Valid.nativeOnTop_iff (hv : w.Valid) (hdet : w.detectors[d]? = some det) :
    w.NativeOnTop d id call ↔ (id, call) ∈ det.registry.nativeTops := by
  have hr := registryAt?_of_some hdet
  rw [Registry.mem_nativeTops]
  constructor
  · rintro ⟨⟨r, handle, hr', hfind⟩, ⟨rest, hcalls⟩, hkind⟩
    obtain rfl := Option.some.inj (hr.symm.trans hr')
    obtain ⟨i, hi, htop⟩ := Option.map_eq_some_iff.mp hcalls
    rw [World.instance?_of_some hdet] at hi
    exact ⟨handle, i, HandleMap.mem_of_find? hfind, hi, by rw [htop]; rfl, hkind⟩
  · rintro ⟨handle, i, hmem, hi, htop, hkind⟩
    obtain ⟨rest, hcalls⟩ := List.head?_eq_some_iff.mp htop
    refine ⟨⟨_, handle, hr, HandleMap.find?_of_mem (hv.keys d _ hr) hmem⟩, ⟨rest, ?_⟩, hkind⟩
    rw [World.calls?, World.instance?_of_some hdet, hi, Option.map_some, hcalls]

theorem World.NativeOnTop.mem_openCalls (h : w.NativeOnTop d id call) (ht : w.Tracked) :
    ⟨d, id, call⟩ ∈ openCalls w.journal := by
  obtain ⟨rest, hcalls⟩ := h.onTop
  obtain ⟨i, hi, hi'⟩ := Option.map_eq_some_iff.mp hcalls
  obtain ⟨r, hr, hid⟩ := Option.bind_eq_some_iff.mp hi
  rw [ht.calls d r id i hr hid] at hi'
  exact mem_callsOf.mp (hi' ▸ List.mem_cons_self)

theorem World.Tracked.nativeOnTop_eq {id' : Nat} {call' : CallRecord} (ht : w.Tracked)
    (h : w.NativeOnTop d id call) (h' : w.NativeOnTop d id' call') (hseq : call.seq = call'.seq) :
    (id, call) = (id', call') := by
  have heq := ht.eq_of_seq_eq (h.mem_openCalls ht) (h'.mem_openCalls ht) rfl hseq
  exact congrArg (fun o : OpenCall => (o.instanceId, o.call)) heq

theorem World.Valid.blames_of_mostRecent (hv : w.Valid) (hdet : w.detectors[d]? = some det)
    (h : det.registry.mostRecentNative? = some (id, call)) : w.Blames d id call := by
  obtain ⟨hmem, -, hall⟩ := Registry.foldl_later_of_some h
  refine ⟨(hv.nativeOnTop_iff hdet).mpr (hmem.resolve_left nofun), fun id' call' h' => ?_⟩
  exact hall (id', call') ((hv.nativeOnTop_iff hdet).mp h')

/-- The detector finds the native to blame. -/
theorem World.Blames.mostRecent (h : w.Blames d id call) (hv : w.Valid) (ht : w.Tracked)
    (hdet : w.detectors[d]? = some det) : det.registry.mostRecentNative? = some (id, call) := by
  have hmem := (hv.nativeOnTop_iff hdet).mp h.top
  cases hfound : det.registry.mostRecentNative? with
  | none =>
      rw [Registry.mostRecentNative?_eq, Registry.foldl_later_eq_none_iff] at hfound
      rw [hfound] at hmem
      cases hmem
  | some p =>
      have hp := hv.blames_of_mostRecent hdet hfound
      have hseq := Nat.le_antisymm (h.latest _ _ hp.top) (hp.latest _ _ h.top)
      exact congrArg some (ht.nativeOnTop_eq hp.top h.top hseq)

theorem World.Valid.exists_blames (hv : w.Valid) (hdet : w.detectors[d]? = some det)
    (h : w.NativeOnTop d id call) : ∃ p : Nat × CallRecord, w.Blames d p.1 p.2 := by
  cases hfound : det.registry.mostRecentNative? with
  | some p => exact ⟨p, hv.blames_of_mostRecent hdet hfound⟩
  | none =>
      rw [Registry.mostRecentNative?_eq, Registry.foldl_later_eq_none_iff] at hfound
      have hmem := (hv.nativeOnTop_iff hdet).mp h
      rw [hfound] at hmem
      cases hmem

/-- If the latest call in flight on any registered instance is a native, it is to blame. -/
theorem World.Tracked.blames_of_newest {newer older : List OpenCall} (ht : w.Tracked)
    (hopen : openCalls w.journal = newer ++ ⟨d, id, call⟩ :: older) (hreg : w.IsRegistered d id)
    (hnative : call.kind = .toNative)
    (hnewer : ∀ o ∈ newer, o.detector = d → ¬ w.IsRegistered d o.instanceId) :
    w.Blames d id call := by
  have hmem : ⟨d, id, call⟩ ∈ openCalls w.journal := by simp [hopen]
  refine ⟨⟨hreg, ?_, hnative⟩, fun id' call' h' => ?_⟩
  · obtain ⟨r, hr, hid⟩ := ht.exist _ hmem
    have hi : r.instance? id = some r.instances[id] := List.getElem?_eq_getElem hid
    have hnone : callsOf d id newer = [] := by
      rw [List.eq_nil_iff_forall_not_mem]
      exact fun c hc => hnewer _ (mem_callsOf.mp hc) rfl hreg
    refine ⟨callsOf d id older, ?_⟩
    rw [calls?, instance?, hr, Option.bind_some, hi, Option.map_some, ht.calls d r id _ hr hi,
      hopen, callsOf, List.filter_append, List.map_append, ← callsOf, ← callsOf, hnone,
      List.nil_append, callsOf_cons_self]
  · have hord := ht.ordered d
    rw [hopen, List.filter_append, List.filter_cons_of_pos (by simp)] at hord
    have hmem' := h'.mem_openCalls ht
    rw [hopen] at hmem'
    rcases List.mem_append.mp hmem' with hnew | hold
    · exact absurd h'.registered (hnewer _ hnew rfl)
    · rcases List.mem_cons.mp hold with heq | hold
      · exact Nat.le_of_eq (congrArg (fun o : OpenCall => o.call.seq) heq)
      · have hlater := (List.pairwise_cons.mp (List.pairwise_append.mp hord).2.1).1
        exact Nat.le_of_lt (hlater _ (List.mem_filter.mpr ⟨hold, by simp⟩))

/-! ## The report -/

/-- The machines of a list of numbers. -/
def World.machinesOf (w : World) (vms : List Nat) : List Machine :=
  vms.filterMap fun vm => w.machines[vm]?

/-- The report on a crash, with the stack of the machine to blame if it is among those given and the
latch is clear. -/
def Detector.blameReport (det : Detector) (machines : List Machine) : Report :=
  match det.registry.mostRecentNative?.bind fun p => det.registry.instance? p.1 with
  | some i => {
      kind := .hostCrash, module := some i.name, path := i.path,
      headline := "Host process crashed while executing " ++ i.name,
      trace := (if det.registry.latchArmed then none
        else machines.find? fun m => m.handle == i.handle).map fun m => det.trace m.view i }
  | none => {
      kind := .hostCrash, module := none, path := none,
      headline := "Host process crashed due to an unknown error", trace := none }

theorem Detector.kind_blameReport (det : Detector) (machines : List Machine) :
    (det.blameReport machines).kind = .hostCrash := by
  rw [blameReport]
  split <;> rfl

/-- A change to the registry that does not change whom to blame. -/
theorem Detector.blameReport_congr {r : Registry} (det : Detector) (machines : List Machine)
    (hnative : r.mostRecentNative? = det.registry.mostRecentNative?)
    (hinstance : r.instance? = det.registry.instance?)
    (hlatch : r.latchArmed = det.registry.latchArmed) :
    ({ det with registry := r } : Detector).blameReport machines = det.blameReport machines := by
  simp only [blameReport, hnative, hinstance, hlatch]
  rfl

theorem findMachine?_apply (handle : VmHandle) {vms : List Nat}
    (hvms : ∀ vm ∈ vms, vm < w.machines.length) :
    findMachine? handle vms w = .ok ((w.machinesOf vms).find? fun m => m.handle == handle) w := by
  induction vms with
  | nil => rfl
  | cons vm vms ih =>
      obtain ⟨hvm, hvms⟩ := List.forall_mem_cons.mp hvms
      have hm : w.machines[vm]? = some w.machines[vm] := List.getElem?_eq_getElem hvm
      rw [findMachine?, bind_of_ok (machine_of_some hm), World.machinesOf,
        List.filterMap_cons_some hm, List.find?_cons]
      by_cases h : w.machines[vm].handle = handle
      · rw [if_pos h, beq_iff_eq.mpr h]
        rfl
      · rw [if_neg h, beq_eq_false_iff_ne.mpr h]
        exact ih hvms

/-- The world in which a crash is noted, and the latch is armed. -/
def World.noteCrash (w : World) (d : Nat) (det : Detector) : World :=
  (if det.registry.latchArmed then w else w.arm d).record (.crashed d)

theorem World.detectors_noteCrash (hdet : w.detectors[d]? = some det) :
    (w.noteCrash d det).detectors[d]? = some det.armed := by
  rw [noteCrash, detectors_record]
  cases h : det.registry.latchArmed with
  | true =>
      rw [if_pos rfl, hdet, Detector.armed, ← h]
  | false =>
      rw [if_neg Bool.false_ne_true]
      exact w.detectors_arm hdet

theorem World.machines_noteCrash (w : World) (d : Nat) (det : Detector) :
    (w.noteCrash d det).machines = w.machines := by
  rw [noteCrash]
  split <;> rfl

theorem crashReport_apply {w₁ : World} {vms : List Nat}
    (hdet₁ : w₁.detectors[d]? = some det.armed) (hm : w₁.machines = w.machines)
    (hvms : ∀ vm ∈ vms, vm < w.machines.length) :
    crashReport d vms (!det.registry.latchArmed) w₁ =
      .ok (det.blameReport (w.machinesOf vms)) w₁ := by
  have hmachines : w₁.machinesOf vms = w.machinesOf vms := by rw [World.machinesOf, hm]; rfl
  have hnative : det.armed.registry.mostRecentNative? = det.registry.mostRecentNative? := rfl
  rw [crashReport, bind_of_ok (detector_of_some hdet₁)]
  simp only [hnative, Detector.blameReport]
  cases hfound : det.registry.mostRecentNative? with
  | none => rfl
  | some p =>
      obtain ⟨id, call⟩ := p
      have hmem := (Registry.foldl_later_of_some hfound).1.resolve_left nofun
      obtain ⟨-, i, -, hi, -⟩ := Registry.mem_nativeTops.mp hmem
      have hi₁ : det.armed.registry.instance? id = some i := hi
      simp only [hi₁, hi, Option.bind_some]
      cases hlatch : det.registry.latchArmed with
      | true => rfl
      | false =>
          refine (bind_of_ok (findMachine?_apply _ (hm ▸ hvms))).trans ?_
          rw [hmachines]
          rfl

/-! ## The crash -/

def Event.report? (d : Nat) : Event → Option Report
  | .report d' r => if d' = d then some r else none
  | _ => none

/-- The reports of a detector, latest first. -/
def reportsOf (d : Nat) (journal : List Event) : List Report :=
  journal.filterMap (Event.report? d)

theorem reportsOf_append_of_silent {es : List Event} (h : ∀ e ∈ es, e.isNotice = false) (d : Nat)
    (past : List Event) : reportsOf d (es ++ past) = reportsOf d past := by
  have hnone : es.filterMap (Event.report? d) = [] := by
    refine List.filterMap_eq_nil_iff.mpr fun e he => ?_
    have hsilent := h e he
    cases e <;> first | rfl | cases hsilent
  rw [reportsOf, List.filterMap_append, hnone, List.nil_append, reportsOf]

/-- From one world to the other a detector makes this one report, of a crash, demands the end of the
process once, and has its latch armed. -/
structure World.ReportsCrash (w : World) (d : Nat) (r : Report) (w' : World) : Prop where
  reports : reportsOf d w'.journal = r :: reportsOf d w.journal
  notices : notices d w'.journal =
    .terminate .hostCrash :: .report .hostCrash :: notices d w.journal
  armed : w'.latchArmed d = true

theorem World.silent_noteCrash (w : World) (d : Nat) (det : Detector) :
    w.Silent (w.noteCrash d det) := by
  rw [noteCrash]
  split
  · exact .one rfl rfl
  · have harm : w.Silent (w.arm d) := .one rfl rfl
    exact harm.trans (.one rfl rfl)

theorem crash_apply {vms : List Nat} (hdet : w.detectors[d]? = some det)
    (hvms : ∀ vm ∈ vms, vm < w.machines.length) :
    ∃ w', crash d vms w = .ok .terminate w' ∧
      w.ReportsCrash d (det.blameReport (w.machinesOf vms)) w' := by
  have hdet₁ := World.detectors_noteCrash hdet
  have hreport := crashReport_apply hdet₁ (w.machines_noteCrash d det) hvms
  have harm : armLatch d w =
      .ok (!det.registry.latchArmed) (if det.registry.latchArmed then w else w.arm d) := by
    cases h : det.registry.latchArmed with
    | true => exact armLatch_of_armed hdet h
    | false => exact armLatch_of_clear hdet h
  have hcrash : crash d vms w =
      (emit d (det.blameReport (w.machinesOf vms)) >>= fun _ => terminate d .hostCrash)
        (w.noteCrash d det) := by
    rw [crash, bind_of_ok harm, bind_of_ok (record_apply _ _)]
    exact bind_of_ok hreport
  rw [hcrash, bind_of_ok (emit_apply hdet₁ _)]
  refine ⟨_, terminate_apply (World.detectors_send hdet₁ _) _, ?_, ?_, ?_⟩
  · obtain ⟨es, hes, hs⟩ := w.silent_noteCrash d det
    have hpast := reportsOf_append_of_silent hs d w.journal
    rw [← hes] at hpast
    show reportsOf d (.terminate d .hostCrash _ :: (World.send _ _ _ _).journal) = _
    have hsent : ∀ r, Event.report? d (.report d r) = some r := fun r => if_pos rfl
    rw [World.journal_send, reportsOf, List.filterMap_cons_none rfl, ← reportsOf,
      reportsOf_append_of_silent isNotice_of_mem_log, reportsOf, List.filterMap_cons_some (hsent _),
      ← reportsOf, hpast]
  · rw [World.notices_endProcess, World.notices_send, if_pos rfl, if_pos rfl,
      (w.silent_noteCrash d det).notices_eq, Detector.kind_blameReport]
    rfl
  · rw [World.latchArmed, World.registryAt?_endProcess, World.registryAt?_send,
      World.registryAt?_of_some hdet₁]
    rfl

/-! ## Blame -/

/-- The world with the registered instances of a detector held in another order. -/
def World.reorder (w : World) (d : Nat) (registered : HandleMap) : World :=
  w.modifyRegistry d fun r => { r with registered }

theorem Detector.blameReport_of_blames {machines : List Machine}
    (hnative : det.registry.mostRecentNative? = some (id, call))
    (hi : det.registry.instance? id = some i) :
    (det.blameReport machines).module = some i.name ∧ (det.blameReport machines).path = i.path ∧
      ((det.blameReport machines).trace.isSome = true ↔
        det.registry.latchArmed = false ∧ ∃ m ∈ machines, m.handle = i.handle) := by
  simp only [blameReport, hnative, Option.bind_some, hi, true_and]
  cases det.registry.latchArmed <;> simp

theorem World.exists_mem_machinesOf {vms : List Nat} {p : Machine → Prop} :
    (∃ m ∈ w.machinesOf vms, p m) ↔ ∃ vm ∈ vms, ∃ m, w.machines[vm]? = some m ∧ p m := by
  simp only [machinesOf, List.mem_filterMap]
  constructor
  · rintro ⟨m, ⟨vm, hvm, hm⟩, hp⟩
    exact ⟨vm, hvm, m, hm, hp⟩
  · rintro ⟨vm, hvm, m, hm, hp⟩
    exact ⟨m, ⟨vm, hvm, hm⟩, hp⟩

/-- **A crash is blamed on the latest native that is innermost.** From a world in which no detector
was used, a session is a run. At every moment of every run, if some registered instance has a native
as its innermost call, there is exactly one to blame; and if the latest call in flight on any
registered instance is a native, it is that one. A crash is reported once, and then the end of the
process is demanded once and the latch is armed. The report names the module of the instance to
blame, and shows its stack exactly if the latch was clear and its machine is given; without one to
blame it does neither. The same report is made whatever the order of the instances. -/
theorem crash_blames_latest_native (hw₀ : w₀.Fresh) :
    (∀ fuel steps, Moves w₀ (Session.performAll fuel steps w₀).2) ∧
      ∀ w, Moves w₀ w → ∀ d det, w.detectors[d]? = some det →
        (∀ id call, w.NativeOnTop d id call → ∃! p : Nat × CallRecord, w.Blames d p.1 p.2) ∧
        (∀ newer id call older, openCalls w.journal = newer ++ ⟨d, id, call⟩ :: older →
          w.IsRegistered d id → call.kind = .toNative →
          (∀ o ∈ newer, o.detector = d → ¬ w.IsRegistered d o.instanceId) →
            w.Blames d id call) ∧
        ∀ vms, (∀ vm ∈ vms, vm < w.machines.length) →
          ∃ r w', crash d vms w = .ok .terminate w' ∧ w.ReportsCrash d r w' ∧
            (∀ id call i, w.Blames d id call → w.instance? d id = some i →
              r.module = some i.name ∧ r.path = i.path ∧
                (r.trace.isSome = true ↔ w.latchArmed d = false ∧
                  ∃ vm ∈ vms, ∃ m, w.machines[vm]? = some m ∧ m.handle = i.handle)) ∧
            ((∀ id call, ¬ w.NativeOnTop d id call) → r.module = none ∧ r.trace = none) ∧
            ∀ registered, registered.Perm det.registry.registered →
              ∃ w'', crash d vms (w.reorder d registered) = .ok .terminate w'' ∧
                (w.reorder d registered).ReportsCrash d r w'' := by
  refine ⟨fun fuel steps => (balancedDeeds_performAll fuel steps hw₀.valid).moves,
    fun w hmoves d det hdet => ?_⟩
  have hv := hmoves.valid hw₀.valid
  have ht := hmoves.tracked hw₀.tracked
  refine ⟨fun id call htop => ?_, fun newer id call older hopen hreg hnative hnewer =>
    ht.blames_of_newest hopen hreg hnative hnewer, fun vms hvms => ?_⟩
  · obtain ⟨p, hp⟩ := hv.exists_blames hdet htop
    refine ⟨p, hp, fun q hq => ?_⟩
    exact Option.some.inj ((hq.mostRecent hv ht hdet).symm.trans (hp.mostRecent hv ht hdet))
  obtain ⟨w', hcrash, hreports⟩ := crash_apply hdet hvms
  refine ⟨_, w', hcrash, hreports, fun id call i hblames hi => ?_, fun hnone => ?_,
    fun registered hperm => ?_⟩
  · rw [World.instance?_of_some hdet] at hi
    rw [World.latchArmed_of_some hdet, ← World.exists_mem_machinesOf]
    exact Detector.blameReport_of_blames (hblames.mostRecent hv ht hdet) hi
  · have hfound : det.registry.mostRecentNative? = none := by
      cases h : det.registry.mostRecentNative? with
      | none => rfl
      | some p => exact absurd (hv.blames_of_mostRecent hdet h).top (hnone _ _)
    rw [Detector.blameReport, hfound]
    exact ⟨rfl, rfl⟩
  · have hne : ∀ p ∈ det.registry.nativeTops, ∀ q ∈ det.registry.nativeTops,
        p.2.seq = q.2.seq → p = q := fun p hp q hq hseq =>
      ht.nativeOnTop_eq ((hv.nativeOnTop_iff hdet).mpr hp) ((hv.nativeOnTop_iff hdet).mpr hq) hseq
    have hdet' : (w.reorder d registered).detectors[d]? =
        some { det with registry := { det.registry with registered } } := by
      rw [World.reorder, World.getElem?_modifyRegistry, if_pos rfl, hdet]
      rfl
    have hsame := det.blameReport_congr (w.machinesOf vms)
      (Registry.mostRecentNative?_eq_of_perm hperm hne) rfl rfl
    have hresult := crash_apply (w := w.reorder d registered) hdet' hvms
    rw [← hsame]
    exact hresult

/-- A host whose first script calls a native, which calls the second script, which calls a native
in which the host crashes. -/
def crashingHost : World where
  machines := [
    { Machine.ofSize ⟨1⟩ 64 with
      natives := [{ name := "forward", function := some { address := 0x1000, body :=
        [.execOn 1 0] } }]
      publics := [{ name := "Main", address := 64, body := [.native 0 []] }] },
    { Machine.ofSize ⟨2⟩ 64 with
      path := some "scripts/faulty.amx"
      natives := [{ name := "fault", function := some { address := 0x2000, body :=
        [.crash 0 [.self]] } }]
      publics := [{ name := "Main", address := 64, body := [.native 0 []] }] }]
  detectors := [{}]

theorem crashingHost_fresh : crashingHost.Fresh :=
  World.fresh_of_arePlain rfl (by simp [crashingHost]) rfl

/-- The crashing host with both natives in flight. -/
def crashingHostCalled : World :=
  (enterCall 0 1 1 .toNative 0).after ((enterCall 0 0 0 .toNative 0).after
    (Session.performAll 8 [.attach 0 0, .attach 0 1] crashingHost).2)

/-- The crash is blamed on the script whose native was called last. -/
theorem crashingHost_blames_second :
    let w := crashingHostCalled
    crashingHost.Fresh ∧ Moves crashingHost w ∧ (∃ call, w.NativeOnTop 0 0 call) ∧
      (∃ call, w.Blames 0 1 call) ∧
        ∃ r w', crash 0 [1] w = .ok .terminate w' ∧ w.ReportsCrash 0 r w' ∧
          r.module = some "faulty.amx" ∧ r.trace.isSome = true := by
  intro w
  obtain ⟨hsession, h⟩ := crash_blames_latest_native crashingHost_fresh
  have hmoves : Moves crashingHost w :=
    ((hsession 8 [.attach 0 0, .attach 0 1]).trans
      (moves_enterNative (by decide +kernel) (by decide +kernel) 0)).trans
        (moves_enterNative (by decide +kernel) (by decide +kernel) 0)
  obtain ⟨det, hdet⟩ : ∃ det, w.detectors[0]? = some det :=
    Option.isSome_iff_exists.mp (by decide +kernel)
  obtain ⟨-, hnewest, hcrash⟩ := h w hmoves 0 det hdet
  have hfirst : w.NativeOnTop 0 0 { kind := .toNative, index := 0, frm := 0, cip := 0, seq := 1 } :=
    ⟨by decide +kernel, ⟨[], by decide +kernel⟩, rfl⟩
  have hblames : w.Blames 0 1 { kind := .toNative, index := 0, frm := 0, cip := 0, seq := 2 } :=
    hnewest [] 1 _ [⟨0, 0, { kind := .toNative, index := 0, frm := 0, cip := 0, seq := 1 }⟩]
      (by decide +kernel) (by decide +kernel) rfl nofun
  obtain ⟨i, hi, hname⟩ : ∃ i, w.instance? 0 1 = some i ∧
      (i.name == "faulty.amx" && i.handle == ⟨2⟩) = true :=
    (Option.any_eq_true _ _).mp (by decide +kernel)
  obtain ⟨m, hm, hhandle⟩ : ∃ m, w.machines[1]? = some m ∧ (m.handle == ⟨2⟩) = true :=
    (Option.any_eq_true _ _).mp (by decide +kernel)
  rw [Bool.and_eq_true, beq_iff_eq, beq_iff_eq] at hname
  obtain ⟨r, w', hok, hreports, hnamed, -, -⟩ := hcrash [1] (by decide +kernel)
  obtain ⟨hmodule, -, htrace⟩ := hnamed 1 _ i hblames hi
  refine ⟨crashingHost_fresh, hmoves, ⟨_, hfirst⟩, ⟨_, hblames⟩, r, w', hok, hreports,
    hname.1 ▸ hmodule, htrace.mpr ⟨by decide +kernel, 1, List.mem_singleton_self 1, m, hm, ?_⟩⟩
  rw [beq_iff_eq.mp hhandle, hname.2]

end ScriptDiag
