import ScriptDiag.Proofs.Causes
import ScriptDiag.Proofs.SparedRuns
import ScriptDiag.Proofs.Stacking
import ScriptDiag.Proofs.Termination
import ScriptDiag.Proofs.Accounting

/-!
# Detached machines

A detach leaves the interceptors of the detector in those slots in which another party put a handler
in front of them. The interceptors know the instance that they were made for, and never ask whether
it is registered still. So a detached machine is no longer diagnosed as far as its slots do not lead
to the detector, and for errors that the host tells of; but a call that gets to an old interceptor
is diagnosed as if the machine was attached (`detached_machines_stay_diagnosed`).

That a detector is told of the error with which a call ends is shown by recursion along the chain:
the interceptors above let the error through, or turn it into another one that is told as well.
-/

namespace ScriptDiag

open Act Run

variable {w w' w₀ : World} {d id vm : Nat} {det : Detector} {m : Machine}

/-! ## What leads to a detector -/

/-- A chain that leads to a detector begins with a layer that forwards, or with an interceptor, and
the rest leads to the detector unless this is its own. -/
theorem Chain.leadsTo?_cases {link : Link} {chain : Chain}
    (h : Chain.leadsTo? d (link :: chain) = some id) :
    (∃ number, link = .layer number .forward ∧ Chain.leadsTo? d chain = some id) ∨
      link = .interceptor d id ∨
        ∃ d' id', d' ≠ d ∧ link = .interceptor d' id' ∧ Chain.leadsTo? d chain = some id := by
  cases link with
  | base => cases h
  | layer number mode =>
      rw [leadsTo?] at h
      split at h
      case isTrue hmode => exact .inl ⟨number, hmode ▸ rfl, h⟩
      case isFalse => cases h
  | interceptor d' id' =>
      rw [leadsTo?] at h
      split at h
      case isTrue hd => exact .inr (.inl (by rw [hd, Option.some.inj h]))
      case isFalse hne => exact .inr (.inr ⟨d', id', hne, rfl, h⟩)

/-- After a run a machine is still there, and so are the instances that the rest of a chain has. -/
theorem Chain.ExistsIn.tail_of_moves {link : Link} {chain : Chain}
    (h : Chain.ExistsIn (link :: chain) w) (hvm : vm < w.machines.length) (hmoves : Moves w w') :
    Chain.ExistsIn chain w' ∧ vm < w'.machines.length :=
  ⟨h.tail.mono (Moves.keepsInstances hmoves), (Moves.machines_length hmoves).symm ▸ hvm⟩

/-! ## What a detector is told -/

/-- From one world to the other the event is added to what detectors were told of failures. -/
def World.Tells (w : World) (e : Event) (w' : World) : Prop :=
  ∃ es, w'.told = es ++ w.told ∧ e ∈ es

theorem Moves.told (h : Moves w w') : ∃ es, w'.told = es ++ w.told := by
  obtain ⟨es, hes⟩ := Moves.journal h
  exact ⟨es.filter Event.isFailed, by rw [World.told, ← hes, List.filter_append, World.told]⟩

theorem World.Tells.extend {w₁ w₂ : World} {e last : Event} (h : w₁.Tells e w₂)
    (hbefore : w₁.told = w.told) (hlast : w'.told = last :: w₂.told) : w.Tells e w' := by
  obtain ⟨es, hes, hmem⟩ := h
  refine ⟨last :: es, ?_, List.mem_cons_of_mem _ hmem⟩
  rw [hlast, hes, hbefore]
  rfl

/-- What was told last, after a run. -/
theorem Moves.tells {w₁ w₂ : World} {e : Event} (h : Moves w₁ w₂) (hbefore : w₁.told = w.told)
    (hlast : w'.told = e :: w₂.told) : w.Tells e w' := by
  obtain ⟨es, hes⟩ := Moves.told h
  refine ⟨e :: es, ?_, List.mem_cons_self⟩
  rw [hlast, hes, hbefore]
  rfl

section

variable {index : Cell} {e : VmError}

/-- An interceptor whose public fails received the error, and told the detector of it. -/
theorem interceptExec_fails {next : Option (Act Cell)} (hid : w.HasInstance d id)
    (hvm : vm < w.machines.length)
    (hp : ∀ w', Moves w w' → Balanced (next.getD (fail .notInitialized)) w') (hv : w.Valid)
    (he : outcome (interceptExec d id vm index next) w = .error (.error e))
    (hharm : isHarmless index e = false) :
    let x := next.getD (fail .notInitialized)
    ∃ w₁, Move w w₁ ∧ w₁.told = w.told ∧ outcome x w₁ = .error (.error e) ∧
      ((interceptExec d id vm index next).after w).told =
        .failed d id vm (.runtime index e) :: (x.after w₁).told := by
  intro x
  obtain ⟨call, w₁, henter, hmove, houtcome, htold⟩ :=
    interceptExec_calls hid hvm hp hv
  have hx : outcome x w₁ = .error (.error e) := houtcome.symm.trans he
  have huntold : Untold (clearLatchIfIdle d >>= fun _ => enterCall d id vm .toPublic index) :=
    untold_clearLatchIfIdle.bind fun _ => untold_enterCall .toPublic index
  refine ⟨w₁, hmove, after_of_ok henter ▸ (huntold w).told_eq, hx, htold.trans ?_⟩
  have hfailure : Crossing.failure? ⟨d, id, vm, .toPublic, index⟩ e = some (.runtime index e) :=
    if_neg (Bool.eq_false_iff.mp hharm)
  rw [hx, errorOf?, Option.bind_some, hfailure]
  rfl

/-- What an interceptor of natives passes on was an error before, and no forced exit. -/
theorem CallKind.eq_error_of_passOn {received : Except Stop Cell}
    (h : passOn .toNative received = .error (.error e)) (hexit : e ≠ .exit) :
    ∃ e', received = .error (.error e') ∧ e' ≠ .exit := by
  rcases received with (e' | _ | _) | _
  · refine ⟨e', rfl, ?_⟩
    rintro rfl
    cases h
    exact hexit rfl
  all_goals cases h

/-- An interceptor whose native fails received an error, and told the detector of it. -/
theorem interceptNative_fails {x : Act Cell} (hid : w.HasInstance d id)
    (hm : w.machines[vm]? = some m)
    (hrefusal : Account.refusal? (m.view.native? index) (some x) = none)
    (hp : ∀ w', Moves w w' → Balanced x w') (hv : w.Valid)
    (he : outcome (interceptNative d id vm index (some x)) w = .error (.error e))
    (hexit : e ≠ .exit) :
    ∃ w₁ e', Move w w₁ ∧ w₁.machines = w.machines ∧ w₁.told = w.told ∧
      outcome x w₁ = .error (.error e') ∧ e' ≠ .exit ∧
      ((interceptNative d id vm index (some x)).after w).told =
        .failed d id vm (.native index (.failed e')) :: (x.after w₁).told := by
  obtain ⟨call, w₁, henter, hmove, hmachines, houtcome, htold⟩ :=
    interceptNative_calls hid hm hrefusal hp hv
  obtain ⟨e', hx, hexit'⟩ := CallKind.eq_error_of_passOn (houtcome.symm.trans he) hexit
  have huntold : Untold (enterCall d id vm .toNative index) := untold_enterCall .toNative index
  refine ⟨w₁, e', hmove, hmachines, after_of_ok henter ▸ (huntold w).told_eq, hx, hexit',
    htold.trans ?_⟩
  have hfailure : Crossing.failure? ⟨d, id, vm, .toNative, index⟩ e' =
      some (.native index (.failed e')) := if_neg hexit'
  rw [hx, errorOf?, Option.bind_some, hfailure]
  rfl

/-- A native that is there is not refused. -/
theorem Account.refusal?_of_registered {entry : Option NativeEntry}
    (h : entry.any NativeEntry.isRegistered = true) (x : Act Cell) :
    refusal? entry (some x) = none := by
  obtain ⟨entry, rfl, hregistered⟩ := (Option.any_eq_true _ _).mp h
  simp [refusal?, hregistered]

end

/-! ## Chains that lead to a detector -/

section

variable {run : Runner} (hp : ∀ a body w, Balanced (run a body) w) {a : Activation} {index : Cell}
  {params : List Cell} {chain : Chain}
include hp

/-- A public that is run through a chain fails, and a detector that the chain leads to is told. -/
theorem tells_exec {e : VmError} (hlead : Chain.leadsTo? d chain = some id)
    (hexist : Chain.ExistsIn chain w) (hvm : a.vm < w.machines.length) (hv : w.Valid)
    (he : outcome (exec run a index chain) w = .error (.error e))
    (hharm : isHarmless index e = false) :
    w.Tells (.failed d id a.vm (.runtime index e)) ((exec run a index chain).after w) := by
  induction chain generalizing w with
  | nil => cases hlead
  | cons link chain ih =>
      have hexist' := fun w' (h : Moves w w') => hexist.tail_of_moves hvm h
      have hbalanced : ∀ w', Moves w w' → Balanced ((rest chain (exec run a index chain)).getD
          (fail .notInitialized)) w' := fun w' h => by
        rw [getD_rest_exec]
        exact balanced_exec hp a index chain (hexist' w' h).1 (hexist' w' h).2
      rcases Chain.leadsTo?_cases hlead with
        ⟨number, rfl, hlead'⟩ | rfl | ⟨d', id', -, rfl, hlead'⟩
      · have hmoves : Moves w (w.record (.layer number)) := (BalancedDeeds.record hv rfl).moves
        have hforward : exec run a index (.layer number .forward :: chain) w =
          exec run a index chain (w.record (.layer number)) := bind_of_ok (record_apply _ w)
        rw [outcome, hforward] at he
        rw [after, hforward]
        exact ih hlead' (hexist' _ hmoves).1 (hexist' _ hmoves).2 (hmoves.valid hv) he
      · obtain ⟨w₁, hmove, hsame, -, htold⟩ :=
          interceptExec_fails (hexist d id List.mem_cons_self) hvm hbalanced hv he hharm
        exact Moves.tells (hbalanced w₁ (.single hmove) (hmove.valid hv)).moves hsame htold
      · obtain ⟨w₁, hmove, hsame, hx, htold⟩ :=
          interceptExec_fails (hexist d' id' List.mem_cons_self) hvm hbalanced hv he hharm
        rw [getD_rest_exec] at hx htold
        have hmoves : Moves w w₁ := .single hmove
        exact (ih hlead' (hexist' w₁ hmoves).1 (hexist' w₁ hmoves).2 (hmove.valid hv) hx).extend
          hsame htold

/-- A native that is called through a chain fails, and a detector that the chain leads to is told.
The interceptors of other detectors above forward the call if the native is there. -/
theorem tells_dispatch {e : VmError} (hlead : Chain.leadsTo? d chain = some id)
    (hexist : Chain.ExistsIn chain w) (hm : w.machines[a.vm]? = some m) (hv : w.Valid)
    (hforwards : (m.view.native? index).any NativeEntry.isRegistered = true ∨
      ∀ d' id', .interceptor d' id' ∈ chain → d' = d)
    (he : outcome (dispatch run a index params chain) w = .error (.error e)) (hexit : e ≠ .exit) :
    ∃ fault, w.Tells (.failed d id a.vm (.native index fault))
      ((dispatch run a index params chain).after w) := by
  induction chain generalizing w e with
  | nil => cases hlead
  | cons link chain ih =>
      have hvm := (List.getElem?_eq_some_iff.mp hm).1
      have hbalanced : ∀ w', Moves w w' → Balanced (dispatch run a index params chain) w' :=
        fun w' h => balanced_dispatch hp a index params chain (hexist.tail_of_moves hvm h).1
          (hexist.tail_of_moves hvm h).2
      have hforwards' : (m.view.native? index).any NativeEntry.isRegistered = true ∨
          ∀ d' id', .interceptor d' id' ∈ chain → d' = d :=
        hforwards.imp_right fun h d' id' hmem => h d' id' (List.mem_cons_of_mem _ hmem)
      rcases Chain.leadsTo?_cases hlead with
        ⟨number, rfl, hlead'⟩ | rfl | ⟨d', id', hne, rfl, hlead'⟩
      · have hmoves : Moves w (w.record (.layer number)) := (BalancedDeeds.record hv rfl).moves
        have hforward : dispatch run a index params (.layer number .forward :: chain) w =
          dispatch run a index params chain (w.record (.layer number)) :=
          bind_of_ok (record_apply _ w)
        rw [outcome, hforward] at he
        rw [after, hforward]
        exact ih hlead' (hexist.tail.mono hmoves.keepsInstances) hm (hmoves.valid hv) hforwards' he
          hexit
      · have hid := hexist d id List.mem_cons_self
        cases hrefusal : Account.refusal? (m.view.native? index)
            (rest chain (dispatch run a index params chain)) with
        | some refusal =>
            obtain ⟨-, htold⟩ := interceptNative_refuses hid hm hrefusal
            exact ⟨refusal.1, Moves.tells .refl rfl htold⟩
        | none =>
            cases hnext : rest chain (dispatch run a index params chain) with
            | none => exact absurd (hnext ▸ hrefusal) (Account.refusal?_none _)
            | some x =>
                obtain rfl := eq_of_rest_eq_some hnext
                rw [dispatch, hnext] at he ⊢
                obtain ⟨w₁, e', hmove, -, hsame, -, -, htold⟩ :=
                  interceptNative_fails hid hm (hnext ▸ hrefusal) hbalanced hv he hexit
                have hmoves := (hbalanced w₁ (.single hmove) (hmove.valid hv)).moves
                exact ⟨.failed e', Moves.tells hmoves hsame htold⟩
      · have hregistered := hforwards.resolve_right
          fun h => hne (h d' id' List.mem_cons_self)
        have hnext : rest chain (dispatch run a index params chain) =
            some (dispatch run a index params chain) := by
          cases chain with
          | nil => cases hlead'
          | cons => rfl
        rw [dispatch, hnext] at he ⊢
        obtain ⟨w₁, e', hmove, hmachines, hsame, hx, hexit', htold⟩ :=
          interceptNative_fails (hexist d' id' List.mem_cons_self) hm
            (Account.refusal?_of_registered hregistered _) hbalanced hv he hexit
        obtain ⟨fault, htells⟩ := ih hlead' (hexist.tail.mono hmove.keepsInstances)
          (hmachines ▸ hm) (hmove.valid hv) hforwards' hx hexit'
        exact ⟨fault, htells.extend hsame htold⟩

end

/-! ## Interrupts -/

/-- From one world to the other a detector takes the request for an interrupt, and if its latch was
clear, it reports the interrupt. -/
def World.TakesInterrupt (w : World) (d : Nat) (w' : World) : Prop :=
  ∃ es, w'.journal = es ++ w.journal ∧ .interruptTaken d ∈ es ∧
    (w.latchArmed d = false → ∃ r, .report d r ∈ es ∧ r.kind = .interrupt)

theorem World.TakesInterrupt.extend {w₁ w₂ : World} (h : w₁.TakesInterrupt d w₂)
    (hbefore : w.journal <:+ w₁.journal) (hlatch : w₁.latchArmed d = w.latchArmed d)
    (hafter : w₂.journal <:+ w'.journal) : w.TakesInterrupt d w' := by
  obtain ⟨before, hbefore⟩ := hbefore
  obtain ⟨after, hafter⟩ := hafter
  obtain ⟨es, hes, htaken, hreport⟩ := h
  refine ⟨after ++ (es ++ before), ?_, ?_, fun hclear => ?_⟩
  · rw [← hafter, hes, ← hbefore, List.append_assoc, List.append_assoc]
  · exact List.mem_append_right _ (List.mem_append_left _ htaken)
  · obtain ⟨r, hr, hkind⟩ := hreport (hlatch.trans hclear)
    exact ⟨r, List.mem_append_right _ (List.mem_append_left _ hr), hkind⟩

theorem noticeInterrupt_of_pending {i : Instance} (hdet : w.detectors[d]? = some det)
    (hm : w.machines[vm]? = some m) (hi : det.registry.instance? id = some i)
    (hpending : det.interruptPending = true) :
    ∃ w', noticeInterrupt d id vm w = .ok () w' ∧ w.TakesInterrupt d w' := by
  have hdet' := World.detectors_setInterrupt hdet false
  have htake := takeInterrupt_of_pending hdet hpending
  cases ha : det.registry.latchArmed with
  | true =>
      refine ⟨_, (bind_of_ok htake).trans (bind_of_ok (onInterrupt_of_armed hdet' ha)),
        [.interruptTaken d], rfl, List.mem_singleton.mpr rfl, fun hclear => ?_⟩
      cases ((World.latchArmed_of_some hdet).trans ha).symm.trans hclear
  | false =>
      let det' : Detector := { det with interruptPending := false }
      let r := det'.reportOn m i .interrupt "Interrupt requested"
      refine ⟨_, (bind_of_ok htake).trans (bind_of_ok (onInterrupt_of_clear hdet' ha hm hi)),
        ((det'.sink.emit r).2.map Event.log).reverse ++ [.report d r, .interruptTaken d], ?_, ?_,
        fun _ => ⟨r, ?_, rfl⟩⟩
      · rw [World.journal_send, List.append_assoc]
        rfl
      · simp
      · simp

/-- A machine completes an instruction, and a detector that its hooks lead to takes the request for
an interrupt. -/
theorem takes_hook {a : Activation} {chain : Chain} (hlead : Chain.leadsTo? d chain = some id)
    (hexist : Chain.ExistsIn chain w) (hvm : a.vm < w.machines.length) (hv : w.Valid)
    (hdet : w.detectors[d]? = some det) (hpending : det.interruptPending = true) :
    w.TakesInterrupt d ((hook a chain).after w) := by
  induction chain generalizing w with
  | nil => cases hlead
  | cons link chain ih =>
      have hexist' := fun w' (h : Moves w w') => hexist.tail_of_moves hvm h
      have hm : w.machines[a.vm]? = some w.machines[a.vm] := List.getElem?_eq_getElem hvm
      rcases Chain.leadsTo?_cases hlead with
        ⟨number, rfl, hlead'⟩ | rfl | ⟨d', id', hne, rfl, hlead'⟩
      · have hmoves : Moves w (w.record (.layer number)) := (BalancedDeeds.record hv rfl).moves
        have hforward : (hook a (.layer number .forward :: chain)).after w =
          (hook a chain).after (w.record (.layer number)) := after_bind_of_ok (record_apply _ w)
        rw [hforward]
        exact (ih hlead' (hexist' _ hmoves).1 (hexist' _ hmoves).2 (hmoves.valid hv) hdet).extend
          (Moves.journal hmoves) rfl (List.suffix_refl _)
      · obtain ⟨det₀, i, hdet₀, hi, -⟩ := (hexist d id List.mem_cons_self).detector
        obtain rfl := Option.some.inj (hdet.symm.trans hdet₀)
        obtain ⟨w₁, hok, htakes⟩ := noticeInterrupt_of_pending hdet hm hi hpending
        have hbalanced := balanced_noticeInterrupt (hexist d id List.mem_cons_self) hvm hv
        rw [after_of_ok hok] at hbalanced
        obtain ⟨hexist₁, hvm₁⟩ := hexist' w₁ hbalanced.moves
        have hrest := balanced_hook a chain hexist₁ hvm₁ (hbalanced.moves.valid hv)
        rw [hook, interceptHook_eq, after_bind_of_ok hok]
        exact htakes.extend (List.suffix_refl _) rfl (Moves.journal hrest.moves)
      · obtain ⟨det', i, hdet', hi, -⟩ := (hexist d' id' List.mem_cons_self).detector
        obtain ⟨w₁, hok, -⟩ := noticeInterrupt_cases hdet' hm hi
        have hbalanced := balanced_noticeInterrupt (hexist d' id' List.mem_cons_self) hvm hv
        have hspared : w.Spares d [] ((noticeInterrupt d' id' a.vm).after w) :=
          spares_noticeInterrupt hne w (w.avoids_nil d)
        rw [after_of_ok hok] at hbalanced hspared
        obtain ⟨hexist₁, hvm₁⟩ := hexist' w₁ hbalanced.moves
        rw [hook, interceptHook_eq, after_bind_of_ok hok]
        refine (ih hlead' hexist₁ hvm₁ (hbalanced.moves.valid hv)
          (hspared.detector.trans hdet)).extend (Moves.journal hbalanced.moves) ?_
          (List.suffix_refl _)
        rw [World.latchArmed, World.latchArmed, World.registryAt?, World.registryAt?,
          hspared.detector]

/-! ## What is done about a failure -/

/-- From one world to the other detector `d` does about a failure all that it does for a machine it
is attached to. It is told of the failure. If its latch was clear, and the host did not crash
meanwhile, it arms the latch and makes a report on a failure. And where its settings say so, it
demands the end of the process after a report on a runtime error. -/
def World.Diagnoses (w : World) (d : Nat) (failed : Event) (w' : World) : Prop :=
  ∃ es, w'.journal = es ++ w.journal ∧ failed ∈ es ∧
    (w.latchArmed d = false → .crashed d ∉ es →
      .latchArmed d ∈ es ∧ failureReports d es ≠ []) ∧
    (w.diesOnError d = true → ∀ r, .report d r ∈ es → r.kind = .runtimeError →
      ∃ pending, .terminate d .runtimeError pending ∈ es)

theorem exists_terminate_of_mem_notices {es : List Event} {kind : FailureKind}
    (h : .terminate kind ∈ notices d es) : ∃ pending, .terminate d kind pending ∈ es := by
  obtain ⟨e, he, hnotice⟩ := List.mem_filterMap.mp h
  cases e with
  | terminate d' kind' pending =>
      obtain ⟨rfl, heq⟩ := Option.ite_none_right_eq_some.mp hnotice
      cases heq
      exact ⟨pending, he⟩
  | report d' r =>
      obtain ⟨-, heq⟩ := Option.ite_none_right_eq_some.mp hnotice
      cases heq
  | _ => cases hnotice

/-- In a run in which a detector is told of a failure it does about it what it has to. -/
theorem BalancedDeeds.diagnoses {f : Failure} (h : BalancedDeeds w w') (hw : w.EndsRightly d)
    (htells : w.Tells (.failed d id vm f) w') : w.Diagnoses d (.failed d id vm f) w' := by
  obtain ⟨es, hes⟩ := Moves.journal h.moves
  obtain ⟨told, htold, hmem⟩ := htells
  have htells : .failed d id vm f ∈ es := by
    rw [World.told, ← hes, List.filter_append] at htold
    rw [← List.append_cancel_right htold] at hmem
    exact (List.mem_filter.mp hmem).1
  refine ⟨es, hes.symm, htells, fun hclear hcrash => ?_, fun hdies r hr hkind => ?_⟩
  · obtain ⟨es', hes', hfirst⟩ := Moves.reportsFirst h.moves hclear
    obtain rfl : es' = es := List.append_cancel_right (hes'.symm.trans hes.symm)
    refine (hfirst hcrash).resolve_left fun hnone => ?_
    have hfailure : (id, vm, f) ∈ failuresOf d es' :=
      List.mem_filterMap.mpr ⟨_, htells, if_pos rfl⟩
    rw [hnone.2] at hfailure
    cases hfailure
  · have hdisciplined := (h.turns.endsRightly hw).disciplined
    rw [(Moves.keepsDoom h.moves d).1, ← hes, notices, List.filterMap_append] at hdisciplined
    have hnotice : .report .runtimeError ∈ notices d es :=
      List.mem_filterMap.mpr ⟨.report d r, hr, by rw [Event.notice?, if_pos rfl, hkind]⟩
    obtain ⟨later, earlier, hsplit⟩ := List.append_of_mem hnotice
    rw [← notices, hsplit, List.append_assoc] at hdisciplined
    obtain ⟨rest, rfl⟩ := hdisciplined.of_report hdies
    refine exists_terminate_of_mem_notices ?_
    rw [hsplit]
    simp

/-! ## Calls of a detached machine -/

/-- A detach ends the registration, and a slot in which no interceptor of the detector comes first
holds what it held. -/
theorem detach_leaves_layers (hdet : w.detectors[d]? = some det) (hm : w.machines[vm]? = some m)
    (hok : detach d vm w = .ok (.ok ()) w') :
    w'.isAttached d m.handle = false ∧ ∃ slots, w'.machines[vm]? = some { m with slots } ∧
      ∀ slot, (∀ ours, Slots.holds (.interceptor d ours) (m.slots.get slot) = false) →
        slots.get slot = m.slots.get slot := by
  refine ⟨?_, ?_⟩
  · cases hid : det.registry.find? m.handle with
    | none => cases (detach_of_free hdet hm hid).symm.trans hok
    | some id =>
        obtain ⟨w₁, hok', hr⟩ := detach_of_registered hdet hm hid
        obtain ⟨-, rfl⟩ := EStateM.Result.ok.inj (hok'.symm.trans hok)
        cases hr with
        | detach hdet₀ hm₀ _ hdetectors _ =>
            obtain rfl := Option.some.inj (hm.symm.trans hm₀)
            rw [World.isAttached_of_change hdet₀
              (fun d => hdetectors ▸ World.detectors_detach hdet₀ d)
              (fun _ => Registry.contains_dismiss _ _ _) d, if_pos ⟨rfl, rfl⟩]
  · obtain ⟨slots, hm', hslots⟩ := after_detach d vm hm
    rw [after_of_ok hok] at hm'
    refine ⟨slots, hm', fun slot hnot => by_contra fun hne => ?_⟩
    obtain ⟨-, det', ours, -, -, hholds⟩ := hslots slot hne
    rw [hnot ours] at hholds
    cases hholds

/-- What becomes of the calls of the machine `m`, numbered `vm`, that detector `d` is not attached
to, with bodies nested at most `fuel` deep. -/
structure World.StaysDiagnosed (w : World) (d vm : Nat) (m : Machine) (fuel : Nat) : Prop where
  /-- The host tells of an error, and only the log says so. -/
  told : ∀ index e, ∃ line,
    runtimeError d vm index e w = .ok .suppressed (w.record (.log line))
  /-- Nothing that runs has to do with the detector, and so it does not notice it. -/
  spared : ∀ (a : Activation) vms, a.vm = vm → vm ∈ vms → w.Avoids d vms →
    (∀ index, w.Spares d vms ((callPublic (runWith fuel) a index).after w)) ∧
      (∀ index params, w.Spares d vms ((callNative (runWith fuel) a index params).after w)) ∧
        w.Spares d vms ((step a).after w)
  /-- A public fails below an interceptor of the detector. -/
  publics : ∀ (a : Activation) index id e, a.vm = vm →
    Chain.leadsTo? d m.slots.exec = some id →
      outcome (callPublic (runWith fuel) a index) w = .error (.error e) →
        isHarmless index e = false →
          w.Diagnoses d (.failed d id vm (.runtime index e))
            ((callPublic (runWith fuel) a index).after w)
  /-- A native fails below an interceptor of the detector, or is not even there, and no other
  detector has an interceptor above. -/
  natives : ∀ (a : Activation) index params id e, a.vm = vm →
    Chain.leadsTo? d m.slots.dispatcher = some id →
      ((m.view.native? index).any NativeEntry.isRegistered = true ∨
        ∀ d' id', .interceptor d' id' ∈ m.slots.dispatcher → d' = d) →
        outcome (callNative (runWith fuel) a index params) w = .error (.error e) → e ≠ .exit →
          ∃ fault, w.Diagnoses d (.failed d id vm (.native index fault))
            ((callNative (runWith fuel) a index params).after w)
  /-- An interrupt is requested, and an instruction is completed. -/
  interrupts : ∀ (a : Activation) id, a.vm = vm → Chain.leadsTo? d m.slots.hook = some id →
    w.detectors[d]?.any Detector.interruptPending = true →
      w.TakesInterrupt d ((step a).after w)

/-- **Detached machines stay diagnosed where another layer keeps the interceptors.** At every moment
of every run from a world in which no detector was used: after a detach that succeeds the machine is
not attached, but a slot in which another handler comes first still leads to the old interceptors.
While a machine is not attached, an error that the host tells of is suppressed, and what it calls is
not noticed if nothing that may be run leads to the detector or names it. But where its slots lead
to an old interceptor, a public or native that fails is diagnosed as if the machine was attached,
with a report, an armed latch and the demand to end the process, and the request for an interrupt is
taken. -/
theorem detached_machines_stay_diagnosed (hw₀ : w₀.Fresh) (hturns : Turns w₀ w)
    (hdet : w.detectors[d]? = some det) (hm : w.machines[vm]? = some m) :
    (∀ w', detach d vm w = .ok (.ok ()) w' →
      w'.isAttached d m.handle = false ∧ ∃ slots, w'.machines[vm]? = some { m with slots } ∧
        ∀ slot, (∀ ours, Slots.holds (.interceptor d ours) (m.slots.get slot) = false) →
          slots.get slot = m.slots.get slot) ∧
      (w.isAttached d m.handle = false → ∀ fuel, w.StaysDiagnosed d vm m fuel) := by
  refine ⟨fun w' hok => detach_leaves_layers hdet hm hok, fun hfree fuel => ?_⟩
  have hv := (Turns.moves hturns).valid hw₀.valid
  have hw := hturns.endsRightly (hw₀.endsRightly d)
  have hslots := hv.slots m (List.mem_of_getElem? hm)
  have hvm := (List.getElem?_eq_some_iff.mp hm).1
  have hp := balanced_runWith fuel
  refine ⟨fun index e => ?_, fun a vms ha hvms havoids => ?_,
    fun a index id e ha hlead he hharm => ?_,
    fun a index params id e ha hlead hforwards he hexit => ?_, fun a id ha hlead hpending => ?_⟩
  · rw [World.isAttached_of_some hdet, Registry.contains, Option.isSome_eq_false_iff,
      Option.isNone_iff_eq_none] at hfree
    rw [runtimeError, bind_of_ok (machine_of_some hm), bind_of_ok (detector_of_some hdet), hfree]
    exact ⟨_, rfl⟩
  · subst ha
    have hrun : ∀ a body, a.vm ∈ vms → Body.avoids d vms body = true →
        Spares d vms (runWith fuel a body) := spares_runWith fuel
    exact ⟨fun index => spares_callPublic hrun hvms index w havoids,
      fun index params => spares_callNative hrun hvms index params w havoids,
      spares_step hvms w havoids⟩
  · subst ha
    have hcall : callPublic (runWith fuel) a index w =
        exec (runWith fuel) a index m.slots.exec w := bind_of_ok (machine_of_some hm)
    refine (balanced_callPublic hp a index hv).diagnoses hw ?_
    rw [outcome, hcall] at he
    rw [after, hcall]
    exact tells_exec hp hlead hslots.exec hvm hv he hharm
  · subst ha
    have hcall : callNative (runWith fuel) a index params w =
        dispatch (runWith fuel) a index params m.slots.dispatcher w :=
      bind_of_ok (machine_of_some hm)
    have hbalanced := balanced_callNative hp a index params hv
    rw [outcome, hcall] at he
    obtain ⟨fault, htells⟩ := tells_dispatch hp hlead hslots.dispatcher hm hv hforwards he hexit
    refine ⟨fault, hbalanced.diagnoses hw ?_⟩
    rw [after, hcall]
    exact htells
  · subst ha
    have hstep : step a w = hook a m.slots.hook w := bind_of_ok (machine_of_some hm)
    rw [hdet, Option.any_some] at hpending
    rw [after, hstep]
    exact takes_hook hlead hslots.hook hvm hv hdet hpending

/-- Layers are put in front of the interceptors, and then the machine is detached. -/
def layeredSteps : List Step :=
  [.attach 0 0, .chain 0 .hook .forward, .chain 0 .exec .forward, .detach 0 0]

/-- The failure of the script is diagnosed. -/
theorem dyingHost_stays_diagnosed :
    let w := (Session.performAll 8 layeredSteps dyingHost).2
    dyingHost.Fresh ∧ Turns dyingHost w ∧
      ∃ det m, w.detectors[0]? = some det ∧ w.machines[0]? = some m ∧
        w.isAttached 0 m.handle = false ∧
          w.Diagnoses 0 (.failed 0 0 0 (.runtime 0 .bounds))
            ((callPublic (runWith 8) { vm := 0 } 0).after w) := by
  intro w
  have hturns : Turns dyingHost w :=
    (balancedDeeds_performAll 8 layeredSteps dyingHost_fresh.valid).turns
  obtain ⟨det, hdet⟩ : ∃ det, w.detectors[0]? = some det :=
    Option.isSome_iff_exists.mp (by decide +kernel)
  obtain ⟨m, hm⟩ : ∃ m, w.machines[0]? = some m :=
    Option.isSome_iff_exists.mp (by decide +kernel)
  have hfree : w.machines[0]?.map (fun m => w.isAttached 0 m.handle) = some false := by
    decide +kernel
  have hlead : w.machines[0]?.map (fun m => Chain.leadsTo? 0 m.slots.exec) = some (some 0) := by
    decide +kernel
  have he : outcome (callPublic (runWith 8) { vm := 0 } 0) w = .error (.error .bounds) := by
    decide +kernel
  rw [hm] at hfree hlead
  have hfree := Option.some.inj hfree
  obtain ⟨-, hstays⟩ := detached_machines_stay_diagnosed dyingHost_fresh hturns hdet hm
  exact ⟨dyingHost_fresh, hturns, det, m, hdet, hm, hfree,
    (hstays hfree 8).publics { vm := 0 } 0 0 .bounds rfl (Option.some.inj hlead) he rfl⟩

/-- The machine is detached, and nothing was said so far. Then an interrupt that is requested is
taken and reported, and when the script fails, that is reported too, the latch is armed, and the
process is to end. -/
theorem dyingHost_is_reported :
    let w := (Session.performAll 8 layeredSteps dyingHost).2
    let w' := (Session.performAll 8 [.interrupt 0, .completeInstruction 0, .exec 0 0] w).2
    (Session.performAll 8 layeredSteps dyingHost).1 =
        [.done (.ok ()), .nothing, .nothing, .done (.ok ())] ∧
      w.isAttached 0 ⟨1⟩ = false ∧ notices 0 w.journal = [] ∧ w.latchArmed 0 = false ∧
      .interruptTaken 0 ∈ w'.journal ∧
      notices 0 w'.journal =
        [.terminate .runtimeError, .report .runtimeError, .report .interrupt] ∧
      w'.latchArmed 0 = true := by
  decide +kernel

end ScriptDiag
