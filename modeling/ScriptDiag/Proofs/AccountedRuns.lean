import ScriptDiag.Proofs.Accounting

/-!
# The accounts are right

Whatever machines, bodies and hosts do in a valid world, its account is right: by recursion along
the chains, by induction on the bound of nested bodies (`accountsFor_runWith`), and one step of a
session after the other (`account_performAll`).
-/

namespace ScriptDiag

open Act

variable {α : Type} {w : World}

/-! ## Script functions -/

section

open Run

/-- What is done last when a script function returns. -/
theorem quiet_return (vm : Nat) (value : α) :
    Quiet (record (.returned vm) >>= fun _ => pure value) :=
  quiet_record_bind rfl (quiet_pure value)

theorem accountsFor_callFunction (vm : Nat) (address : UCell) {body : Act Cell} {steps : Account}
    (hp : ∀ w, Balanced body w) (hbody : ∀ w, AccountsFor steps body w) :
    AccountsFor (.callFunction vm address body steps) (callFunction vm address body) w := by
  refine .machine_bind fun m _ => ?_
  refine .andThen (balanced_enterFunction vm address _ false) (untold_enterFunction _ _ _) ?_
  intro frm w₁ _ _
  refine .bind (hp w₁) (hbody w₁) fun value w₂ _ _ => ?_
  exact (accountsFor_own (adds_onMachine vm _)).then_quiet fun _ => quiet_return vm value

theorem accountsFor_recurse (vm : Nat) (address cip : UCell) {body : Act Cell} {steps : Account}
    (hp : ∀ w, Balanced body w) (hbody : ∀ w, AccountsFor steps body w) (depth : Nat) :
    AccountsFor (.recurse vm address cip body steps depth) (recurse vm address cip body depth)
      w := by
  induction depth generalizing w with
  | zero => exact hbody w
  | succ depth ih =>
      refine accountsFor_callFunction vm address (fun w => ?_) fun w => ?_
      · exact (balanced_moveTo vm cip).bind fun _ _ _ _ => balanced_recurse vm address cip hp depth
      · exact .andThen (balanced_moveTo vm cip) (untold_moveTo cip) fun _ _ _ _ => ih

theorem accountsFor_times {body : Act Cell} {steps : Account} (hp : ∀ w, Balanced body w)
    (hbody : ∀ w, AccountsFor steps body w) (count : Nat) (last : Cell) :
    AccountsFor (.times body steps count) (times body count last) w := by
  induction count generalizing w last with
  | zero => exact accountsFor_silent (quiet_pure last)
  | succ count ih => exact .bind (hp w) (hbody w) fun value _ _ _ => ih value

/-! ## Chains -/

theorem accountsFor_layer {number : Nat} {mode : LayerMode} {success : α} {next : Act α}
    {steps : Account} (hnext : ∀ w', Moves w w' → AccountsFor steps next w') :
    AccountsFor (.layer number mode steps) (layer number mode success next) w := by
  refine .andThen (balanced_record rfl) (untold_record rfl) fun _ w₁ _ hmoves => ?_
  cases mode with
  | forward => exact hnext w₁ hmoves
  | drop => exact accountsFor_silent (quiet_pure success)
  | fail e => exact accountsFor_raise e

theorem accountsFor_hostError {d vm : Nat} (index : Cell) (e : VmError) :
    AccountsFor (.runtimeError d vm index e) (runtimeError d vm index e) w := by
  intro hv
  refine AccountsFor.machine_bind (fun m hm => .detector_bind fun det hdet => ?_) hv
  cases hid : det.registry.find? m.handle with
  | none =>
      exact accountsFor_silent (quiet_record_bind rfl (quiet_pure Disposition.suppressed))
  | some id =>
      intro _
      obtain ⟨disposition, w', hok, htold⟩ := onRuntimeError_told (hv.hasInstance hdet hid)
        (List.getElem?_eq_some_iff.mp hm).1 index e
      refine ⟨.step .nil trivial, fun e' he => ?_, ?_⟩
      · rw [outcome_of_ok hok] at he
        cases he
      · rw [after_of_ok hok, htold, reverse_filterMap_singleton, ErrorStep.event?]

/-! ## Statements -/

theorem account_stmt_of_isPlain {run : Runner} {steps : Activation → Body → Account} {s : Stmt}
    (h : s.isPlain = true) (a : Activation) :
    Account.stmt run steps a s = .own (stmt run a s) := by
  cases s <;> first | rfl | cases h

theorem AccountsFor.then_value {x : Act Cell} {steps : Account} (hx : AccountsFor steps x w) :
    AccountsFor steps (x >>= fun value => pure (Flow.next (some value))) w :=
  hx.then_quiet fun _ => quiet_pure _

theorem AccountsFor.then_note {x : Act α} {steps : Account} (hx : AccountsFor steps x w)
    (f : α → Note) :
    AccountsFor steps (x >>= fun a => note (f a) >>= fun _ => pure (Flow.next none)) w :=
  hx.then_quiet fun _ => quiet_record_bind rfl (quiet_pure _)

/-! ## Calls and bodies -/

section

variable {run : Runner} {steps : Activation → Body → Account}
  (hp : ∀ a body w, Balanced (run a body) w)
  (hrun : ∀ a body w, AccountsFor (steps a body) (run a body) w)

include hrun

theorem accountsFor_baseNative (a : Activation) (index : Cell) (params : List Cell) :
    AccountsFor (.baseNative steps a index params) (baseNative run a index params) w := by
  refine .andThen (balanced_record rfl) (untold_record rfl) fun _ _ _ _ =>
    .machine_bind fun m _ => ?_
  cases hbody : m.nativeBody? index with
  | some body => exact hrun _ _ _
  | none => exact accountsFor_raise .noCallback

include hp

theorem accountsFor_baseExec (a : Activation) (index : Cell) :
    AccountsFor (.baseExec run steps a index) (baseExec run a index) w := by
  refine .andThen (balanced_record rfl) (untold_record rfl) fun _ _ _ _ =>
    .machine_bind fun m _ => ?_
  cases hentry : m.entryPoint? index with
  | none => exact accountsFor_raise .badIndex
  | some entry =>
      refine .andThen (balanced_enterFunction _ _ _ _) (untold_enterFunction _ _ _) ?_
      intro _ w₁ _ _
      refine .bind (hp _ _ w₁) (hrun _ _ w₁) fun value w₂ _ _ => ?_
      exact (accountsFor_own (adds_onMachine _ _)).then_quiet fun _ => quiet_return _ value

theorem accountsFor_dispatch (a : Activation) (index : Cell) (params : List Cell) (chain : Chain)
    (hchain : Chain.ExistsIn chain w) (hvm : a.vm < w.machines.length) :
    AccountsFor (.dispatch run steps a index params chain) (dispatch run a index params chain)
      w := by
  induction chain generalizing w with
  | nil => exact accountsFor_raise .noCallback
  | cons link chain ih =>
      have hexist : ∀ w', Moves w w' → Chain.ExistsIn chain w' ∧ a.vm < w'.machines.length :=
        fun w' h => ⟨hchain.tail.mono h.keepsInstances, h.machines_length.symm ▸ hvm⟩
      have hrest : ∀ w', Moves w w' → AccountsFor (.dispatch run steps a index params chain)
          (dispatch run a index params chain) w' :=
        fun w' h => ih (hexist w' h).1 (hexist w' h).2
      have hbalanced : ∀ w', Moves w w' → Balanced (dispatch run a index params chain) w' :=
        fun w' h => balanced_dispatch hp a index params chain (hexist w' h).1 (hexist w' h).2
      cases link with
      | base => exact accountsFor_baseNative hrun a index params
      | layer number mode => exact accountsFor_layer hrest
      | interceptor d id =>
          exact accountsFor_interceptNative (hchain d id List.mem_cons_self) hvm
            (balanced_rest hbalanced) fun _ hy => eq_of_rest_eq_some hy ▸ hrest

theorem accountsFor_exec (a : Activation) (index : Cell) (chain : Chain)
    (hchain : Chain.ExistsIn chain w) (hvm : a.vm < w.machines.length) :
    AccountsFor (.exec run steps a index chain) (exec run a index chain) w := by
  induction chain generalizing w with
  | nil => exact accountsFor_raise .notInitialized
  | cons link chain ih =>
      have hexist : ∀ w', Moves w w' → Chain.ExistsIn chain w' ∧ a.vm < w'.machines.length :=
        fun w' h => ⟨hchain.tail.mono h.keepsInstances, h.machines_length.symm ▸ hvm⟩
      have hrest : ∀ w', Moves w w' →
          AccountsFor (.exec run steps a index chain) (exec run a index chain) w' :=
        fun w' h => ih (hexist w' h).1 (hexist w' h).2
      cases link with
      | base => exact accountsFor_baseExec hp hrun a index
      | layer number mode => exact accountsFor_layer hrest
      | interceptor d id =>
          refine accountsFor_interceptExec (hchain d id List.mem_cons_self) hvm ?_ ?_
          · intro w' h
            rw [getD_rest_exec]
            exact balanced_exec hp a index chain (hexist w' h).1 (hexist w' h).2
          · rw [getD_rest_exec]
            exact hrest

theorem accountsFor_callNative (a : Activation) (index : Cell) (params : List Cell) :
    AccountsFor (.callNative run steps a index params) (callNative run a index params) w := by
  refine fun hv => AccountsFor.machine_bind (fun m hm => ?_) hv
  exact accountsFor_dispatch hp hrun a index params _
    (hv.slots m (List.mem_of_getElem? hm)).dispatcher (List.getElem?_eq_some_iff.mp hm).1

theorem accountsFor_callPublic (a : Activation) (index : Cell) :
    AccountsFor (.callPublic run steps a index) (callPublic run a index) w := by
  refine fun hv => AccountsFor.machine_bind (fun m hm => ?_) hv
  exact accountsFor_exec hp hrun a index _
    (hv.slots m (List.mem_of_getElem? hm)).exec (List.getElem?_eq_some_iff.mp hm).1

theorem accountsFor_stmt (a : Activation) (s : Stmt) :
    AccountsFor (.stmt run steps a s) (stmt run a s) w := by
  cases hplain : s.isPlain with
  | true =>
      rw [account_stmt_of_isPlain hplain]
      exact accountsFor_own (untold_stmt hplain)
  | false =>
      cases s with
      | call address body =>
          exact (accountsFor_callFunction a.vm address (hp a body) (hrun a body)).then_value
      | recurse address cip depth body =>
          exact (accountsFor_recurse a.vm address cip (hp a body) (hrun a body) depth).then_value
      | native index params => exact (accountsFor_callNative hp hrun a index params).then_value
      | exec index => exact (accountsFor_callPublic hp hrun a index).then_value
      | execOn vm index =>
          rw [stmt, Account.stmt]
          split
          · exact accountsFor_own (x := note (.busy vm) >>= fun _ => fail .general)
              ((untold_record rfl).bind fun _ => adds_throw _)
          · exact (accountsFor_callPublic hp hrun _ index).then_value
      | attempt body => exact (hrun a body w).attempt.then_note _
      | times count body => exact (accountsFor_times (hp a body) (hrun a body) count 0).then_value
      | runtimeError d index e => exact (accountsFor_hostError index e).then_note _
      | _ => cases hplain

theorem accountsFor_stmts (a : Activation) (last : Cell) (body : List Stmt) :
    AccountsFor (.stmts run steps a body) (stmts run a last body) w := by
  induction body generalizing w last with
  | nil => exact accountsFor_silent (quiet_pure last)
  | cons s rest ih =>
      refine .bind (balanced_stmt hp a s) (accountsFor_stmt hp hrun a s) fun flow _ _ _ => ?_
      cases flow with
      | next value => exact ih _
      | finish value => exact accountsFor_silent (quiet_pure value)

end

theorem accountsFor_runWith (fuel : Nat) (a : Activation) (body : Body) (w : World) :
    AccountsFor (.runWith fuel a body) (runWith fuel a body) w := by
  induction fuel generalizing a body w with
  | zero => exact accountsFor_own (x := throw .outOfFuel) (adds_throw _)
  | succ fuel ih => exact accountsFor_stmts (balanced_runWith fuel) ih a 0 body

end

/-! ## Sessions -/

theorem untold_setSlot (vm : Nat) (slot : SlotName) (f : Chain → Chain) :
    Untold (Session.setSlot vm slot f) :=
  (adds_machine vm).bind fun _ => adds_modifyMachine vm _

theorem untold_addLayer (vm : Nat) (slot : SlotName) (mode : LayerMode) :
    Untold (Session.addLayer vm slot mode) :=
  Adds.bind (adds_of_eq fun _ => rfl) fun _ => (untold_setSlot vm slot _).bind fun _ =>
    adds_of_eq fun _ => rfl

theorem accountsFor_step (fuel : Nat) (s : Step) :
    AccountsFor (.step fuel s) (Session.step (Run.runWith fuel) s) w := by
  have hp := balanced_runWith fuel
  have hrun := accountsFor_runWith fuel
  cases s with
  | exec vm index => exact (accountsFor_callPublic hp hrun _ index).attempt.map _
  | native vm index params => exact (accountsFor_callNative hp hrun _ index params).attempt.map _
  | run vm body => exact (hrun _ body w).attempt.map _
  | completeInstruction vm =>
      exact ((accountsFor_own untold_step).then_quiet fun _ => quiet_pure _).attempt.map _
  | runtimeError d vm index e => exact (accountsFor_hostError index e).map _
  | attach d vm => exact accountsFor_own (untold_attach.map _)
  | detach d vm => exact accountsFor_own (untold_detach.map _)
  | crash d vms => exact accountsFor_own ((untold_crash vms).map _)
  | interrupt d => exact accountsFor_own (untold_requestInterrupt.bind fun _ => adds_pure _)
  | trace d vm => exact accountsFor_own (untold_trace.map _)
  | chain vm slot mode =>
      exact accountsFor_own ((untold_addLayer vm slot mode).bind fun _ => adds_pure _)
  | clear vm slot => exact accountsFor_own ((untold_setSlot vm slot _).bind fun _ => adds_pure _)
  | inspect d vm =>
      exact accountsFor_own ((adds_machine vm).bind fun _ => (adds_detector d).bind fun _ =>
        adds_pure _)
  | describe d vm =>
      exact accountsFor_own ((adds_machine vm).bind fun _ => (adds_detector d).bind fun _ =>
        adds_pure _)

/-- The account of a session is right: it is orderly, and the journal tells of failures what the
account does. -/
theorem account_performAll (fuel : Nat) (steps : List Step) (hv : w.Valid) :
    Orderly (Account.performAll fuel steps w) ∧
      (Session.performAll fuel steps w).2.told =
        ((Account.performAll fuel steps w).filterMap ErrorStep.event?).reverse ++ w.told := by
  induction steps generalizing w with
  | nil => exact ⟨.nil, rfl⟩
  | cons s steps ih =>
      obtain ⟨horderly, -, htold⟩ := accountsFor_step fuel s hv
      rw [← Session.perform_snd] at htold
      obtain ⟨horderly', htold'⟩ := ih ((balancedDeeds_perform fuel s hv).moves.valid hv)
      refine ⟨horderly.append horderly', ?_⟩
      rw [Account.performAll, List.filterMap_append, List.reverse_append, List.append_assoc,
        ← htold]
      exact htold'

end ScriptDiag
