import ScriptDiag.Proofs.OtherDetectors

/-!
# Runs that pass a detector by

Where some machines have nothing to do with a detector, the detector does not notice what they run:
not a call through a chain, by recursion along it, nor a body, by induction on the bound of nested
bodies (`spares_runWith`).
-/

namespace ScriptDiag

open Act Run

variable {α : Type} {d : Nat} {vms : List Nat}

/-! ## Script functions -/

theorem spares_moveTo (vm : Nat) (cip : UCell) : Spares d vms (moveTo vm cip) :=
  (spares_onMachine (MachineM.blind_modifyRegisters _)).bind fun _ =>
    spares_record (detector?_ne_of_none rfl)

theorem spares_enterFunction (vm : Nat) (address returnAddress : UCell) (entry : Bool) :
    Spares d vms (enterFunction vm address returnAddress entry) :=
  (spares_onMachine (MachineM.blind_enterFrame address returnAddress)).bind fun _ =>
    spares_machine_bind fun _ _ => (spares_record (detector?_ne_of_none rfl)).bind fun _ =>
      spares_pure _

theorem spares_return (vm : Nat) (value : α) :
    Spares d vms (record (.returned vm) >>= fun _ => pure value) :=
  (spares_record (detector?_ne_of_none rfl)).bind fun _ => spares_pure value

theorem spares_callFunction (vm : Nat) (address : UCell) {body : Act Cell}
    (hbody : Spares d vms body) : Spares d vms (callFunction vm address body) :=
  spares_machine_bind fun _ _ => (spares_enterFunction vm address _ false).bind fun frm =>
    hbody.bind fun value => (spares_onMachine (MachineM.blind_leaveFrame frm)).bind fun _ =>
      spares_return vm value

theorem spares_recurse (vm : Nat) (address cip : UCell) {body : Act Cell}
    (hbody : Spares d vms body) (depth : Nat) :
    Spares d vms (recurse vm address cip body depth) := by
  induction depth with
  | zero => exact hbody
  | succ depth ih => exact spares_callFunction vm address ((spares_moveTo vm cip).bind fun _ => ih)

theorem spares_times {body : Act Cell} (hbody : Spares d vms body) (count : Nat) (last : Cell) :
    Spares d vms (times body count last) := by
  induction count generalizing last with
  | zero => exact spares_pure last
  | succ count ih => exact hbody.bind fun value => ih value

/-! ## Chains -/

theorem Chain.avoids_of_forward {number : Nat} {mode : LayerMode} {chain : Chain}
    (h : Chain.Avoids d (.layer number mode :: chain)) (hmode : mode = .forward) :
    Chain.Avoids d chain := by
  rw [Avoids, leadsTo?, if_pos hmode] at h
  exact h

theorem Chain.avoids_of_interceptor {d₀ id : Nat} {chain : Chain}
    (h : Chain.Avoids d (.interceptor d₀ id :: chain)) : d₀ ≠ d ∧ Chain.Avoids d chain := by
  rw [Avoids, leadsTo?] at h
  split at h
  case isTrue => cases h
  case isFalse hne => exact ⟨hne, h⟩

theorem spares_layer {number : Nat} {mode : LayerMode} {success : α} {next : Act α}
    (hnext : mode = .forward → Spares d vms next) :
    Spares d vms (layer number mode success next) := by
  refine (spares_record (detector?_ne_of_none rfl)).bind fun _ => ?_
  cases mode with
  | forward => exact hnext rfl
  | drop => exact spares_pure success
  | fail e => exact spares_throw (.error e)

theorem spares_baseHook (a : Activation) : Spares d vms (baseHook a) :=
  (spares_record (detector?_ne_of_none rfl)).bind fun _ _ hw =>
    hw.spares_modifyMachine a.vm fun _ _ => ⟨rfl, rfl, rfl, rfl, rfl, rfl, rfl⟩

theorem spares_hook (a : Activation) {chain : Chain} (hchain : Chain.Avoids d chain) :
    Spares d vms (hook a chain) := by
  induction chain with
  | nil => exact spares_pure ()
  | cons link chain ih =>
      cases link with
      | base => exact spares_baseHook a
      | layer number mode => exact spares_layer fun h => ih (Chain.avoids_of_forward hchain h)
      | interceptor d₀ id =>
          obtain ⟨hne, hrest⟩ := Chain.avoids_of_interceptor hchain
          exact spares_interceptHook hne (ih hrest)

/-- An instruction that is completed is not noticed. -/
theorem spares_step {a : Activation} (ha : a.vm ∈ vms) : Spares d vms (step a) :=
  spares_machine_bind fun _ hm => spares_hook a ((hm ha).slots .hook)

/-! ## Statements -/

theorem Act.Spares.then_next {x : Act α} (hx : Spares d vms x) :
    Spares d vms (x >>= fun _ => pure (Flow.next none)) :=
  hx.bind fun _ => spares_pure _

theorem Act.Spares.then_value {x : Act Cell} (hx : Spares d vms x) :
    Spares d vms (x >>= fun value => pure (Flow.next (some value))) :=
  hx.bind fun _ => spares_pure _

theorem spares_note (n : Note) : Spares d vms (note n) :=
  spares_record (detector?_ne_of_none rfl)

theorem Act.Spares.then_note {x : Act α} (hx : Spares d vms x) (f : α → Note) :
    Spares d vms (x >>= fun a => note (f a) >>= fun _ => pure (Flow.next none)) :=
  hx.bind fun a => (spares_note (f a)).then_next

/-! ## Calls and bodies -/

section

variable {run : Runner}
  (hrun : ∀ a body, a.vm ∈ vms → Body.avoids d vms body = true → Spares d vms (run a body))

include hrun

theorem spares_baseNative {a : Activation} (ha : a.vm ∈ vms) (index : Cell) (params : List Cell) :
    Spares d vms (baseNative run a index params) := by
  refine (spares_record (detector?_ne_of_none rfl)).bind fun _ => spares_machine_bind fun m hm => ?_
  split
  case h_1 body hbody =>
    exact hrun (a.withParams params) body ha (Machine.allBodies_native (hm ha).bodies hbody)
  case h_2 => exact spares_throw _

theorem spares_baseExec {a : Activation} (ha : a.vm ∈ vms) (index : Cell) :
    Spares d vms (baseExec run a index) := by
  refine (spares_record (detector?_ne_of_none rfl)).bind fun _ => spares_machine_bind fun m hm => ?_
  split
  case h_1 => exact spares_throw _
  case h_2 address body hentry =>
      exact (spares_enterFunction a.vm address 0 true).bind fun _ =>
        (hrun (a.withParams []) body ha
            (Machine.allBodies_public (hm ha).bodies hentry)).bind fun value =>
          (spares_onMachine (MachineM.blind_modifyRegisters _)).bind fun _ =>
            spares_return a.vm value

theorem spares_dispatch {a : Activation} (ha : a.vm ∈ vms) (index : Cell) (params : List Cell)
    {chain : Chain} (hchain : Chain.Avoids d chain) :
    Spares d vms (dispatch run a index params chain) := by
  induction chain with
  | nil => exact spares_throw (.error .noCallback)
  | cons link chain ih =>
      cases link with
      | base => exact spares_baseNative hrun ha index params
      | layer number mode => exact spares_layer fun h => ih (Chain.avoids_of_forward hchain h)
      | interceptor d₀ id =>
          obtain ⟨hne, hrest⟩ := Chain.avoids_of_interceptor hchain
          exact spares_interceptNative hne index fun x hx => eq_of_rest_eq_some hx ▸ ih hrest

theorem spares_exec {a : Activation} (ha : a.vm ∈ vms) (index : Cell) {chain : Chain}
    (hchain : Chain.Avoids d chain) : Spares d vms (exec run a index chain) := by
  induction chain with
  | nil => exact spares_throw (.error .notInitialized)
  | cons link chain ih =>
      cases link with
      | base => exact spares_baseExec hrun ha index
      | layer number mode => exact spares_layer fun h => ih (Chain.avoids_of_forward hchain h)
      | interceptor d₀ id =>
          obtain ⟨hne, hrest⟩ := Chain.avoids_of_interceptor hchain
          refine spares_interceptExec hne index ?_
          rw [getD_rest_exec]
          exact ih hrest

/-- A native that is called is not noticed. -/
theorem spares_callNative {a : Activation} (ha : a.vm ∈ vms) (index : Cell) (params : List Cell) :
    Spares d vms (callNative run a index params) :=
  spares_machine_bind fun _ hm =>
    spares_dispatch hrun ha index params ((hm ha).slots .dispatcher)

/-- A public that is run is not noticed. -/
theorem spares_callPublic {a : Activation} (ha : a.vm ∈ vms) (index : Cell) :
    Spares d vms (callPublic run a index) :=
  spares_machine_bind fun _ hm => spares_exec hrun ha index ((hm ha).slots .exec)

theorem spares_stmt {a : Activation} (ha : a.vm ∈ vms) {s : Stmt}
    (hs : s.all (Stmt.avoids d vms) = true) : Spares d vms (stmt run a s) := by
  cases s with
  | setCip cip => exact (spares_moveTo a.vm cip).then_next
  | setRegisters frm cip stk hea =>
      exact (spares_onMachine (MachineM.blind_modifyRegisters _)).then_next
  | noteRegisters => exact spares_machine_bind fun _ _ => (spares_note _).then_next
  | emit payload => exact (spares_note _).then_next
  | write address value =>
      exact (spares_onMachine (MachineM.blind_store address value)).then_note _
  | writeFrame offset value =>
      exact spares_machine_bind fun _ _ =>
        (spares_onMachine (MachineM.blind_store _ value)).then_note _
  | read address => exact spares_machine_bind fun _ _ => (spares_note _).then_next
  | call address body => exact (spares_callFunction a.vm address (hrun a body ha hs)).then_value
  | recurse address cip depth body =>
      exact (spares_recurse a.vm address cip (hrun a body ha hs) depth).then_value
  | native index params => exact (spares_callNative hrun ha index params).then_value
  | exec index => exact (spares_callPublic hrun ha index).then_value
  | execOn vm index =>
      rw [stmt]
      split
      · exact (spares_note _).bind fun _ => spares_throw _
      · have hvm : (a.onTop vm).vm ∈ vms := List.contains_iff_mem.mp hs
        exact (spares_callPublic hrun hvm index).then_value
  | step => exact (spares_step ha).then_next
  | attempt body => exact (hrun a body ha hs).attempt.then_note _
  | times count body => exact (spares_times (hrun a body ha hs) count 0).then_value
  | fail e => exact spares_throw (.error e)
  | finish value => exact spares_pure _
  | finishWithSum => exact spares_pure _
  | panic => exact spares_throw .panic
  | crash d' among => exact (spares_crash (bne_iff_ne.mp hs) _).then_note _
  | runtimeError d' index e => exact (spares_runtimeError (bne_iff_ne.mp hs) index e).then_note _
  | interrupt d' => exact (spares_requestInterrupt (bne_iff_ne.mp hs)).then_next
  | trace d' => exact (spares_trace a.vm).then_note _
  | probe d' => exact (spares_probe a.vm).then_note _
  | attach d' => exact (spares_attach (bne_iff_ne.mp hs) ha).then_note _
  | detach d' => exact (spares_detach (bne_iff_ne.mp hs)).then_note _

theorem spares_stmts {a : Activation} (ha : a.vm ∈ vms) (last : Cell) {body : List Stmt}
    (hbody : Body.avoids d vms body = true) : Spares d vms (stmts run a last body) := by
  induction body generalizing last with
  | nil => exact spares_pure last
  | cons s rest ih =>
      obtain ⟨hs, hrest⟩ := Body.all_cons.mp hbody
      refine (spares_stmt hrun ha hs).bind fun flow => ?_
      cases flow with
      | next value => exact ih _ hrest
      | finish value => exact spares_pure value

end

/-- What a body does that avoids a detector, on a machine that avoids it, is not noticed. -/
theorem spares_runWith (fuel : Nat) (a : Activation) (body : Body) (ha : a.vm ∈ vms)
    (hbody : Body.avoids d vms body = true) : Spares d vms (runWith fuel a body) := by
  induction fuel generalizing a body with
  | zero => exact spares_throw .outOfFuel
  | succ fuel ih => exact spares_stmts ih ha 0 hbody

end ScriptDiag
