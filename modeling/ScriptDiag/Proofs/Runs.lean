import ScriptDiag.Proofs.Frames
import ScriptDiag.Proofs.BalancedActs

/-!
# All acts are runs

Whatever machines, bodies and hosts do in a valid world is balanced: it is a run after which the
calls in flight are those from before. Calls go along chains, by recursion; bodies are nested up to
a bound, by induction on it (`balanced_runWith`); and a session takes one step after the other
(`balancedDeeds_performAll`).

What the rest of a chain does behind an interceptor is done with the call in flight, between the two
changes to the stack of its instance (`dispatch_interceptor`, `exec_interceptor`).
-/

namespace ScriptDiag

open Act

variable {α : Type} {w : World}

/-! ## All statements of a body -/

mutual

/-- Whether a statement is as it should, and so are all statements of the bodies in it. -/
def Stmt.all (p : Stmt → Bool) : Stmt → Bool
  | .call address body => p (.call address body) && Body.all p body
  | .recurse address cip depth body => p (.recurse address cip depth body) && Body.all p body
  | .attempt body => p (.attempt body) && Body.all p body
  | .times count body => p (.times count body) && Body.all p body
  | s => p s

/-- Whether all statements of a body are as they should, however deep they are nested. -/
def Body.all (p : Stmt → Bool) : List Stmt → Bool
  | [] => true
  | s :: rest => s.all p && Body.all p rest

end

theorem Body.all_cons {p : Stmt → Bool} {s : Stmt} {rest : List Stmt} :
    Body.all p (s :: rest) = true ↔ s.all p = true ∧ Body.all p rest = true := by
  rw [Body.all, Bool.and_eq_true]

/-! ## The bodies behind the tables -/

theorem mem_of_entryAt? {xs : List α} {index : Cell} {x : α} (h : entryAt? xs index = some x) :
    x ∈ xs := by
  rw [entryAt?, Option.bind_eq_some_iff] at h
  obtain ⟨i, -, hx⟩ := h
  exact List.mem_of_getElem? hx

/-- Whether all bodies behind the tables of a machine are as they should, natives and scripts each
in their way. -/
def Machine.allBodies (p : CallKind → Body → Bool) (m : Machine) : Bool :=
  (m.natives.all fun n => n.function.all fun f => p .toNative f.body) &&
    (m.publics.all fun f => p .toPublic f.body) && m.main.all fun f => p .toPublic f.body

theorem Machine.allBodies_native {p : CallKind → Body → Bool} {m : Machine}
    (h : m.allBodies p = true) {index : Cell} {body : Body}
    (hbody : m.nativeBody? index = some body) : p .toNative body = true := by
  simp only [allBodies, Bool.and_eq_true, List.all_eq_true] at h
  rw [nativeBody?, Option.map_eq_some_iff] at hbody
  obtain ⟨f, hf, rfl⟩ := hbody
  obtain ⟨n, hn, hf⟩ := Option.bind_eq_some_iff.mp hf
  have hall := h.1.1 n (mem_of_entryAt? hn)
  rw [hf] at hall
  exact hall

theorem Machine.allBodies_public {p : CallKind → Body → Bool} {m : Machine}
    (h : m.allBodies p = true) {index : Cell} {address : UCell} {body : Body}
    (hentry : m.entryPoint? index = some (address, body)) : p .toPublic body = true := by
  simp only [allBodies, Bool.and_eq_true, List.all_eq_true] at h
  rw [entryPoint?] at hentry
  split at hentry
  · obtain ⟨f, hf, heq⟩ := Option.map_eq_some_iff.mp hentry
    cases heq
    have hall := h.2
    rw [hf] at hall
    exact hall
  · obtain ⟨f, hf, heq⟩ := Option.map_eq_some_iff.mp hentry
    cases heq
    exact h.1.2 f (mem_of_entryAt? hf)

/-! ## Machines -/

theorem balanced_onMachine {vm : Nat} {x : MachineM α}
    (hx : ∀ m, (∃ a m', x m = .ok a m' ∧ m.SameModule m') ∨
      ∃ e m', x m = .error e m' ∧ m.SameModule m') : Balanced (onMachine vm x) w := by
  refine .of_valid fun hv => ?_
  cases hm : w.machines[vm]? with
  | none =>
      intro _
      rw [onMachine, after_bind_of_error (machine_of_none hm)]
      exact .refl w
  | some m =>
      have hslots : ∀ m', m.SameModule m' → m'.slots.ExistIn w := fun m' h =>
        h.slots ▸ hv.slots m (List.mem_of_getElem? hm)
      intro _
      rcases hx m with ⟨a, m', h, hsame⟩ | ⟨e, m', h, hsame⟩
      · rw [after_of_ok (onMachine_of_ok hm h)]
        exact .modifyMachine hv vm fun _ _ => hslots m' hsame
      · rw [after_of_error (onMachine_of_error hm h)]
        exact .modifyMachine hv vm fun _ _ => hslots m' hsame

theorem balanced_modifyRegisters (vm : Nat) (f : Registers → Registers) :
    Balanced (onMachine vm (MachineM.modifyRegisters f)) w :=
  balanced_onMachine fun m =>
    .inl ⟨_, _, MachineM.modifyRegisters_apply f m, m.sameModule_withRegisters _⟩

theorem balanced_enterFrame (vm : Nat) (address returnAddress : UCell) :
    Balanced (onMachine vm (MachineM.enterFrame address returnAddress)) w := by
  refine balanced_onMachine fun m => ?_
  rcases MachineM.enterFrame_cases address returnAddress m with
    ⟨-, -, -, h⟩ | ⟨m', h, rfl | ⟨-, rfl⟩ | ⟨-, -, rfl⟩⟩
  · exact .inl ⟨_, _, h, m.sameModule_entered _ _⟩
  · exact .inr ⟨_, _, h, .refl m'⟩
  · exact .inr ⟨_, _, h, m.sameModule_pushed 0⟩
  · exact .inr ⟨_, _, h, (m.sameModule_pushed 0).trans ((m.pushed 0).sameModule_pushed _)⟩

theorem balanced_leaveFrame (vm : Nat) (frm : UCell) :
    Balanced (onMachine vm (MachineM.leaveFrame frm)) w := by
  refine balanced_onMachine fun m => ?_
  rcases MachineM.leaveFrame_cases frm m with ⟨caller, address, -, -, h⟩ | h
  · exact .inl ⟨_, _, h, m.sameModule_withRegisters _⟩
  · exact .inr ⟨_, _, h, .refl m⟩

theorem balanced_store (vm : Nat) (address : UCell) (value : Cell) :
    Balanced (onMachine vm (MachineM.store address value)) w := by
  refine balanced_onMachine fun m => ?_
  rcases MachineM.store_cases address value m with ⟨memory, -, h⟩ | h
  · exact .inl ⟨_, _, h, ⟨rfl, rfl, rfl, rfl, rfl, rfl, rfl⟩⟩
  · exact .inl ⟨_, _, h, .refl m⟩

/-! ## Scripts -/

section

open Run

theorem balanced_moveTo (vm : Nat) (cip : UCell) : Balanced (moveTo vm cip) w :=
  (balanced_modifyRegisters vm _).bind fun _ _ _ _ => balanced_record rfl

theorem balanced_enterFunction (vm : Nat) (address returnAddress : UCell) (entry : Bool) :
    Balanced (enterFunction vm address returnAddress entry) w :=
  (balanced_enterFrame vm address returnAddress).bind fun _ _ _ _ =>
    .machine_bind fun _ _ => (balanced_record rfl).bind fun _ _ _ _ => balanced_pure _

theorem balanced_callFunction (vm : Nat) (address : UCell) {body : Act Cell}
    (hbody : ∀ w, Balanced body w) : Balanced (callFunction vm address body) w :=
  .machine_bind fun _ _ => (balanced_enterFunction vm address _ false).bind fun frm _ _ _ =>
    (hbody _).bind fun _ _ _ _ => (balanced_leaveFrame vm frm).bind fun _ _ _ _ =>
      (balanced_record rfl).bind fun _ _ _ _ => balanced_pure _

theorem balanced_recurse (vm : Nat) (address cip : UCell) {body : Act Cell}
    (hbody : ∀ w, Balanced body w) (depth : Nat) :
    Balanced (recurse vm address cip body depth) w := by
  induction depth generalizing w with
  | zero => exact hbody w
  | succ depth ih =>
      exact balanced_callFunction vm address fun w =>
        (balanced_moveTo vm cip).bind fun _ _ _ _ => ih

theorem balanced_times {body : Act Cell} (hbody : ∀ w, Balanced body w) (count : Nat)
    (last : Cell) : Balanced (times body count last) w := by
  induction count generalizing w last with
  | zero => exact balanced_pure _
  | succ count ih => exact (hbody w).bind fun value _ _ _ => ih value

theorem balanced_baseHook (a : Activation) : Balanced (baseHook a) w := by
  refine (balanced_record rfl).bind fun _ w' _ _ => ?_
  exact .of_ok (modify_apply _ w') fun hv =>
    .modifyMachine hv a.vm fun m hm => hv.slots m (List.mem_of_getElem? hm)

/-! ## Layers and hooks -/

theorem balanced_layer {number : Nat} {mode : LayerMode} {success : α} {next : Act α}
    (hnext : ∀ w', Moves w w' → Balanced next w') :
    Balanced (layer number mode success next) w := by
  refine (balanced_record rfl).bind fun _ w₁ _ h₁ => ?_
  cases mode with
  | forward => exact hnext w₁ h₁
  | drop => exact balanced_pure _
  | fail e => exact balanced_throw _

theorem balanced_rest {chain : Chain} {x : Act α} (hx : ∀ w', Moves w w' → Balanced x w') :
    ∀ y, rest chain x = some y → ∀ w', Moves w w' → Balanced y w' :=
  fun _ hy => eq_of_rest_eq_some hy ▸ hx

/-- What an interceptor forwards a public to is the rest of the chain, also if that is empty. -/
theorem getD_rest_exec (run : Runner) (a : Activation) (index : Cell) (chain : Chain) :
    (rest chain (exec run a index chain)).getD (fail .notInitialized) = exec run a index chain := by
  cases chain <;> rfl

theorem balanced_hook (a : Activation) (chain : Chain) (hchain : Chain.ExistsIn chain w)
    (hvm : a.vm < w.machines.length) : Balanced (hook a chain) w := by
  induction chain generalizing w with
  | nil => exact balanced_pure _
  | cons link chain ih =>
      have hrest : ∀ w', Moves w w' → Balanced (hook a chain) w' :=
        fun w' h => ih (hchain.tail.mono h.keepsInstances) (h.machines_length.symm ▸ hvm)
      cases link with
      | base => exact balanced_baseHook a
      | layer number mode => exact balanced_layer hrest
      | interceptor d id =>
          exact balanced_interceptHook (hchain d id List.mem_cons_self) hvm hrest

theorem balanced_step (a : Activation) : Balanced (step a) w :=
  .of_valid fun hv => .machine_bind fun m hm =>
    balanced_hook a _ (hv.slots m (List.mem_of_getElem? hm)).hook
      (List.getElem?_eq_some_iff.mp hm).1

/-! ## Statements -/

theorem Balanced.then_next {x : Act α} (hx : Balanced x w) :
    Balanced (x >>= fun _ => pure (Flow.next none)) w :=
  hx.bind fun _ _ _ _ => balanced_pure _

theorem Balanced.then_value {x : Act Cell} (hx : Balanced x w) :
    Balanced (x >>= fun value => pure (Flow.next (some value))) w :=
  hx.bind fun _ _ _ _ => balanced_pure _

theorem Balanced.then_note {x : Act α} (hx : Balanced x w) (f : α → Note) :
    Balanced (x >>= fun a => note (f a) >>= fun _ => pure (Flow.next none)) w :=
  hx.bind fun _ _ _ _ => (balanced_note _).then_next

/-! ## Chains -/

/-- Behind an interceptor a native is answered as a call, by the rest of the chain. -/
theorem dispatch_interceptor (run : Runner) (a : Activation) (d id : Nat) (index : Cell)
    (params : List Cell) (chain : Chain) :
    RunsAsCall d id a.vm .toNative index (dispatch run a index params (.interceptor d id :: chain))
      (answerNative d id a.vm index (rest chain (dispatch run a index params chain))) := by
  intro w m hm hid
  obtain ⟨seq, w₁, hadmits, happly⟩ := interceptNative_admits hid hm index
  exact ⟨seq, w₁, hadmits, happly _⟩

/-- So is a public. -/
theorem exec_interceptor (run : Runner) (a : Activation) (d id : Nat) (index : Cell)
    (chain : Chain) :
    RunsAsCall d id a.vm .toPublic index (exec run a index (.interceptor d id :: chain))
      (answerPublic d id a.vm index (rest chain (exec run a index chain))) := by
  intro w m hm hid
  obtain ⟨seq, w₁, hadmits, happly⟩ := interceptExec_admits hid hm index
  exact ⟨seq, w₁, hadmits, happly _⟩

variable {run : Runner} (hrun : ∀ a body w, Balanced (run a body) w)

include hrun

theorem balanced_baseNative (a : Activation) (index : Cell) (params : List Cell) :
    Balanced (baseNative run a index params) w := by
  refine (balanced_record rfl).bind fun _ _ _ _ => .machine_bind fun m _ => ?_
  split
  · exact hrun _ _ _
  · exact balanced_throw _

theorem balanced_baseExec (a : Activation) (index : Cell) : Balanced (baseExec run a index) w := by
  refine (balanced_record rfl).bind fun _ _ _ _ => .machine_bind fun m _ => ?_
  split
  · exact balanced_throw _
  · exact (balanced_enterFunction _ _ _ _).bind fun _ _ _ _ => (hrun _ _ _).bind fun _ _ _ _ =>
      (balanced_modifyRegisters _ _).bind fun _ _ _ _ => (balanced_record rfl).bind fun _ _ _ _ =>
        balanced_pure _

theorem balanced_dispatch (a : Activation) (index : Cell) (params : List Cell) (chain : Chain)
    (hchain : Chain.ExistsIn chain w) (hvm : a.vm < w.machines.length) :
    Balanced (dispatch run a index params chain) w := by
  induction chain generalizing w with
  | nil => exact balanced_throw _
  | cons link chain ih =>
      have hrest : ∀ w', Moves w w' → Balanced (dispatch run a index params chain) w' :=
        fun w' h => ih (hchain.tail.mono h.keepsInstances) (h.machines_length.symm ▸ hvm)
      cases link with
      | base => exact balanced_baseNative hrun a index params
      | layer number mode => exact balanced_layer hrest
      | interceptor d id =>
          exact balanced_interceptNative (hchain d id List.mem_cons_self) hvm (balanced_rest hrest)

theorem balanced_exec (a : Activation) (index : Cell) (chain : Chain)
    (hchain : Chain.ExistsIn chain w) (hvm : a.vm < w.machines.length) :
    Balanced (exec run a index chain) w := by
  induction chain generalizing w with
  | nil => exact balanced_throw _
  | cons link chain ih =>
      have hrest : ∀ w', Moves w w' → Balanced (exec run a index chain) w' :=
        fun w' h => ih (hchain.tail.mono h.keepsInstances) (h.machines_length.symm ▸ hvm)
      cases link with
      | base => exact balanced_baseExec hrun a index
      | layer number mode => exact balanced_layer hrest
      | interceptor d id =>
          exact balanced_interceptExec (hchain d id List.mem_cons_self) hvm (balanced_rest hrest)

theorem balanced_callNative (a : Activation) (index : Cell) (params : List Cell) :
    Balanced (callNative run a index params) w :=
  .of_valid fun hv => .machine_bind fun m hm =>
    balanced_dispatch hrun a index params _ (hv.slots m (List.mem_of_getElem? hm)).dispatcher
      (List.getElem?_eq_some_iff.mp hm).1

theorem balanced_callPublic (a : Activation) (index : Cell) :
    Balanced (callPublic run a index) w :=
  .of_valid fun hv => .machine_bind fun m hm =>
    balanced_exec hrun a index _ (hv.slots m (List.mem_of_getElem? hm)).exec
      (List.getElem?_eq_some_iff.mp hm).1

/-! ## Bodies -/

theorem balanced_stmt (a : Activation) (s : Stmt) : Balanced (stmt run a s) w := by
  cases s with
  | setCip cip => exact (balanced_moveTo a.vm cip).then_next
  | setRegisters frm cip stk hea => exact (balanced_modifyRegisters a.vm _).then_next
  | noteRegisters => exact .machine_bind fun m _ => (balanced_note _).then_next
  | emit payload => exact (balanced_note _).then_next
  | write address value => exact (balanced_store a.vm address value).then_note _
  | writeFrame offset value =>
      exact .machine_bind fun m _ => (balanced_store a.vm _ value).then_note _
  | read address => exact .machine_bind fun m _ => (balanced_note _).then_next
  | call address body => exact (balanced_callFunction a.vm address (hrun a body)).then_value
  | recurse address cip depth body =>
      exact (balanced_recurse a.vm address cip (hrun a body) depth).then_value
  | native index params => exact (balanced_callNative hrun a index params).then_value
  | exec index => exact (balanced_callPublic hrun a index).then_value
  | execOn vm index =>
      rw [stmt]
      split
      · exact (balanced_note _).bind fun _ _ _ _ => balanced_throw _
      · exact (balanced_callPublic hrun _ index).then_value
  | step => exact (balanced_step a).then_next
  | attempt body => exact (hrun a body w).attempt.then_note _
  | times count body => exact (balanced_times (hrun a body) count 0).then_value
  | fail e => exact balanced_throw _
  | finish value => exact balanced_pure _
  | finishWithSum => exact balanced_pure _
  | panic => exact balanced_throw _
  | crash d vms => exact (balanced_crash d _).then_note _
  | runtimeError d index e => exact (balanced_runtimeError d a.vm index e).then_note _
  | interrupt d => exact (balanced_requestInterrupt d).then_next
  | trace d => exact (balanced_trace d a.vm).then_note _
  | probe d => exact (balanced_probe d a.vm).then_note _
  | attach d => exact (balanced_attach d a.vm).then_note _
  | detach d => exact (balanced_detach d a.vm).then_note _

theorem balanced_stmts (a : Activation) (last : Cell) (body : List Stmt) :
    Balanced (stmts run a last body) w := by
  induction body generalizing w last with
  | nil => exact balanced_pure _
  | cons s rest ih =>
      refine (balanced_stmt hrun a s).bind fun flow w' _ _ => ?_
      cases flow with
      | next value => exact ih _
      | finish value => exact balanced_pure _

end

/-- Whatever a body does is a run, and all calls that it makes are over when it ends. -/
theorem balanced_runWith (fuel : Nat) (a : Activation) (body : Body) (w : World) :
    Balanced (Run.runWith fuel a body) w := by
  induction fuel generalizing a body w with
  | zero => exact balanced_throw _
  | succ fuel ih => exact balanced_stmts ih a 0 body

/-! ## Sessions -/

theorem balanced_setSlot {vm : Nat} {slot : SlotName} {f : Chain → Chain}
    (hf : ∀ chain, Chain.ExistsIn chain w → Chain.ExistsIn (f chain) w) :
    Balanced (Session.setSlot vm slot f) w := by
  refine .machine_bind fun m _ => .of_ok (modify_apply _ w) fun hv => ?_
  refine .modifyMachine hv vm fun m hm => ?_
  have hs := hv.slots m (List.mem_of_getElem? hm)
  cases slot with
  | hook => exact ⟨hf _ hs.hook, hs.dispatcher, hs.exec⟩
  | dispatcher => exact ⟨hs.hook, hf _ hs.dispatcher, hs.exec⟩
  | exec => exact ⟨hs.hook, hs.dispatcher, hf _ hs.exec⟩

theorem balanced_addLayer (vm : Nat) (slot : SlotName) (mode : LayerMode) :
    Balanced (Session.addLayer vm slot mode) w := by
  refine .bind_of_ok (get_apply w) (fun _ => .refl w) fun _ => ?_
  have hlayer : ∀ chain, Chain.ExistsIn chain w →
      Chain.ExistsIn (.layer w.layers mode :: chain) w := by
    intro chain h d id hmem
    rcases List.mem_cons.mp hmem with heq | hmem
    · cases heq
    · exact h d id hmem
  refine (balanced_setSlot hlayer).bind fun _ w₁ _ _ => .of_ok (modify_apply _ w₁) fun hv => ?_
  exact .quiet [] rfl rfl hv.slots rfl fun _ h => (by cases h)

theorem balanced_sessionStep {run : Runner} (hrun : ∀ a body w, Balanced (run a body) w)
    (s : Step) : Balanced (Session.step run s) w := by
  cases s with
  | attach d vm => exact (balanced_attach d vm).map _
  | detach d vm => exact (balanced_detach d vm).map _
  | exec vm index => exact (balanced_callPublic hrun _ index).attempt.map _
  | native vm index params => exact (balanced_callNative hrun _ index params).attempt.map _
  | run vm body => exact (hrun _ body w).attempt.map _
  | completeInstruction vm =>
      exact ((balanced_step _).seqRight fun _ _ _ _ => balanced_pure _).attempt.map _
  | crash d vms => exact (balanced_crash d vms).map _
  | runtimeError d vm index e => exact (balanced_runtimeError d vm index e).map _
  | interrupt d => exact (balanced_requestInterrupt d).seqRight fun _ _ _ _ => balanced_pure _
  | trace d vm => exact (balanced_trace d vm).map _
  | chain vm slot mode =>
      exact (balanced_addLayer vm slot mode).seqRight fun _ _ _ _ => balanced_pure _
  | clear vm slot =>
      have hempty : ∀ chain, Chain.ExistsIn chain w → Chain.ExistsIn [] w :=
        fun _ _ _ _ h => (by cases h)
      exact (balanced_setSlot hempty).seqRight fun _ _ _ _ => balanced_pure _
  | inspect d vm => exact .machine_bind fun m _ => .detector_bind fun det _ => balanced_pure _
  | describe d vm => exact .machine_bind fun m _ => .detector_bind fun det _ => balanced_pure _

theorem Session.perform_snd (fuel : Nat) (s : Step) (w : World) :
    (perform fuel s w).2 = (step (Run.runWith fuel) s).after w := by
  rw [perform, after]
  cases step (Run.runWith fuel) s w with
  | ok answer w' => rfl
  | error stop w' => cases stop <;> rfl

theorem balancedDeeds_perform (fuel : Nat) (s : Step) (hv : w.Valid) :
    BalancedDeeds w (Session.perform fuel s w).2 := by
  rw [Session.perform_snd]
  exact balanced_sessionStep (balanced_runWith fuel) s hv

/-- A session is a run, and when it is over the calls in flight are those from before. -/
theorem balancedDeeds_performAll (fuel : Nat) (steps : List Step) (hv : w.Valid) :
    BalancedDeeds w (Session.performAll fuel steps w).2 := by
  induction steps generalizing w with
  | nil => exact .refl w
  | cons s steps ih =>
      have h := balancedDeeds_perform fuel s hv
      exact h.trans (ih (h.moves.valid hv))

end ScriptDiag
