import ScriptDiag.Proofs.CutRuns
import ScriptDiag.Proofs.FramedActs

/-!
# Frames stay linked

Whatever tidy bodies do, they respect the machine that they run on, and all others
(`respects_cutWith`, by induction on the depth to which bodies are nested). A function that is
called gets a frame linked to the innermost one before it, and when it returns the machine is where
it was called, since the frame was sheltered meanwhile; one that fails leaves its frame, linked as
it is, and the machine in it (`framed_spec`).

Runs are cut short here, so that all this holds at every moment of a run.
-/

namespace ScriptDiag

/-! ## Functions in frames of their own -/

namespace Run

open Act

variable {α : Type} {vm : Nat} {m : Machine} {w : World}

theorem respects_moveTo (vm' : Nat) (cip : UCell) : Respects vm (moveTo vm' cip) w := by
  have hmove : Respects vm
      (onMachine vm' (MachineM.modifyRegisters fun regs => { regs with cip })) w := by
    by_cases hvm : vm' = vm
    · subst hvm
      refine respects_of_keeps fun ⟨m, hm, _⟩ => ?_
      rw [after_of_ok (onMachine_of_ok hm (MachineM.modifyRegisters_apply _ m))]
      exact World.keepsFrames_of_shelters hm (World.machine_modifyMachine hm _)
        (Machine.shelters_withRegisters rfl rfl) rfl (.of_eq rfl)
    · exact respects_of_still (still_onMachine hvm _)
  exact hmove.then_still fun _ => still_record rfl

/-- Do `body` in a frame of its own, which `finish` gives up if it succeeds. -/
def framed (vm : Nat) (address returnAddress : UCell) (entry : Bool) (body : Act α)
    (finish : UCell → MachineM Unit) : Act α := do
  let frm ← enterFunction vm address returnAddress entry
  let value ← body
  onMachine vm (finish frm)
  record (.returned vm)
  return value

theorem callFunction_eq (vm : Nat) (address : UCell) (body : Act Cell) :
    callFunction vm address body = machine vm >>= fun m =>
      framed vm address m.registers.cip false body MachineM.leaveFrame := rfl

/-- Giving up the frame made in `m` puts the registers of `m` back. -/
def GivesBack (m : Machine) (address returnAddress : UCell) (finish : UCell → MachineM Unit) :
    Prop :=
  ∀ m₁ m₂, m.Enters address returnAddress m₁ → m.Shelters m₁ → m₁.Shelters m₂ →
    finish m₁.registers.frm m₂ = .ok () (m₂.withRegisters m.registers)

theorem givesBack_leaveFrame (m : Machine) (address : UCell) :
    GivesBack m address m.registers.cip MachineM.leaveFrame :=
  fun _ _ h₁ hs₁ h₂ => Machine.leaveFrame_of_shelters h₁ hs₁.hea h₂

theorem givesBack_registers (m : Machine) (address returnAddress : UCell) :
    GivesBack m address returnAddress fun _ => MachineM.modifyRegisters fun _ => m.registers :=
  fun _ _ _ _ _ => rfl

theorem enterFunction_cases {entry : Bool} {returnAddress : UCell}
    (hm : w.machines[vm]? = some m) (hs : m.HasStack) (address : UCell)
    (hentry : entry = true → returnAddress = 0) :
    (∃ m₁ w₁, enterFunction vm address returnAddress entry w = .ok m₁.registers.frm w₁ ∧
      w.MakesFrame vm ⟨m₁.registers.frm, entry⟩ w₁ ∧ w₁.machines[vm]? = some m₁ ∧
      m.Shelters m₁ ∧ m.Enters address returnAddress m₁) ∨
    ∃ s w₁, enterFunction vm address returnAddress entry w = .error s w₁ ∧
      w.KeepsFrames vm w₁ := by
  rw [enterFunction]
  rcases Machine.shelters_enterFrame address returnAddress hs with
    ⟨m₁, hok, hs₁, he⟩ | ⟨e, m₁, herror, hs₁, hfrm⟩
  · have hm₁ := World.machine_modifyMachine hm m₁
    refine .inl ⟨m₁, (w.modifyMachine vm fun _ => m₁).record
      (.called vm m₁.registers.frm address entry), ?_,
      World.makesFrame_of_enters hm hm₁ hs₁ he hentry rfl, hm₁, hs₁, he⟩
    rw [bind_of_ok (onMachine_of_ok hm hok), bind_of_ok (machine_of_some hm₁)]
    rfl
  · exact .inr ⟨.error e, _, bind_of_error (onMachine_of_error hm herror),
      World.keepsFrames_of_shelters hm (World.machine_modifyMachine hm m₁) hs₁ hfrm (.of_eq rfl)⟩

/-- The frame is not made, or the body fails and leaves it, or the body succeeds and the frame is
given up; then the registers are those from before. -/
theorem framed_spec {address returnAddress : UCell} {entry : Bool} {body : Act α}
    {finish : UCell → MachineM Unit} (hm : w.machines[vm]? = some m) (ht : m.IsTidy)
    (hbody : ∀ w, Respects vm body w) (hfinish : GivesBack m address returnAddress finish)
    (hentry : entry = true → returnAddress = 0) :
    w.Respects vm (framed vm address returnAddress entry body finish w) ∧
      ∀ a w', framed vm address returnAddress entry body finish w = .ok a w' →
        ∃ m', w'.machines[vm]? = some m' ∧ m'.registers = m.registers := by
  rcases enterFunction_cases hm ht.stack address hentry with
    ⟨m₁, w₁, hok, hmakes, hm₁, hs₁, he⟩ | ⟨s, w₁, herror, hkeeps⟩
  · have h := hbody w₁ ⟨m₁, hm₁, hs₁.isTidy ht⟩
    rw [framed, bind_of_ok hok]
    cases hr : body w₁ with
    | error s w₂ =>
        rw [hr] at h
        rw [bind_of_error hr]
        exact ⟨hmakes.then_leaves h, nofun⟩
    | ok a w₂ =>
        rw [hr] at h
        obtain ⟨m₂, hm₂, hs₂⟩ := h.shelters.machine hm₁
        have hm₃ := World.machine_modifyMachine hm₂ (m₂.withRegisters m.registers)
        rw [bind_of_ok hr, bind_of_ok (onMachine_of_ok hm₂ (hfinish m₁ m₂ he hs₁ hs₂))]
        refine ⟨hmakes.then_returns h hm hm₂ hm₃ rfl, fun b w' heq => ?_⟩
        cases heq
        exact ⟨_, hm₃, rfl⟩
  · rw [framed, bind_of_error herror]
    exact ⟨hkeeps.leaves, nofun⟩

/-- Of a function on another machine, only what runs in its frame matters. -/
theorem respects_framed_other {vm' : Nat} (hne : vm' ≠ vm) {address returnAddress : UCell}
    {entry : Bool} {body : Act α} {finish : UCell → MachineM Unit}
    (hbody : ∀ w, Respects vm body w) :
    Respects vm (framed vm' address returnAddress entry body finish) w := by
  have hcalled : ∀ frm, (Event.called vm' frm address entry).isFraming vm = false :=
    fun _ => beq_false_of_ne hne
  have hreturned : (Event.returned vm').isFraming vm = false := beq_false_of_ne hne
  have henter : Still vm (enterFunction vm' address returnAddress entry) :=
    (still_onMachine hne _).bind fun _ => (still_machine vm').bind fun m =>
      (still_record (hcalled _)).then_pure
  exact henter.then_respects fun frm w => (hbody w).then_still fun value =>
    (still_onMachine hne _).bind fun _ => (still_record hreturned).then_pure

theorem respects_framed {vm' : Nat} {address returnAddress : UCell} {entry : Bool} {body : Act α}
    {finish : UCell → MachineM Unit} (hm : w.machines[vm']? = some m)
    (hbody : ∀ w, Respects vm body w) (hfinish : GivesBack m address returnAddress finish)
    (hentry : entry = true → returnAddress = 0) :
    Respects vm (framed vm' address returnAddress entry body finish) w := by
  by_cases hvm : vm' = vm
  · subst hvm
    rintro ⟨m', hm', ht⟩
    cases Option.some.inj (hm.symm.trans hm')
    exact (framed_spec hm ht hbody hfinish hentry).1
  · exact respects_framed_other hvm hbody

theorem restores_framed {address returnAddress : UCell} {entry : Bool} {body : Act α}
    {finish : UCell → MachineM Unit} (hm : w.machines[vm]? = some m)
    (hbody : ∀ w, Respects vm body w) (hfinish : GivesBack m address returnAddress finish)
    (hentry : entry = true → returnAddress = 0) :
    Restores vm (framed vm address returnAddress entry body finish) w := by
  intro m' hm' ht
  cases Option.some.inj (hm.symm.trans hm')
  exact (framed_spec hm ht hbody hfinish hentry).2

theorem respects_callFunction (vm' : Nat) (address : UCell) {body : Act Cell}
    (hbody : ∀ w, Respects vm body w) : Respects vm (callFunction vm' address body) w := by
  rw [callFunction_eq]
  exact respects_machine_bind fun m hm _ =>
    respects_framed hm hbody (givesBack_leaveFrame m address) nofun

/-- A function that returns leaves the machine where it was called. -/
theorem restores_callFunction (address : UCell) {body : Act Cell}
    (hbody : ∀ w, Respects vm body w) : Restores vm (callFunction vm address body) w := by
  rw [callFunction_eq]
  exact restores_machine_bind fun m hm _ =>
    restores_framed hm hbody (givesBack_leaveFrame m address) nofun

/-! ## Bodies within bodies -/

theorem respects_times {body : Act Cell} (hbody : ∀ w, Respects vm body w) (count : Nat)
    (last : Cell) : Respects vm (times body count last) w := by
  induction count generalizing w last with
  | zero => exact respects_of_still (still_pure _)
  | succ count ih => exact (hbody w).bind fun value _ => ih value

theorem still_cutHere (stop : World → Bool) : Still vm (cutHere stop) := by
  refine still_of_eq fun w => ?_
  rw [cutHere, after_bind_of_ok (get_apply w)]
  split <;> rfl

theorem respects_cutRecurse (stop : World → Bool) (vm' : Nat) (address cip : UCell)
    {body : Act Cell} (hbody : ∀ w, Respects vm body w) (depth : Nat) :
    Respects vm (cutRecurse stop vm' address cip body depth) w := by
  induction depth generalizing w with
  | zero => exact hbody w
  | succ depth ih =>
      have hcut : Still vm (cutHere stop) := still_cutHere stop
      refine respects_callFunction vm' address fun w => hcut.then_respects fun _ w => ?_
      refine (respects_moveTo vm' cip).bind fun _ w => hcut.then_respects fun _ w => ?_
      exact ih.then_still fun value => hcut.then_pure

/-- That an error was caught is told by the note written about it. -/
theorem respects_attempt_note {x : Act Cell} (hx : Respects vm x w) :
    Respects vm (attempt x >>= fun result =>
      note (.attempted result) >>= fun _ => pure (Flow.next none)) w := by
  have hnote : ∀ result, Still vm (note (.attempted result) >>= fun _ => pure (Flow.next none)) :=
    fun _ => (still_record rfl).then_pure
  exact hx.attempt_bind (fun a _ => respects_of_still (hnote (.ok a)))
    (fun e => hnote (.error e)) fun e w => .inr ⟨[.note (.attempted (.error e))], rfl, rfl⟩

/-! ## Chains -/

section

variable {run : Runner} {a : Activation}
  (hrun : ∀ a body w, (a.vm = vm → Body.isTidy body = true) → Respects vm (run a body) w)

include hrun

theorem respects_baseNative (index : Cell) (params : List Cell) :
    Respects vm (baseNative run a index params) w := by
  refine (still_record rfl).then_respects fun _ w => respects_machine_bind fun m _ htidy => ?_
  split
  next body hbody =>
    exact hrun _ body w fun hvm => Machine.allBodies_native (htidy hvm).bodies hbody
  next => exact respects_of_still (still_throw _)

theorem respects_baseExec (index : Cell) : Respects vm (baseExec run a index) w := by
  refine (still_record rfl).then_respects fun _ w => respects_machine_bind fun m hm htidy => ?_
  split
  next => exact respects_of_still (still_throw _)
  next address body hentry =>
    have hbody : ∀ w, Respects vm (run (a.withParams []) body) w := fun w =>
      hrun _ body w fun hvm => Machine.allBodies_public (htidy hvm).bodies hentry
    exact respects_framed hm hbody (givesBack_registers m address 0) fun _ => rfl

theorem respects_dispatch (index : Cell) (params : List Cell) (chain : Chain) :
    Respects vm (dispatch run a index params chain) w := by
  induction chain generalizing w with
  | nil => exact respects_of_still (still_throw _)
  | cons link chain ih =>
      cases link with
      | base => exact respects_baseNative hrun index params
      | layer number mode => exact respects_layer fun w => ih
      | interceptor d id =>
          exact respects_interceptNative fun x hx w => eq_of_rest_eq_some hx ▸ ih

theorem respects_exec (index : Cell) (chain : Chain) :
    Respects vm (exec run a index chain) w := by
  induction chain generalizing w with
  | nil => exact respects_of_still (still_throw _)
  | cons link chain ih =>
      cases link with
      | base => exact respects_baseExec hrun index
      | layer number mode => exact respects_layer fun w => ih
      | interceptor d id =>
          refine respects_interceptExec fun w => ?_
          rw [getD_rest_exec]
          exact ih

theorem respects_callPublic (index : Cell) : Respects vm (callPublic run a index) w :=
  respects_machine_bind fun m _ _ => respects_exec hrun index m.slots.exec

theorem restores_baseExec (hvm : a.vm = vm) (index : Cell) :
    Restores vm (baseExec run a index) w := by
  subst hvm
  refine (still_record rfl).then_restores fun _ w => restores_machine_bind fun m hm htidy => ?_
  split
  next => exact restores_throw _
  next address body hentry =>
    exact restores_framed hm
      (fun w => hrun _ body w fun _ => Machine.allBodies_public htidy.bodies hentry)
      (givesBack_registers m address 0) fun _ => rfl

theorem restores_exec (hvm : a.vm = vm) (index : Cell) (chain : Chain) :
    Restores vm (exec run a index chain) w := by
  induction chain generalizing w with
  | nil => exact restores_throw _
  | cons link chain ih =>
      cases link with
      | base => exact restores_baseExec hrun hvm index
      | layer number mode => exact restores_layer fun w => ih
      | interceptor d id =>
          refine restores_interceptExec fun w => ?_
          rw [getD_rest_exec]
          exact ih

/-- A public that succeeds leaves the registers as they were, through whatever chain it is called.
-/
theorem restores_callPublic (hvm : a.vm = vm) (index : Cell) :
    Restores vm (callPublic run a index) w := by
  subst hvm
  exact restores_machine_bind fun m _ _ => restores_exec hrun rfl index m.slots.exec

/-! ## Bodies -/

variable (stop : World → Bool)

theorem respects_cutStmt {s : Stmt} (hs : a.vm = vm → s.all Stmt.isTidy = true) :
    Respects vm (cutStmt stop run a s) w := by
  cases hstill : s.isStill with
  | true =>
      have hstmt : Still vm (stmt run a s) := still_stmt hstill
      cases s with
      | recurse address cip depth body => cases hstill
      | _ => exact respects_of_still hstmt
  | false =>
      cases s with
      | setCip cip => exact (respects_moveTo a.vm cip).then_still fun _ => still_pure _
      | setRegisters frm cip stk hea =>
          have hvm : a.vm ≠ vm := fun hvm => Bool.false_ne_true (hs hvm)
          exact respects_of_still (still_onMachine hvm _).then_pure
      | write address value =>
          have hvm : a.vm ≠ vm := fun hvm => Bool.false_ne_true (hs hvm)
          exact respects_of_still (still_onMachine hvm _).then_note
      | writeFrame offset value =>
          have hvm : a.vm ≠ vm := fun hvm => Bool.false_ne_true (hs hvm)
          exact respects_of_still ((still_machine a.vm).bind fun m =>
            (still_onMachine hvm _).then_note)
      | call address body =>
          exact (respects_callFunction a.vm address fun w => hrun a body w hs).then_still
            fun _ => still_pure _
      | recurse address cip depth body =>
          exact (respects_cutRecurse stop a.vm address cip (fun w => hrun a body w hs)
            depth).then_still fun _ => still_pure _
      | native index params =>
          refine Respects.then_still ?_ fun _ => still_pure _
          exact respects_machine_bind fun m _ _ => respects_dispatch hrun index params _
      | exec index => exact (respects_callPublic hrun index).then_still fun _ => still_pure _
      | execOn vm' index =>
          show Respects vm (stmt run a (.execOn vm' index)) w
          rw [stmt]
          split
          · exact respects_of_still ((still_record rfl).bind fun _ => still_throw _)
          · exact (respects_callPublic hrun index).then_still fun _ => still_pure _
      | attempt body => exact respects_attempt_note (hrun a body w hs)
      | times count body =>
          exact (respects_times (fun w => hrun a body w hs) count 0).then_still
            fun _ => still_pure _
      | _ => cases hstill

theorem respects_cutStmts {body : List Stmt} (hbody : a.vm = vm → Body.isTidy body = true)
    (last : Cell) : Respects vm (cutStmts stop run a last body) w := by
  induction body generalizing w last with
  | nil => exact respects_of_still (still_cutHere stop).then_pure
  | cons s rest ih =>
      have hsplit : a.vm = vm → s.all Stmt.isTidy = true ∧ Body.isTidy rest = true :=
        fun hvm => Body.all_cons.mp (hbody hvm)
      refine (still_cutHere stop).then_respects fun _ w => ?_
      refine (respects_cutStmt hrun stop fun hvm => (hsplit hvm).1).bind fun flow w => ?_
      cases flow with
      | next value => exact ih (fun hvm => (hsplit hvm).2) _
      | finish value => exact respects_of_still (still_pure _)

end

/-- Whatever a tidy body does up to any moment, it respects every machine, and so does any body the
machines that it does not run on. -/
theorem respects_cutWith (stop : World → Bool) (fuel : Nat) (a : Activation) (body : Body)
    (w : World) (hbody : a.vm = vm → Body.isTidy body = true) :
    Respects vm (cutWith stop fuel a body) w := by
  induction fuel generalizing a body w with
  | zero => exact respects_of_still (still_throw _)
  | succ fuel ih => exact respects_cutStmts ih stop hbody 0

end Run

/-! ## Frames at every moment -/

open Act Run

/-- **The frames stay linked.** Take a tidy machine, and any run of bodies on it and on others, of
which those on it are tidy. At every moment of the run the cells from where the machine's stack
pointer was at first are as they were then, and the stack has not met the heap. Unless a body has
caught an error, or a frame lies at address zero, following the callers from the frame register on
visits the frames of the innermost public that has any: each of them once, upwards, as far as the
one that the host entered; and this is so also after an error, which leaves the frames where they
are. Functions called and publics that succeed leave all registers as they were.

The machine is tidy again at every moment, so all this holds of the calls made on the way too. -/
theorem frames_stay_linked {w : World} {vm : Nat} {m : Machine} (hm : w.machines[vm]? = some m)
    (ht : m.IsTidy) (a : Activation) (body : Body) (hbody : a.vm = vm → Body.isTidy body = true)
    (stop : World → Bool) (fuel : Nat) :
    (∃ m' es, ((cutWith stop fuel a body).after w).machines[vm]? = some m' ∧
      ((cutWith stop fuel a body).after w).journal = es ++ w.journal ∧ m'.IsTidy ∧
      m'.registers.hea ≤ m'.registers.stk ∧
      (∀ address, m.registers.stk ≤ address →
        m'.memory.read? address = m.memory.read? address) ∧
      (es.any Event.isCatch = false → ∀ ps, publicFrames? (liveFrames vm es) = some ps →
        (∀ f ∈ ps, f.frm ≠ 0) → m'.view.Visits ps)) ∧
    (a.vm = vm → ∀ address value w',
      callFunction vm address (cutWith stop fuel a body) w = .ok value w' →
        ∃ m', w'.machines[vm]? = some m' ∧ m'.registers = m.registers) ∧
    (a.vm = vm → ∀ index value w', callPublic (cutWith stop fuel) a index w = .ok value w' →
      ∃ m', w'.machines[vm]? = some m' ∧ m'.registers = m.registers) := by
  have hrun : ∀ a body w, (a.vm = vm → Body.isTidy body = true) →
      Respects vm (cutWith stop fuel a body) w := respects_cutWith stop fuel
  refine ⟨?_, fun hvm address value w' hok => ?_, fun hvm index value w' hok => ?_⟩
  · have h := (hrun a body w hbody).leaves ⟨m, hm, ht⟩
    obtain ⟨m', hm', hs⟩ := h.shelters.machine hm
    obtain ⟨es, hes⟩ := h.shelters.journal
    refine ⟨m', es, hm', hes.symm, hs.isTidy ht, hs.room ht.stack.hea, hs.above, ?_⟩
    intro hcatch ps hps hne
    obtain ⟨fs, hholds⟩ := h.holds (.inl ⟨m, Outset.on_now hm ht⟩)
    exact hholds.visits hm' hes.symm hcatch hps hne
  · exact restores_callFunction address (fun w => hrun a body w hbody) m hm ht value w' hok
  · exact restores_callPublic hrun hvm index m hm ht value w' hok

/-- A host whose public calls a function that calls a native, and this a public whose function
fails. -/
def nestingHost : World where
  machines := [{ Machine.ofSize ⟨1⟩ 64 with
    natives := [{ name := "callback", function := some { address := 0x1000, body := [.exec 1] } }]
    publics := [
      { name := "Main", address := 64, body := [.call 80 [.setCip 84, .native 0 []]] },
      { name := "Inner", address := 96, body := [.call 128 [.setCip 136, .fail .bounds]] }] }]

/-- The frames of the inner public are visited after its function has failed; and where the function
of the outer one does nothing but move the code pointer, it returns, and the registers are as
before. -/
theorem nestingHost_frames :
    let w := nestingHost
    let w' := (cutWith (fun _ => false) 8 { vm := 0 } [.exec 0]).after w
    ∃ m, w.machines[0]? = some m ∧ m.IsTidy ∧ Body.isTidy [.exec 0] = true ∧
      Body.isTidy [.setCip 84] = true ∧
      (∃ m', w'.machines[0]? = some m' ∧ w'.journal.any Event.isCatch = false ∧
        publicFrames? (liveFrames 0 w'.journal) = some [⟨16, false⟩, ⟨28, true⟩] ∧
        m'.view.Visits [⟨16, false⟩, ⟨28, true⟩]) ∧
      ∃ value w₁ m₁, callFunction 0 80 (cutWith (fun _ => false) 8 { vm := 0 } [.setCip 84]) w =
        .ok value w₁ ∧ w₁.machines[0]? = some m₁ ∧ m₁.registers = m.registers := by
  intro w w'
  have hstack := Machine.hasStack_ofSize ⟨1⟩ 64
  obtain ⟨m, hm⟩ : ∃ m, w.machines[0]? = some m := ⟨_, rfl⟩
  have ht : m.IsTidy := by
    cases hm
    exact ⟨⟨hstack.stk, hstack.hea⟩, rfl⟩
  have hcatch : w'.journal.any Event.isCatch = false := by decide +kernel
  have hps : publicFrames? (liveFrames 0 w'.journal) = some [⟨16, false⟩, ⟨28, true⟩] := by
    decide +kernel
  refine ⟨_, hm, ht, rfl, rfl, ?_, ?_⟩
  · obtain ⟨⟨m', es, hm', hes, -, -, -, hvisits⟩, -, -⟩ :=
      frames_stay_linked hm ht { vm := 0 } [.exec 0] (fun _ => rfl) (fun _ => false) 8
    rw [show w'.journal = es from hes.trans (List.append_nil es)] at hcatch hps ⊢
    exact ⟨m', hm', hcatch, hps, hvisits hcatch _ hps (by decide)⟩
  · cases hok : callFunction 0 80 (cutWith (fun _ => false) 8 { vm := 0 } [.setCip 84]) w with
    | ok value w₁ =>
        obtain ⟨-, hcall, -⟩ :=
          frames_stay_linked hm ht { vm := 0 } [.setCip 84] (fun _ => rfl) (fun _ => false) 8
        obtain ⟨m₁, hm₁, hregisters⟩ := hcall rfl 80 value w₁ hok
        exact ⟨value, w₁, m₁, rfl, hm₁, hregisters⟩
    | error s w₁ =>
        have hreturns : (match callFunction 0 80
            (cutWith (fun _ => false) 8 { vm := 0 } [.setCip 84]) w with
          | .ok _ _ => true
          | .error _ _ => false) = true := by decide +kernel
        rw [hok] at hreturns
        cases hreturns

end ScriptDiag
