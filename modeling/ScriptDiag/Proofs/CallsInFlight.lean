import ScriptDiag.Proofs.Tracking

/-!
# The stacks list the calls in flight

Which calls are in flight at a moment of a run is a matter of how the run got there: of the
interceptors in the chains through which the bodies that run were called. A looking run
(`Run.lookWith`) keeps that list while it descends, one `PendingCall` for each interceptor passed
on the way with the registers at the call, and shows it before each statement and at the end of each
body. Neither the journal nor the stacks have a part in it.

`lookWith_eq` says that the stacks list these calls and no others wherever a look is taken: whatever
a look does where they do not, it never comes to that. The induction is on the depth of the bodies,
and on the chains inside; what it carries is `World.InFlight`, that the calls in flight by the
journal are those the run passed through. `tracking_mirrors_calls` puts it together with what is
true of the stacks at every moment (`World.MirrorsCalls`), and with what an interceptor does.
-/

namespace ScriptDiag

open Act

variable {α β : Type} {w w' w₀ w₁ : World} {d id : Nat} {calls : List PendingCall}

/-! ## Calls passed on the way -/

/-- A call through an interceptor of an instance, with the registers that it was made with. -/
structure PendingCall where
  detector : Nat
  instanceId : Nat
  kind : CallKind
  index : Cell
  frm : UCell
  cip : UCell
deriving DecidableEq, Repr, Inhabited

/-- Whether the call is one of an instance. -/
def PendingCall.isOn (d id : Nat) (c : PendingCall) : Bool :=
  c.instanceId == id && c.detector == d

/-- What a record on the stack of an instance tells of a call. -/
def CallRecord.pending (d id : Nat) (call : CallRecord) : PendingCall where
  detector := d
  instanceId := id
  kind := call.kind
  index := call.index
  frm := call.frm
  cip := call.cip

def OpenCall.pending (o : OpenCall) : PendingCall :=
  o.call.pending o.detector o.instanceId

/-- The stacks list these calls, each the ones of its instance, and no others. -/
def World.ListsCalls (calls : List PendingCall) (w : World) : Prop :=
  ∀ d id stack, w.calls? d id = some stack →
    stack.map (CallRecord.pending d id) = calls.filter (PendingCall.isOn d id)

/-- The slot in which calls of a kind begin. -/
def CallKind.slot : CallKind → SlotName
  | .toNative => .dispatcher
  | .toPublic => .exec

/-- The calls that are in flight where a chain ends, innermost first: one for each interceptor in
front of the machine's own handler. -/
def Chain.newCalls (kind : CallKind) (index : Cell) (regs : Registers) : Chain → List PendingCall
  | [] => []
  | .base :: _ => []
  | .layer _ _ :: chain => Chain.newCalls kind index regs chain
  | .interceptor d id :: chain =>
    Chain.newCalls kind index regs chain ++ [⟨d, id, kind, index, regs.frm, regs.cip⟩]

/-- The calls that come with a call on a machine. -/
def World.newCalls (w : World) (vm : Nat) (kind : CallKind) (index : Cell) : List PendingCall :=
  (w.machines[vm]?.map fun m =>
    Chain.newCalls kind index m.registers (m.slots.get kind.slot)).getD []

/-- The calls that come with a statement, and are in flight in the body that it calls. -/
def Stmt.newCalls (a : Activation) (w : World) : Stmt → List PendingCall
  | .native index _ => w.newCalls a.vm .toNative index
  | .exec index => w.newCalls a.vm .toPublic index
  | .execOn vm index => w.newCalls vm .toPublic index
  | _ => []

/-- The calls that come with a step of a session. -/
def Step.newCalls (w : World) : Step → List PendingCall
  | .exec vm index => w.newCalls vm .toPublic index
  | .native vm index _ => w.newCalls vm .toNative index
  | _ => []

namespace Run

/-- As `stmts`, with a look before each statement and at the end. A look is given the calls passed
on the way here; a body that a statement calls is run with the statement's own on top of them. -/
def lookStmts (look : List PendingCall → Act Unit) (run : List PendingCall → Runner)
    (calls : List PendingCall) (a : Activation) (last : Cell) : List Stmt → Act Cell
  | [] => do
    look calls
    return last
  | s :: rest => do
    look calls
    let here ← get
    match ← stmt (run (s.newCalls a here ++ calls)) a s with
    | .next value => lookStmts look run calls a (value.getD last) rest
    | .finish value => return value

/-- Run a body as `runWith` does, and look at the calls passed on the way. -/
def lookWith (look : List PendingCall → Act Unit) : (fuel : Nat) → List PendingCall → Runner
  | 0, _ => fun _ _ => throw .outOfFuel
  | fuel + 1, calls => fun a body => lookStmts look (lookWith look fuel) calls a 0 body

end Run

/-! ## What is carried along -/

theorem callsOf_pending (d id : Nat) (os : List OpenCall) :
    (callsOf d id os).map (CallRecord.pending d id) =
      (os.map OpenCall.pending).filter (PendingCall.isOn d id) := by
  induction os with
  | nil => rfl
  | cons o os ih =>
      obtain ⟨d', id', call⟩ := o
      by_cases ho : id' = id ∧ d' = d
      · obtain ⟨rfl, rfl⟩ := ho
        rw [callsOf_cons_self, List.map_cons, List.map_cons, List.filter_cons_of_pos, ih]
        · rfl
        · simp [OpenCall.pending, CallRecord.pending, PendingCall.isOn]
      · rw [callsOf_cons_of_ne fun hd hid => ho ⟨hid, hd⟩, List.map_cons, List.filter_cons_of_neg,
          ih]
        simpa [OpenCall.pending, CallRecord.pending, PendingCall.isOn] using ho

/-- The calls passed on the way to this world are those in flight. -/
structure World.InFlight (calls : List PendingCall) (w : World) : Prop where
  valid : w.Valid
  tracked : w.Tracked
  open_eq : (openCalls w.journal).map OpenCall.pending = calls

theorem World.InFlight.listsCalls (h : w.InFlight calls) : w.ListsCalls calls := by
  intro d id stack hstack
  obtain ⟨i, hi, rfl⟩ := Option.map_eq_some_iff.mp hstack
  rw [h.tracked.mirrorsCalls.calls d id i hi, callsOf_pending, h.open_eq]

theorem World.InFlight.balanced (h : w.InFlight calls) (hb : BalancedDeeds w w') :
    w'.InFlight calls :=
  ⟨hb.moves.valid h.valid, hb.moves.tracked h.tracked, hb.open_eq ▸ h.open_eq⟩

theorem World.InFlight.admits {call : CallRecord} (h : w.InFlight calls)
    (hadmits : w.Admits d id call w₁) : w₁.InFlight (call.pending d id :: calls) := by
  refine ⟨hadmits.move.valid h.valid, hadmits.move.tracked h.tracked, ?_⟩
  rw [hadmits.open_eq, List.map_cons, h.open_eq]
  rfl

/-- Two acts that do the same wherever these calls are in flight. -/
def SameUnder (calls : List PendingCall) (x y : Act α) : Prop :=
  ∀ w, w.InFlight calls → x w = y w

section

variable {x y : Act α}

theorem SameUnder.refl (calls : List PendingCall) (x : Act α) : SameUnder calls x x :=
  fun _ _ => rfl

theorem SameUnder.bind {f g : α → Act β} (hxy : SameUnder calls x y) (hy : ∀ w, Balanced y w)
    (hfg : ∀ a, SameUnder calls (f a) (g a)) : SameUnder calls (x >>= f) (y >>= g) := by
  intro w h
  rw [bind_apply, bind_apply, hxy w h]
  cases hrun : y w with
  | ok a w' =>
      have hb := hy w h.valid
      rw [after_of_ok hrun] at hb
      exact hfg a w' (h.balanced hb)
  | error s w' => rfl

theorem SameUnder.then_bind {f : α → Act β} (hxy : SameUnder calls x y) :
    SameUnder calls (x >>= f) (y >>= f) :=
  fun w h => bind_congr_left (hxy w h) f

theorem SameUnder.bind_of {f g : α → Act β} {x : Act α} (hx : ∀ w, Balanced x w)
    (hfg : ∀ a, SameUnder calls (f a) (g a)) : SameUnder calls (x >>= f) (x >>= g) :=
  (SameUnder.refl calls x).bind hx hfg

theorem SameUnder.machine_bind {vm : Nat} {f g : Machine → Act β}
    (hfg : ∀ m, SameUnder calls (f m) (g m)) :
    SameUnder calls (machine vm >>= f) (machine vm >>= g) := by
  intro w h
  cases hm : w.machines[vm]? with
  | some m => rw [bind_of_ok (machine_of_some hm), bind_of_ok (machine_of_some hm), hfg m w h]
  | none => rw [bind_of_error (machine_of_none hm), bind_of_error (machine_of_none hm)]

theorem SameUnder.attempt (hxy : SameUnder calls x y) :
    SameUnder calls (attempt x) (attempt y) :=
  fun w h => attempt_congr (hxy w h)

end

/-! ## Calls -/

namespace Run

theorem same_callFunction (vm : Nat) (address : UCell) {x y : Act Cell}
    (h : SameUnder calls x y) :
    SameUnder calls (callFunction vm address x) (callFunction vm address y) :=
  .machine_bind fun _ => .bind_of (fun _ => balanced_enterFunction vm address _ false)
    fun _ => h.then_bind

theorem same_recurse (vm : Nat) (address cip : UCell) {x y : Act Cell} (h : SameUnder calls x y)
    (depth : Nat) :
    SameUnder calls (recurse vm address cip x depth) (recurse vm address cip y depth) := by
  induction depth with
  | zero => exact h
  | succ depth ih =>
      exact same_callFunction vm address (.bind_of (fun _ => balanced_moveTo vm cip) fun _ => ih)

theorem same_times {x y : Act Cell} (h : SameUnder calls x y) (hy : ∀ w, Balanced y w)
    (count : Nat) (last : Cell) : SameUnder calls (times x count last) (times y count last) := by
  induction count generalizing last with
  | zero => exact .refl _ _
  | succ count ih => exact h.bind hy fun value => ih value

/-- A layer makes a note, and forwards or does not. -/
theorem same_layer (number : Nat) (mode : LayerMode) (success : α) {x y : Act α}
    (h : x (w.record (.layer number)) = y (w.record (.layer number))) :
    layer number mode success x w = layer number mode success y w := by
  cases mode with
  | forward => exact h
  | drop | fail => rfl

theorem answerNative_congr {vm : Nat} (index : Cell) (chain : Chain) {x y : Act Cell}
    (h : x w = y w) : answerNative d id vm index (rest chain x) w =
      answerNative d id vm index (rest chain y) w := by
  cases hm : w.machines[vm]? with
  | none =>
      rw [answerNative.eq_def, answerNative.eq_def, bind_of_error (machine_of_none hm),
        bind_of_error (machine_of_none hm)]
  | some m =>
      cases hentry : m.view.native? index with
      | none => rw [answerNative_of_none hm hentry, answerNative_of_none hm hentry]
      | some entry =>
          cases hregistered : entry.isRegistered with
          | false =>
              rw [answerNative_of_unregistered hm hentry hregistered,
                answerNative_of_unregistered hm hentry hregistered]
          | true =>
              cases chain with
              | nil => rfl
              | cons link chain =>
                  show answerNative d id vm index (some x) w = answerNative d id vm index (some y) w
                  rw [answerNative_of_registered hm hentry hregistered,
                    answerNative_of_registered hm hentry hregistered]
                  exact bind_congr_left (attempt_congr h) _

theorem answerPublic_congr {vm : Nat} (index : Cell) {next next' : Option (Act Cell)}
    (h : next.getD (fail .notInitialized) w = next'.getD (fail .notInitialized) w) :
    answerPublic d id vm index next w = answerPublic d id vm index next' w :=
  bind_congr_left (attempt_congr h) _

/-! ## Chains -/

section

variable {look : List PendingCall → Runner} {run : Runner} {a : Activation} {m : Machine}
  (hlook : ∀ calls a body, SameUnder calls (look calls a body) (run a body))
  (hrun : ∀ a body w, Balanced (run a body) w)

include hlook

theorem same_baseNative (index : Cell) (params : List Cell) :
    SameUnder calls (baseNative (look calls) a index params) (baseNative run a index params) := by
  refine .bind_of (fun _ => balanced_record rfl) fun _ => .machine_bind fun m => ?_
  cases m.nativeBody? index with
  | none => exact .refl _ _
  | some body => exact hlook calls _ body

theorem same_baseExec (index : Cell) :
    SameUnder calls (baseExec (look calls) a index) (baseExec run a index) := by
  refine .bind_of (fun _ => balanced_record rfl) fun _ => .machine_bind fun m => ?_
  cases m.entryPoint? index with
  | none => exact .refl _ _
  | some entry =>
      exact .bind_of (fun _ => balanced_enterFunction _ _ _ _) fun _ =>
        (hlook calls _ entry.2).then_bind

/-- The base of a chain runs its body with a call in flight for each interceptor before it. -/
theorem same_dispatch (index : Cell) (params : List Cell) (chain : Chain)
    (h : w.InFlight calls) (hchain : Chain.ExistsIn chain w)
    (hm : w.machines[a.vm]? = some m) :
    dispatch (look (chain.newCalls .toNative index m.registers ++ calls)) a index params chain w =
      dispatch run a index params chain w := by
  induction chain generalizing w calls with
  | nil => rfl
  | cons link chain ih =>
      cases link with
      | base => exact same_baseNative hlook index params w h
      | layer number mode =>
          have hb : BalancedDeeds w (w.record (.layer number)) := .record h.valid rfl
          exact same_layer number mode 0
            (ih (h.balanced hb) (hchain.tail.mono hb.moves.keepsInstances) hm)
      | interceptor d id =>
          obtain ⟨seq, w₁, hadmits, happly⟩ :=
            interceptNative_admits (hchain d id List.mem_cons_self) hm index
          have hchain₁ := hchain.tail.mono hadmits.move.keepsInstances
          have hrest := ih (h.admits hadmits) hchain₁ (hadmits.machine hm)
          rw [dispatch, dispatch, happly, happly, Chain.newCalls, List.append_assoc]
          exact ensuring_congr (answerNative_congr index chain hrest) _

theorem same_exec (index : Cell) (chain : Chain) (h : w.InFlight calls)
    (hchain : Chain.ExistsIn chain w) (hm : w.machines[a.vm]? = some m) :
    exec (look (chain.newCalls .toPublic index m.registers ++ calls)) a index chain w =
      exec run a index chain w := by
  induction chain generalizing w calls with
  | nil => rfl
  | cons link chain ih =>
      cases link with
      | base => exact same_baseExec hlook index w h
      | layer number mode =>
          have hb : BalancedDeeds w (w.record (.layer number)) := .record h.valid rfl
          exact same_layer number mode 0
            (ih (h.balanced hb) (hchain.tail.mono hb.moves.keepsInstances) hm)
      | interceptor d id =>
          obtain ⟨seq, w₁, hadmits, happly⟩ :=
            interceptExec_admits (hchain d id List.mem_cons_self) hm index
          have hchain₁ := hchain.tail.mono hadmits.move.keepsInstances
          have hrest := ih (h.admits hadmits) hchain₁ (hadmits.machine hm)
          rw [← getD_rest_exec (look _), ← getD_rest_exec run] at hrest
          rw [exec, exec, happly, happly, Chain.newCalls, List.append_assoc]
          exact ensuring_congr (answerPublic_congr index hrest) _

theorem same_callNative (index : Cell) (params : List Cell) (h : w.InFlight calls) :
    callNative (look (w.newCalls a.vm .toNative index ++ calls)) a index params w =
      callNative run a index params w := by
  cases hm : w.machines[a.vm]? with
  | none =>
      rw [callNative, callNative, bind_of_error (machine_of_none hm),
        bind_of_error (machine_of_none hm)]
  | some m =>
      rw [callNative, callNative, bind_of_ok (machine_of_some hm),
        bind_of_ok (machine_of_some hm), World.newCalls, hm]
      exact same_dispatch hlook index params _ h
        (h.valid.slots m (List.mem_of_getElem? hm)).dispatcher hm

theorem same_callPublic (index : Cell) (h : w.InFlight calls) :
    callPublic (look (w.newCalls a.vm .toPublic index ++ calls)) a index w =
      callPublic run a index w := by
  cases hm : w.machines[a.vm]? with
  | none =>
      rw [callPublic, callPublic, bind_of_error (machine_of_none hm),
        bind_of_error (machine_of_none hm)]
  | some m =>
      rw [callPublic, callPublic, bind_of_ok (machine_of_some hm),
        bind_of_ok (machine_of_some hm), World.newCalls, hm]
      exact same_exec hlook index _ h (h.valid.slots m (List.mem_of_getElem? hm)).exec hm

/-! ## Bodies -/

include hrun

/-- A statement that calls no machine adds no calls, and runs its body as it is. -/
theorem same_stmt (s : Stmt) (h : w.InFlight calls) :
    stmt (look (s.newCalls a w ++ calls)) a s w = stmt run a s w := by
  cases s with
  | call address body =>
      exact (same_callFunction a.vm address (hlook calls a body)).then_bind w h
  | recurse address cip depth body =>
      exact (same_recurse a.vm address cip (hlook calls a body) depth).then_bind w h
  | attempt body => exact (hlook calls a body).attempt.then_bind w h
  | times count body =>
      exact (same_times (hlook calls a body) (hrun a body) count 0).then_bind w h
  | native index params =>
      exact bind_congr_left (same_callNative hlook index params h) _
  | exec index =>
      exact bind_congr_left (same_callPublic hlook index h) _
  | execOn vm index =>
      rw [stmt, stmt]
      split
      · rfl
      · exact bind_congr_left (same_callPublic hlook (a := a.onTop vm) index h) _
  | _ => rfl

theorem same_lookStmts {f : List PendingCall → Act Unit}
    (hf : ∀ calls w, w.ListsCalls calls → f calls w = .ok () w) (last : Cell) (body : List Stmt) :
    SameUnder calls (lookStmts f look calls a last body) (stmts run a last body) := by
  induction body generalizing last with
  | nil =>
      intro w h
      rw [lookStmts, bind_of_ok (hf calls w h.listsCalls)]
      rfl
  | cons s rest ih =>
      intro w h
      rw [lookStmts, bind_of_ok (hf calls w h.listsCalls), bind_of_ok (get_apply w), stmts,
        bind_apply, bind_apply, same_stmt hlook hrun s h]
      cases hs : stmt run a s w with
      | error s w' => rfl
      | ok flow w' =>
          have hb := balanced_stmt hrun a s h.valid
          rw [after_of_ok hs] at hb
          cases flow with
          | next value => exact ih _ w' (h.balanced hb)
          | finish value => rfl

end

/-- **At each look the stacks list the calls passed on the way.** A run is the same with looks that
do nothing where the stacks list these calls, whatever they do elsewhere. -/
theorem lookWith_eq {look : List PendingCall → Act Unit}
    (hlook : ∀ calls w, w.ListsCalls calls → look calls w = .ok () w) (fuel : Nat)
    (calls : List PendingCall) (a : Activation) (body : Body) :
    SameUnder calls (lookWith look fuel calls a body) (runWith fuel a body) := by
  induction fuel generalizing calls a body with
  | zero => exact .refl _ _
  | succ fuel ih => exact same_lookStmts ih (balanced_runWith fuel) hlook 0 body

end Run

/-! ## Sessions -/

/-- What holds of bodies holds of the steps of a host. -/
theorem same_step {look : List PendingCall → Runner} {run : Runner}
    (hlook : ∀ calls a body, SameUnder calls (look calls a body) (run a body)) (s : Step)
    (h : w.InFlight calls) :
    Session.step (look (s.newCalls w ++ calls)) s w = Session.step run s w := by
  cases s with
  | exec vm index =>
      exact map_congr (attempt_congr (Run.same_callPublic hlook (a := { vm }) index h)) _
  | native vm index params =>
      exact map_congr (attempt_congr (Run.same_callNative hlook (a := { vm }) index params h)) _
  | run vm body => exact map_congr (attempt_congr (hlook calls { vm } body w h)) _
  | _ => rfl

/-- **Tracking mirrors the calls in flight.** From a world in which no detector was used, a session
is a run. At every moment of every run the stacks of all instances list the calls in flight, with
increasing numbers that are all different, and the next call to leave is on top. Behind an
interceptor a native or a public is answered as a call, by the rest of the chain; and through
whatever chain it goes, and however it ends, all stacks are then as they were. So the bodies that
are run find on the stacks the calls through which they were reached, and no others. -/
theorem tracking_mirrors_calls (hw₀ : w₀.Fresh) :
    (∀ fuel steps, Moves w₀ (Session.performAll fuel steps w₀).2) ∧
      (∀ run a d id index params chain,
        RunsAsCall d id a.vm .toNative index
          (Run.dispatch run a index params (.interceptor d id :: chain))
          (answerNative d id a.vm index
            (Run.rest chain (Run.dispatch run a index params chain))) ∧
        RunsAsCall d id a.vm .toPublic index (Run.exec run a index (.interceptor d id :: chain))
          (answerPublic d id a.vm index (Run.rest chain (Run.exec run a index chain)))) ∧
      (∀ w, Moves w₀ w →
        w.MirrorsCalls ∧
        ∀ fuel a index params chain, Chain.ExistsIn chain w → a.vm < w.machines.length →
          ∀ d id calls, w.calls? d id = some calls →
            ((Run.dispatch (Run.runWith fuel) a index params chain).after w).calls? d id =
              some calls ∧
            ((Run.exec (Run.runWith fuel) a index chain).after w).calls? d id = some calls) ∧
      ∀ look, (∀ calls w, w.ListsCalls calls → look calls w = .ok () w) →
        ∀ fuel steps (s : Step) fuel', let w := (Session.performAll fuel steps w₀).2
          Session.step (Run.lookWith look fuel' (s.newCalls w)) s w =
            Session.step (Run.runWith fuel') s w := by
  refine ⟨fun fuel steps => (balancedDeeds_performAll fuel steps hw₀.valid).moves,
    fun run a d id index params chain => ⟨dispatch_interceptor run a d id index params chain,
      exec_interceptor run a d id index chain⟩,
    fun w hmoves => ?_, fun look hlook fuel steps s fuel' => ?_⟩
  · have hv := hmoves.valid hw₀.valid
    have ht := hmoves.tracked hw₀.tracked
    refine ⟨ht.mirrorsCalls, fun fuel a index params chain hchain hvm d id calls hcalls => ⟨?_, ?_⟩⟩
    · exact (balanced_dispatch (balanced_runWith fuel) a index params chain hchain hvm hv).calls?_eq
        ht hcalls
    · exact (balanced_exec (balanced_runWith fuel) a index chain hchain hvm hv).calls?_eq ht hcalls
  · have hb := balancedDeeds_performAll fuel steps hw₀.valid
    have hrest : (Session.performAll fuel steps w₀).2.InFlight [] :=
      (World.InFlight.mk hw₀.valid hw₀.tracked (by rw [hw₀.journal]; rfl)).balanced hb
    have hstep := same_step (Run.lookWith_eq hlook fuel') s hrest
    rwa [List.append_nil] at hstep

/-- A host whose first script calls a native that calls the second script, which calls a native
that fails. -/
def relayHost : World where
  machines := [
    { Machine.ofSize ⟨1⟩ 64 with
      natives := [{ name := "relay", function := some { address := 0x1000, body :=
        [.execOn 1 0] } }]
      publics := [{ name := "Main", address := 64, body := [.setCip 72, .native 0 []] }] },
    { Machine.ofSize ⟨2⟩ 64 with
      natives := [{ name := "falter", function := some { address := 0x2000, body :=
        [.fail .bounds] } }]
      publics := [{ name := "Main", address := 96, body := [.setCip 104, .native 0 []] }] }]
  detectors := [{}]

theorem relayHost_fresh : relayHost.Fresh :=
  World.fresh_of_arePlain rfl (by simp [relayHost]) rfl

def relayHostAttached : World :=
  (Session.performAll 8 [.attach 0 0, .attach 0 1] relayHost).2

/-- The relay host when the second script is about to call its native. -/
def relayHostCalled : World :=
  let enterPublic (id vm : Nat) : Act CallRecord :=
    clearLatchIfIdle 0 >>= fun _ => enterCall 0 id vm .toPublic 0
  let w := (enterPublic 0 0).after relayHostAttached
  let w := (Run.enterFunction 0 64 0 true).after w
  let w := (Run.moveTo 0 72).after w
  let w := (enterCall 0 0 0 .toNative 0).after w
  let w := (enterPublic 1 1).after w
  let w := (Run.enterFunction 1 96 0 true).after w
  (Run.moveTo 1 104).after w

theorem moves_relayHostCalled : Moves relayHost relayHostCalled := by
  have hv := relayHost_fresh.valid
  have h₀ : Moves relayHost relayHostAttached :=
    (balancedDeeds_performAll 8 [.attach 0 0, .attach 0 1] hv).moves
  have h₁ := h₀.trans (moves_enterPublic (by decide +kernel : World.HasInstance _ 0 0)
    (by decide +kernel : 0 < _) 0)
  have h₂ : Moves relayHost _ := Moves.after h₁ hv (balanced_enterFunction 0 64 0 true)
  have h₃ := h₂.after hv (balanced_moveTo 0 72)
  have h₄ := h₃.trans (moves_enterNative (by decide +kernel : World.HasInstance _ 0 0)
    (by decide +kernel : 0 < _) 0)
  have h₅ := h₄.trans (moves_enterPublic (by decide +kernel : World.HasInstance _ 0 1)
    (by decide +kernel : 1 < _) 0)
  have h₆ : Moves relayHost _ := Moves.after h₅ hv (balanced_enterFunction 1 96 0 true)
  exact h₆.after hv (balanced_moveTo 1 104)

/-- A look that ends the run where the stacks of the two scripts do not list the calls. -/
def insistOnStacks (calls : List PendingCall) : Act Unit := do
  let w ← get
  let listed := [0, 1].all fun id => (w.calls? 0 id).all fun stack =>
    stack.map (CallRecord.pending 0 id) == calls.filter (PendingCall.isOn 0 id)
  if !listed then
    throw .panic

theorem insistOnStacks_apply {calls : List PendingCall} (h : w.ListsCalls calls) :
    insistOnStacks calls w = .ok () w := by
  have hlisted : ([0, 1].all fun id => (w.calls? 0 id).all fun stack =>
      stack.map (CallRecord.pending 0 id) == calls.filter (PendingCall.isOn 0 id)) = true := by
    simp only [List.all_eq_true, Option.all_eq_true, beq_iff_eq]
    exact fun id _ stack hstack => h 0 id stack hstack
  rw [insistOnStacks, bind_of_ok (get_apply w), hlisted]
  rfl

/-- With three calls in flight, on two scripts, the stacks are as they should, also while the native
is called and after it failed; and no look in the whole run ends it. -/
theorem relayHost_mirrorsCalls :
    let w := relayHostCalled
    let relay : CallRecord := { kind := .toNative, index := 0, frm := 52, cip := 72, seq := 2 }
    let first : CallRecord := { kind := .toPublic, index := 0, frm := 0, cip := 0, seq := 1 }
    let second : CallRecord := { kind := .toPublic, index := 0, frm := 0, cip := 0, seq := 3 }
    let falter seq : CallRecord := { kind := .toNative, index := 0, frm := 52, cip := 104, seq }
    let a : Activation := { vm := 1, outer := [0] }
    let next := Run.dispatch (Run.runWith 8) a 0 [] [.base]
    let called := Run.dispatch (Run.runWith 8) a 0 [] [.interceptor 0 1, .base]
    let s : Step := .exec 0 0
    relayHost.Fresh ∧ Moves relayHost w ∧ w.MirrorsCalls ∧
      openCalls w.journal = [⟨0, 1, second⟩, ⟨0, 0, relay⟩, ⟨0, 0, first⟩] ∧
      w.calls? 0 0 = some [relay, first] ∧ w.calls? 0 1 = some [second] ∧
      (∃ seq w₁, Moves relayHost w₁ ∧ w₁.calls? 0 1 = some [falter seq, second] ∧ 3 < seq ∧
        called w = ensuring (answerNative 0 1 1 0 (some next)) (leaveCall 0 1 seq) w₁) ∧
      (called.after w).calls? 0 0 = some [relay, first] ∧
      (called.after w).calls? 0 1 = some [second] ∧
      Session.step (Run.lookWith insistOnStacks 8 (s.newCalls relayHostAttached)) s
          relayHostAttached =
        Session.step (Run.runWith 8) s relayHostAttached := by
  intro w relay first second falter a next called s
  obtain ⟨-, hinterceptor, hmoments, hlooks⟩ := tracking_mirrors_calls relayHost_fresh
  obtain ⟨hmirrors, hkept⟩ := hmoments w moves_relayHostCalled
  have hfirst : w.calls? 0 0 = some [relay, first] := by decide +kernel
  have hsecond : w.calls? 0 1 = some [second] := by decide +kernel
  have hid : w.HasInstance 0 1 := by decide +kernel
  have hvm : 1 < w.machines.length := by decide +kernel
  have hchain : Chain.ExistsIn [.interceptor 0 1, .base] w := fun d id hmem => by
    simp only [List.mem_cons, Link.interceptor.injEq, List.not_mem_nil, or_false, reduceCtorEq]
      at hmem
    obtain ⟨rfl, rfl⟩ := hmem
    exact hid
  have hkept := hkept 8 a 0 [] [.interceptor 0 1, .base] hchain hvm
  refine ⟨relayHost_fresh, moves_relayHostCalled, hmirrors, by decide +kernel, hfirst, hsecond, ?_,
    (hkept 0 0 _ hfirst).1, (hkept 0 1 _ hsecond).1,
    hlooks insistOnStacks (fun _ _ h => insistOnStacks_apply h) 8 [.attach 0 0, .attach 0 1] s 8⟩
  have hregisters : (w.machines[1]?.any fun m =>
      m.registers.frm == 52 && m.registers.cip == 104) = true := by
    decide +kernel
  obtain ⟨m, hm, hat⟩ := (Option.any_eq_true _ _).mp hregisters
  rw [Bool.and_eq_true, beq_iff_eq, beq_iff_eq] at hat
  obtain ⟨hfrm, hcip⟩ := hat
  obtain ⟨seq, w₁, hadmits, hcalled⟩ :=
    (hinterceptor (Run.runWith 8) a 0 1 0 [] [.base]).1 w m hm hid
  have hmoves₁ := moves_relayHostCalled.tail hadmits.move
  have htop : w₁.calls? 0 1 = some [falter seq, second] := by
    rw [hadmits.onTop, hsecond, hfrm, hcip]
    rfl
  obtain ⟨i, hi, hstack⟩ := Option.map_eq_some_iff.mp htop
  have hincreasing := (hmoments w₁ hmoves₁).1.increasing 0 1 i hi
  rw [hstack] at hincreasing
  exact ⟨seq, w₁, hmoves₁, htop, by simpa [CallStack.outermostFirst] using hincreasing, hcalled⟩

/-- One of these looks is taken with four calls in flight. -/
example :
    let look (calls : List PendingCall) : Act Unit :=
      if calls.length = 4 then throw .panic else pure ()
    let s : Step := .exec 0 0
    (Session.step (Run.lookWith look 8 (s.newCalls relayHostAttached)) s
      relayHostAttached matches .error .panic _) = true := by
  decide +kernel

end ScriptDiag
