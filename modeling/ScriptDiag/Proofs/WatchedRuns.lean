import ScriptDiag.Proofs.WatchedActs

/-!
# Runs of a watched machine

Disciplined bodies move the code pointer, call script functions, natives and publics, complete
instructions, and look at what they like; they leave registers and memory alone otherwise, and catch
no errors. Orderly bodies may do more, if the watch is not strict: natives may call natives too, and
errors may be caught. If all bodies behind the tables of a watched machine are orderly, and the
first interceptor in each slot is the one of the watching instance, then whatever runs keeps the
machine settled (`Watch.keepsBodies_runWith`), by induction on the depth to which bodies are nested.
-/

namespace ScriptDiag

open Act LiveCall

variable {α β : Type}

/-! ## Orderly bodies -/

/-- Whether a statement is orderly, in a body of this kind: only scripts move the code pointer and
call functions and natives, and errors are not caught. If this is not a `strict` watch, natives may
call natives too, and errors may be caught. Traces are of the detector `d`. -/
def Stmt.isOrderly (d : Nat) (strict : Bool) (kind : CallKind) : Stmt → Bool
  | .native _ _ => kind == .toPublic || !strict
  | .attempt _ => !strict
  | .setCip _ | .call _ _ | .recurse _ _ _ _ => kind == .toPublic
  | .trace d' | .interrupt d' | .runtimeError d' _ _ => d' == d
  | .noteRegisters | .emit _ | .read _ | .exec _ | .step | .times _ _ | .fail _ | .finish _
  | .finishWithSum | .panic | .probe _ => true
  | .setRegisters _ _ _ _ | .write _ _ | .writeFrame _ _ | .execOn _ _ | .crash _ _ | .attach _
  | .detach _ => false

def Body.isOrderly (d : Nat) (strict : Bool) (kind : CallKind) : Body → Bool :=
  Body.all (Stmt.isOrderly d strict kind)

/-- Whether all bodies behind the tables of a machine are orderly. -/
def Machine.isOrderly (m : Machine) (d : Nat) (strict : Bool) : Bool :=
  m.allBodies (Body.isOrderly d strict)

/-- Whether all bodies behind the tables of a machine are disciplined: orderly under a strict
watch. -/
def Machine.isDisciplined (m : Machine) (d : Nat) : Bool :=
  m.isOrderly d true

/-- Only an index of the table or the one of `main` names a public. -/
theorem Machine.entryPoint?_probeIndex (m : Machine) : m.entryPoint? probeIndex = none := by
  rw [entryPoint?, if_neg (by decide)]
  rfl

/-! ## Slots of a watched machine -/

/-- Whether a chain has one interceptor, the one of an instance, and the machine's own handler only
after it. -/
def Chain.isWatched (d id : Nat) : Chain → Bool
  | .layer _ _ :: chain => Chain.isWatched d id chain
  | .interceptor d' id' :: chain => d' == d && id' == id && Chain.isPlain chain
  | _ => false

/-- Whether all slots are so. -/
def Slots.areWatched (s : Slots) (d id : Nat) : Bool :=
  Chain.isWatched d id s.hook && Chain.isWatched d id s.dispatcher && Chain.isWatched d id s.exec

namespace Watch

open Run

variable {W : Watch} {w : World} {g : List LiveCall} {a : Activation}

/-- The machine calls the interceptors of the instance first, and all bodies are orderly. -/
structure Disciplined (W : Watch) : Prop where
  slots : W.machine.slots.areWatched W.d W.id = true
  bodies : W.machine.isOrderly W.d W.strict = true

theorem Disciplined.hook (h : W.Disciplined) :
    Chain.isWatched W.d W.id W.machine.slots.hook = true := by
  have hslots := h.slots
  simp only [Slots.areWatched, Bool.and_eq_true] at hslots
  exact hslots.1.1

theorem Disciplined.dispatcher (h : W.Disciplined) :
    Chain.isWatched W.d W.id W.machine.slots.dispatcher = true := by
  have hslots := h.slots
  simp only [Slots.areWatched, Bool.and_eq_true] at hslots
  exact hslots.1.2

theorem Disciplined.exec (h : W.Disciplined) :
    Chain.isWatched W.d W.id W.machine.slots.exec = true := by
  have hslots := h.slots
  simp only [Slots.areWatched, Bool.and_eq_true] at hslots
  exact hslots.2

/-- Orderly bodies keep the machine settled. -/
structure KeepsBodies (W : Watch) (run : Runner) : Prop where
  grows : ∀ a body, Grows (run a body)
  keeps : ∀ kind a body g, a.vm = W.vm → Body.isOrderly W.d W.strict kind body = true →
    Runs kind g → W.Keeps g (run a body)

theorem Keeps.then_next {x : Act α} (hx : W.Keeps g x) :
    W.Keeps g (x >>= fun _ => pure (Flow.next none)) :=
  hx.bind fun _ => keeps_pure _

theorem Keeps.then_value {x : Act Cell} (hx : W.Keeps g x) :
    W.Keeps g (x >>= fun value => pure (Flow.next (some value))) :=
  hx.bind fun _ => keeps_pure _

theorem keeps_noteOf {f : Machine → Note} (hf : ∀ m, (Event.note (f m)).isPlain = true) :
    W.Keeps g (Act.machine W.vm >>= fun m => note (f m) >>= fun _ => pure (Flow.next none)) :=
  .machine_bind (fun _ => (grows_record _).bind fun _ => adds_pure _)
    fun m _ => (keeps_record (hf m)).then_next

/-! ## Along chains -/

theorem keeps_layer {number : Nat} {mode : LayerMode} {success : α} {next : Act α}
    (hnext : W.Keeps g next) : W.Keeps g (layer number mode success next) := by
  refine (keeps_record rfl).bind fun _ => ?_
  cases mode with
  | forward => exact hnext
  | drop => exact keeps_pure _
  | fail e => exact keeps_throw _

theorem steady_layer {number : Nat} {mode : LayerMode} {success : α} {next : Act α}
    (hnext : W.Steady g next) : W.Steady g (layer number mode success next) := by
  intro w h
  have h₁ : W.On g (w.record (.layer number)) := h.modify_inv fun _ _ hinv => hinv.plain rfl
  show W.On g ((record (.layer number) >>= fun _ => _).after w)
  rw [after_bind_of_ok (record_apply _ _)]
  cases mode with
  | forward => exact hnext _ h₁
  | drop => exact h₁
  | fail e => exact h₁

section

variable {x : Chain → Act α} {success : α} {chain : Chain}

/-- A chain without interceptors is its layers, and what they forward to. -/
theorem keeps_plain (hlayer : ∀ number mode chain,
      x (.layer number mode :: chain) = layer number mode success (x chain))
    (hnil : W.Keeps g (x [])) (hbase : ∀ chain, W.Keeps g (x (.base :: chain)))
    (hchain : chain.isPlain = true) : W.Keeps g (x chain) := by
  induction chain with
  | nil => exact hnil
  | cons link chain ih =>
      rw [Chain.isPlain, List.all_cons, Bool.and_eq_true] at hchain
      cases link with
      | base => exact hbase chain
      | layer number mode =>
          rw [hlayer]
          exact keeps_layer (ih hchain.2)
      | interceptor d id => cases hchain.1

/-- A watched chain is its layers, the interceptor, and a chain without interceptors. -/
theorem keeps_watched (hlayer : ∀ number mode chain,
      x (.layer number mode :: chain) = layer number mode success (x chain))
    (hinterceptor : ∀ chain : Chain, chain.isPlain = true →
      W.Keeps g (x (.interceptor W.d W.id :: chain)))
    (hchain : Chain.isWatched W.d W.id chain = true) : W.Keeps g (x chain) := by
  induction chain with
  | nil => cases hchain
  | cons link chain ih =>
      cases link with
      | base => cases hchain
      | layer number mode =>
          rw [hlayer]
          exact keeps_layer (ih hchain)
      | interceptor d id =>
          simp only [Chain.isWatched, Bool.and_eq_true, beq_iff_eq] at hchain
          obtain ⟨⟨rfl, rfl⟩, hplain⟩ := hchain
          exact hinterceptor chain hplain

end

/-- No public is run for the index with which a host only asks for one. -/
theorem steady_exec_probeIndex (ha : a.vm = W.vm) {run : Runner} {chain : Chain}
    (hchain : chain.isPlain = true) : W.Steady g (exec run a probeIndex chain) := by
  induction chain with
  | nil => exact fun w h => h
  | cons link chain ih =>
      rw [Chain.isPlain, List.all_cons, Bool.and_eq_true] at hchain
      cases link with
      | base =>
          intro w h
          have h₁ : W.On g (w.record (.base a.vm (.exec probeIndex))) :=
            h.modify_inv fun _ _ hinv => hinv.plain rfl
          obtain ⟨m, hm, -⟩ := h₁.machine
          rw [exec, baseExec, after_bind_of_ok (record_apply _ _), ha,
            after_bind_of_ok (machine_of_some (ha ▸ hm)), m.entryPoint?_probeIndex]
          exact ha ▸ h₁
      | layer number mode => exact steady_layer (ih hchain.2)
      | interceptor d id => cases hchain.1

/-! ## What a machine does -/

theorem keeps_step (hd : W.Disciplined) (hW : W.WellPlaced) (ha : a.vm = W.vm) (hg : g ≠ []) :
    W.Keeps g (Run.step a) := by
  rw [Run.step, ha]
  refine Keeps.machine_bind (fun m => (untold_hook _).grows) fun m hsame => ?_
  rw [hsame.slots]
  refine keeps_watched (fun _ _ _ => rfl) (fun chain hplain => ?_) hd.hook
  rw [hook, ha]
  refine keeps_interceptHook hW hg ?_
  exact keeps_plain (fun _ _ _ => rfl) (keeps_pure ()) (fun _ => keeps_baseHook ha) hplain

section

variable {run : Runner} (hrun : W.KeepsBodies run) (hd : W.Disciplined) (hW : W.WellPlaced)
  (ha : a.vm = W.vm)

include hrun hd hW ha

theorem keeps_callNative {kind : CallKind} (hg : Runs kind g)
    (hstrict : W.strict = true → kind = .toPublic) (index : Cell) (params : List Cell) :
    W.Keeps g (callNative run a index params) := by
  rw [callNative, ha]
  refine Keeps.machine_bind (fun m => grows_dispatch hrun.grows _ _ _) fun m hsame => ?_
  rw [hsame.slots]
  refine keeps_watched (x := dispatch run a index params) (fun _ _ _ => rfl)
    (fun chain hplain => ?_) hd.dispatcher
  have hcall := dispatch_interceptor run a W.d W.id index params chain
  rw [ha] at hcall
  refine keeps_native hW hg hstrict (grows_dispatch hrun.grows _ _ _) hcall
    fun x hx call g hnative => ?_
  obtain rfl := eq_of_rest_eq_some hx
  refine keeps_plain (fun _ _ _ => rfl) (keeps_throw _) (fun _ => ?_) hplain
  refine keeps_baseNative hrun.grows ha index params fun a body ha hbody => ?_
  exact hrun.keeps .toNative a body _ ha (Machine.allBodies_native hd.bodies hbody)
    ⟨_, _, rfl, hnative⟩

theorem keeps_callPublic (index : Cell) : W.Keeps g (callPublic run a index) := by
  rw [callPublic, ha]
  refine Keeps.machine_bind (fun m => grows_exec hrun.grows _ _) fun m hsame => ?_
  rw [hsame.slots]
  refine keeps_watched (x := exec run a index) (fun _ _ _ => rfl) (fun chain hplain => ?_) hd.exec
  have hcall := exec_interceptor run a W.d W.id index chain
  rw [ha] at hcall
  refine keeps_public hW (grows_exec hrun.grows _ _) hcall fun x hx call g hpublic => ?_
  obtain rfl := eq_of_rest_eq_some hx
  constructor
  · refine keeps_plain (fun _ _ _ => rfl) (keeps_throw _) (fun _ => ?_) hplain
    refine keeps_baseExec hrun.grows hW ha index (fun a address body ha hentry g hg => ?_) hpublic
    exact hrun.keeps .toPublic a body g ha (Machine.allBodies_public hd.bodies hentry) hg
  · rintro rfl
    exact steady_exec_probeIndex ha hplain

/-! ## Bodies -/

theorem keeps_stmt {kind : CallKind} (hg : Runs kind g) {s : Stmt}
    (hs : s.all (Stmt.isOrderly W.d W.strict kind) = true) : W.Keeps g (stmt run a s) := by
  cases s with
  | setCip cip =>
      obtain rfl := beq_iff_eq.mp hs
      rw [stmt, ha]
      exact (keeps_moveTo hg cip).then_next
  | noteRegisters =>
      rw [stmt, ha]
      exact keeps_noteOf fun m => rfl
  | emit payload => exact (keeps_record rfl).then_next
  | read address =>
      rw [stmt, ha]
      exact keeps_noteOf fun m => rfl
  | call address body =>
      simp only [Stmt.all, Stmt.isOrderly, Bool.and_eq_true, beq_iff_eq] at hs
      obtain ⟨rfl, hbody⟩ := hs
      rw [stmt, ha]
      exact (keeps_callFunction hW hg address fun g hg =>
        hrun.keeps .toPublic a body g ha hbody hg).then_value
  | recurse address cip depth body =>
      simp only [Stmt.all, Stmt.isOrderly, Bool.and_eq_true, beq_iff_eq] at hs
      obtain ⟨rfl, hbody⟩ := hs
      rw [stmt, ha]
      exact (keeps_recurse hW address cip (fun g hg =>
        hrun.keeps .toPublic a body g ha hbody hg) depth g hg).then_value
  | native index params =>
      have hstrict : W.strict = true → kind = .toPublic := fun h => by
        simp only [Stmt.all, Stmt.isOrderly, h, Bool.not_true, Bool.or_false, beq_iff_eq] at hs
        exact hs
      exact (keeps_callNative hrun hd hW ha hg hstrict index params).then_value
  | exec index => exact (keeps_callPublic hrun hd hW ha index).then_value
  | step => exact (keeps_step hd hW ha hg.ne_nil).then_next
  | times count body => exact (keeps_times (hrun.keeps kind a body g ha hs hg) count 0).then_value
  | fail e => exact keeps_throw _
  | finish value => exact keeps_pure _
  | finishWithSum => exact keeps_pure _
  | panic => exact keeps_throw _
  | runtimeError d index e =>
      obtain rfl := beq_iff_eq.mp hs
      rw [stmt, ha]
      exact (keeps_runtimeError hW hg.ne_nil index e).bind fun _ => (keeps_record rfl).then_next
  | interrupt d =>
      obtain rfl := beq_iff_eq.mp hs
      exact keeps_requestInterrupt.then_next
  | trace d =>
      obtain rfl := beq_iff_eq.mp hs
      rw [stmt, ha, ← bind_assoc]
      exact (keeps_noteTrace hW hg.ne_nil).then_next
  | probe d =>
      rw [stmt, ha, ← bind_assoc]
      exact (keeps_probe d).then_next
  | attempt body =>
      rw [Stmt.all, Stmt.isOrderly, Bool.and_eq_true, Bool.not_eq_true'] at hs
      rw [stmt, ← bind_assoc]
      exact (keeps_attempt hs.1 (hrun.keeps kind a body g ha hs.2 hg)).then_next
  | setRegisters | write | writeFrame | execOn | crash | attach | detach => cases hs

theorem keeps_stmts {kind : CallKind} (hg : Runs kind g) (last : Cell) {body : List Stmt}
    (hbody : Body.isOrderly W.d W.strict kind body = true) :
    W.Keeps g (stmts run a last body) := by
  induction body generalizing last with
  | nil => exact keeps_pure _
  | cons s rest ih =>
      rw [Body.isOrderly, Body.all_cons] at hbody
      -- a statement moves the innermost function at most, so the next one finds the same in flight
      refine (keeps_stmt hrun hd hW ha hg hbody.1).bind fun flow => ?_
      cases flow with
      | next value => exact ih _ hbody.2
      | finish value => exact keeps_pure _

end

/-- Whatever an orderly body does keeps the machine settled. -/
theorem keepsBodies_runWith (hd : W.Disciplined) (hW : W.WellPlaced) (fuel : Nat) :
    W.KeepsBodies (runWith fuel) := by
  induction fuel with
  | zero => exact ⟨grows_runWith 0, fun _ _ _ _ _ _ _ => keeps_throw _⟩
  | succ fuel ih =>
      refine ⟨grows_runWith (fuel + 1), fun kind a body g ha hbody hg => ?_⟩
      exact keeps_stmts ih hd hW ha hg 0 hbody

/-! ## From an idle machine -/

/-- A watched machine on which no call is in flight is settled. -/
theorem on_of_idle (hm : w.machines[W.vm]? = some W.machine)
    (hdet : w.detectors[W.d]? = some W.detector)
    (hreg : W.detector.registry.find? W.machine.handle = some W.id)
    (hi : W.detector.registry.instance? W.id = some W.inst) (hidle : W.inst.calls = [])
    (hj : W.journal = w.journal) : W.On [] w := by
  have hnothing : W.Tells [] w :=
    ⟨[], hj.symm, rfl, hj ▸ rfl, fun after e before t heq => absurd heq (by simp)⟩
  exact ⟨[], W.machine, .refl _, ⟨hm, ⟨.refl _, rfl, trivial⟩,
    ⟨W.detector, W.inst, hdet, .refl _, hreg, hi, rfl, hidle⟩, hnothing, fun _ => rfl⟩,
    ⟨rfl, rfl, Nat.le_refl _⟩⟩

theorem Ends.tracesShow {x : Act α} (h : W.Ends g (x w)) :
    ∃ es, (x.after w).journal = es ++ W.journal ∧ TracesShow W.d W.Shows es := by
  have hinv : ∀ {g m w}, W.Inv g m w →
      ∃ es, w.journal = es ++ W.journal ∧ TracesShow W.d W.Shows es := by
    rintro g m w hinv
    obtain ⟨es, hes, -, -, hshow⟩ := hinv.tells
    exact ⟨es, hes, hshow⟩
  rcases h.cases with ⟨a, w', hrun, g', m, -, h, -⟩ | ⟨s, w', hrun, g', m, -, h, -⟩ | hlost
  · rw [after_of_ok hrun]
    exact hinv h
  · rw [after_of_error hrun]
    exact hinv h
  · obtain ⟨-, es, hes, -, hshow⟩ := hlost
    exact ⟨es, hes, hshow⟩

/-- All traces taken while the public runs are as expected. -/
theorem tracesShow_callPublic (hd : W.Disciplined) (hW : W.WellPlaced) (hon : W.On [] w)
    (ha : a.vm = W.vm) (fuel : Nat) (index : Cell) :
    ∃ es, ((callPublic (runWith fuel) a index).after w).journal = es ++ W.journal ∧
      TracesShow W.d W.Shows es :=
  ((keeps_callPublic (keepsBodies_runWith hd hW fuel) hd hW ha index).ends w hon).tracesShow

end Watch

/-- Whether a detector is attached to a machine that none of its calls is in flight on, with the
bodies as required and the machine's stack in its data memory. -/
def World.isWatchable (w : World) (d id vm : Nat) (bodies : Machine → Bool) : Bool :=
  w.machines[vm]?.any fun m => w.detectors[d]?.any fun det =>
    (decide (det.registry.find? m.handle = some id) &&
      (det.registry.instance? id).any fun i => i.calls.isEmpty) &&
    ((m.slots.areWatched d id && bodies m) && (decide (m.registers.stk.toNat ≤ m.memory.size) &&
      decide (m.registers.frm = 0 ∨ m.registers.stk ≤ m.registers.frm)))

theorem World.exists_of_isWatchable (w : World) (d id vm : Nat) (bodies : Machine → Bool)
    (h : w.isWatchable d id vm bodies = true) :
    ∃ m det i, w.machines[vm]? = some m ∧ w.detectors[d]? = some det ∧
      det.registry.find? m.handle = some id ∧ det.registry.instance? id = some i ∧ i.calls = [] ∧
      m.slots.areWatched d id = true ∧ bodies m = true ∧
      m.registers.stk.toNat ≤ m.memory.size ∧
      (m.registers.frm = 0 ∨ m.registers.stk ≤ m.registers.frm) := by
  obtain ⟨m, hm, h⟩ := (Option.any_eq_true _ _).mp h
  obtain ⟨det, hdet, h⟩ := (Option.any_eq_true _ _).mp h
  simp only [Bool.and_eq_true, decide_eq_true_eq] at h
  obtain ⟨⟨hreg, hinst⟩, ⟨hslots, hbodies⟩, hstk, hfrm⟩ := h
  obtain ⟨i, hi, hidle⟩ := (Option.any_eq_true _ _).mp hinst
  exact ⟨m, det, i, hm, hdet, hreg, hi, List.isEmpty_iff.mp hidle, hslots, hbodies, hstk, hfrm⟩

end ScriptDiag
