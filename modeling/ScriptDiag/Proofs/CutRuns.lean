import ScriptDiag.Proofs.Act

/-!
# Runs that are cut short

What holds at every moment of a run is said of the worlds in which the run can be cut short. A cut
run does what the run does, but before each statement, at the end of each body and at each step of a
recursion it asks `stop` whether it is to end here; if so it ends with a panic, which nothing
catches. The machines are then left as they were at that moment. Since `stop` sees the world, and in
its journal all that has happened, it can pick out any of these moments.

A cut run is the run itself, unless it ends with a panic (`cuts_cutWith`); and one that is never to
end early is the run in any case (`cutWith_never`).
-/

namespace ScriptDiag.Run

open Act

variable (stop : World → Bool)

/-- End here, if it is to be. -/
def cutHere : Act Unit := do
  if stop (← get) then
    throw .panic

/-- As `recurse`, cut short after the function was entered, after the code pointer was moved, and
after the function inside it returned. -/
def cutRecurse (vm : Nat) (address cip : UCell) (body : Act Cell) : (depth : Nat) → Act Cell
  | 0 => body
  | depth + 1 =>
    callFunction vm address do
      cutHere stop
      moveTo vm cip
      cutHere stop
      let value ← cutRecurse vm address cip body depth
      cutHere stop
      return value

/-- Only a recursion has moments of its own; in all other statements they are those of the bodies
run. -/
def cutStmt (run : Runner) (a : Activation) : Stmt → Act Flow
  | .recurse address cip depth body => do
    return .next (some (← cutRecurse stop a.vm address cip (run a body) depth))
  | s => stmt run a s

def cutStmts (run : Runner) (a : Activation) (last : Cell) : List Stmt → Act Cell
  | [] => do
    cutHere stop
    return last
  | s :: rest => do
    cutHere stop
    match ← cutStmt stop run a s with
    | .next value => cutStmts run a (value.getD last) rest
    | .finish value => return value

/-- Run a body as `runWith` does, up to a moment at which `stop` holds. -/
def cutWith : (fuel : Nat) → Runner
  | 0 => fun _ _ => throw .outOfFuel
  | fuel + 1 => fun a body => cutStmts stop (cutWith fuel) a 0 body

/-! ## Runs that are not cut -/

theorem cutHere_never : cutHere (fun _ => false) = pure () := rfl

theorem cutRecurse_never (vm : Nat) (address cip : UCell) (body : Act Cell) (depth : Nat) :
    cutRecurse (fun _ => false) vm address cip body depth = recurse vm address cip body depth := by
  induction depth with
  | zero => rfl
  | succ depth ih =>
      rw [cutRecurse, recurse, ih]
      simp only [cutHere_never, pure_bind, bind_pure]

theorem cutStmt_never (run : Runner) (a : Activation) (s : Stmt) :
    cutStmt (fun _ => false) run a s = stmt run a s := by
  cases s with
  | recurse address cip depth body => rw [cutStmt, stmt, cutRecurse_never]
  | _ => rfl

theorem cutStmts_never (run : Runner) (a : Activation) (last : Cell) (body : List Stmt) :
    cutStmts (fun _ => false) run a last body = stmts run a last body := by
  induction body generalizing last with
  | nil => rfl
  | cons s rest ih =>
      rw [cutStmts, stmts, cutHere_never, pure_bind, cutStmt_never]
      congr 1
      funext flow
      cases flow with
      | next value => exact ih _
      | finish value => rfl

theorem cutWith_never (fuel : Nat) : cutWith (fun _ => false) fuel = runWith fuel := by
  induction fuel with
  | zero => rfl
  | succ fuel ih =>
      funext a body
      rw [cutWith, runWith, ih]
      exact cutStmts_never _ a 0 body

/-! ## Runs that are cut -/

/-- The act `x` does what `y` does, unless it ends with a panic. -/
def Cuts {α : Type} (x y : Act α) : Prop :=
  ∀ w, x w = y w ∨ ∃ w', x w = .error .panic w'

section

variable {α β : Type} {x y : Act α}

theorem Cuts.refl (x : Act α) : Cuts x x :=
  fun _ => .inl rfl

theorem Cuts.bind {f g : α → Act β} (hxy : Cuts x y) (hfg : ∀ a, Cuts (f a) (g a)) :
    Cuts (x >>= f) (y >>= g) := by
  intro w
  rcases hxy w with heq | ⟨w', hpanic⟩
  · rw [bind_apply, bind_apply, heq]
    cases y w with
    | ok a w' => exact hfg a w'
    | error s w' => exact .inl rfl
  · exact .inr ⟨w', bind_of_error hpanic⟩

theorem Cuts.then_bind {f : α → Act β} (hxy : Cuts x y) : Cuts (x >>= f) (y >>= f) :=
  hxy.bind fun a => .refl (f a)

theorem Cuts.bind_of {f g : α → Act β} (x : Act α) (hfg : ∀ a, Cuts (f a) (g a)) :
    Cuts (x >>= f) (x >>= g) :=
  (Cuts.refl x).bind hfg

theorem Cuts.ensuring (hxy : Cuts x y) (f : World → World) :
    Cuts (ensuring x f) (ensuring y f) := by
  intro w
  rcases hxy w with heq | ⟨w', hpanic⟩
  · exact .inl (ensuring_congr heq f)
  · exact .inr ⟨f w', ensuring_of_error hpanic f⟩

theorem Cuts.attempt (hxy : Cuts x y) : Cuts (attempt x) (attempt y) := by
  intro w
  rcases hxy w with heq | ⟨w', hpanic⟩
  · exact .inl (attempt_congr heq)
  · exact .inr ⟨w', attempt_of_stop hpanic (by simp)⟩

theorem Cuts.cutHere_bind {f : Unit → Act α} (h : Cuts (f ()) y) :
    Cuts (cutHere stop >>= f) y := by
  intro w
  have hcut : (cutHere stop >>= f) w =
      ((if stop w then throw .panic else pure () : Act Unit) >>= f) w := by
    rw [cutHere, bind_assoc, bind_of_ok (get_apply w)]
  cases hstop : stop w with
  | true =>
      rw [hstop] at hcut
      exact .inr ⟨w, hcut⟩
  | false =>
      rw [hstop] at hcut
      rw [hcut]
      exact h w

/-! ## Calls -/

theorem cuts_callFunction (vm : Nat) (address : UCell) {x y : Act Cell} (h : Cuts x y) :
    Cuts (callFunction vm address x) (callFunction vm address y) :=
  .bind_of _ fun _ => .bind_of _ fun _ => h.then_bind

theorem cuts_cutRecurse (vm : Nat) (address cip : UCell) {x y : Act Cell} (h : Cuts x y)
    (depth : Nat) : Cuts (cutRecurse stop vm address cip x depth)
      (recurse vm address cip y depth) := by
  induction depth with
  | zero => exact h
  | succ depth ih =>
      refine cuts_callFunction vm address (Cuts.cutHere_bind stop ?_)
      refine .bind_of _ fun _ => Cuts.cutHere_bind stop ?_
      rw [← bind_pure (recurse vm address cip y depth)]
      exact ih.bind fun value => Cuts.cutHere_bind stop (.refl _)

theorem cuts_times {x y : Act Cell} (h : Cuts x y) (count : Nat) (last : Cell) :
    Cuts (times x count last) (times y count last) := by
  induction count generalizing last with
  | zero => exact .refl _
  | succ count ih => exact h.bind fun value => ih value

theorem cuts_layer (number : Nat) (mode : LayerMode) (success : α) (h : Cuts x y) :
    Cuts (layer number mode success x) (layer number mode success y) := by
  refine .bind_of _ fun _ => ?_
  cases mode with
  | forward => exact h
  | drop => exact .refl _
  | fail e => exact .refl _

theorem cuts_interceptNative (d id vm : Nat) (index : Cell) (chain : Chain) {x y : Act Cell}
    (h : Cuts x y) : Cuts (interceptNative d id vm index (rest chain x))
      (interceptNative d id vm index (rest chain y)) := by
  refine .bind_of _ fun call => .ensuring (.bind_of _ fun m => ?_) _
  cases m.view.native? index with
  | none => exact .refl _
  | some entry =>
      simp only
      split
      · exact .refl _
      · cases chain with
        | nil => exact .refl _
        | cons link chain => exact h.attempt.then_bind

theorem cuts_interceptExec (d id vm : Nat) (index : Cell) {next next' : Option (Act Cell)}
    (h : Cuts (next.getD (fail .notInitialized)) (next'.getD (fail .notInitialized))) :
    Cuts (interceptExec d id vm index next) (interceptExec d id vm index next') :=
  .bind_of _ fun _ => .bind_of _ fun _ => h.attempt.then_bind.ensuring _

end

section

variable {run run' : Runner} (hrun : ∀ a body, Cuts (run a body) (run' a body))

include hrun

theorem cuts_dispatch (a : Activation) (index : Cell) (params : List Cell) (chain : Chain) :
    Cuts (dispatch run a index params chain) (dispatch run' a index params chain) := by
  induction chain with
  | nil => exact .refl _
  | cons link chain ih =>
      cases link with
      | base =>
          refine .bind_of _ fun _ => .bind_of _ fun m => ?_
          cases m.nativeBody? index with
          | none => exact .refl _
          | some body => exact hrun _ body
      | layer number mode => exact cuts_layer number mode 0 ih
      | interceptor d id => exact cuts_interceptNative d id a.vm index chain ih

theorem cuts_exec (a : Activation) (index : Cell) (chain : Chain) :
    Cuts (exec run a index chain) (exec run' a index chain) := by
  induction chain with
  | nil => exact .refl _
  | cons link chain ih =>
      cases link with
      | base =>
          refine .bind_of _ fun _ => .bind_of _ fun m => ?_
          cases m.entryPoint? index with
          | none => exact .refl _
          | some entry => exact .bind_of _ fun _ => (hrun _ entry.2).then_bind
      | layer number mode => exact cuts_layer number mode 0 ih
      | interceptor d id =>
          refine cuts_interceptExec d id a.vm index ?_
          cases chain with
          | nil => exact .refl _
          | cons link chain => exact ih

/-! ## Bodies -/

theorem cuts_cutStmt (a : Activation) (s : Stmt) : Cuts (cutStmt stop run a s) (stmt run' a s) := by
  cases s with
  | call address body => exact (cuts_callFunction a.vm address (hrun a body)).then_bind
  | recurse address cip depth body =>
      exact (cuts_cutRecurse stop a.vm address cip (hrun a body) depth).then_bind
  | native index params =>
      exact (Cuts.bind_of _ fun m => cuts_dispatch hrun a index params _).then_bind
  | exec index => exact (Cuts.bind_of _ fun m => cuts_exec hrun a index _).then_bind
  | execOn vm index =>
      show Cuts (stmt run a (.execOn vm index)) _
      rw [stmt, stmt]
      split
      · exact .refl _
      · exact (Cuts.bind_of _ fun m => cuts_exec hrun (a.onTop vm) index _).then_bind
  | attempt body => exact (hrun a body).attempt.then_bind
  | times count body => exact (cuts_times (hrun a body) count 0).then_bind
  | _ => exact .refl _

theorem cuts_cutStmts (a : Activation) (last : Cell) (body : List Stmt) :
    Cuts (cutStmts stop run a last body) (stmts run' a last body) := by
  induction body generalizing last with
  | nil => exact Cuts.cutHere_bind stop (.refl _)
  | cons s rest ih =>
      refine Cuts.cutHere_bind stop ((cuts_cutStmt stop hrun a s).bind fun flow => ?_)
      cases flow with
      | next value => exact ih _
      | finish value => exact .refl _

end

/-- A cut run is the run, unless it ends with a panic. -/
theorem cuts_cutWith (fuel : Nat) (a : Activation) (body : Body) :
    Cuts (cutWith stop fuel a body) (runWith fuel a body) := by
  induction fuel generalizing a body with
  | zero => exact .refl _
  | succ fuel ih => exact cuts_cutStmts stop ih a 0 body

end ScriptDiag.Run
