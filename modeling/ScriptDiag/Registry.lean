import ScriptDiag.Instance

/-!
# The registry of a detector

A registry numbers the instances of a detector in the order in which they were made, and knows which
of them are registered, at most one for each handle. The instances share a latch, which is armed
by the first failure reported, and a counter, which puts all calls in one order.
-/

namespace ScriptDiag

/-- Instance numbers by handle. -/
abbrev HandleMap := List (VmHandle × Nat)

namespace HandleMap

def find? (m : HandleMap) (handle : VmHandle) : Option Nat :=
  m.lookup handle

def insert (m : HandleMap) (handle : VmHandle) (id : Nat) : HandleMap :=
  (handle, id) :: m.filter fun e => e.1 != handle

def erase (m : HandleMap) (handle : VmHandle) : HandleMap :=
  m.filter fun e => e.1 != handle

theorem find?_cons (m : HandleMap) (key other : VmHandle) (id : Nat) :
    find? ((key, id) :: m) other = if other = key then some id else m.find? other := by
  by_cases h : other = key
  · simp [find?, h]
  · have hb : (other == key) = false := by simpa using h
    simp [find?, List.lookup_cons, h, hb]

theorem find?_erase (m : HandleMap) (handle other : VmHandle) :
    (m.erase handle).find? other = if other = handle then none else m.find? other := by
  induction m with
  | nil => simp [erase, find?]
  | cons e m ih =>
    obtain ⟨key, id⟩ := e
    rw [find?_cons]
    by_cases hk : key = handle
    · subst hk
      rw [erase, List.filter_cons_of_neg (by simp), ← erase, ih]
      by_cases ho : other = key <;> simp [ho]
    · rw [erase, List.filter_cons_of_pos (by simpa using hk), ← erase, find?_cons, ih]
      by_cases ho : other = key
      · subst ho
        simp [hk]
      · simp [ho]

theorem find?_insert (m : HandleMap) (handle other : VmHandle) (id : Nat) :
    (m.insert handle id).find? other = if other = handle then some id else m.find? other := by
  rw [insert, ← erase, find?_cons, find?_erase]
  by_cases ho : other = handle <;> simp [ho]

end HandleMap

/-- The instances of a detector, and what they share. -/
structure Registry where
  instances : List Instance := []
  registered : HandleMap := []
  latchArmed : Bool := false
  lastSeq : Nat := 0
deriving DecidableEq, Repr, Inhabited

namespace Registry

def instance? (r : Registry) (id : Nat) : Option Instance :=
  r.instances[id]?

/-- The registry with a change made to the instance numbered `id`. -/
def modifyInstance (r : Registry) (id : Nat) (f : Instance → Instance) : Registry :=
  { r with instances := r.instances.modify id f }

/-- The registry with one more instance, which is not registered, and the instance's number. -/
def create (r : Registry) (i : Instance) : Nat × Registry :=
  (r.instances.length, { r with instances := r.instances ++ [i] })

/-! ## Registered instances -/

def find? (r : Registry) (handle : VmHandle) : Option Nat :=
  r.registered.find? handle

def contains (r : Registry) (handle : VmHandle) : Bool :=
  (r.find? handle).isSome

def size (r : Registry) : Nat :=
  r.registered.length

/-- Register the instance numbered `id`, unless its handle is taken. -/
def insert (r : Registry) (id : Nat) (handle : VmHandle) : Except DiagError Registry :=
  if r.contains handle then .error (.alreadyAttached handle)
  else .ok { r with registered := r.registered.insert handle id }

/-- The number of the instance registered for `handle`, and the registry without it. -/
def remove (r : Registry) (handle : VmHandle) : Option (Nat × Registry) :=
  (r.find? handle).map fun id => (id, { r with registered := r.registered.erase handle })

def registeredInstances (r : Registry) : List (Nat × Instance) :=
  r.registered.filterMap fun (_, id) => (r.instance? id).map fun i => (id, i)

/-! ## Calls -/

/-- The next number in the order of calls, and the registry that has given it out. Numbers start
at one. -/
def nextSeq (r : Registry) : Nat × Registry :=
  (r.lastSeq + 1, { r with lastSeq := r.lastSeq + 1 })

/-- The registry with a call entered on the instance numbered `id`. -/
def enterCall (r : Registry) (id : Nat) (call : CallRecord) : Registry :=
  r.modifyInstance id fun i => { i with calls := i.calls.enter call }

/-- The registry with the call numbered `seq` gone from the instance numbered `id`. -/
def leaveCall (r : Registry) (id seq : Nat) : Registry :=
  r.modifyInstance id fun i => { i with calls := i.calls.leave seq }

/-- Whether no call is in flight on any registered instance. -/
def allIdle (r : Registry) : Bool :=
  r.registeredInstances.all fun (_, i) => i.calls.isEmpty

/-- The later of two calls, by their place in the order of calls. -/
def later (a : Option (Nat × CallRecord)) (b : Nat × CallRecord) : Option (Nat × CallRecord) :=
  match a with
  | none => some b
  | some a => if a.2.seq ≤ b.2.seq then some b else some a

/-- Of the registered instances whose innermost call is a native, the one whose call is the most
recent, with that call. -/
def mostRecentNative? (r : Registry) : Option (Nat × CallRecord) :=
  let tops := r.registeredInstances.filterMap fun (id, i) =>
    (i.calls.top?.filter fun call => call.kind == .toNative).map fun call => (id, call)
  tops.foldl later none

end Registry

end ScriptDiag
