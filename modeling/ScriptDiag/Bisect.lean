/-!
# Searching sorted lists

`partitionPoint p xs` finds by halving where the entries satisfying `p` end. On a list in which
they all come first that is the length of the longest prefix satisfying `p`
(`partitionPoint_eq_length_takeWhile`); on any other list the answer still depends only on the
entries probed, and is at most the length.

On a list in ascending order of a key, `lastBefore?` finds the entry of greatest key at or below a
bound, and of several with that key the last (`isLatest_of_lastBefore?`).
-/

namespace ScriptDiag

variable {α : Type}

/-- Search the `size` entries from `base` on. The later half is kept if its first entry satisfies
`p`, the earlier half otherwise, until one entry is left. -/
def partitionPointFrom (p : α → Bool) (xs : List α) (size base : Nat) : Nat :=
  if size ≤ 1 then
    if (xs[base]?).any p then base + 1 else base
  else
    let half := size / 2
    partitionPointFrom p xs (size - half)
      (if (xs[base + half]?).any p then base + half else base)
termination_by size
decreasing_by omega

/-- The number of entries in front of the first one not satisfying `p`, for a list in which no
entry satisfying `p` follows one that does not. -/
def partitionPoint (p : α → Bool) (xs : List α) : Nat :=
  partitionPointFrom p xs xs.length 0

/-- The last entry in front of the partition point. -/
def lastBefore? (p : α → Bool) (xs : List α) : Option α :=
  match partitionPoint p xs with
  | 0 => none
  | n + 1 => xs[n]?

theorem partitionPointFrom_eq {p : α → Bool} {xs : List α} {n : Nat}
    (hp : ∀ i, (xs[i]?).any p = decide (i < n)) {size base : Nat}
    (hlow : base ≤ n) (hhigh : n ≤ base + size) : partitionPointFrom p xs size base = n := by
  fun_induction partitionPointFrom p xs size base with
  | case1 size base _ hb =>
    rw [hp, decide_eq_true_eq] at hb
    omega
  | case2 size base _ hb =>
    rw [hp, decide_eq_true_eq] at hb
    omega
  | case3 size base _ half ih =>
    simp only [hp, decide_eq_true_eq] at ih ⊢
    apply ih
    · split <;> omega
    · split <;> omega

/-- The search ends between the entries satisfying `p` and those that do not. -/
theorem partitionPoint_append {p : α → Bool} {xs ys : List α} (hxs : ∀ x ∈ xs, p x = true)
    (hys : ∀ y ∈ ys, p y = false) : partitionPoint p (xs ++ ys) = xs.length := by
  apply partitionPointFrom_eq
  · intro i
    by_cases hi : i < xs.length
    · rw [List.getElem?_append_left hi, List.getElem?_eq_getElem hi, decide_eq_true hi]
      exact hxs _ (List.getElem_mem hi)
    · rw [List.getElem?_append_right (Nat.le_of_not_lt hi), decide_eq_false hi]
      cases hy : ys[i - xs.length]? with
      | none => rfl
      | some y => exact hys y (List.mem_of_getElem? hy)
  · exact Nat.zero_le _
  · rw [List.length_append]
    omega

theorem lastBefore?_append {p : α → Bool} {xs ys : List α} (hxs : ∀ x ∈ xs, p x = true)
    (hys : ∀ y ∈ ys, p y = false) : lastBefore? p (xs ++ ys) = xs.getLast? := by
  rw [lastBefore?, partitionPoint_append hxs hys, List.getLast?_eq_getElem?]
  cases xs with
  | nil => rfl
  | cons x xs => exact List.getElem?_append_left (Nat.lt_succ_self _)

/-- A list in which no entry satisfying `p` follows one that does not, in its two parts. -/
theorem exists_partition {p : α → Bool} {xs : List α}
    (h : xs.Pairwise fun a b => p b = true → p a = true) :
    ∃ ys zs, xs = ys ++ zs ∧ (∀ y ∈ ys, p y = true) ∧ ∀ z ∈ zs, p z = false := by
  induction xs with
  | nil => exact ⟨[], [], rfl, nofun, nofun⟩
  | cons x xs ih =>
    rw [List.pairwise_cons] at h
    cases hx : p x with
    | true =>
      obtain ⟨ys, zs, rfl, hys, hzs⟩ := ih h.2
      exact ⟨x :: ys, zs, rfl, List.forall_mem_cons.2 ⟨hx, hys⟩, hzs⟩
    | false =>
      refine ⟨[], x :: xs, rfl, nofun, List.forall_mem_cons.2 ⟨hx, fun z hz => ?_⟩⟩
      exact Bool.eq_false_iff.2 fun hpz => Bool.eq_false_iff.1 hx (h.1 z hz hpz)

/-- Where the entries satisfying `p` come first, the search counts them. -/
theorem partitionPoint_eq_length_takeWhile {p : α → Bool} {xs : List α}
    (h : xs.Pairwise fun a b => p b = true → p a = true) :
    partitionPoint p xs = (xs.takeWhile p).length := by
  obtain ⟨ys, zs, rfl, hys, hzs⟩ := exists_partition h
  have hnone : zs.takeWhile p = [] := by
    cases zs with
    | nil => rfl
    | cons z zs => exact List.takeWhile_cons_of_neg (Bool.eq_false_iff.1 (hzs z (.head _)))
  rw [partitionPoint_append hys hzs, List.takeWhile_append_of_pos hys, hnone, List.append_nil]

/-- On such a list the search finds the last of all entries satisfying `p`. -/
theorem lastBefore?_eq_getLast?_filter {p : α → Bool} {xs : List α}
    (h : xs.Pairwise fun a b => p b = true → p a = true) :
    lastBefore? p xs = (xs.filter p).getLast? := by
  obtain ⟨ys, zs, rfl, hys, hzs⟩ := exists_partition h
  have hfilter : (ys ++ zs).filter p = ys := by
    rw [List.filter_append, List.filter_eq_self.2 hys,
      List.filter_eq_nil_iff.2 fun z hz => Bool.eq_false_iff.1 (hzs z hz), List.append_nil]
  rw [lastBefore?_append hys hzs, hfilter]

/-! ## Searching by a key -/

section Latest

variable {κ : Type} [LE κ] {key : α → κ} {a : κ} {xs ys : List α} {x y : α}

/-- In an ascending list, the keys at or below a bound come first. -/
theorem pairwise_le_of_ascending [Std.IsLinearOrder κ] [DecidableLE κ]
    (h : xs.Pairwise fun x y => key x ≤ key y) (a : κ) :
    xs.Pairwise fun x y => decide (key y ≤ a) = true → decide (key x ≤ a) = true := by
  refine h.imp fun hle hy => ?_
  rw [decide_eq_true_eq] at hy ⊢
  exact Std.le_trans hle hy

theorem lastBefore?_eq_none_iff [Std.IsLinearOrder κ] [DecidableLE κ]
    (h : xs.Pairwise fun x y => key x ≤ key y) :
    lastBefore? (fun x => key x ≤ a) xs = none ↔ ∀ x ∈ xs, ¬ key x ≤ a := by
  rw [lastBefore?_eq_getLast?_filter (pairwise_le_of_ascending h a), List.getLast?_eq_none_iff,
    List.filter_eq_nil_iff]
  simp only [decide_eq_true_eq]

variable [DecidableEq κ]

/-- Of the entries of `xs` with keys at or below `a`, `x` has the greatest key, and of those with
this key it is the last. -/
structure IsLatest (key : α → κ) (a : κ) (xs : List α) (x : α) : Prop where
  le : key x ≤ a
  greatest : ∀ y ∈ xs, key y ≤ a → key y ≤ key x
  last : (xs.filter fun y => key y == key x).getLast? = some x

theorem IsLatest.mem (h : IsLatest key a xs x) : x ∈ xs :=
  (List.mem_filter.1 (List.mem_of_getLast? h.last)).1

/-- Which entry is the latest depends on the order of entries with equal keys only. -/
theorem IsLatest.of_filter_eq (h : IsLatest key a xs x) (hmem : ∀ y, y ∈ ys → y ∈ xs)
    (hfilter : ys.filter (fun y => key y == key x) = xs.filter fun y => key y == key x) :
    IsLatest key a ys x where
  le := h.le
  greatest y hy := h.greatest y (hmem y hy)
  last := hfilter ▸ h.last

variable [Std.IsLinearOrder κ]

theorem IsLatest.unique (hx : IsLatest key a xs x) (hy : IsLatest key a xs y) : x = y := by
  have hkey : key x = key y :=
    Std.le_antisymm (hy.greatest x hx.mem hx.le) (hx.greatest y hy.mem hy.le)
  have hlast := hx.last
  rw [hkey, hy.last, Option.some_inj] at hlast
  exact hlast.symm

/-- In an ascending list, the search finds the latest entry. -/
theorem isLatest_of_lastBefore? [DecidableLE κ] (h : xs.Pairwise fun x y => key x ≤ key y)
    (hx : lastBefore? (fun x => key x ≤ a) xs = some x) : IsLatest key a xs x := by
  rw [lastBefore?_eq_getLast?_filter (pairwise_le_of_ascending h a)] at hx
  obtain ⟨init, hinit⟩ := List.getLast?_eq_some_iff.1 hx
  have hle : key x ≤ a := of_decide_eq_true (List.mem_filter.1 (List.mem_of_getLast? hx)).2
  refine ⟨hle, fun y hy hya => ?_, ?_⟩
  · have hascending := h.filter fun y => decide (key y ≤ a)
    have hmem : y ∈ init ++ [x] := hinit ▸ List.mem_filter.2 ⟨hy, decide_eq_true hya⟩
    rw [hinit, List.pairwise_append] at hascending
    obtain hy | hy := List.mem_append.1 hmem
    · exact hascending.2.2 y hy x (.head _)
    · exact List.mem_singleton.1 hy ▸ Std.le_refl _
  · -- the entries with the key of `x` are at or below `a`
    have hsame : xs.filter (fun y => key y == key x) =
        (xs.filter fun y => key y ≤ a).filter fun y => key y == key x := by
      rw [List.filter_filter]
      refine List.filter_congr fun y _ => ?_
      cases heq : key y == key x with
      | false => rfl
      | true => rw [beq_iff_eq.1 heq, decide_eq_true hle, Bool.and_true]
    have hself : [x].filter (fun y => key y == key x) = [x] :=
      List.filter_cons_of_pos (beq_self_eq_true (key x))
    rw [hsame, hinit, List.filter_append, hself, List.getLast?_concat]

end Latest

end ScriptDiag
