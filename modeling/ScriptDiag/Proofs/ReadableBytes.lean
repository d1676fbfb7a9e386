import ScriptDiag.Native.Code

/-!
# What is readable

Ranges are given in any order, and may be empty, inverted, nested, overlapping or touching. What is
stored is their union, in ranges that are not empty and ascend with gaps between them
(`ReadableRanges.WellFormed`). Since whatever touches has been joined, the addresses that are
readable in a row lie in one of the stored ranges, and its end tells how many there are
(`readableLength_eq`).

Here addresses are numbers, so that counting on from one does not wrap around.
-/

namespace ScriptDiag

namespace AddressRange

variable {r o : AddressRange} {address : Nat}

/-- `address` lies in the range. None lies in an empty or an inverted one. -/
def Contains (r : AddressRange) (address : Nat) : Prop :=
  r.start.toNat ≤ address ∧ address < r.stop.toNat

theorem Contains.nonempty (h : r.Contains address) : r.start < r.stop :=
  UInt64.lt_iff_toNat_lt.2 (Nat.lt_of_le_of_lt h.1 h.2)

/-- A range that begins in another one, or at its end, makes one range together with it. -/
theorem contains_join_iff (hle : r.start ≤ o.start) (htouch : o.start ≤ r.stop) :
    ({ r with stop := max r.stop o.stop } : AddressRange).Contains address ↔
      r.Contains address ∨ o.Contains address := by
  have hmax : (max r.stop o.stop).toNat = max r.stop.toNat o.stop.toNat := by
    show (if r.stop ≤ o.stop then o.stop else r.stop).toNat = _
    split
    case isTrue hle => exact (Nat.max_eq_right (UInt64.le_iff_toNat_le.1 hle)).symm
    case isFalse hlt =>
      exact (Nat.max_eq_left (Nat.le_of_lt (UInt64.lt_iff_toNat_lt.1 (UInt64.not_le.1 hlt)))).symm
  rw [UInt64.le_iff_toNat_le] at hle htouch
  simp only [Contains, hmax]
  omega

end AddressRange

namespace ReadableRanges

variable {ranges before after : List AddressRange} {r last : AddressRange} {address n : Nat}

/-- `address` lies in one of the ranges. -/
def IsReadable (ranges : List AddressRange) (address : Nat) : Prop :=
  ∃ r ∈ ranges, r.Contains address

/-- From `address` on, `n` addresses in a row are readable, and the next one is not. -/
def RunsFor (ranges : List AddressRange) (address n : Nat) : Prop :=
  (∀ i < n, IsReadable ranges (address + i)) ∧ ¬ IsReadable ranges (address + n)

/-- The ranges are not empty, and ascend with gaps between them. -/
structure WellFormed (ranges : ReadableRanges) : Prop where
  nonempty : ∀ r ∈ ranges, r.start < r.stop
  separated : ranges.Pairwise fun r o => r.stop < o.start

/-- The ranges begin in ascending order. -/
def Ascend (ranges : List AddressRange) : Prop :=
  ranges.Pairwise fun r o => r.start ≤ o.start

theorem isReadable_cons_iff :
    IsReadable (r :: ranges) address ↔ r.Contains address ∨ IsReadable ranges address := by
  simp [IsReadable]

theorem RunsFor.unique {m : Nat} (hm : RunsFor ranges address m) (hn : RunsFor ranges address n) :
    m = n := by
  obtain hlt | heq | hlt := Nat.lt_trichotomy m n
  · exact absurd (hn.1 m hlt) hm.2
  · exact heq
  · exact absurd (hm.1 n hlt) hn.2

/-! ## Joining -/

theorem Ascend.start_le (h : Ascend (last :: r :: ranges)) : last.start ≤ r.start :=
  (List.pairwise_cons.1 h).1 r (.head _)

/-- Joining a range to the one before it keeps the order. -/
theorem Ascend.joined (h : Ascend (last :: r :: ranges)) (stop : Address) :
    Ascend ({ last with stop } :: ranges) := by
  obtain ⟨hfirst, hrest⟩ := List.pairwise_cons.1 h
  exact List.pairwise_cons.2 ⟨fun o ho => hfirst o (.tail _ ho), hrest.of_cons⟩

theorem isReadable_joinTo_iff (h : Ascend (last :: ranges)) :
    IsReadable (joinTo last ranges) address ↔ IsReadable (last :: ranges) address := by
  induction ranges generalizing last with
  | nil => rfl
  | cons r ranges ih =>
    rw [joinTo]
    split
    case isTrue htouch =>
      have hjoined := ih (h.joined (max last.stop r.stop))
      rw [hjoined, isReadable_cons_iff, AddressRange.contains_join_iff h.start_le htouch,
        isReadable_cons_iff, isReadable_cons_iff, or_assoc]
    case isFalse =>
      have hrest := ih h.of_cons
      rw [isReadable_cons_iff, hrest, ← isReadable_cons_iff]

theorem start_le_of_mem_joinTo (h : Ascend (last :: ranges)) :
    ∀ o ∈ joinTo last ranges, last.start ≤ o.start := by
  induction ranges generalizing last with
  | nil =>
    intro o ho
    rw [List.mem_singleton.1 ho]
    exact UInt64.le_refl _
  | cons r ranges ih =>
    rw [joinTo]
    split
    case isTrue => exact ih (h.joined (max last.stop r.stop))
    case isFalse =>
      rw [List.forall_mem_cons]
      exact ⟨UInt64.le_refl _, fun o ho => UInt64.le_trans h.start_le (ih h.of_cons o ho)⟩

theorem wellFormed_joinTo (h : Ascend (last :: ranges))
    (hne : ∀ r ∈ last :: ranges, r.start < r.stop) : WellFormed (joinTo last ranges) := by
  induction ranges generalizing last with
  | nil => exact ⟨hne, List.pairwise_singleton _ _⟩
  | cons r ranges ih =>
    obtain ⟨hlast, hrest⟩ := List.forall_mem_cons.1 hne
    rw [joinTo]
    split
    case isTrue =>
      have hgrown : last.stop ≤ max last.stop r.stop := by
        show last.stop ≤ if last.stop ≤ r.stop then r.stop else last.stop
        split
        · assumption
        · exact UInt64.le_refl _
      refine ih (h.joined _) (List.forall_mem_cons.2 ⟨?_, fun o ho => hrest o (.tail _ ho)⟩)
      exact UInt64.lt_of_lt_of_le hlast hgrown
    case isFalse hapart =>
      -- what follows begins no earlier than `r`, which lies behind a gap
      have hjoined := ih h.of_cons hrest
      refine ⟨List.forall_mem_cons.2 ⟨hlast, hjoined.nonempty⟩,
        List.pairwise_cons.2 ⟨fun o ho => ?_, hjoined.separated⟩⟩
      exact UInt64.lt_of_lt_of_le (UInt64.not_le.1 hapart) (start_le_of_mem_joinTo h.of_cons o ho)

/-- What is joined are the ranges given that are not empty, in ascending order. -/
theorem ofRanges_cases (given : List AddressRange) :
    (ofRanges given = [] ∧ given.filter (fun r => r.start < r.stop) = []) ∨
      ∃ last ranges, ofRanges given = joinTo last ranges ∧
        (last :: ranges).Perm (given.filter fun r => r.start < r.stop) ∧
        Ascend (last :: ranges) := by
  have hperm := List.mergeSort_perm (given.filter fun r => r.start < r.stop) fun a b =>
    a.start < b.start || (a.start == b.start && a.stop ≤ b.stop)
  have hsorted : Ascend ((given.filter fun r => r.start < r.stop).mergeSort fun a b =>
      a.start < b.start || (a.start == b.start && a.stop ≤ b.stop)) := by
    refine (List.pairwise_mergeSort ?trans ?total _).imp ?le
    case trans => grind
    case total => grind
    case le => grind
  rw [ofRanges]
  split
  case h_1 hnil =>
    rw [hnil] at hperm
    exact .inl ⟨rfl, hperm.nil_eq.symm⟩
  case h_2 last ranges hcons =>
    rw [hcons] at hperm hsorted
    exact .inr ⟨last, ranges, rfl, hperm, hsorted⟩

theorem wellFormed_ofRanges (given : List AddressRange) : WellFormed (ofRanges given) := by
  obtain ⟨hnil, -⟩ | ⟨last, ranges, hjoin, hperm, hsorted⟩ := ofRanges_cases given
  · rw [hnil]
    exact ⟨nofun, .nil⟩
  · rw [hjoin]
    refine wellFormed_joinTo hsorted fun r hr => ?_
    exact of_decide_eq_true (List.mem_filter.1 (hperm.mem_iff.1 hr)).2

theorem isReadable_ofRanges_iff {given : List AddressRange} :
    IsReadable (ofRanges given) address ↔ IsReadable given address := by
  -- empty ranges contain no address
  have hfilter : IsReadable (given.filter fun r => r.start < r.stop) address ↔
      IsReadable given address := by
    constructor
    · exact fun ⟨r, hr, hcontains⟩ => ⟨r, (List.mem_filter.1 hr).1, hcontains⟩
    · exact fun ⟨r, hr, hcontains⟩ =>
        ⟨r, List.mem_filter.2 ⟨hr, decide_eq_true hcontains.nonempty⟩, hcontains⟩
  obtain ⟨hnil, hnone⟩ | ⟨last, ranges, hjoin, hperm, hsorted⟩ := ofRanges_cases given
  · rw [← hfilter, hnil, hnone]
  · rw [← hfilter, hjoin, isReadable_joinTo_iff hsorted]
    exact exists_congr fun r => and_congr_left' hperm.mem_iff

/-! ## Looking up -/

/-- Behind a stored range is a gap. -/
theorem WellFormed.runsFor (h : WellFormed (before ++ r :: after)) (hr : r.Contains address) :
    RunsFor (before ++ r :: after) address (r.stop.toNat - address) := by
  unfold AddressRange.Contains at hr
  constructor
  · intro i hi
    refine ⟨r, by simp, ?_⟩
    unfold AddressRange.Contains
    omega
  · rintro ⟨o, ho, ho'⟩
    have hseparated := h.separated
    rw [List.pairwise_append, List.pairwise_cons] at hseparated
    unfold AddressRange.Contains at ho'
    obtain hbefore | rfl | hafter : o ∈ before ∨ o = r ∨ o ∈ after := by simpa using ho
    · have := UInt64.lt_iff_toNat_lt.1 (hseparated.2.2 o hbefore r (.head _))
      omega
    · omega
    · have := UInt64.lt_iff_toNat_lt.1 (hseparated.2.1.1 o hafter)
      omega

theorem runsFor_zero (h : ¬ IsReadable ranges address) : RunsFor ranges address 0 :=
  ⟨nofun, h⟩

theorem WellFormed.exists_runsFor (h : WellFormed ranges) (address : Nat) :
    ∃ n, RunsFor ranges address n := by
  by_cases hreadable : IsReadable ranges address
  · obtain ⟨r, hr, hcontains⟩ := hreadable
    obtain ⟨before, after, rfl⟩ := List.append_of_mem hr
    exact ⟨_, h.runsFor hcontains⟩
  · exact ⟨0, runsFor_zero hreadable⟩

/-- The look-up counts the addresses that are readable in a row, up to `length` of them. -/
theorem WellFormed.readableLength_eq {address : Address} (h : WellFormed ranges)
    (hrun : RunsFor ranges address.toNat n) (length : Nat) :
    readableLength ranges address length = min length n := by
  have hascend : Ascend ranges := by
    refine h.separated.imp_of_mem fun hr _ hlt => ?_
    exact UInt64.le_of_lt (UInt64.lt_trans (h.nonempty _ hr) hlt)
  rw [readableLength]
  cases hlast : lastBefore? (fun r => r.start ≤ address) ranges with
  | none =>
    have hnone : ¬ IsReadable ranges address.toNat := fun ⟨r, hr, hcontains⟩ =>
      (lastBefore?_eq_none_iff hascend).1 hlast r hr (UInt64.le_iff_toNat_le.2 hcontains.1)
    rw [hrun.unique (runsFor_zero hnone), Nat.min_zero]
  | some r =>
    have hr := isLatest_of_lastBefore? hascend hlast
    obtain ⟨before, after, rfl⟩ := List.append_of_mem hr.mem
    dsimp only
    split
    case isTrue hstop =>
      have hcontains : r.Contains address.toNat :=
        ⟨UInt64.le_iff_toNat_le.1 hr.le, UInt64.lt_iff_toNat_lt.1 hstop⟩
      rw [hrun.unique (h.runsFor hcontains),
        UInt64.toNat_sub_of_le _ _ (UInt64.le_of_lt hstop), Nat.min_comm]
    case isFalse hstop =>
      -- ranges before `r` end below it, and none begins behind it at or below the address
      have hnone : ¬ IsReadable (before ++ r :: after) address.toNat := by
        rintro ⟨o, ho, hstart, hend⟩
        rw [← UInt64.le_iff_toNat_le] at hstart
        rw [← UInt64.lt_iff_toNat_lt] at hend
        have hseparated := h.separated
        rw [List.pairwise_append, List.pairwise_cons] at hseparated
        have hle := hr.greatest o ho hstart
        obtain hbefore | rfl | hafter : o ∈ before ∨ o = r ∨ o ∈ after := by simpa using ho
        · have := hseparated.2.2 o hbefore r (.head _)
          have := hr.le
          grind
        · exact hstop hend
        · have := hseparated.2.1.1 o hafter
          have := h.nonempty r (by simp)
          grind
      rw [hrun.unique (runsFor_zero hnone), Nat.min_zero]

/-- Addresses readable in a row do not wrap around. -/
theorem RunsFor.toNat_add {address : Address} {i : Nat} (h : RunsFor ranges address.toNat n)
    (hi : i < n) : (address + UInt64.ofNat i).toNat = address.toNat + i := by
  obtain ⟨r, -, hcontains⟩ := h.1 i hi
  have hlt : address.toNat + i < UInt64.size := Nat.lt_trans hcontains.2 r.stop.toNat_lt
  rw [UInt64.toNat_add, UInt64.toNat_ofNat_of_lt' (Nat.lt_of_le_of_lt (Nat.le_add_left _ _) hlt),
    Nat.mod_eq_of_lt hlt]

/-- **Readable ranges are exact.** Whatever ranges are given, those stored are not empty, ascend
with gaps between them, and have the same union. For every address, let `n` be the number of
addresses in a row, from this one on, that lie in the ranges given: a read finds the bytes at the
first `n` of them, or at the first `length` if that is less. It finds none exactly if the address
lies in no range given, or none is asked for. -/
theorem ofRanges_reads_exactly (given : List AddressRange) :
    (ofRanges given).WellFormed ∧
      (∀ address, IsReadable (ofRanges given) address ↔ IsReadable given address) ∧
      ∀ address : Address, ∃ n, RunsFor given address.toNat n ∧
        (∀ i < n, (address + UInt64.ofNat i).toNat = address.toNat + i) ∧
        ∀ (memory : Address → UInt8) (length : Nat),
          (ofRanges given).read memory address length =
            ((List.range (min length n)).map fun i => memory (address + UInt64.ofNat i)) ∧
          ((ofRanges given).read memory address length = [] ↔
            ¬ IsReadable given address.toNat ∨ length = 0) := by
  have hwf := wellFormed_ofRanges given
  refine ⟨hwf, fun address => isReadable_ofRanges_iff, fun address => ?_⟩
  obtain ⟨n, hstored⟩ := hwf.exists_runsFor address.toNat
  have hrun : RunsFor given address.toNat n := by
    simpa only [RunsFor, isReadable_ofRanges_iff] using hstored
  refine ⟨n, hrun, fun i => hrun.toNat_add, fun memory length => ?_⟩
  have hread : (ofRanges given).read memory address length =
      (List.range (min length n)).map fun i => memory (address + UInt64.ofNat i) := by
    rw [read, hwf.readableLength_eq hstored]
  have hnone : n = 0 ↔ ¬ IsReadable given address.toNat := by
    constructor
    · rintro rfl
      exact hrun.2
    · exact fun hnot => hrun.unique (runsFor_zero hnot)
  refine ⟨hread, ?_⟩
  rw [hread, List.map_eq_nil_iff, List.range_eq_nil, ← hnone]
  omega

end ReadableRanges

end ScriptDiag
