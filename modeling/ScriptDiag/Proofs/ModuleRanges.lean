import Mathlib.Data.List.TakeWhile
import ScriptDiag.Native.ModuleMap

/-!
# Tables of module ranges

A table is well formed if its ranges are non-empty and ascend without overlap, and the symbols of
each lie in it and ascend. On such a table the search finds the range that covers an address
(`find?_of_covers`, `find?_of_not_covers`), and what is added outside the ranges keeps it well
formed: a range of the same path grows at one of its ends, or else a range of its own is put in
(`insertRange_cases`).
-/

namespace ScriptDiag

namespace ModuleRange

variable {m : ModuleRange} {base stop : Address}

/-- `address` lies in the range. -/
def Covers (m : ModuleRange) (address : Address) : Prop :=
  m.base ≤ address ∧ address < m.stop

theorem isClearOf_iff : m.isClearOf base stop = true ↔ m.stop ≤ base ∨ stop ≤ m.base := by
  rw [isClearOf, Bool.or_eq_true, decide_eq_true_eq, decide_eq_true_eq]

theorem touches_iff : m.touches base stop = true ↔ m.base ≤ stop ∧ base ≤ m.stop := by
  rw [touches, Bool.and_eq_true, decide_eq_true_eq, decide_eq_true_eq]

/-- What is clear of some addresses, and does not begin below them, lies above. -/
theorem le_base_of_isClearOf (h : m.isClearOf base stop = true) (hne : m.base < m.stop)
    (hle : base ≤ m.base) : stop ≤ m.base := by
  rw [isClearOf_iff] at h
  grind

theorem stop_le_of_isClearOf (h : m.isClearOf base stop = true) (hne : m.base < m.stop)
    (hle : m.stop ≤ stop) : m.stop ≤ base := by
  rw [isClearOf_iff] at h
  grind

/-- What is not clear of some addresses has one of them. -/
theorem exists_covers_of_not_clear (h : m.isClearOf base stop = false) (hne : m.base < m.stop)
    (hlt : base < stop) : ∃ address, m.Covers address ∧ base ≤ address ∧ address < stop := by
  rw [Bool.eq_false_iff, Ne, isClearOf_iff, not_or, UInt64.not_le, UInt64.not_le] at h
  obtain hle | hle := UInt64.le_total m.base base
  · exact ⟨base, ⟨hle, h.1⟩, UInt64.le_refl _, hlt⟩
  · exact ⟨m.base, ⟨UInt64.le_refl _, hne⟩, hle, h.2⟩

/-- The range has addresses, and its symbols lie in it and ascend. -/
structure WellFormed (m : ModuleRange) : Prop where
  nonempty : m.base < m.stop
  covers : ∀ s ∈ m.symbols, m.Covers s.address
  ascending : m.symbols.Pairwise fun s t => s.address ≤ t.address

theorem WellFormed.widen {m' : ModuleRange} (h : m.WellFormed) (hbase : m'.base ≤ m.base)
    (hstop : m.stop ≤ m'.stop) (hsymbols : m'.symbols = m.symbols) : m'.WellFormed where
  nonempty := UInt64.lt_of_le_of_lt hbase (UInt64.lt_of_lt_of_le h.nonempty hstop)
  covers s hs :=
    have hcovers := h.covers s (hsymbols ▸ hs)
    ⟨UInt64.le_trans hbase hcovers.1, UInt64.lt_of_lt_of_le hcovers.2 hstop⟩
  ascending := hsymbols ▸ h.ascending

/-! ## Symbols -/

/-- A new symbol comes behind those at or below its address. -/
theorem WellFormed.symbols_addSymbol (h : m.WellFormed) (s : ExportedSymbol) :
    ∃ lower higher, m.symbols = lower ++ higher ∧
      (m.addSymbol s).symbols = lower ++ s :: higher ∧
      (∀ t ∈ lower, t.address ≤ s.address) ∧ ∀ t ∈ higher, s.address < t.address := by
  obtain ⟨lower, higher, hsymbols, hlower, hhigher⟩ :=
    exists_partition (pairwise_le_of_ascending h.ascending s.address)
  refine ⟨lower, higher, hsymbols, ?_, fun t ht => of_decide_eq_true (hlower t ht), fun t ht => ?_⟩
  · rw [addSymbol, hsymbols]
    dsimp only
    rw [partitionPoint_append hlower hhigher, List.take_left, List.drop_left]
  · exact UInt64.not_le.1 (of_decide_eq_false (hhigher t ht))

theorem mem_symbols_addSymbol {s t : ExportedSymbol} :
    t ∈ (m.addSymbol s).symbols ↔ t = s ∨ t ∈ m.symbols := by
  rw [addSymbol]
  dsimp only
  rw [List.mem_append, List.mem_cons, or_left_comm, ← List.mem_append, List.take_append_drop]

theorem addSymbol_ne (m : ModuleRange) (s : ExportedSymbol) : m.addSymbol s ≠ m := by
  intro heq
  have hlength := congrArg (fun m => m.symbols.length) heq
  rw [addSymbol] at hlength
  dsimp only at hlength
  rw [List.length_append, List.length_cons, ← Nat.add_assoc, ← List.length_append,
    List.take_append_drop] at hlength
  omega

theorem WellFormed.addSymbol (h : m.WellFormed) {s : ExportedSymbol} (hs : m.Covers s.address) :
    (m.addSymbol s).WellFormed where
  nonempty := h.nonempty
  covers t ht := by
    obtain rfl | ht := mem_symbols_addSymbol.1 ht
    · exact hs
    · exact h.covers t ht
  ascending := by
    obtain ⟨lower, higher, hsymbols, hadded, hlower, hhigher⟩ := h.symbols_addSymbol s
    have hascending := h.ascending
    rw [hsymbols, List.pairwise_append] at hascending
    rw [hadded, List.pairwise_append, List.pairwise_cons]
    refine ⟨hascending.1, ⟨fun t ht => UInt64.le_of_lt (hhigher t ht), hascending.2.1⟩, ?_⟩
    intro t ht u hu
    obtain rfl | hu := List.mem_cons.1 hu
    · exact hlower t ht
    · exact hascending.2.2 t ht u hu

/-- At its own address, a new symbol is the last one. -/
theorem WellFormed.filter_symbols_addSymbol (h : m.WellFormed) (s : ExportedSymbol)
    (address : Address) :
    (m.addSymbol s).symbols.filter (fun t => t.address == address) =
      m.symbols.filter (fun t => t.address == address) ++
        [s].filter fun t => t.address == address := by
  obtain ⟨lower, higher, hsymbols, hadded, -, hhigher⟩ := h.symbols_addSymbol s
  rw [hsymbols, hadded, ← List.singleton_append, List.filter_append, List.filter_append,
    List.filter_append, List.append_assoc]
  congr 1
  by_cases hs : s.address = address
  · have hnone : higher.filter (fun t => t.address == address) = [] := by
      refine List.filter_eq_nil_iff.2 fun t ht heq => ?_
      rw [beq_iff_eq, ← hs] at heq
      exact UInt64.lt_irrefl _ (heq ▸ hhigher t ht)
    rw [hnone, List.append_nil, List.nil_append]
  · rw [List.filter_cons_of_neg (by simpa using hs)]
    simp

/-- An address is described by the last of the symbols at or below it, or by its distance from the
start of the range if there is none. -/
theorem WellFormed.describe_cases (h : m.WellFormed) (address : Address) :
    (∃ s ∈ m.symbols, s.address ≤ address ∧
      (∀ t ∈ m.symbols, t.address ≤ address → t.address ≤ s.address) ∧
      (m.symbols.filter fun t => t.address == s.address).getLast? = some s ∧
      m.describe address =
        { address, module := some m.name, symbol := some s.name, offset := address - s.address }) ∨
    (∀ s ∈ m.symbols, ¬ s.address ≤ address) ∧
      m.describe address = { address, module := some m.name, offset := address - m.base } := by
  rw [describe]
  cases hlast : lastBefore? (fun s => s.address ≤ address) m.symbols with
  | none => exact .inr ⟨(lastBefore?_eq_none_iff h.ascending).1 hlast, rfl⟩
  | some s =>
    have hs := isLatest_of_lastBefore? h.ascending hlast
    exact .inl ⟨s, hs.mem, hs.le, hs.greatest, hs.last, rfl⟩

/-- Without symbols, an address is described by its distance from the start of the range. -/
theorem describe_of_symbols_eq_nil (h : m.symbols = []) (address : Address) :
    m.describe address = { address, module := some m.name, offset := address - m.base } := by
  have hnone : lastBefore? (fun s => s.address ≤ address) m.symbols = none := by
    rw [h]
    exact lastBefore?_eq_getLast?_filter .nil
  rw [describe, hnone]

end ModuleRange

namespace ModuleMap

variable {map before after : ModuleMap} {m : ModuleRange} {path : String}
  {base stop address : Address}

/-- The ranges of the table are well formed, and ascend without overlap. -/
structure WellFormed (map : ModuleMap) : Prop where
  ranges : ∀ m ∈ map, m.WellFormed
  ascending : map.Pairwise fun m n => m.stop ≤ n.base

theorem wellFormed_nil : WellFormed [] where
  ranges := nofun
  ascending := .nil

theorem wellFormed_append_cons_iff : WellFormed (before ++ m :: after) ↔
    WellFormed before ∧ m.WellFormed ∧ WellFormed after ∧
      (∀ o ∈ before, o.stop ≤ m.base) ∧ (∀ o ∈ after, m.stop ≤ o.base) ∧
      ∀ o ∈ before, ∀ p ∈ after, o.stop ≤ p.base := by
  constructor
  · intro h
    have hranges := h.ranges
    have hascending := h.ascending
    rw [List.forall_mem_append, List.forall_mem_cons] at hranges
    rw [List.pairwise_append, List.pairwise_cons] at hascending
    exact ⟨⟨hranges.1, hascending.1⟩, hranges.2.1, ⟨hranges.2.2, hascending.2.1.2⟩,
      fun o ho => hascending.2.2 o ho m (.head _), hascending.2.1.1,
      fun o ho p hp => hascending.2.2 o ho p (.tail _ hp)⟩
  · intro ⟨hbefore, hm, hafter, hbelow, habove, hacross⟩
    refine ⟨?_, ?_⟩
    · rw [List.forall_mem_append, List.forall_mem_cons]
      exact ⟨hbefore.ranges, hm, hafter.ranges⟩
    · rw [List.pairwise_append, List.pairwise_cons]
      exact ⟨hbefore.ascending, ⟨habove, hafter.ascending⟩,
        fun o ho => List.forall_mem_cons.2 ⟨hbelow o ho, hacross o ho⟩⟩

/-- No other range of a well-formed table covers an address that one covers. -/
theorem not_covers_of_covers (h : WellFormed (before ++ m :: after)) (hm : m.Covers address) :
    ∀ o ∈ before ++ after, ¬ o.Covers address := by
  obtain ⟨-, -, -, hbelow, habove, -⟩ := wellFormed_append_cons_iff.1 h
  intro o ho hcovers
  unfold ModuleRange.Covers at hm hcovers
  obtain ho | ho := List.mem_append.1 ho
  · have := hbelow o ho
    grind
  · have := habove o ho
    grind

/-! ## Look-ups -/

theorem find?_of_covers (h : WellFormed (before ++ m :: after)) (hm : m.Covers address) :
    find? (before ++ m :: after) address = some before.length := by
  obtain ⟨hbefore, hrange, -, hbelow, habove, -⟩ := wellFormed_append_cons_iff.1 h
  have hlow : ∀ o ∈ before ++ [m], decide (o.base ≤ address) = true := by
    intro o ho
    rw [decide_eq_true_eq]
    obtain ho | ho := List.mem_append.1 ho
    · have := (hbefore.ranges o ho).nonempty
      have := hbelow o ho
      have := hm.1
      grind
    · exact List.mem_singleton.1 ho ▸ hm.1
  have hhigh : ∀ o ∈ after, decide (o.base ≤ address) = false := by
    intro o ho
    rw [decide_eq_false_iff_not, UInt64.not_le]
    exact UInt64.lt_of_lt_of_le hm.2 (habove o ho)
  have hpoint : partitionPoint (fun o => decide (o.base ≤ address)) (before ++ m :: after) =
      before.length + 1 := by
    rw [List.append_cons, partitionPoint_append hlow hhigh, List.length_append]
    rfl
  rw [find?, hpoint]
  dsimp only
  rw [List.getElem?_append_right (Nat.le_refl _), Nat.sub_self]
  exact if_pos (decide_eq_true hm.2)

theorem find?_of_not_covers (h : WellFormed map) (hnone : ∀ m ∈ map, ¬ m.Covers address) :
    map.find? address = none := by
  have hpairwise : map.Pairwise fun m n =>
      decide (n.base ≤ address) = true → decide (m.base ≤ address) = true := by
    refine h.ascending.imp_of_mem fun hm _ hle hn => ?_
    rw [decide_eq_true_eq] at hn ⊢
    have := (h.ranges _ hm).nonempty
    grind
  obtain ⟨lower, higher, rfl, hlower, hhigher⟩ := exists_partition hpairwise
  rw [find?, partitionPoint_append hlower hhigher]
  obtain rfl | ⟨init, m, rfl⟩ := List.eq_nil_or_concat lower
  · rfl
  · have hm : ¬ address < m.stop := by
      have hle : m.base ≤ address := of_decide_eq_true (hlower m (by simp))
      exact fun hlt => hnone m (by simp) ⟨hle, hlt⟩
    simp [hm]

/-- In a well-formed table, an address is named after the range that covers it. -/
theorem resolve_of_covers (h : WellFormed map) (hmem : m ∈ map) (hm : m.Covers address) :
    map.resolve address = m.describe address := by
  obtain ⟨before, after, rfl⟩ := List.append_of_mem hmem
  rw [resolve, find?_of_covers h hm]
  simp

theorem resolve_of_not_covers (h : WellFormed map) (hnone : ∀ m ∈ map, ¬ m.Covers address) :
    map.resolve address = .unknown address := by
  rw [resolve, find?_of_not_covers h hnone]
  rfl

/-! ## Symbols -/

theorem insertSymbol_of_covers (h : WellFormed (before ++ m :: after)) (hm : m.Covers address)
    (name : String) :
    insertSymbol (before ++ m :: after) address name =
      before ++ m.addSymbol ⟨address, name⟩ :: after := by
  rw [insertSymbol, find?_of_covers h hm]
  dsimp only
  rw [List.modify_eq_take_drop, List.take_left, List.drop_left]
  rfl

theorem insertSymbol_of_not_covers (h : WellFormed map) (hnone : ∀ m ∈ map, ¬ m.Covers address)
    (name : String) : map.insertSymbol address name = map := by
  rw [insertSymbol, find?_of_not_covers h hnone]

theorem WellFormed.addSymbol (h : WellFormed (before ++ m :: after)) {s : ExportedSymbol}
    (hs : m.Covers s.address) : WellFormed (before ++ m.addSymbol s :: after) := by
  rw [wellFormed_append_cons_iff] at h ⊢
  exact ⟨h.1, h.2.1.addSymbol hs, h.2.2⟩

/-! ## Ranges -/

variable {p : ModuleRange → Bool}

theorem splitAtFirst?_eq_none (h : map.splitAtFirst? p = none) : ∀ m ∈ map, p m = false := by
  rw [splitAtFirst?] at h
  split at h
  case h_1 hnil =>
    intro m hm
    simpa using List.dropWhile_eq_nil_iff.1 hnil m hm
  case h_2 => cases h

theorem splitAtFirst?_eq_some (h : map.splitAtFirst? p = some (before, m, after)) :
    map = before ++ m :: after ∧ p m = true ∧ ∀ o ∈ before, p o = false := by
  rw [splitAtFirst?] at h
  split at h
  case h_1 => cases h
  case h_2 hdrop =>
    cases h
    have hfirst := List.head?_dropWhile_not (fun m => !p m) map
    rw [hdrop] at hfirst
    refine ⟨?_, by simpa using hfirst, fun o ho => by simpa using List.mem_takeWhile_imp ho⟩
    rw [← hdrop, List.takeWhile_append_dropWhile]

theorem insertRange_of_split {low high : Address}
    (hsplit : (map.splitAtFirst? fun m => m.path == path && m.touches base stop) =
      some (before, m, after))
    (hlow : min m.base base = low) (hhigh : max m.stop stop = high)
    (hclear : ∀ o ∈ before ++ after, o.isClearOf low high = true) :
    map.insertRange path base stop = before ++ { m with base := low, stop := high } :: after := by
  rw [insertRange, join?, hsplit]
  show (if ((before ++ after).all fun o => o.isClearOf (min m.base base) (max m.stop stop)) = true
    then some (before ++ { m with base := min m.base base, stop := max m.stop stop } :: after)
    else none).getD _ = _
  rw [hlow, hhigh, if_pos (List.all_eq_true.2 hclear)]
  rfl

/-- What becomes of a table when a range is added that it is clear of: a range of the same path that
ends there grows; if there is none, one that begins there grows; or else the range gets a place of
its own. -/
theorem insertRange_cases (h : WellFormed map) (hlt : base < stop)
    (hclear : ∀ o ∈ map, o.isClearOf base stop = true) (path : String) :
    (∃ before m after, map = before ++ m :: after ∧ m.path = path ∧ m.stop = base ∧
      map.insertRange path base stop = before ++ { m with stop := stop } :: after) ∨
    (∃ before m after, map = before ++ m :: after ∧ m.path = path ∧ m.base = stop ∧
      (∀ o ∈ map, o.path = path → o.stop ≠ base) ∧
      map.insertRange path base stop = before ++ { m with base := base } :: after) ∨
    ((∀ m ∈ map, m.path = path → m.stop ≠ base ∧ m.base ≠ stop) ∧
      map.insertRange path base stop = map.add path base stop) := by
  cases hsplit : map.splitAtFirst? fun m => m.path == path && m.touches base stop with
  | none =>
    refine .inr (.inr ⟨fun m hm hpath => ?_, ?_⟩)
    · have hapart := splitAtFirst?_eq_none hsplit m hm
      have := (h.ranges m hm).nonempty
      rw [hpath, beq_self_eq_true, Bool.true_and, Bool.eq_false_iff, Ne,
        ModuleRange.touches_iff] at hapart
      grind
    · rw [insertRange, join?, hsplit]
      rfl
  | some split =>
    obtain ⟨before, m, after⟩ := split
    obtain ⟨rfl, hm, hfirst⟩ := splitAtFirst?_eq_some hsplit
    rw [Bool.and_eq_true, beq_iff_eq, ModuleRange.touches_iff] at hm
    obtain ⟨hpath, hbegins, hends⟩ := hm
    obtain ⟨hbefore, hrange, hafter, hbelow, habove, -⟩ := wellFormed_append_cons_iff.1 h
    have hnonempty := hrange.nonempty
    obtain hle | hle := ModuleRange.isClearOf_iff.1 (hclear m (by simp))
    · have hstop : m.stop = base := UInt64.le_antisymm hle hends
      refine .inl ⟨before, m, after, rfl, hpath, hstop, ?_⟩
      have hlow : min m.base base = m.base := if_pos (by grind)
      have hhigh : max m.stop stop = stop := if_pos (by grind)
      refine insertRange_of_split hsplit hlow hhigh fun o ho => ModuleRange.isClearOf_iff.2 ?_
      obtain ho | ho := List.mem_append.1 ho
      · exact .inl (hbelow o ho)
      · exact .inr (ModuleRange.le_base_of_isClearOf (hclear o (by simp [ho]))
          (hafter.ranges o ho).nonempty (hstop ▸ habove o ho))
    · have hbase : m.base = stop := UInt64.le_antisymm hbegins hle
      have hnone : ∀ o ∈ before ++ m :: after, o.path = path → o.stop ≠ base := by
        intro o ho hpath' hstop
        have hne := (h.ranges o ho).nonempty
        obtain ho | rfl | ho : o ∈ before ∨ o = m ∨ o ∈ after := by simpa using ho
        · -- it would have been found before `m`
          have hapart := hfirst o ho
          rw [hpath', beq_self_eq_true, Bool.true_and, Bool.eq_false_iff, Ne,
            ModuleRange.touches_iff] at hapart
          grind
        · grind
        · have := habove o ho
          grind
      refine .inr (.inl ⟨before, m, after, rfl, hpath, hbase, hnone, ?_⟩)
      have hlow : min m.base base = base := if_neg (by grind)
      have hhigh : max m.stop stop = m.stop := if_neg (by grind)
      refine insertRange_of_split hsplit hlow hhigh fun o ho => ModuleRange.isClearOf_iff.2 ?_
      obtain ho | ho := List.mem_append.1 ho
      · exact .inl (ModuleRange.stop_le_of_isClearOf (hclear o (by simp [ho]))
          (hbefore.ranges o ho).nonempty (hbase ▸ hbelow o ho))
      · exact .inr (habove o ho)

theorem add_perm (map : ModuleMap) (path : String) (base stop : Address) :
    (map.add path base stop).Perm ({ base, stop, path } :: map) :=
  (List.mergeSort_perm _ _).trans (List.perm_append_singleton _ _)

theorem WellFormed.add (h : WellFormed map) (hlt : base < stop)
    (hclear : ∀ o ∈ map, o.isClearOf base stop = true) :
    WellFormed (map.add path base stop) := by
  have hranges : ∀ m ∈ map.add path base stop, m.WellFormed := by
    intro m hm
    obtain rfl | hm := List.mem_cons.1 ((add_perm map path base stop).mem_iff.1 hm)
    · exact ⟨hlt, nofun, .nil⟩
    · exact h.ranges m hm
  have hsorted : (map.add path base stop).Pairwise fun m n => m.base ≤ n.base := by
    refine (List.pairwise_mergeSort ?_ ?_ _).imp of_decide_eq_true
    · intro l m n hlm hmn
      rw [decide_eq_true_eq] at hlm hmn ⊢
      exact UInt64.le_trans hlm hmn
    · intro m n
      rw [Bool.or_eq_true, decide_eq_true_eq, decide_eq_true_eq]
      exact UInt64.le_total m.base n.base
  have hapart : (map.add path base stop).Pairwise fun m n => m.stop ≤ n.base ∨ n.stop ≤ m.base := by
    refine ((add_perm map path base stop).pairwise_iff Or.symm).2 (List.pairwise_cons.2 ⟨?_, ?_⟩)
    · exact fun o ho => (ModuleRange.isClearOf_iff.1 (hclear o ho)).symm
    · exact h.ascending.imp .inl
  refine ⟨hranges, (hsorted.and hapart).imp_of_mem fun _ hn hle => ?_⟩
  have := (hranges _ hn).nonempty
  grind

theorem WellFormed.insertRange (h : WellFormed map) (hlt : base < stop)
    (hclear : ∀ o ∈ map, o.isClearOf base stop = true) :
    WellFormed (map.insertRange path base stop) := by
  obtain ⟨before, m, after, rfl, -, hstop, hmap⟩ | ⟨before, m, after, rfl, -, hbase, -, hmap⟩ |
    ⟨-, hmap⟩ := insertRange_cases h hlt hclear path
  · rw [hmap]
    obtain ⟨hbefore, hrange, hafter, hbelow, habove, hacross⟩ := wellFormed_append_cons_iff.1 h
    refine wellFormed_append_cons_iff.2 ⟨hbefore, ?_, hafter, hbelow, fun o ho => ?_, hacross⟩
    · exact hrange.widen (UInt64.le_refl _) (hstop ▸ UInt64.le_of_lt hlt) rfl
    · exact ModuleRange.le_base_of_isClearOf (hclear o (by simp [ho]))
        (hafter.ranges o ho).nonempty (hstop ▸ habove o ho)
  · rw [hmap]
    obtain ⟨hbefore, hrange, hafter, hbelow, habove, hacross⟩ := wellFormed_append_cons_iff.1 h
    refine wellFormed_append_cons_iff.2 ⟨hbefore, ?_, hafter, fun o ho => ?_, habove, hacross⟩
    · exact hrange.widen (hbase ▸ UInt64.le_of_lt hlt) (UInt64.le_refl _) rfl
    · exact ModuleRange.stop_le_of_isClearOf (hclear o (by simp [ho]))
        (hbefore.ranges o ho).nonempty (hbase ▸ hbelow o ho)
  · rw [hmap]
    exact h.add hlt hclear

/-- The range that holds what was added takes the place of at most one other, which had the same
path, and keeps its addresses and its symbols. -/
theorem exists_inserted (h : WellFormed map) (hlt : base < stop)
    (hclear : ∀ o ∈ map, o.isClearOf base stop = true) (path : String) :
    ∃ (old : Option ModuleRange) (rest : ModuleMap) (new : ModuleRange),
      map.Perm (old.toList ++ rest) ∧ (map.insertRange path base stop).Perm (new :: rest) ∧
      new.path = path ∧ (∀ m, old = some m → m.path = path) ∧
      new.symbols = (old.map ModuleRange.symbols).getD [] ∧
      ∀ address, new.Covers address ↔
        (∃ m, old = some m ∧ m.Covers address) ∨ base ≤ address ∧ address < stop := by
  obtain ⟨before, m, after, rfl, hpath, hstop, hmap⟩ |
    ⟨before, m, after, rfl, hpath, hbase, -, hmap⟩ | ⟨-, hmap⟩ :=
      insertRange_cases h hlt hclear path
  · have hnonempty := (h.ranges m (by simp)).nonempty
    refine ⟨some m, before ++ after, { m with stop := stop }, List.perm_middle, ?_, hpath, ?_, rfl,
      ?_⟩
    · exact hmap ▸ List.perm_middle
    · exact fun _ hm => Option.some.inj hm ▸ hpath
    · intro address
      simp only [Option.some.injEq, exists_eq_left', ModuleRange.Covers]
      grind
  · have hnonempty := (h.ranges m (by simp)).nonempty
    refine ⟨some m, before ++ after, { m with base := base }, List.perm_middle, ?_, hpath, ?_, rfl,
      ?_⟩
    · exact hmap ▸ List.perm_middle
    · exact fun _ hm => Option.some.inj hm ▸ hpath
    · intro address
      simp only [Option.some.injEq, exists_eq_left', ModuleRange.Covers]
      grind
  · refine ⟨none, map, { base, stop, path }, .refl _, ?_, rfl, nofun, rfl, fun address => ?_⟩
    · exact hmap ▸ add_perm map path base stop
    · simp [ModuleRange.Covers]

/-- The table covers what it covered before, and what was added, each under its path. -/
theorem covers_insertRange_iff (h : WellFormed map) (hlt : base < stop)
    (hclear : ∀ o ∈ map, o.isClearOf base stop = true) {path' : String} :
    (∃ m ∈ map.insertRange path base stop, m.path = path' ∧ m.Covers address) ↔
      (∃ m ∈ map, m.path = path' ∧ m.Covers address) ∨
        path = path' ∧ base ≤ address ∧ address < stop := by
  obtain ⟨old, rest, new, hmap, hmap', hpath, hold, -, hcovers⟩ :=
    exists_inserted h hlt hclear path
  constructor
  · rintro ⟨m, hm, rfl, hm'⟩
    obtain rfl | hm := List.mem_cons.1 (hmap'.mem_iff.1 hm)
    · obtain ⟨o, ho, ho'⟩ | hadded := (hcovers address).1 hm'
      · have ho'' : o ∈ map := hmap.mem_iff.2 (List.mem_append_left _ (Option.mem_toList.2 ho))
        exact .inl ⟨o, ho'', (hold o ho).trans hpath.symm, ho'⟩
      · exact .inr ⟨hpath.symm, hadded⟩
    · exact .inl ⟨m, hmap.mem_iff.2 (List.mem_append_right _ hm), rfl, hm'⟩
  · rintro (⟨m, hm, rfl, hm'⟩ | ⟨rfl, hadded⟩)
    · obtain hm | hm := List.mem_append.1 (hmap.mem_iff.1 hm)
      · have hsome : old = some m := Option.mem_toList.1 hm
        exact ⟨new, hmap'.mem_iff.2 (.head _), hpath.trans (hold m hsome).symm,
          (hcovers address).2 (.inl ⟨m, hsome, hm'⟩)⟩
      · exact ⟨m, hmap'.mem_iff.2 (.tail _ hm), rfl, hm'⟩
    · exact ⟨new, hmap'.mem_iff.2 (.head _), hpath, (hcovers address).2 (.inr hadded)⟩

end ModuleMap

end ScriptDiag
