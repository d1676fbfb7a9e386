import Mathlib.Data.List.Permutation
import ScriptDiag.Proofs.ListedRuns
import ScriptDiag.Proofs.ModuleLookups

/-!
# The order in which modules are added

A range that is added is joined to one that it touches, and to one only. If ranges of its path are
there already at both of its ends, it fills a gap (`ModuleRange.FillsGap`): it is joined to the one
below, and the one above stays apart although the two now touch. All other ranges of one path are
joined where they touch.

So it can be told from the order in which modules were added where the ranges of a table start
(`ModuleMap.Holds`). Two orders of the same modules give the same answers exactly if the same
modules fill gaps in them, and ranges of one path stay apart where they touch exactly if some module
fills a gap (`ModuleMap.tables_agree_iff_same_gaps`).
-/

namespace ScriptDiag

/-- The last address in front of `stop`. -/
theorem exists_last {base stop : Address} (hlt : base < stop) :
    ∃ last, base ≤ last ∧ last < stop ∧ ∀ address, last < address → stop ≤ address := by
  rw [UInt64.lt_iff_toNat_lt] at hlt
  have hone : (1 : Address) ≤ stop := by
    rw [UInt64.le_iff_toNat_le]
    exact Nat.lt_of_le_of_lt (Nat.zero_le _) hlt
  have hlast : (stop - 1).toNat = stop.toNat - 1 := UInt64.toNat_sub_of_le _ _ hone
  refine ⟨stop - 1, ?_, ?_, fun address hlt' => ?_⟩
  · rw [UInt64.le_iff_toNat_le, hlast]
    omega
  · rw [UInt64.lt_iff_toNat_lt, hlast]
    omega
  · rw [UInt64.lt_iff_toNat_lt, hlast] at hlt'
    rw [UInt64.le_iff_toNat_le]
    omega

/-! ## Modules that are apart -/

namespace ModuleRange

variable {g o : ModuleRange} {gs gs' before after : List ModuleRange} {address : Address}

/-- The ranges are not empty, and no two of them have an address in common. -/
structure AreApart (gs : List ModuleRange) : Prop where
  nonempty : ∀ g ∈ gs, g.base < g.stop
  disjoint : gs.Pairwise fun g o => ∀ address, ¬ (g.Covers address ∧ o.Covers address)

/-- `o` begins where `g` ends, and both are of one path. -/
def Meets (g o : ModuleRange) : Prop :=
  g.path = o.path ∧ g.stop = o.base

/-- When `g` was added, ranges of its path were there at both of its ends. -/
def FillsGap (gs : List ModuleRange) (g : ModuleRange) : Prop :=
  ∃ before after, gs = before ++ g :: after ∧ (∃ o ∈ before, o.Meets g) ∧ ∃ o ∈ before, g.Meets o

theorem AreApart.init (h : AreApart (gs ++ [g])) : AreApart gs where
  nonempty o ho := h.nonempty o (List.mem_append_left _ ho)
  disjoint := (List.pairwise_append.1 h.disjoint).1

theorem AreApart.perm (h : AreApart gs) (hperm : gs.Perm gs') : AreApart gs' where
  nonempty g hg := h.nonempty g (hperm.mem_iff.2 hg)
  disjoint := (hperm.pairwise_iff fun hgo address hog => hgo address hog.symm).1 h.disjoint

theorem AreApart.covers_base (h : AreApart gs) (hg : g ∈ gs) : g.Covers g.base :=
  ⟨UInt64.le_refl _, h.nonempty g hg⟩

/-- At most one of the ranges covers an address. -/
theorem AreApart.eq_of_covers (h : AreApart gs) (hg : g ∈ gs) (ho : o ∈ gs)
    (hg' : g.Covers address) (ho' : o.Covers address) : g = o := by
  by_contra hne
  have : Std.Symm fun g o : ModuleRange => ∀ address, ¬ (g.Covers address ∧ o.Covers address) :=
    ⟨fun g o hgo address hog => hgo address hog.symm⟩
  exact h.disjoint.forall hg ho hne address ⟨hg', ho'⟩

theorem AreApart.not_covers_last (h : AreApart (gs ++ [g])) (ho : o ∈ gs)
    (ho' : o.Covers address) : ¬ g.Covers address :=
  fun hg' => (List.pairwise_append.1 h.disjoint).2.2 o ho g (.head _) address ⟨ho', hg'⟩

theorem AreApart.isClearOf_last (h : AreApart (gs ++ [g])) (ho : o ∈ gs) :
    o.isClearOf g.base g.stop = true := by
  by_contra hclear
  obtain ⟨address, ho', hg'⟩ := exists_covers_of_not_clear (Bool.eq_false_iff.2 hclear)
    (h.nonempty o (List.mem_append_left _ ho)) (h.nonempty g (by simp))
  exact h.not_covers_last ho ho' hg'

/-- What has an address below a range ends there at the latest. -/
theorem AreApart.stop_le (h : AreApart gs) (hg : g ∈ gs) (ho : o ∈ gs) (ho' : o.Covers address)
    (hlt : address < g.base) : o.stop ≤ g.base := by
  by_contra hstop
  have hcovers : o.Covers g.base :=
    ⟨UInt64.le_trans ho'.1 (UInt64.le_of_lt hlt), UInt64.not_le.1 hstop⟩
  obtain rfl := h.eq_of_covers ho hg hcovers (h.covers_base hg)
  exact UInt64.lt_irrefl _ (UInt64.lt_of_le_of_lt ho'.1 hlt)

/-- No two of the ranges have their end in common. -/
theorem AreApart.eq_of_stop_eq (h : AreApart gs) (hg : g ∈ gs) (ho : o ∈ gs)
    (hstop : o.stop = g.stop) : o = g := by
  obtain ⟨last, hle, hlt, habove⟩ := exists_last (h.nonempty g hg)
  refine h.eq_of_covers ho hg ⟨?_, hstop ▸ hlt⟩ ⟨hle, hlt⟩
  by_contra hbase
  have := habove o.base (UInt64.not_le.1 hbase)
  have := h.nonempty o ho
  grind

theorem FillsGap.mem (h : FillsGap gs g) : g ∈ gs := by
  obtain ⟨before, after, rfl, -⟩ := h
  simp

/-- Added in ascending order, nothing fills a gap. -/
theorem not_fillsGap_of_ascending (hne : ∀ g ∈ gs, g.base < g.stop)
    (hascending : gs.Pairwise fun g o => g.stop ≤ o.base) : ¬ FillsGap gs g := by
  rintro ⟨before, after, rfl, -, o, ho, -, hmeets⟩
  have hle : o.stop ≤ g.base := (List.pairwise_append.1 hascending).2.2 o ho g (.head _)
  have ho' := hne o (List.mem_append_left _ ho)
  have hg' := hne g (by simp)
  grind

theorem areApart_of_ordered (hne : ∀ g ∈ gs, g.base < g.stop)
    (hordered : gs.Pairwise fun g o => g.stop ≤ o.base ∨ o.stop ≤ g.base) : AreApart gs where
  nonempty := hne
  disjoint := hordered.imp fun hapart address ⟨hg, ho⟩ => by
    unfold Covers at hg ho
    grind

/-- In a list that is longer by one range, that one may fill a gap. -/
theorem fillsGap_concat_iff : FillsGap (gs ++ [g]) o ↔
    FillsGap gs o ∨ o = g ∧ (∃ p ∈ gs, p.Meets g) ∧ ∃ p ∈ gs, g.Meets p := by
  constructor
  · rintro ⟨before, after, heq, hmeets⟩
    obtain rfl | ⟨init, last, rfl⟩ := List.eq_nil_or_concat after
    · obtain ⟨rfl, hg⟩ := List.append_inj' heq rfl
      cases hg
      exact .inr ⟨rfl, hmeets⟩
    · rw [List.concat_eq_append, ← List.cons_append, ← List.append_assoc] at heq
      obtain ⟨rfl, -⟩ := List.append_inj' heq rfl
      exact .inl ⟨before, init, rfl, hmeets⟩
  · rintro (⟨before, after, rfl, hmeets⟩ | ⟨rfl, hmeets⟩)
    · exact ⟨before, after ++ [g], by simp, hmeets⟩
    · exact ⟨gs, [], rfl, hmeets⟩

end ModuleRange

namespace ModuleMap

open ModuleRange (FillsGap AreApart)

variable {map map' before after : ModuleMap} {gs gs' : List ModuleRange} {m g o : ModuleRange}
  {path path' : String} {base stop x address : Address}

/-! ## Where ranges start and stop -/

/-- A range of the path starts at `x`. -/
def Starts (map : ModuleMap) (path : String) (x : Address) : Prop :=
  ∃ m ∈ map, m.path = path ∧ m.base = x

/-- A range of the path stops at `x`. -/
def Stops (map : ModuleMap) (path : String) (x : Address) : Prop :=
  ∃ m ∈ map, m.path = path ∧ m.stop = x

/-- A range of the path that stops at `x` filled a gap. -/
def ClosesGap (gs : List ModuleRange) (path : String) (x : Address) : Prop :=
  ∃ g, FillsGap gs g ∧ g.path = path ∧ g.stop = x

theorem starts_of_perm (h : map.Perm (m :: gs)) :
    Starts map path x ↔ Starts gs path x ∨ m.path = path ∧ m.base = x := by
  simp only [Starts, h.mem_iff, List.mem_cons, or_and_right, exists_or, exists_eq_left]
  exact or_comm

theorem stops_of_perm (h : map.Perm (m :: gs)) :
    Stops map path x ↔ Stops gs path x ∨ m.path = path ∧ m.stop = x := by
  simp only [Stops, h.mem_iff, List.mem_cons, or_and_right, exists_or, exists_eq_left]
  exact or_comm

theorem closesGap_concat_iff : ClosesGap (gs ++ [g]) path x ↔
    ClosesGap gs path x ∨
      (g.path = path ∧ g.stop = x) ∧ Stops gs g.path g.base ∧ Starts gs g.path g.stop := by
  simp only [ClosesGap, ModuleRange.fillsGap_concat_iff, or_and_right, exists_or]
  refine or_congr_right ⟨?_, ?_⟩
  · rintro ⟨o, ⟨rfl, ⟨p, hp, hmeets⟩, ⟨q, hq, hmeets'⟩⟩, hends⟩
    exact ⟨hends, ⟨p, hp, hmeets⟩, ⟨q, hq, hmeets'.1.symm, hmeets'.2.symm⟩⟩
  · rintro ⟨hends, ⟨p, hp, hmeets⟩, ⟨q, hq, hpath, hbase⟩⟩
    exact ⟨g, ⟨rfl, ⟨p, hp, hmeets⟩, ⟨q, hq, hpath.symm, hbase.symm⟩⟩, hends⟩

theorem ClosesGap.stops (h : ClosesGap gs path x) : Stops gs path x := by
  obtain ⟨g, hg, hpath, hstop⟩ := h
  exact ⟨g, hg.mem, hpath, hstop⟩

theorem ClosesGap.starts (h : ClosesGap gs path x) : Starts gs path x := by
  obtain ⟨g, ⟨before, after, rfl, -, o, ho, hmeets⟩, rfl, rfl⟩ := h
  exact ⟨o, List.mem_append_left _ ho, hmeets.1.symm, hmeets.2.symm⟩

/-- What stops at `x` under a path stops there in any other list that covers the same addresses, if
nothing in it goes on past `x`. -/
theorem Stops.of_covers (h : Stops gs path x) (hne : ∀ g ∈ gs, g.base < g.stop)
    (hcovers : ∀ address, (∃ g ∈ gs, g.path = path ∧ g.Covers address) →
      ∃ o ∈ gs', o.path = path ∧ o.Covers address)
    (hends : ∀ o ∈ gs', ∀ address, o.Covers address → address < x → o.stop ≤ x) :
    Stops gs' path x := by
  obtain ⟨g, hg, hpath, rfl⟩ := h
  obtain ⟨last, hle, hlt, habove⟩ := exists_last (hne g hg)
  obtain ⟨o, ho, hpath', ho'⟩ := hcovers last ⟨g, hg, hpath, hle, hlt⟩
  exact ⟨o, ho, hpath', UInt64.le_antisymm (hends o ho last ho' hlt) (habove o.stop ho'.2)⟩

/-! ## Adding a range -/

theorem WellFormed.areApart (h : map.WellFormed) : AreApart map :=
  ModuleRange.areApart_of_ordered (fun m hm => (h.ranges m hm).nonempty) (h.ascending.imp .inl)

/-- Where a range of its path stops, an added range does not start one. -/
theorem starts_insertRange_of_stops (h : WellFormed map) (hlt : base < stop)
    (hclear : ∀ o ∈ map, o.isClearOf base stop = true) (hstops : Stops map path base) :
    Starts (map.insertRange path base stop) path' x ↔ Starts map path' x := by
  obtain ⟨m, hm, hpath, hstop⟩ := hstops
  obtain ⟨before, o, after, rfl, -, -, hmap⟩ | ⟨_, _, _, -, -, -, hnone, -⟩ | ⟨hnone, -⟩ :=
    insertRange_cases h hlt hclear path
  · rw [hmap, starts_of_perm List.perm_middle, starts_of_perm List.perm_middle]
  · exact absurd hstop (hnone m hm hpath)
  · exact absurd hstop (hnone m hm hpath).1

/-- Elsewhere it starts one, and takes in a range of its path that starts where it stops. -/
theorem starts_insertRange_of_not_stops (h : WellFormed map) (hlt : base < stop)
    (hclear : ∀ o ∈ map, o.isClearOf base stop = true) (hstops : ¬ Stops map path base) :
    Starts (map.insertRange path base stop) path' x ↔
      Starts map path' x ∧ ¬ (path = path' ∧ stop = x) ∨ path = path' ∧ base = x := by
  obtain ⟨before, m, after, rfl, hpath, hstop, -⟩ |
    ⟨before, m, after, rfl, hpath, hbase, -, hmap⟩ | ⟨hnone, hmap⟩ :=
      insertRange_cases h hlt hclear path
  · exact absurd ⟨m, by simp, hpath, hstop⟩ hstops
  · -- no other range starts where `m` did
    have hrest : Starts (before ++ after) path' x → ¬ (path = path' ∧ stop = x) := by
      rintro ⟨o, ho, -, rfl⟩ ⟨-, hbase'⟩
      have ho' : o ∈ before ++ m :: after := List.perm_middle.mem_iff.2 (.tail _ ho)
      have hm := h.areApart.covers_base (g := m) (by simp)
      have hcovers := h.areApart.covers_base ho'
      rw [← hbase', ← hbase] at hcovers
      exact not_covers_of_covers h hm o ho hcovers
    rw [hmap, starts_of_perm List.perm_middle, starts_of_perm List.perm_middle, hpath, hbase]
    tauto
  · have hrest : Starts map path' x → ¬ (path = path' ∧ stop = x) := by
      rintro ⟨o, ho, rfl, rfl⟩ ⟨hpath, hbase⟩
      exact (hnone o ho hpath.symm).2 hbase.symm
    rw [hmap, starts_of_perm (add_perm map path base stop)]
    tauto

/-! ## What a table holds -/

/-- The table covers what the modules cover, under their paths. A range starts where a module does,
but where another one of its path stops there, only if that one filled a gap. -/
structure Holds (map : ModuleMap) (gs : List ModuleRange) : Prop where
  wellFormed : map.WellFormed
  bare : ∀ m ∈ map, m.symbols = []
  covers_iff : ∀ path address, (∃ m ∈ map, m.path = path ∧ m.Covers address) ↔
    ∃ g ∈ gs, g.path = path ∧ g.Covers address
  starts_iff : ∀ path x, Starts map path x ↔
    Starts gs path x ∧ (Stops gs path x → ClosesGap gs path x)

theorem holds_nil : Holds [] [] where
  wellFormed := wellFormed_nil
  bare := nofun
  covers_iff _ _ := by simp
  starts_iff _ _ := by simp [Starts]

theorem Holds.areApart_concat (h : Holds map gs) (hapart : AreApart (gs ++ [g])) :
    AreApart (map ++ [g]) where
  nonempty := by
    rw [List.forall_mem_append]
    refine ⟨h.wellFormed.areApart.nonempty, fun o ho => ?_⟩
    exact hapart.nonempty o (List.mem_append_right _ ho)
  disjoint := by
    refine List.pairwise_append.2 ⟨h.wellFormed.areApart.disjoint, List.pairwise_singleton _ _, ?_⟩
    rintro m hm _ hg address ⟨hm', hg'⟩
    obtain ⟨o, ho, -, ho'⟩ := (h.covers_iff m.path address).1 ⟨m, hm, rfl, hm'⟩
    exact hapart.not_covers_last ho ho' (List.mem_singleton.1 hg ▸ hg')

/-- The table has a range of the path of `g` that stops where `g` begins just if one was added. -/
theorem Holds.stops_iff (h : Holds map gs) (hapart : AreApart (gs ++ [g])) :
    Stops map g.path g.base ↔ Stops gs g.path g.base := by
  have hapart' := h.areApart_concat hapart
  constructor
  · refine fun hstops => hstops.of_covers h.wellFormed.areApart.nonempty
      (fun address => (h.covers_iff g.path address).1) fun o ho address ho' hlt => ?_
    exact hapart.stop_le (by simp) (List.mem_append_left _ ho) ho' hlt
  · refine fun hstops => hstops.of_covers hapart.init.nonempty
      (fun address => (h.covers_iff g.path address).2) fun m hm address hm' hlt => ?_
    exact hapart'.stop_le (by simp) (List.mem_append_left _ hm) hm' hlt

theorem Holds.insertRange (h : Holds map gs) (hapart : AreApart (gs ++ [g])) :
    Holds (map.insertRange g.path g.base g.stop) (gs ++ [g]) := by
  have hlt : g.base < g.stop := hapart.nonempty g (by simp)
  have hclear : ∀ m ∈ map, m.isClearOf g.base g.stop = true :=
    fun m hm => (h.areApart_concat hapart).isClearOf_last hm
  refine ⟨h.wellFormed.insertRange hlt hclear, ?_, fun path address => ?_, fun path x => ?_⟩
  · obtain ⟨old, rest, new, hmap, hmap', -, -, hsymbols, -⟩ :=
      exists_inserted h.wellFormed hlt hclear g.path
    intro m hm
    obtain rfl | hm := List.mem_cons.1 (hmap'.mem_iff.1 hm)
    · rw [hsymbols]
      cases old with
      | none => rfl
      | some o => exact h.bare o (hmap.mem_iff.2 (.head _))
    · exact h.bare m (hmap.mem_iff.2 (List.mem_append_right _ hm))
  · rw [covers_insertRange_iff h.wellFormed hlt hclear, h.covers_iff]
    simp only [List.mem_append, List.mem_singleton, or_and_right, exists_or, exists_eq_left]
    rfl
  · -- no other module begins or stops where `g` does
    have hbase : Starts gs path x → ¬ (g.path = path ∧ g.base = x) := by
      rintro ⟨o, ho, -, rfl⟩ ⟨-, hbase⟩
      refine hapart.not_covers_last ho (hapart.init.covers_base ho) ?_
      exact hbase ▸ hapart.covers_base (by simp)
    have hstop : Stops gs path x → ¬ (g.path = path ∧ g.stop = x) := by
      rintro ⟨o, ho, -, rfl⟩ ⟨-, hstop⟩
      have ho' := List.mem_append_left [g] ho
      obtain rfl := hapart.eq_of_stop_eq (by simp) ho' hstop.symm
      exact hapart.not_covers_last ho (hapart.covers_base ho') (hapart.covers_base ho')
    have hclosed := @ClosesGap.starts gs path x
    have hclosed' := @ClosesGap.stops gs path x
    rw [starts_of_perm (List.perm_append_singleton g gs),
      stops_of_perm (List.perm_append_singleton g gs), closesGap_concat_iff]
    by_cases hstops : Stops map g.path g.base
    · -- `g` starts no range; one that starts where `g` stops now does so behind a filled gap
      rw [starts_insertRange_of_stops h.wellFormed hlt hclear hstops, h.starts_iff]
      rw [h.stops_iff hapart] at hstops
      grind
    · -- `g` starts a range, and none is left that starts where `g` stops
      rw [starts_insertRange_of_not_stops h.wellFormed hlt hclear hstops, h.starts_iff]
      rw [h.stops_iff hapart] at hstops
      grind

/-! ## Filling a table -/

end ModuleMap

/-- The range in which a module is put: one that would reach past the last address ends there. -/
def PlacedModule.range (g : PlacedModule) : ModuleRange where
  base := g.base
  stop := if g.base + g.size < g.base then -1 else g.base + g.size
  path := g.path

/-- The range that a mapping has in a table, if it is one of code. -/
def Mapping.codeRange? (m : Mapping) : Option ModuleRange :=
  if m.isCode then m.path.map fun path => { base := m.start, stop := m.stop, path } else none

namespace ModuleMap

open ModuleRange (FillsGap AreApart)

variable {map map' : ModuleMap} {gs gs' : List ModuleRange} {m g o : ModuleRange}
  {path : String} {x address : Address} {ms : List Mapping}

/-- The table was filled with the ranges, in this order: from a listing, by adding modules, or
both. -/
inductive FilledWith : ModuleMap → List ModuleRange → Prop
  | empty : FilledWith [] []
  | listed {text : String} {ms : List Mapping} :
      Mapping.Listed (lines text.toList) ms →
      FilledWith (ofListing text) (ms.filterMap Mapping.codeRange?)
  | insert {map : ModuleMap} {gs : List ModuleRange} (g : PlacedModule) :
      FilledWith map gs → FilledWith (map.insert g.path g.base g.size) (gs ++ [g.range])

theorem holds_ofMappings (hapart : AreApart (ms.filterMap Mapping.codeRange?)) :
    Holds (ofMappings ms) (ms.filterMap Mapping.codeRange?) := by
  induction ms using List.reverseRecOn with
  | nil => exact holds_nil
  | append_singleton ms m ih =>
    rw [List.filterMap_append] at hapart ⊢
    cases hcode : m.isCode with
    | false =>
      have hnone : [m].filterMap Mapping.codeRange? = [] := by simp [Mapping.codeRange?, hcode]
      rw [hnone, List.append_nil] at hapart ⊢
      rw [ofMappings_concat_of_not_isCode hcode]
      exact ih hapart
    | true =>
      obtain ⟨path, hpath⟩ := Mapping.exists_path_of_isCode hcode
      have hsome : [m].filterMap Mapping.codeRange? =
          [({ base := m.start, stop := m.stop, path } : ModuleRange)] := by
        simp [Mapping.codeRange?, hcode, hpath]
      rw [hsome] at hapart ⊢
      rw [ofMappings_concat_of_isCode hcode hpath]
      exact (ih hapart.init).insertRange hapart

theorem FilledWith.holds (h : FilledWith map gs) (hapart : AreApart gs) : Holds map gs := by
  induction h with
  | empty => exact holds_nil
  | listed hlisted =>
    have hparsed := Mapping.listed_iff.1 hlisted
    rw [ofListing, Mapping.parseListing, hparsed]
    exact holds_ofMappings hapart
  | insert g _ ih => exact (ih hapart.init).insertRange hapart

/-! ## Answers -/

/-- Ranges of one path do not touch. -/
def IsJoined (map : ModuleMap) : Prop :=
  map.Pairwise fun m n => m.path = n.path → m.touches n.base n.stop = false

theorem Holds.resolve_eq (h : Holds map gs) (hm : m ∈ map) (hm' : m.Covers address) :
    map.resolve address = { address, module := some m.name, offset := address - m.base } := by
  rw [resolve_of_covers h.wellFormed hm hm', m.describe_of_symbols_eq_nil (h.bare m hm)]

/-- Two tables of the same modules cover each address under the same path, or both do not cover
it. -/
theorem Holds.cases_of_perm (h : Holds map gs) (h' : Holds map' gs') (hperm : gs.Perm gs')
    (address : Address) :
    (∃ m ∈ map, ∃ m' ∈ map', m.path = m'.path ∧ m.Covers address ∧ m'.Covers address) ∨
      (∀ m ∈ map, ¬ m.Covers address) ∧ ∀ m ∈ map', ¬ m.Covers address := by
  have hcovers : ∀ path, (∃ m ∈ map, m.path = path ∧ m.Covers address) ↔
      ∃ m ∈ map', m.path = path ∧ m.Covers address := by
    intro path
    rw [h.covers_iff, h'.covers_iff]
    exact exists_congr fun g => and_congr_left' hperm.mem_iff
  by_cases hsome : ∃ m ∈ map, m.Covers address
  · obtain ⟨m, hm, hm'⟩ := hsome
    obtain ⟨m', hmem, hpath, hm''⟩ := (hcovers m.path).1 ⟨m, hm, rfl, hm'⟩
    exact .inl ⟨m, hm, m', hmem, hpath.symm, hm', hm''⟩
  · refine .inr ⟨fun m hm hm' => hsome ⟨m, hm, hm'⟩, fun m hm hm' => hsome ?_⟩
    obtain ⟨o, ho, -, ho'⟩ := (hcovers m.path).2 ⟨m, hm, rfl, hm'⟩
    exact ⟨o, ho, ho'⟩

/-- Of the starts of a path at or below an address, the range that covers it has the last. -/
theorem Holds.le_base (h : Holds map gs) (hm : m ∈ map) (hm' : m.Covers address)
    (hstarts : Starts map m.path x) (hle : x ≤ address) : x ≤ m.base := by
  obtain ⟨o, ho, -, rfl⟩ := hstarts
  by_contra hlt
  have hcovers : m.Covers o.base :=
    ⟨UInt64.le_of_lt (UInt64.not_le.1 hlt), UInt64.lt_of_le_of_lt hle hm'.2⟩
  obtain rfl := h.wellFormed.areApart.eq_of_covers hm ho hcovers
    (h.wellFormed.areApart.covers_base ho)
  exact hlt (UInt64.le_refl _)

theorem Holds.resolve_eq_of_starts (h : Holds map gs) (h' : Holds map' gs')
    (hperm : gs.Perm gs') (hstarts : ∀ path x, Starts map path x ↔ Starts map' path x)
    (address : Address) : map.resolve address = map'.resolve address := by
  obtain ⟨m, hm, m', hmem, hpath, hm', hm''⟩ | ⟨hnone, hnone'⟩ :=
    h.cases_of_perm h' hperm address
  · have hbase : m.base = m'.base := by
      refine UInt64.le_antisymm (h'.le_base hmem hm'' ?_ hm'.1) (h.le_base hm hm' ?_ hm''.1)
      · exact (hstarts _ _).1 ⟨m, hm, hpath, rfl⟩
      · exact (hstarts _ _).2 ⟨m', hmem, hpath.symm, rfl⟩
    rw [h.resolve_eq hm hm', h'.resolve_eq hmem hm'', ModuleRange.name, ModuleRange.name, hpath,
      hbase]
  · rw [resolve_of_not_covers h.wellFormed hnone, resolve_of_not_covers h'.wellFormed hnone']

theorem Holds.starts_of_fillsGap (h : Holds map gs) (hg : FillsGap gs g) :
    Starts map g.path g.stop := by
  have hcloses : ClosesGap gs g.path g.stop := ⟨g, hg, rfl, rfl⟩
  exact (h.starts_iff _ _).2 ⟨hcloses.starts, fun _ => hcloses⟩

/-- If two tables of the same modules answer alike, what fills a gap in the one does in the
other. -/
theorem Holds.fillsGap_of_resolve_eq (h : Holds map gs) (h' : Holds map' gs')
    (hapart : AreApart gs) (hperm : gs.Perm gs')
    (heq : ∀ address, map.resolve address = map'.resolve address) (hg : FillsGap gs g) :
    FillsGap gs' g := by
  obtain ⟨o, ho, hpath, hbase⟩ := h.starts_of_fillsGap hg
  have ho' := h.wellFormed.areApart.covers_base ho
  -- the other table has a range that starts there, too
  have hstarts : Starts map' g.path g.stop := by
    obtain ⟨m, hm, m', hmem, hpath', hm', hm''⟩ | ⟨hnone, -⟩ :=
      h.cases_of_perm h' hperm o.base
    · obtain rfl := h.wellFormed.areApart.eq_of_covers hm ho hm' ho'
      have hoffset := congrArg NativeSymbol.offset (heq m.base)
      rw [h.resolve_eq hm hm', h'.resolve_eq hmem hm''] at hoffset
      refine ⟨m', hmem, hpath' ▸ hpath, hbase ▸ ?_⟩
      exact ((UInt64.sub_right_inj m.base).1 hoffset).symm
    · exact absurd ho' (hnone o ho)
  have hmem : g ∈ gs' := hperm.mem_iff.1 hg.mem
  obtain ⟨g', hg', -, hstop⟩ := ((h'.starts_iff _ _).1 hstarts).2 ⟨g, hmem, rfl, rfl⟩
  rwa [(hapart.perm hperm).eq_of_stop_eq hmem hg'.mem hstop] at hg'

theorem WellFormed.isJoined_iff (h : map.WellFormed) :
    map.IsJoined ↔ ∀ path x, Starts map path x → ¬ Stops map path x := by
  constructor
  · rintro hjoined path x ⟨n, hn, rfl, rfl⟩ ⟨m, hm, hpath, hstop⟩
    have hne : m ≠ n := by
      rintro rfl
      exact UInt64.lt_irrefl _ (hstop ▸ (h.ranges m hm).nonempty)
    have : Std.Symm fun m n : ModuleRange => m.path = n.path → m.touches n.base n.stop = false :=
      ⟨fun m n hmn hpath => by rw [ModuleRange.touches, Bool.and_comm]; exact hmn hpath.symm⟩
    have hapart := hjoined.forall hm hn hne hpath
    rw [Bool.eq_false_iff, Ne, ModuleRange.touches_iff, hstop] at hapart
    have hle : m.base ≤ n.base := hstop ▸ UInt64.le_of_lt (h.ranges m hm).nonempty
    have hle' := UInt64.le_of_lt (h.ranges n hn).nonempty
    exact hapart ⟨UInt64.le_trans hle hle', UInt64.le_refl _⟩
  · intro hnone
    refine h.ascending.imp_of_mem fun hm hn hle hpath => ?_
    rw [Bool.eq_false_iff, Ne, ModuleRange.touches_iff]
    rintro ⟨-, htouch⟩
    refine hnone _ _ ⟨_, hn, rfl, rfl⟩ ⟨_, hm, hpath, UInt64.le_antisymm hle htouch⟩

theorem Holds.isJoined_iff (h : Holds map gs) (hapart : AreApart gs) :
    map.IsJoined ↔ ∀ g, ¬ FillsGap gs g := by
  rw [h.wellFormed.isJoined_iff]
  constructor
  · intro hnone g hg
    have hstarts := h.starts_of_fillsGap hg
    refine hnone _ _ hstarts ?_
    obtain ⟨o, ho, -, hbase⟩ := hstarts
    have hstops : Stops gs g.path g.stop := ⟨g, hg.mem, rfl, rfl⟩
    refine hstops.of_covers hapart.nonempty (fun address => (h.covers_iff _ address).2) ?_
    intro m hm address hm' hlt
    rw [← hbase] at hlt ⊢
    exact h.wellFormed.areApart.stop_le ho hm hm' hlt
  · intro hnone path x hstarts hstops
    obtain ⟨hstarts, hcloses⟩ := (h.starts_iff path x).1 hstarts
    obtain ⟨p, hp, -, rfl⟩ := hstarts
    obtain ⟨g, hg, -⟩ := hcloses <| hstops.of_covers h.wellFormed.areApart.nonempty
      (fun address => (h.covers_iff _ address).1)
      fun o ho address ho' hlt => hapart.stop_le hp ho ho' hlt
    exact hnone g hg

/-- **Tables depend on the order of adding by the gaps that are filled.** Let two tables be filled
with the same modules, each in an order of its own, of which none is empty and no two have an
address in common. They name the same module at every address, and no symbol. They give the same
answers, offsets included, exactly if the same modules fill gaps in both orders. In a table, no two
ranges of one path touch exactly if no module fills a gap. -/
theorem tables_agree_iff_same_gaps (h : FilledWith map gs) (h' : FilledWith map' gs')
    (hperm : gs.Perm gs') (hapart : AreApart gs) :
    (∀ address, (map.resolve address).module = (map'.resolve address).module ∧
      (map.resolve address).symbol = none) ∧
    ((∀ address, map.resolve address = map'.resolve address) ↔
      ∀ g, FillsGap gs g ↔ FillsGap gs' g) ∧
    (map.IsJoined ↔ ∀ g, ¬ FillsGap gs g) := by
  have hholds := h.holds hapart
  have hholds' := h'.holds (hapart.perm hperm)
  refine ⟨fun address => ?_, ⟨fun heq g => ?_, fun hgaps => ?_⟩, hholds.isJoined_iff hapart⟩
  · obtain ⟨m, hm, m', hmem, hpath, hm', hm''⟩ | ⟨hnone, hnone'⟩ :=
      hholds.cases_of_perm hholds' hperm address
    · rw [hholds.resolve_eq hm hm', hholds'.resolve_eq hmem hm'']
      exact ⟨congrArg (fun path => some (baseName path)) hpath, rfl⟩
    · rw [resolve_of_not_covers hholds.wellFormed hnone,
        resolve_of_not_covers hholds'.wellFormed hnone']
      exact ⟨rfl, rfl⟩
  · exact ⟨hholds.fillsGap_of_resolve_eq hholds' hapart hperm heq,
      hholds'.fillsGap_of_resolve_eq hholds (hapart.perm hperm) hperm.symm fun address =>
        (heq address).symm⟩
  · refine hholds.resolve_eq_of_starts hholds' hperm fun path x => ?_
    have hstarts : Starts gs path x ↔ Starts gs' path x :=
      exists_congr fun g => and_congr_left' hperm.mem_iff
    have hstops : Stops gs path x ↔ Stops gs' path x :=
      exists_congr fun g => and_congr_left' hperm.mem_iff
    have hcloses : ClosesGap gs path x ↔ ClosesGap gs' path x :=
      exists_congr fun g => and_congr_left' (hgaps g)
    rw [hholds.starts_iff, hholds'.starts_iff, hstarts, hstops, hcloses]

/-- Three parts of one library, of which the middle one comes last. -/
def middleLast : List PlacedModule :=
  [⟨"/lib/a.so", 0x1000, 0x1000⟩, ⟨"/lib/a.so", 0x3000, 0x1000⟩, ⟨"/lib/a.so", 0x2000, 0x1000⟩]

/-- The same parts in a listing, the last line of which is about no code. -/
def middleListed : String :=
  String.join
    ["1000-2000 r-xp 0 8:1 11 /lib/a.so\n", "2000-3000 r-xp 1000 8:1 11 /lib/a.so\n",
      "3000-4000 r-xp 2000 8:1 11 /lib/a.so\n", "4000-5000 rw-p 3000 8:1 11 /lib/a.so\n"]

def middleMappings : List Mapping :=
  [⟨0x1000, 0x2000, ['r', '-', 'x', 'p'], some "/lib/a.so"⟩,
    ⟨0x2000, 0x3000, ['r', '-', 'x', 'p'], some "/lib/a.so"⟩,
    ⟨0x3000, 0x4000, ['r', '-', 'x', 'p'], some "/lib/a.so"⟩,
    ⟨0x4000, 0x5000, ['r', 'w', '-', 'p'], some "/lib/a.so"⟩]

theorem areApart_middleLast : AreApart (middleLast.map PlacedModule.range) :=
  ModuleRange.areApart_of_ordered (by decide) (by decide)

/-- Added with the middle last, the parts stay in two ranges, which the listing joins. -/
theorem middleLast_disagrees_with_listing :
    let gs := middleLast.map PlacedModule.range
    let map := build (middleLast.map .module)
    FilledWith map gs ∧
      FilledWith (ofListing middleListed) (middleMappings.filterMap Mapping.codeRange?) ∧
      gs.Perm (middleMappings.filterMap Mapping.codeRange?) ∧ AreApart gs ∧
      (¬ ∀ address, map.resolve address = (ofListing middleListed).resolve address) ∧
      ¬ map.IsJoined ∧ (ofListing middleListed).IsJoined := by
  intro gs map
  have hfilled : FilledWith map gs := .insert _ (.insert _ (.insert _ .empty))
  have hlisted : Mapping.Listed (lines middleListed.toList) middleMappings := by
    rw [middleListed, String.toList_join, Mapping.listed_iff]
    decide +kernel
  have hperm : gs.Perm (middleMappings.filterMap Mapping.codeRange?) := by decide
  have hgap : FillsGap gs ⟨0x2000, 0x3000, "/lib/a.so", []⟩ :=
    ⟨gs.take 2, [], rfl, ⟨_, .head _, rfl, rfl⟩, ⟨_, .tail _ (.head _), rfl, rfl⟩⟩
  have hnone : ∀ g, ¬ FillsGap (middleMappings.filterMap Mapping.codeRange?) g := fun g =>
    ModuleRange.not_fillsGap_of_ascending (by decide) (by decide)
  obtain ⟨-, hagree, hjoined⟩ :=
    tables_agree_iff_same_gaps hfilled (.listed hlisted) hperm areApart_middleLast
  obtain ⟨-, -, hjoined'⟩ := tables_agree_iff_same_gaps (.listed hlisted) hfilled hperm.symm
    (areApart_middleLast.perm hperm)
  refine ⟨hfilled, .listed hlisted, hperm, areApart_middleLast, fun hall => ?_, fun h => ?_,
    hjoined'.2 hnone⟩
  · exact hnone _ ((hagree.1 hall _).1 hgap)
  · exact hjoined.1 h _ hgap

/-- The answer about the last part depends on the order, and with the middle last two ranges
touch. -/
theorem middleLast_changes_offset :
    let ascending : List PlacedModule :=
      [⟨"/lib/a.so", 0x1000, 0x1000⟩, ⟨"/lib/a.so", 0x2000, 0x1000⟩, ⟨"/lib/a.so", 0x3000, 0x1000⟩]
    middleLast.Perm ascending ∧ AreApart (middleLast.map PlacedModule.range) ∧
      (build (middleLast.map .module)).resolve 0x3800 =
        { address := 0x3800, module := some "a.so", offset := 0x800 } ∧
      (build (ascending.map .module)).resolve 0x3800 =
        { address := 0x3800, module := some "a.so", offset := 0x2800 } ∧
      ¬ (build (middleLast.map .module)).IsJoined := by
  have htable : build (middleLast.map .module) =
      [⟨0x1000, 0x3000, "/lib/a.so", []⟩, ⟨0x3000, 0x4000, "/lib/a.so", []⟩] := by cbv
  refine ⟨by decide, areApart_middleLast, ?_, by cbv, ?_⟩
  · rw [htable]
    cbv
  · rw [htable, IsJoined]
    decide

end ModuleMap

end ScriptDiag
