import Mathlib.Data.List.Forall2
import Mathlib.Data.List.Induction
import Mathlib.Data.List.Nodup
import Mathlib.Data.List.SplitBy
import ScriptDiag.Proofs.ListingLines
import ScriptDiag.Proofs.ModuleRanges

/-!
# Tables read from listings

Code mappings are the executable ones with an absolute path. Where the mappings of a listing ascend,
the table read from it has one range for each maximal run of code mappings: they are of one path,
each begins where the one before ends, and no other continues them (`Mapping.IsMaximalRun`).

The mappings are added one after the other, and the table is compared with the runs met so far,
which `List.splitBy` finds: the next mapping continues the last run exactly if it joins the last
range (`ModuleMap.spans_insertRange`).
-/

namespace ScriptDiag

/-! ## Lists in step -/

section Forall₂

variable {α β : Type} {R : α → β → Prop} {xs : List α} {ys : List β} {x : α}

theorem exists_of_forall₂_left (h : List.Forall₂ R xs ys) (hx : x ∈ xs) : ∃ y ∈ ys, R x y := by
  induction h with
  | nil => cases hx
  | cons hxy _ ih =>
    obtain rfl | hx := List.mem_cons.1 hx
    · exact ⟨_, .head _, hxy⟩
    · obtain ⟨y, hy, hR⟩ := ih hx
      exact ⟨y, .tail _ hy, hR⟩

theorem forall₂_concat_left (h : List.Forall₂ R (xs ++ [x]) ys) :
    ∃ init y, ys = init ++ [y] ∧ List.Forall₂ R xs init ∧ R x y := by
  have hreverse := List.forall₂_reverse_iff.2 h
  rw [List.reverse_concat, List.forall₂_cons_left_iff] at hreverse
  obtain ⟨y, rest, hxy, hrest, hys⟩ := hreverse
  refine ⟨rest.reverse, y, List.reverse_eq_cons_iff.1 hys, ?_, hxy⟩
  rwa [← List.forall₂_reverse_iff, List.reverse_reverse]

end Forall₂

namespace Mapping

variable {m o : Mapping} {ms before after run : List Mapping}

/-- `address` lies in the mapping. -/
def Covers (m : Mapping) (address : Address) : Prop :=
  m.start ≤ address ∧ address < m.stop

/-- The mapping is executable, and its path is absolute. -/
def isCode (m : Mapping) : Bool :=
  m.isExecutable && m.path.any fun path => path.toList.head? == some '/'

theorem isCode_of_path {path : String} (hpath : m.path = some path) :
    m.isCode = (m.isExecutable && path.startsWith "/") := by
  have hslash : (path.toList.head? == some '/') = path.startsWith "/" := by
    rw [Bool.eq_iff_iff, beq_iff_eq, String.startsWith_string_iff, List.head?_eq_some_iff]
    exact ⟨fun ⟨rest, heq⟩ => ⟨rest, heq.symm⟩, fun ⟨rest, heq⟩ => ⟨rest, heq.symm⟩⟩
  rw [isCode, hpath, ← hslash]
  rfl

theorem exists_path_of_isCode (h : m.isCode = true) : ∃ path, m.path = some path := by
  rw [isCode, Bool.and_eq_true, Option.any_eq_true] at h
  obtain ⟨path, hpath, -⟩ := h.2
  exact ⟨path, hpath⟩

/-- `o` has the path of `m` and begins where `m` ends. -/
def adjoins (m o : Mapping) : Bool :=
  m.stop == o.start && m.path == o.path

theorem adjoins_iff : m.adjoins o = true ↔ m.stop = o.start ∧ m.path = o.path := by
  rw [adjoins, Bool.and_eq_true, beq_iff_eq, beq_iff_eq]

/-- The mappings are not empty, and ascend without overlap. -/
structure AreAscending (ms : List Mapping) : Prop where
  nonempty : ∀ m ∈ ms, m.start < m.stop
  ascending : ms.Pairwise fun m o => m.stop ≤ o.start

/-- A run of code mappings of one path, each beginning where the last one ends, to which no code
mapping adjoins at either end. -/
structure IsMaximalRun (ms run : List Mapping) : Prop where
  nonempty : run ≠ []
  code : ∀ m ∈ run, m ∈ ms ∧ m.isCode = true
  contiguous : run.IsChain fun m o => m.adjoins o = true
  begins : ∀ m ∈ run.head?, ∀ o ∈ ms, o.isCode = true → o.adjoins m = false
  ends : ∀ m ∈ run.getLast?, ∀ o ∈ ms, o.isCode = true → m.adjoins o = false

/-- The code mappings, split where one does not adjoin the next. -/
def runs (ms : List Mapping) : List (List Mapping) :=
  (ms.filter isCode).splitBy adjoins

theorem AreAscending.sublist (h : AreAscending ms) (hsub : List.Sublist run ms) :
    AreAscending run where
  nonempty m hm := h.nonempty m (hsub.mem hm)
  ascending := h.ascending.sublist hsub

theorem AreAscending.nodup (h : AreAscending ms) : ms.Nodup := by
  refine h.ascending.imp_of_mem fun hm _ hle heq => ?_
  have := h.nonempty _ hm
  grind

theorem AreAscending.stop_le (h : AreAscending (before ++ m :: after)) :
    ∀ o ∈ before, o.stop ≤ m.start :=
  fun o ho => (List.pairwise_append.1 h.ascending).2.2 o ho m (.head _)

theorem AreAscending.le_start (h : AreAscending (before ++ m :: after)) :
    ∀ o ∈ after, m.stop ≤ o.start :=
  (List.pairwise_cons.1 (List.pairwise_append.1 h.ascending).2.1).1

/-- At most one of the mappings covers an address. -/
theorem AreAscending.eq_of_covers {address : Address} (h : AreAscending ms) (hm : m ∈ ms)
    (ho : o ∈ ms) (hm' : m.Covers address) (ho' : o.Covers address) : m = o := by
  obtain ⟨before, after, rfl⟩ := List.append_of_mem hm
  unfold Covers at hm' ho'
  obtain hbefore | rfl | hafter : o ∈ before ∨ o = m ∨ o ∈ after := by simpa using ho
  · have := h.stop_le o hbefore
    grind
  · rfl
  · have := h.le_start o hafter
    grind

/-- Nothing lies between a mapping and one that adjoins it. -/
theorem AreAscending.eq_nil_of_adjoins {between : List Mapping}
    (h : AreAscending (before ++ m :: (between ++ o :: after))) (hadjoins : m.adjoins o = true) :
    between = [] := by
  cases between with
  | nil => rfl
  | cons next between =>
    have hstart := (adjoins_iff.1 hadjoins).1
    have hne := h.nonempty next (by simp)
    have hle : m.stop ≤ next.start := h.le_start next (by simp)
    have hle' : next.stop ≤ o.start := by
      rw [← List.cons_append, ← List.append_assoc] at h
      exact h.stop_le next (by simp)
    grind

theorem AreAscending.eq_cons_of_adjoins (h : AreAscending (before ++ m :: after))
    (ho : o ∈ before ++ m :: after) (hadjoins : m.adjoins o = true) :
    ∃ rest, after = o :: rest := by
  have hstart := (adjoins_iff.1 hadjoins).1
  have hm := h.nonempty m (by simp)
  have hne := h.nonempty o ho
  obtain hbefore | rfl | hafter : o ∈ before ∨ o = m ∨ o ∈ after := by simpa using ho
  · have := h.stop_le o hbefore
    grind
  · grind
  · obtain ⟨between, rest, rfl⟩ := List.append_of_mem hafter
    obtain rfl := h.eq_nil_of_adjoins hadjoins
    exact ⟨rest, rfl⟩

theorem AreAscending.eq_concat_of_adjoins (h : AreAscending (before ++ m :: after))
    (ho : o ∈ before ++ m :: after) (hadjoins : o.adjoins m = true) :
    ∃ init, before = init ++ [o] := by
  have hstart := (adjoins_iff.1 hadjoins).1
  have hm := h.nonempty m (by simp)
  have hne := h.nonempty o ho
  obtain hbefore | rfl | hafter : o ∈ before ∨ o = m ∨ o ∈ after := by simpa using ho
  · obtain ⟨init, between, rfl⟩ := List.append_of_mem hbefore
    rw [List.append_assoc, List.cons_append] at h
    obtain rfl := h.eq_nil_of_adjoins hadjoins
    exact ⟨init, rfl⟩
  · grind
  · have := h.le_start o hafter
    grind

/-! ## Runs -/

/-- A chain of adjoining mappings is found in one piece. -/
theorem AreAscending.isPrefix_of_isChain (h : AreAscending (before ++ m :: after))
    (hchain : (m :: run).IsChain fun m o => m.adjoins o = true)
    (hmem : ∀ o ∈ run, o ∈ before ++ m :: after) : List.IsPrefix run after := by
  induction run generalizing before m after with
  | nil => exact List.nil_prefix
  | cons o run ih =>
    rw [List.isChain_cons_cons] at hchain
    obtain ⟨rest, rfl⟩ := h.eq_cons_of_adjoins (hmem o (.head _)) hchain.1
    rw [List.append_cons] at h hmem
    exact List.cons_prefix_cons.2 ⟨rfl, ih h hchain.2 fun p hp => hmem p (.tail _ hp)⟩

/-- A maximal run is one of the pieces. -/
theorem IsMaximalRun.mem_runs (hrun : IsMaximalRun ms run) (h : AreAscending ms) :
    run ∈ runs ms := by
  have hcode : AreAscending (ms.filter isCode) := h.sublist List.filter_sublist
  have hmem : ∀ o ∈ run, o ∈ ms.filter isCode := fun o ho => List.mem_filter.2 (hrun.code o ho)
  obtain ⟨m, rest, rfl⟩ := List.exists_cons_of_ne_nil hrun.nonempty
  obtain ⟨before, after, heq⟩ := List.append_of_mem (hmem m (.head _))
  rw [heq] at hcode hmem
  obtain ⟨after, rfl⟩ := hcode.isPrefix_of_isChain hrun.contiguous fun o ho => hmem o (.tail _ ho)
  have hbegins : ∀ o ∈ before.getLast?, ∀ p ∈ (m :: rest ++ after).head?, o.adjoins p = false := by
    intro o ho p hp
    have ho' : o ∈ ms.filter isCode := heq ▸ List.mem_append_left _ (List.mem_of_mem_getLast? ho)
    cases hp
    exact hrun.begins m rfl o (List.mem_filter.1 ho').1 (List.mem_filter.1 ho').2
  have hends : ∀ o ∈ (m :: rest).getLast?, ∀ p ∈ after.head?, o.adjoins p = false := by
    intro o ho p hp
    have hp' : p ∈ ms.filter isCode :=
      heq ▸ List.mem_append_right _ (.tail _ (List.mem_append_right _ (List.mem_of_mem_head? hp)))
    exact hrun.ends o ho p (List.mem_filter.1 hp').1 (List.mem_filter.1 hp').2
  rw [runs, heq, ← List.cons_append, List.splitBy_append hbegins, List.splitBy_append hends,
    List.splitBy_of_isChain hrun.nonempty hrun.contiguous]
  simp

/-- No code mapping adjoins at either end of a piece: the one that did would begin the next piece,
or end the one before. -/
theorem isMaximalRun_of_mem_runs (h : AreAscending ms) (hrun : run ∈ runs ms) :
    IsMaximalRun ms run := by
  have hcode : AreAscending (ms.filter isCode) := h.sublist List.filter_sublist
  obtain ⟨gs, hs, heq⟩ := List.append_of_mem hrun
  obtain ⟨hflat, hnil, hchain, hboundary⟩ := List.splitBy_eq_iff.1 heq
  rw [List.flatten_append, List.flatten_cons] at hflat
  rw [List.isChain_append, List.isChain_cons] at hboundary
  obtain ⟨-, ⟨hright, -⟩, hleft⟩ := hboundary
  refine ⟨List.ne_nil_of_mem_splitBy hrun, fun m hm => List.mem_filter.1 (hflat ▸ by simp [hm]),
    hchain run (by simp), fun m hm o ho ho' => Bool.eq_false_iff.2 fun hadjoins => ?_,
    fun m hm o ho ho' => Bool.eq_false_iff.2 fun hadjoins => ?_⟩
  · have hmem := List.mem_filter.2 ⟨ho, ho'⟩
    obtain ⟨rest, rfl⟩ := List.head?_eq_some_iff.1 hm
    rw [hflat, List.cons_append] at hcode hmem
    obtain ⟨init, hinit⟩ := hcode.eq_concat_of_adjoins hmem hadjoins
    have hne : gs ≠ [] := by
      rintro rfl
      simp at hinit
    obtain ⟨hlast, _, hapart⟩ := hleft _ (List.getLast_mem_getLast? hne) _ rfl
    rw [List.getLast_getLast_eq_getLast_flatten hne hlast] at hapart
    simp only [hinit, List.getLast_concat, List.head_cons] at hapart
    exact Bool.false_ne_true (hapart.symm.trans hadjoins)
  · have hmem := List.mem_filter.2 ⟨ho, ho'⟩
    obtain ⟨init, rfl⟩ := List.getLast?_eq_some_iff.1 hm
    rw [hflat, List.append_assoc, List.singleton_append, ← List.append_assoc] at hcode hmem
    obtain ⟨rest, hrest⟩ := hcode.eq_cons_of_adjoins hmem hadjoins
    have hne : hs ≠ [] := by
      rintro rfl
      simp at hrest
    obtain ⟨_, hhead, hapart⟩ := hright _ (List.head_mem_head? hne)
    rw [List.head_head_eq_head_flatten hne hhead] at hapart
    simp only [hrest, List.getLast_concat, List.head_cons] at hapart
    exact Bool.false_ne_true (hapart.symm.trans hadjoins)

/-- A code mapping that adjoins one of a maximal run belongs to the run: in the run, nothing else
can come next, and at its end, nothing adjoins. -/
theorem IsMaximalRun.mem_of_adjoins (hrun : IsMaximalRun ms run) (h : AreAscending ms)
    (hm : m ∈ run) (ho : o ∈ ms) (hcode : o.isCode = true) (hadjoins : m.adjoins o = true) :
    o ∈ run := by
  obtain ⟨before, after, rfl⟩ := List.append_of_mem hm
  cases after with
  | nil => cases (hrun.ends m (by simp) o ho hcode).symm.trans hadjoins
  | cons next after =>
    have hchain := (List.isChain_append_cons_cons.1 hrun.contiguous).2.1
    have hstart := (adjoins_iff.1 hchain).1.symm.trans (adjoins_iff.1 hadjoins).1
    have hnext := (hrun.code next (by simp)).1
    have hcovers : o.Covers next.start := ⟨hstart ▸ UInt64.le_refl _, hstart ▸ h.nonempty o ho⟩
    obtain rfl := h.eq_of_covers ho hnext hcovers ⟨UInt64.le_refl _, h.nonempty next hnext⟩
    simp

theorem mem_of_mem_runs (hrun : run ∈ runs ms) (hm : m ∈ run) : m ∈ ms ∧ m.isCode = true := by
  have hflat : m ∈ (runs ms).flatten := List.mem_flatten_of_mem hrun hm
  rwa [runs, List.flatten_splitBy, List.mem_filter] at hflat

theorem exists_mem_runs (hm : m ∈ ms) (hcode : m.isCode = true) : ∃ run ∈ runs ms, m ∈ run := by
  rw [← List.mem_flatten, runs, List.flatten_splitBy]
  exact List.mem_filter.2 ⟨hm, hcode⟩

theorem mem_runs_iff (h : AreAscending ms) : run ∈ runs ms ↔ IsMaximalRun ms run :=
  ⟨isMaximalRun_of_mem_runs h, fun hrun => hrun.mem_runs h⟩

theorem AreAscending.nodup_runs (h : AreAscending ms) : (runs ms).Nodup := by
  have hnodup : (runs ms).flatten.Nodup := by
    rw [runs, List.flatten_splitBy]
    exact (h.sublist List.filter_sublist).nodup
  refine (List.nodup_flatten.1 hnodup).2.imp_of_mem fun hrun _ hdisjoint heq => ?_
  obtain ⟨m, hm⟩ := List.exists_mem_of_ne_nil _ (List.ne_nil_of_mem_splitBy hrun)
  exact hdisjoint hm (heq ▸ hm)

theorem runs_concat_of_not_isCode (h : m.isCode = false) : runs (ms ++ [m]) = runs ms := by
  simp [runs, h]

/-- The last code mapping ends the last run. -/
theorem exists_run_of_getLast? (ho : o ∈ (ms.filter isCode).getLast?) :
    ∃ run ∈ runs ms, run.getLast? = some o := by
  have hne : ms.filter isCode ≠ [] := List.ne_nil_of_mem (List.mem_of_mem_getLast? ho)
  have hruns : runs ms ≠ [] := List.splitBy_ne_nil.2 hne
  have hrun : (runs ms).getLast hruns ≠ [] := List.ne_nil_of_mem_splitBy (List.getLast_mem hruns)
  refine ⟨(runs ms).getLast hruns, List.getLast_mem hruns, ?_⟩
  rw [List.getLast?_eq_some_getLast hrun]
  exact congrArg some ((List.getLast_getLast_splitBy _ hne).trans (List.getLast_of_mem_getLast? ho))

/-- A code mapping that adjoins no earlier one begins a run. -/
theorem runs_concat_of_apart (h : m.isCode = true)
    (hapart : ∀ run ∈ runs ms, ∀ o ∈ run.getLast?, o.adjoins m = false) :
    runs (ms ++ [m]) = runs ms ++ [[m]] := by
  have hsingle : [m].splitBy adjoins = [[m]] := rfl
  rw [runs, List.filter_append, List.filter_cons_of_pos h, List.filter_nil, List.splitBy_append,
    hsingle, runs]
  rintro o ho _ ⟨⟩
  obtain ⟨run, hrun, hlast⟩ := exists_run_of_getLast? ho
  exact hapart run hrun o hlast

/-- A code mapping that adjoins the end of the last run continues it. -/
theorem runs_concat_of_adjoins {init : List (List Mapping)} (h : m.isCode = true)
    (hruns : runs ms = init ++ [run]) (ho : run.getLast? = some o) (hadjoins : o.adjoins m = true) :
    runs (ms ++ [m]) = init ++ [run ++ [m]] := by
  obtain ⟨hflat, hnil, hchain, hboundary⟩ := List.splitBy_eq_iff.1 hruns
  rw [runs, List.filter_append, List.filter_cons_of_pos h, List.filter_nil, hflat,
    List.splitBy_eq_iff]
  rw [List.mem_append, not_or] at hnil
  rw [List.isChain_append] at hboundary ⊢
  refine ⟨by simp, by simpa using hnil.1, fun g hg => ?_, hboundary.1, .singleton _, ?_⟩
  · obtain hg | hg := List.mem_append.1 hg
    · exact hchain g (List.mem_append_left _ hg)
    · rw [List.mem_singleton.1 hg, List.isChain_append]
      refine ⟨hchain run (by simp), .singleton _, ?_⟩
      rintro p hp _ ⟨⟩
      cases ho.symm.trans hp
      exact hadjoins
  · rintro last hlast _ ⟨⟩
    obtain ⟨hne, hne', hapart⟩ := hboundary.2.2 last hlast run rfl
    refine ⟨hne, List.append_ne_nil_of_left_ne_nil hne' _, ?_⟩
    rwa [List.head_append_of_ne_nil]

end Mapping

namespace ModuleRange

variable {r : ModuleRange} {run : List Mapping} {m o : Mapping} {path : String}

/-- The range is that of the run, and has no symbols. -/
structure Spans (r : ModuleRange) (run : List Mapping) : Prop where
  base : run.head?.map Mapping.start = some r.base
  stop : run.getLast?.map Mapping.stop = some r.stop
  path : ∀ m ∈ run, m.path = some r.path
  covers_iff : ∀ address, r.Covers address ↔ ∃ m ∈ run, m.Covers address
  symbols : r.symbols = []

theorem Spans.last (h : r.Spans run) (ho : run.getLast? = some o) :
    o.stop = r.stop ∧ o.path = some r.path := by
  refine ⟨?_, h.path o (List.mem_of_mem_getLast? ho)⟩
  have hstop := h.stop
  rwa [ho, Option.map_some, Option.some_inj] at hstop

theorem Spans.describe_eq (h : r.Spans run) (address : Address) :
    r.describe address = { address, module := some r.name, offset := address - r.base } :=
  describe_of_symbols_eq_nil h.symbols address

theorem spans_singleton (hpath : m.path = some path) :
    Spans { base := m.start, stop := m.stop, path } [m] where
  base := rfl
  stop := rfl
  path := by simp [hpath]
  covers_iff address := by simp [Covers, Mapping.Covers]
  symbols := rfl

theorem Spans.concat (h : r.Spans run) (hpath : m.path = some r.path) (hstart : r.stop = m.start)
    (hr : r.base < r.stop) (hm : m.start < m.stop) :
    Spans { r with stop := m.stop } (run ++ [m]) where
  base := by
    obtain ⟨first, hfirst, hstart⟩ := Option.map_eq_some_iff.1 h.base
    rw [List.head?_append, hfirst]
    exact congrArg some hstart
  stop := by simp
  path o ho := by
    obtain ho | ho := List.mem_append.1 ho
    · exact h.path o ho
    · rw [List.mem_singleton.1 ho, hpath]
  covers_iff address := by
    have hcovers := h.covers_iff address
    simp only [Covers, List.mem_append, List.mem_singleton, or_and_right, exists_or,
      exists_eq_left] at hcovers ⊢
    rw [← hcovers, Mapping.Covers]
    grind
  symbols := h.symbols

end ModuleRange

namespace ModuleMap

variable {map : ModuleMap} {ms : List Mapping} {m : Mapping} {path : String}
  {base stop : Address}

theorem ofMappings_concat_of_not_isCode (h : m.isCode = false) :
    ofMappings (ms ++ [m]) = ofMappings ms := by
  rw [ofMappings, List.foldl_append, List.foldl_cons, List.foldl_nil]
  split
  case h_1 path hpath =>
    rw [← Mapping.isCode_of_path hpath, h]
    rfl
  case h_2 => rfl

theorem ofMappings_concat_of_isCode (h : m.isCode = true) (hpath : m.path = some path) :
    ofMappings (ms ++ [m]) = (ofMappings ms).insertRange path m.start m.stop := by
  rw [ofMappings, List.foldl_append, List.foldl_cons, List.foldl_nil, hpath]
  dsimp only
  rw [← Mapping.isCode_of_path hpath, if_pos h]
  rfl

theorem add_of_stop_le (h : map.WellFormed) (hle : ∀ r ∈ map, r.stop ≤ base) :
    map.add path base stop = map ++ [({ base, stop, path } : ModuleRange)] := by
  rw [add]
  refine List.mergeSort_of_pairwise ?_
  rw [List.pairwise_append]
  refine ⟨?_, List.pairwise_singleton _ _, fun r hr _ ho => ?_⟩
  · refine h.ascending.imp_of_mem fun hr _ hle => ?_
    have := (h.ranges _ hr).nonempty
    rw [decide_eq_true_eq]
    grind
  · have := (h.ranges r hr).nonempty
    have := hle r hr
    rw [List.mem_singleton.1 ho, decide_eq_true_eq]
    grind

/-- What begins behind all ranges of a table extends the last one, or else is put at the end. -/
theorem insertRange_of_stop_le (h : map.WellFormed) (hlt : base < stop)
    (hle : ∀ r ∈ map, r.stop ≤ base) (path : String) :
    (∃ before r, map = before ++ [r] ∧ r.path = path ∧ r.stop = base ∧
      map.insertRange path base stop = before ++ [{ r with stop := stop }]) ∨
    ((∀ r ∈ map, r.path = path → r.stop ≠ base) ∧
      map.insertRange path base stop = map ++ [({ base, stop, path } : ModuleRange)]) := by
  have hclear : ∀ r ∈ map, r.isClearOf base stop = true :=
    fun r hr => ModuleRange.isClearOf_iff.2 (.inl (hle r hr))
  obtain ⟨before, r, after, rfl, hpath, hstop, hmap⟩ | ⟨before, r, after, rfl, -, hbase, -⟩ |
    ⟨hapart, hmap⟩ := insertRange_cases h hlt hclear path
  · obtain ⟨-, -, hafter, -, habove, -⟩ := wellFormed_append_cons_iff.1 h
    have hlast : after = [] := by
      rw [List.eq_nil_iff_forall_not_mem]
      intro o ho
      have := (hafter.ranges o ho).nonempty
      have := habove o ho
      have := hle o (by simp [ho])
      grind
    subst hlast
    exact .inl ⟨before, r, rfl, hpath, hstop, hmap⟩
  · have := (h.ranges r (by simp)).nonempty
    have := hle r (by simp)
    grind
  · exact .inr ⟨fun r hr hpath => (hapart r hr hpath).1, hmap.trans (add_of_stop_le h hle)⟩

/-- One more code mapping, behind all others, takes table and runs on in the same way. -/
theorem spans_insertRange (hwf : map.WellFormed)
    (hspans : List.Forall₂ ModuleRange.Spans map (Mapping.runs ms)) (hcode : m.isCode = true)
    (hpath : m.path = some path) (hne : m.start < m.stop)
    (hle : ∀ r ∈ map, r.stop ≤ m.start) :
    List.Forall₂ ModuleRange.Spans (map.insertRange path m.start m.stop)
      (Mapping.runs (ms ++ [m])) := by
  obtain ⟨before, r, rfl, rfl, hstop, hmap⟩ | ⟨hapart, hmap⟩ :=
    insertRange_of_stop_le hwf hne hle path
  · obtain ⟨init, run, hruns, hinit, hrun⟩ := forall₂_concat_left hspans
    obtain ⟨o, ho, -⟩ := Option.map_eq_some_iff.1 hrun.stop
    have hadjoins : o.adjoins m = true := by
      rw [Mapping.adjoins_iff, (hrun.last ho).1, (hrun.last ho).2, hpath]
      exact ⟨hstop, rfl⟩
    have hr := (hwf.ranges r (by simp)).nonempty
    rw [hmap, Mapping.runs_concat_of_adjoins hcode hruns ho hadjoins]
    exact List.rel_append hinit (.cons (hrun.concat hpath hstop hr hne) .nil)
  · rw [hmap, Mapping.runs_concat_of_apart hcode]
    · exact List.rel_append hspans (.cons (ModuleRange.spans_singleton hpath) .nil)
    · intro run hrun o ho
      obtain ⟨r, hr, hspan⟩ := exists_of_forall₂_left hspans.flip hrun
      rw [Bool.eq_false_iff, Ne, Mapping.adjoins_iff, (hspan.last ho).1, (hspan.last ho).2, hpath,
        Option.some_inj]
      exact fun ⟨hstop, hpath'⟩ => hapart r hr hpath' hstop

theorem spans_ofMappings (h : Mapping.AreAscending ms) :
    (ofMappings ms).WellFormed ∧
      List.Forall₂ ModuleRange.Spans (ofMappings ms) (Mapping.runs ms) := by
  induction ms using List.reverseRecOn with
  | nil => exact ⟨wellFormed_nil, .nil⟩
  | append_singleton ms m ih =>
    obtain ⟨hwf, hspans⟩ := ih (h.sublist (List.sublist_append_left ms [m]))
    cases hcode : m.isCode with
    | false =>
      rw [ofMappings_concat_of_not_isCode hcode, Mapping.runs_concat_of_not_isCode hcode]
      exact ⟨hwf, hspans⟩
    | true =>
      obtain ⟨path, hpath⟩ := Mapping.exists_path_of_isCode hcode
      have hle : ∀ r ∈ ofMappings ms, r.stop ≤ m.start := by
        intro r hr
        obtain ⟨run, hrun, hspan⟩ := exists_of_forall₂_left hspans hr
        obtain ⟨o, ho, hstop⟩ := Option.map_eq_some_iff.1 hspan.stop
        have ho' := Mapping.mem_of_mem_runs hrun (List.mem_of_mem_getLast? ho)
        exact hstop ▸ h.stop_le o ho'.1
      have hne := h.nonempty m (by simp)
      rw [ofMappings_concat_of_isCode hcode hpath]
      refine ⟨hwf.insertRange hne fun r hr => ?_, spans_insertRange hwf hspans hcode hpath hne hle⟩
      exact ModuleRange.isClearOf_iff.2 (.inl (hle r hr))

/-! ## Answers -/

/-- What a table shows of ascending mappings. Its ranges are those of the maximal runs, one for
each. The addresses that no code mapping covers are unknown, those of the other mappings among them.
No range has an address of a mapping of another path. Within a run, an address is named after the
file of the run, and its offset counts from the start of the run. -/
structure ShowsRuns (map : ModuleMap) (ms : List Mapping) : Prop where
  ranges : ∃ runs : List (List Mapping), runs.Nodup ∧
    (∀ run, run ∈ runs ↔ Mapping.IsMaximalRun ms run) ∧
    List.Forall₂ ModuleRange.Spans map runs
  unknown_iff : ∀ address, map.resolve address = .unknown address ↔
    ∀ m ∈ ms, m.isCode = true → ¬ m.Covers address
  others : ∀ m ∈ ms, m.isCode = false → ∀ address, m.Covers address →
    map.resolve address = .unknown address
  path : ∀ r ∈ map, ∀ m ∈ ms, ∀ address, r.Covers address → m.Covers address →
    m.isCode = true ∧ m.path = some r.path
  resolves : ∀ run, Mapping.IsMaximalRun ms run → ∀ m ∈ run, ∀ address, m.Covers address →
    ∃ first path, run.head? = some first ∧ m.path = some path ∧ first.start ≤ address ∧
      map.resolve address =
        { address, module := some (baseName path), offset := address - first.start }

theorem covers_ofMappings_iff (h : Mapping.AreAscending ms) {address : Address} :
    (∃ r ∈ ofMappings ms, r.Covers address) ↔ ∃ m ∈ ms, m.isCode = true ∧ m.Covers address := by
  obtain ⟨-, hspans⟩ := spans_ofMappings h
  constructor
  · intro ⟨r, hr, hcovers⟩
    obtain ⟨run, hrun, hspan⟩ := exists_of_forall₂_left hspans hr
    obtain ⟨m, hm, hcovers⟩ := (hspan.covers_iff address).1 hcovers
    exact ⟨m, (Mapping.mem_of_mem_runs hrun hm).1, (Mapping.mem_of_mem_runs hrun hm).2, hcovers⟩
  · intro ⟨m, hm, hcode, hcovers⟩
    obtain ⟨run, hrun, hm⟩ := Mapping.exists_mem_runs hm hcode
    obtain ⟨r, hr, hspan⟩ := exists_of_forall₂_left hspans.flip hrun
    exact ⟨r, hr, (hspan.covers_iff address).2 ⟨m, hm, hcovers⟩⟩

theorem resolve_ofMappings_eq_unknown_iff (h : Mapping.AreAscending ms) {address : Address} :
    (ofMappings ms).resolve address = .unknown address ↔
      ∀ m ∈ ms, m.isCode = true → ¬ m.Covers address := by
  obtain ⟨hwf, hspans⟩ := spans_ofMappings h
  constructor
  · intro hunknown m hm hcode hcovers
    obtain ⟨r, hr, hcovers⟩ := (covers_ofMappings_iff h).2 ⟨m, hm, hcode, hcovers⟩
    obtain ⟨run, -, hspan⟩ := exists_of_forall₂_left hspans hr
    rw [resolve_of_covers hwf hr hcovers, hspan.describe_eq] at hunknown
    cases hunknown
  · intro hnone
    refine resolve_of_not_covers hwf fun r hr hcovers => ?_
    obtain ⟨m, hm, hcode, hcovers⟩ := (covers_ofMappings_iff h).1 ⟨r, hr, hcovers⟩
    exact hnone m hm hcode hcovers

theorem ofMappings_showsRuns (h : Mapping.AreAscending ms) : (ofMappings ms).ShowsRuns ms := by
  obtain ⟨hwf, hspans⟩ := spans_ofMappings h
  constructor
  case ranges =>
    exact ⟨Mapping.runs ms, h.nodup_runs, fun run => Mapping.mem_runs_iff h, hspans⟩
  case unknown_iff => exact fun address => resolve_ofMappings_eq_unknown_iff h
  case others =>
    intro m hm hother address hcovers
    refine (resolve_ofMappings_eq_unknown_iff h).2 fun o ho hcode hcovers' => ?_
    rw [h.eq_of_covers ho hm hcovers' hcovers, hother] at hcode
    cases hcode
  case path =>
    intro r hr m hm address hcovers hcovers'
    obtain ⟨run, hrun, hspan⟩ := exists_of_forall₂_left hspans hr
    obtain ⟨o, ho, hcovers⟩ := (hspan.covers_iff address).1 hcovers
    have ho' := Mapping.mem_of_mem_runs hrun ho
    obtain rfl := h.eq_of_covers ho'.1 hm hcovers hcovers'
    exact ⟨ho'.2, hspan.path o ho⟩
  case resolves =>
    intro run hrun m hm address hcovers
    obtain ⟨r, hr, hspan⟩ := exists_of_forall₂_left hspans.flip (hrun.mem_runs h)
    have hcovers' := (hspan.covers_iff address).2 ⟨m, hm, hcovers⟩
    obtain ⟨first, hfirst, hbase⟩ := Option.map_eq_some_iff.1 hspan.base
    refine ⟨first, r.path, hfirst, hspan.path m hm, hbase ▸ hcovers'.1, ?_⟩
    rw [resolve_of_covers hwf hr hcovers', hspan.describe_eq, hbase]
    rfl

/-- **The table of a listing is made of its maximal runs.** Whatever other lines are in the text,
if the mappings that its lines describe are not empty and ascend without overlap, the table read
from it has one range for each maximal run of code mappings, and nothing else. -/
theorem ofListing_showsRuns {text : String} (hlisted : Mapping.Listed (lines text.toList) ms)
    (h : Mapping.AreAscending ms) : (ofListing text).ShowsRuns ms := by
  have hparsed : Mapping.parseListing text = ms := Mapping.listed_iff.1 hlisted
  rw [ofListing, hparsed]
  exact ofMappings_showsRuns h

/-- Two libraries of one file name, side by side: the first in two pieces, the second once more
behind a gap. The other mappings are no code, and two lines describe none. -/
def twoLibraries : String :=
  String.join
    ["1000-2000 r--p 0 8:1 11 /a/x.so\n", "2000-3000 r-xp 0 8:1 11 /a/x.so\n",
      "3000-4000 r-xp 0 8:1 11 /a/x.so\n", "4000-5000 r-xp 0 8:1 12 /b/x.so\n", "5000 r-xp\n",
      "6000-7000 r-xp 0 0:0 0 [vdso]\n", "\n", "7000-8000 rwxp 0 0:0 0\n",
      "8000-9000 r-xp 0 8:1 12 /b/x.so\n"]

def twoLibrariesMappings : List Mapping :=
  [⟨0x1000, 0x2000, ['r', '-', '-', 'p'], some "/a/x.so"⟩,
    ⟨0x2000, 0x3000, ['r', '-', 'x', 'p'], some "/a/x.so"⟩,
    ⟨0x3000, 0x4000, ['r', '-', 'x', 'p'], some "/a/x.so"⟩,
    ⟨0x4000, 0x5000, ['r', '-', 'x', 'p'], some "/b/x.so"⟩,
    ⟨0x6000, 0x7000, ['r', '-', 'x', 'p'], some "[vdso]"⟩,
    ⟨0x7000, 0x8000, ['r', 'w', 'x', 'p'], none⟩,
    ⟨0x8000, 0x9000, ['r', '-', 'x', 'p'], some "/b/x.so"⟩]

theorem twoLibraries_showsRuns :
    Mapping.Listed (lines twoLibraries.toList) twoLibrariesMappings ∧
    Mapping.AreAscending twoLibrariesMappings ∧
    (ofListing twoLibraries).ShowsRuns twoLibrariesMappings := by
  have hlisted : Mapping.Listed (lines twoLibraries.toList) twoLibrariesMappings := by
    rw [twoLibraries, String.toList_join, Mapping.listed_iff]
    decide +kernel
  have hascending : Mapping.AreAscending twoLibrariesMappings :=
    { nonempty := by decide
      ascending := by decide }
  exact ⟨hlisted, hascending, ofListing_showsRuns hlisted hascending⟩

end ModuleMap

end ScriptDiag
