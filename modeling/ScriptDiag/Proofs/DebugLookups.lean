import Mathlib.Data.List.Pairwise
import ScriptDiag.DebugTables

/-!
# Look-ups in sorted tables

A look-up sorts a table and searches it by halving. What it finds is said of the list as it stands
in the block: of the entries at or below an address, the one of greatest address, and of several
there the last (`IsLatest`). Sorting keeps the entries of one key in order (`filter_sortByKey`), so
both speak of the same entry (`lastBefore?_sortByKey_eq_some_iff`), and all answers about an address
can be read off the unsorted lists (`DebugTables.AnswersFrom`).
-/

namespace ScriptDiag

/-! ## Sorting -/

section Sorting

variable {α : Type} {key : α → UInt32} {a : UInt32} {xs : List α} {x : α}

theorem sortByKey_perm (key : α → UInt32) (xs : List α) : (sortByKey key xs).Perm xs :=
  List.mergeSort_perm _ _

theorem sortByKey_trans (x y z : α) (hxy : decide (key x ≤ key y) = true)
    (hyz : decide (key y ≤ key z) = true) : decide (key x ≤ key z) = true := by
  rw [decide_eq_true_eq] at hxy hyz ⊢
  exact UInt32.le_trans hxy hyz

theorem sortByKey_total (x y : α) :
    (decide (key x ≤ key y) || decide (key y ≤ key x)) = true := by
  rw [Bool.or_eq_true, decide_eq_true_eq, decide_eq_true_eq]
  exact UInt32.le_total _ _

theorem pairwise_sortByKey (key : α → UInt32) (xs : List α) :
    (sortByKey key xs).Pairwise fun x y => key x ≤ key y :=
  (List.pairwise_mergeSort sortByKey_trans sortByKey_total xs).imp of_decide_eq_true

/-- Entries with equal keys stay in order. -/
theorem filter_sortByKey (key : α → UInt32) (xs : List α) (k : UInt32) :
    (sortByKey key xs).filter (fun x => key x == k) = xs.filter fun x => key x == k := by
  have hequal : (xs.filter fun x => key x == k).Pairwise
      fun x y => decide (key x ≤ key y) = true := by
    refine List.pairwise_of_forall_mem_list fun x hx y hy => ?_
    rw [beq_iff_eq.1 (List.mem_filter.1 hx).2, beq_iff_eq.1 (List.mem_filter.1 hy).2,
      decide_eq_true (UInt32.le_refl k)]
  have hsub : List.Sublist (xs.filter fun x => key x == k) (sortByKey key xs) :=
    List.sublist_mergeSort sortByKey_trans sortByKey_total hequal List.filter_sublist
  have hfiltered := hsub.filter fun x => key x == k
  rw [List.filter_filter] at hfiltered
  simp only [Bool.and_self] at hfiltered
  exact (hfiltered.eq_of_length ((sortByKey_perm key xs).filter _).length_eq.symm).symm

/-- After sorting, the search finds the latest entry of the unsorted list. -/
theorem lastBefore?_sortByKey_eq_some_iff :
    lastBefore? (fun x => key x ≤ a) (sortByKey key xs) = some x ↔ IsLatest key a xs x := by
  have hfound : ∀ {y}, lastBefore? (fun x => key x ≤ a) (sortByKey key xs) = some y →
      IsLatest key a xs y := fun hy =>
    (isLatest_of_lastBefore? (pairwise_sortByKey key xs) hy).of_filter_eq
      (fun z hz => (sortByKey_perm key xs).mem_iff.2 hz) (filter_sortByKey key xs _).symm
  refine ⟨hfound, fun hx => ?_⟩
  cases hlast : lastBefore? (fun x => key x ≤ a) (sortByKey key xs) with
  | none =>
    have hmem := (sortByKey_perm key xs).mem_iff.2 hx.mem
    exact absurd hx.le ((lastBefore?_eq_none_iff (pairwise_sortByKey key xs)).1 hlast x hmem)
  | some y => rw [(hfound hlast).unique hx]

theorem lastBefore?_sortByKey_eq_none_iff :
    lastBefore? (fun x => key x ≤ a) (sortByKey key xs) = none ↔ ∀ x ∈ xs, a < key x := by
  rw [lastBefore?_eq_none_iff (pairwise_sortByKey key xs)]
  refine forall_congr' fun x => ?_
  rw [(sortByKey_perm key xs).mem_iff, UInt32.not_le]

end Sorting

/-! ## Functions and tags -/

namespace SymbolEntry

variable {fs : List SymbolEntry} {f g : SymbolEntry} {a : UCell}

theorem covers_iff : f.covers a = true ↔ f.codeStart ≤ a ∧ a < f.codeEnd := by
  rw [covers, Bool.and_eq_true, decide_eq_true_eq, decide_eq_true_eq]

/-- The ranges of code are not empty, and no two of them have an address in common. -/
structure AreApart (fs : List SymbolEntry) : Prop where
  nonempty : ∀ f ∈ fs, f.codeStart < f.codeEnd
  disjoint : fs.Pairwise fun f g => ∀ a, ¬ (f.covers a = true ∧ g.covers a = true)

theorem AreApart.eq_of_covers (h : AreApart fs) (hf : f ∈ fs) (hg : g ∈ fs)
    (hfa : f.covers a = true) (hga : g.covers a = true) : f = g := by
  by_contra hne
  have : Std.Symm fun f g : SymbolEntry => ∀ a, ¬ (f.covers a = true ∧ g.covers a = true) :=
    ⟨fun f g hfg a hgf => hfg a hgf.symm⟩
  exact h.disjoint.forall hf hg hne a ⟨hfa, hga⟩

theorem AreApart.covers_codeStart (h : AreApart fs) (hf : f ∈ fs) : f.covers f.codeStart = true :=
  covers_iff.2 ⟨UInt32.le_refl _, h.nonempty f hf⟩

/-- Of functions that are apart, the one that covers an address is the latest to begin. -/
theorem AreApart.isLatest (h : AreApart fs) (hf : f ∈ fs) (hfa : f.covers a = true) :
    IsLatest codeStart a fs f := by
  obtain ⟨hstart, hend⟩ := covers_iff.1 hfa
  refine ⟨hstart, fun g hg hga => ?_, ?_⟩
  · by_contra hlt
    rw [UInt32.not_le] at hlt
    -- otherwise `f` covers the start of `g`
    have hcovers : f.covers g.codeStart = true :=
      covers_iff.2 ⟨UInt32.le_of_lt hlt, UInt32.lt_of_le_of_lt hga hend⟩
    rw [h.eq_of_covers hf hg hcovers (h.covers_codeStart hg)] at hlt
    exact UInt32.lt_irrefl _ hlt
  · cases hlast : (fs.filter fun g => g.codeStart == f.codeStart).getLast? with
    | none =>
      rw [List.getLast?_eq_none_iff, List.filter_eq_nil_iff] at hlast
      exact absurd (beq_self_eq_true f.codeStart) (hlast f hf)
    | some g =>
      obtain ⟨hg, hstart⟩ := List.mem_filter.1 (List.mem_of_getLast? hlast)
      have hcovers := h.covers_codeStart hg
      rw [beq_iff_eq.1 hstart] at hcovers
      rw [h.eq_of_covers hg hf hcovers (h.covers_codeStart hf)]

end SymbolEntry

/-- `e` is the first of the entries with the number `id`. -/
def TagEntry.IsFirst (tags : List TagEntry) (id : Int16) (e : TagEntry) : Prop :=
  e.id = id ∧ ∃ before after, tags = before ++ e :: after ∧ ∀ o ∈ before, o.id ≠ id

namespace DebugTables

variable {b : DebugBlock} {t : DebugTables} {a : UCell} {f : SymbolEntry} {id : Int16}

theorem tagName?_eq_some_iff {name : String} :
    t.tagName? id = some name ↔ ∃ e, TagEntry.IsFirst t.tags id e ∧ e.name = name := by
  rw [tagName?, Option.map_eq_some_iff]
  simp [TagEntry.IsFirst, List.find?_eq_some_iff_append]

theorem functionAt?_eq_some_iff : (ofBlock b).functionAt? a = some f ↔
    IsLatest SymbolEntry.codeStart a b.functions f ∧ f.covers a = true := by
  rw [functionAt?, Option.filter_eq_some_iff, ofBlock, lastBefore?_sortByKey_eq_some_iff]

theorem mem_functions_iff : f ∈ b.functions ↔ f ∈ b.symbols ∧ f.kind = .function := by
  rw [DebugBlock.functions, List.mem_filter, beq_iff_eq]

theorem lineAt?_eq_some_iff {n : Nat} : (ofBlock b).lineAt? a = some n ↔
    ∃ e, IsLatest LineEntry.address a b.lines e ∧ 0 ≤ e.line ∧ (n : Int) = e.line.toInt + 1 := by
  rw [lineAt?, Option.bind_eq_some_iff]
  refine exists_congr fun e => ?_
  rw [ofBlock, lastBefore?_sortByKey_eq_some_iff]
  refine and_congr_right fun _ => ?_
  split
  case isTrue hneg =>
    refine iff_of_false nofun fun h => ?_
    exact Int32.lt_irrefl (Int32.lt_of_lt_of_le hneg h.1)
  case isFalse hpos =>
    rw [Int32.not_lt] at hpos
    have htoNat : ((e.line.toNatClampNeg : Nat) : Int) = e.line.toInt :=
      Int.toNat_of_nonneg (Int32.le_iff_toInt_le.1 hpos)
    rw [Option.some_inj, and_iff_right hpos, ← htoNat]
    omega

theorem lineAt?_eq_none_iff : (ofBlock b).lineAt? a = none ↔
    (∀ e ∈ b.lines, a < e.address) ∨
      ∃ e, IsLatest LineEntry.address a b.lines e ∧ e.line < 0 := by
  rw [lineAt?, ofBlock]
  cases hlast : lastBefore? (fun l => l.address ≤ a) (sortByKey LineEntry.address b.lines) with
  | none => exact iff_of_true rfl (.inl (lastBefore?_sortByKey_eq_none_iff.1 hlast))
  | some e =>
    have he := lastBefore?_sortByKey_eq_some_iff.1 hlast
    rw [Option.bind_some]
    split
    case isTrue hneg => exact iff_of_true rfl (.inr ⟨e, he, hneg⟩)
    case isFalse hpos =>
      refine iff_of_false nofun ?_
      rintro (hnone | ⟨o, ho, hneg⟩)
      · exact absurd he.le (UInt32.not_le.2 (hnone e he.mem))
      · exact hpos (ho.unique he ▸ hneg)

/-- What the tables answer about `a` is what the lists of the block say, in the order in which they
are written. -/
structure AnswersFrom (t : DebugTables) (b : DebugBlock) (a : UCell) : Prop where
  file_iff : ∀ name, t.fileAt? a = some name ↔
    ∃ e, IsLatest FileEntry.address a b.files e ∧ e.name = name
  no_file_iff : t.fileAt? a = none ↔ ∀ e ∈ b.files, a < e.address
  line_iff : ∀ n : Nat, t.lineAt? a = some n ↔
    ∃ e, IsLatest LineEntry.address a b.lines e ∧ 0 ≤ e.line ∧ (n : Int) = e.line.toInt + 1
  no_line_iff : t.lineAt? a = none ↔
    (∀ e ∈ b.lines, a < e.address) ∨ ∃ e, IsLatest LineEntry.address a b.lines e ∧ e.line < 0
  function_covers : ∀ f, t.functionAt? a = some f →
    f ∈ b.symbols ∧ f.kind = .function ∧ f.covers a = true
  function_found : SymbolEntry.AreApart b.functions →
    ∀ f ∈ b.symbols, f.kind = .function → f.covers a = true → t.functionAt? a = some f
  resolves_iff : (t.resolve? a).isSome ↔ (t.functionAt? a).isSome
  tagged : ∀ f s, t.functionAt? a = some f → t.resolve? a = some s →
    ∀ e, TagEntry.IsFirst b.tags f.tag e → e.name ≠ "_" → s.function = e.name ++ ":" ++ f.name
  untagged : ∀ f s, t.functionAt? a = some f → t.resolve? a = some s →
    (∀ e, TagEntry.IsFirst b.tags f.tag e → e.name = "_") → s.function = f.name
  location_iff : ∀ s l, t.resolve? a = some s →
    (s.location = some l ↔ t.fileAt? a = some l.file ∧ t.lineAt? a = some l.line)

theorem functionName_of_isFirst {e : TagEntry} (he : TagEntry.IsFirst t.tags f.tag e)
    (hne : e.name ≠ "_") : t.functionName f = e.name ++ ":" ++ f.name := by
  rw [functionName, tagName?_eq_some_iff.2 ⟨e, he, rfl⟩]
  exact if_neg hne

theorem functionName_of_forall (h : ∀ e, TagEntry.IsFirst t.tags f.tag e → e.name = "_") :
    t.functionName f = f.name := by
  rw [functionName]
  split
  case h_1 name hname =>
    obtain ⟨e, he, rfl⟩ := tagName?_eq_some_iff.1 hname
    exact if_pos (h e he)
  case h_2 => rfl

theorem locate?_eq_some_iff {l : SourceLocation} :
    t.locate? a = some l ↔ t.fileAt? a = some l.file ∧ t.lineAt? a = some l.line := by
  obtain ⟨file, line⟩ := l
  simp [locate?, Option.bind_eq_some_iff]

/-- **Look-ups agree with the unsorted tables.** Whatever block the tables are made from, and in
whatever order its entries stand, the answers about every address are those of its lists. -/
theorem ofBlock_answersFrom (b : DebugBlock) (a : UCell) : (ofBlock b).AnswersFrom b a := by
  have hresolve : ∀ {f s}, (ofBlock b).functionAt? a = some f → (ofBlock b).resolve? a = some s →
      s = { function := (ofBlock b).functionName f, location := (ofBlock b).locate? a } := by
    intro f s hf hs
    rw [resolve?, hf, Option.map_some, Option.some_inj] at hs
    exact hs.symm
  constructor
  case file_iff =>
    intro name
    rw [fileAt?, Option.map_eq_some_iff]
    exact exists_congr fun e => and_congr_left' lastBefore?_sortByKey_eq_some_iff
  case no_file_iff =>
    rw [fileAt?, Option.map_eq_none_iff]
    exact lastBefore?_sortByKey_eq_none_iff
  case line_iff => exact fun n => lineAt?_eq_some_iff
  case no_line_iff => exact lineAt?_eq_none_iff
  case function_covers =>
    intro f hf
    obtain ⟨hlatest, hcovers⟩ := functionAt?_eq_some_iff.1 hf
    obtain ⟨hmem, hkind⟩ := mem_functions_iff.1 hlatest.mem
    exact ⟨hmem, hkind, hcovers⟩
  case function_found =>
    intro hapart f hf hkind hcovers
    refine functionAt?_eq_some_iff.2 ⟨?_, hcovers⟩
    exact hapart.isLatest (mem_functions_iff.2 ⟨hf, hkind⟩) hcovers
  case resolves_iff => rw [resolve?, Option.isSome_map]
  case tagged =>
    intro f s hf hs e he hne
    rw [hresolve hf hs]
    exact functionName_of_isFirst he hne
  case untagged =>
    intro f s hf hs hnone
    rw [hresolve hf hs]
    exact functionName_of_forall hnone
  case location_iff =>
    intro s l hs
    obtain ⟨f, -, rfl⟩ := Option.map_eq_some_iff.1 hs
    exact locate?_eq_some_iff

end DebugTables

end ScriptDiag
