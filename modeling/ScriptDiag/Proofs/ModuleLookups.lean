import Mathlib.Data.List.Induction
import ScriptDiag.Proofs.ModuleRanges

/-!
# What a table of modules answers

A table is built by adding modules and symbols, in any order. Beside it goes a ledger of what was
given: the modules, and those symbols that some module covered when they were added. While the
modules are disjoint, every step keeps the table in agreement with the ledger
(`ModuleMap.Reflects`): it covers what they cover, under their paths, and a range has at each of its
addresses the symbols accepted there, in the order of adding. Ranges of one path may have been
joined in between, and their symbols have stayed with them.

From that all answers follow (`ModuleMap.build_isExact`).
-/

namespace ScriptDiag

/-- A module in the `size` addresses from `base` on. -/
structure PlacedModule where
  path : String
  base : Address
  size : Address
deriving DecidableEq, Repr, Inhabited

namespace PlacedModule

def Covers (g : PlacedModule) (address : Address) : Prop :=
  g.base.toNat ≤ address.toNat ∧ address.toNat < g.base.toNat + g.size.toNat

instance (g : PlacedModule) (address : Address) : Decidable (g.Covers address) :=
  inferInstanceAs (Decidable (_ ∧ _))

/-- The modules are not empty, end within the address space, and have no address in common. -/
structure AreApart (gs : List PlacedModule) : Prop where
  nonempty : ∀ g ∈ gs, 0 < g.size
  fits : ∀ g ∈ gs, g.base.toNat + g.size.toNat < UInt64.size
  disjoint : gs.Pairwise fun g o => ∀ address, ¬ (g.Covers address ∧ o.Covers address)

variable {g : PlacedModule}

theorem base_le_stop (hfits : g.base.toNat + g.size.toNat < UInt64.size) :
    g.base ≤ g.base + g.size := by
  rw [UInt64.le_iff_toNat_le, UInt64.toNat_add, Nat.mod_eq_of_lt hfits]
  exact Nat.le_add_right _ _

theorem base_lt_stop (hne : 0 < g.size) (hfits : g.base.toNat + g.size.toNat < UInt64.size) :
    g.base < g.base + g.size := by
  have := UInt64.lt_iff_toNat_lt.1 hne
  rw [UInt64.lt_iff_toNat_lt, UInt64.toNat_add, Nat.mod_eq_of_lt hfits]
  exact Nat.lt_add_of_pos_right this

theorem covers_iff (hfits : g.base.toNat + g.size.toNat < UInt64.size) {address : Address} :
    g.Covers address ↔ g.base ≤ address ∧ address < g.base + g.size := by
  rw [Covers, UInt64.le_iff_toNat_le, UInt64.lt_iff_toNat_lt, UInt64.toNat_add,
    Nat.mod_eq_of_lt hfits]

theorem AreApart.init {gs : List PlacedModule} (h : AreApart (gs ++ [g])) : AreApart gs where
  nonempty o ho := h.nonempty o (List.mem_append_left _ ho)
  fits o ho := h.fits o (List.mem_append_left _ ho)
  disjoint := (List.pairwise_append.1 h.disjoint).1

end PlacedModule

/-- A step of building a table. -/
inductive BuildStep where
  | module (g : PlacedModule)
  | symbol (s : ExportedSymbol)
deriving DecidableEq, Repr, Inhabited

/-- The modules given, and the symbols accepted, in the order of adding. -/
structure Ledger where
  modules : List PlacedModule := []
  accepted : List ExportedSymbol := []
deriving DecidableEq, Repr, Inhabited

namespace Ledger

/-- Some module given covers the address. -/
def Covers (l : Ledger) (address : Address) : Prop :=
  ∃ g ∈ l.modules, g.Covers address

instance (l : Ledger) (address : Address) : Decidable (l.Covers address) :=
  inferInstanceAs (Decidable (∃ g ∈ l.modules, g.Covers address))

/-- Symbols are accepted where a module given before covers them. -/
def note (l : Ledger) : BuildStep → Ledger
  | .module g => { l with modules := l.modules ++ [g] }
  | .symbol s => if l.Covers s.address then { l with accepted := l.accepted ++ [s] } else l

def ofSteps (steps : List BuildStep) : Ledger :=
  steps.foldl note {}

theorem ofSteps_concat (steps : List BuildStep) (last : BuildStep) :
    ofSteps (steps ++ [last]) = (ofSteps steps).note last := by
  rw [ofSteps, List.foldl_append]
  rfl

/-- The symbol that names `address` in the range `m`: of those accepted in the range, at or below
`address`, the one of greatest address, and of several there the last. -/
structure IsNearest (l : Ledger) (m : ModuleRange) (address : Address) (s : ExportedSymbol) :
    Prop where
  covers : m.Covers s.address
  le : s.address ≤ address
  greatest : ∀ t ∈ l.accepted, m.Covers t.address → t.address ≤ address → t.address ≤ s.address
  last : (l.accepted.filter fun t => t.address == s.address).getLast? = some s

end Ledger

namespace ModuleMap

def step (map : ModuleMap) : BuildStep → ModuleMap
  | .module g => map.insert g.path g.base g.size
  | .symbol s => map.insertSymbol s.address s.name

def build (steps : List BuildStep) : ModuleMap :=
  steps.foldl step []

theorem build_concat (steps : List BuildStep) (last : BuildStep) :
    build (steps ++ [last]) = (build steps).step last := by
  rw [build, List.foldl_append]
  rfl

/-! ## Table and ledger -/

/-- The table covers what the modules of the ledger cover, and has its symbols. -/
structure Reflects (map : ModuleMap) (l : Ledger) : Prop where
  wellFormed : map.WellFormed
  covers_iff : ∀ path address, (∃ m ∈ map, m.path = path ∧ m.Covers address) ↔
    ∃ g ∈ l.modules, g.path = path ∧ g.Covers address
  accepted_covered : ∀ s ∈ l.accepted, l.Covers s.address
  symbols_at : ∀ m ∈ map, ∀ address, m.Covers address →
    m.symbols.filter (fun s => s.address == address) =
      l.accepted.filter fun s => s.address == address

variable {map : ModuleMap} {l : Ledger} {address : Address}

theorem reflects_nil : Reflects [] {} where
  wellFormed := wellFormed_nil
  covers_iff _ _ := by simp
  accepted_covered := nofun
  symbols_at := nofun

theorem Reflects.covers (h : map.Reflects l) :
    (∃ m ∈ map, m.Covers address) ↔ l.Covers address := by
  constructor
  · intro ⟨m, hm, hcovers⟩
    obtain ⟨g, hg, -, hcovers⟩ := (h.covers_iff m.path address).1 ⟨m, hm, rfl, hcovers⟩
    exact ⟨g, hg, hcovers⟩
  · intro ⟨g, hg, hcovers⟩
    obtain ⟨m, hm, -, hcovers⟩ := (h.covers_iff g.path address).2 ⟨g, hg, rfl, hcovers⟩
    exact ⟨m, hm, hcovers⟩

theorem filter_eq_nil_of_not_covers {m : ModuleRange} (h : m.WellFormed)
    (hnot : ¬ m.Covers address) : m.symbols.filter (fun s => s.address == address) = [] :=
  List.filter_eq_nil_iff.2 fun s hs heq => hnot (beq_iff_eq.1 heq ▸ h.covers s hs)

theorem Reflects.filter_accepted_eq_nil (h : map.Reflects l) (hnot : ¬ l.Covers address) :
    l.accepted.filter (fun s => s.address == address) = [] :=
  List.filter_eq_nil_iff.2 fun s hs heq => hnot (beq_iff_eq.1 heq ▸ h.accepted_covered s hs)

/-- A module clear of those given before is clear of all ranges of the table. -/
theorem Reflects.isClearOf (h : map.Reflects l) {g : PlacedModule} (hne : 0 < g.size)
    (hfits : g.base.toNat + g.size.toNat < UInt64.size)
    (hdisjoint : ∀ o ∈ l.modules, ∀ address, ¬ (o.Covers address ∧ g.Covers address)) :
    ∀ m ∈ map, m.isClearOf g.base (g.base + g.size) = true := by
  intro m hm
  by_contra hclear
  obtain ⟨address, hcovers, hadded⟩ := ModuleRange.exists_covers_of_not_clear
    (Bool.eq_false_iff.2 hclear) (h.wellFormed.ranges m hm).nonempty (g.base_lt_stop hne hfits)
  obtain ⟨o, ho, ho'⟩ := h.covers.1 ⟨m, hm, hcovers⟩
  exact hdisjoint o ho address ⟨ho', (g.covers_iff hfits).2 hadded⟩

theorem Reflects.module (h : map.Reflects l) {g : PlacedModule} (hne : 0 < g.size)
    (hfits : g.base.toNat + g.size.toNat < UInt64.size)
    (hdisjoint : ∀ o ∈ l.modules, ∀ address, ¬ (o.Covers address ∧ g.Covers address)) :
    (map.step (.module g)).Reflects (l.note (.module g)) := by
  have hinsert : map.step (.module g) = map.insertRange g.path g.base (g.base + g.size) := by
    rw [step, insert, if_neg (UInt64.not_lt.2 (g.base_le_stop hfits))]
  have hlt := g.base_lt_stop hne hfits
  have hclear := h.isClearOf hne hfits hdisjoint
  have hfree : ∀ {address}, g.base ≤ address ∧ address < g.base + g.size → ¬ l.Covers address :=
    fun hadded ⟨o, ho, ho'⟩ => hdisjoint o ho _ ⟨ho', (g.covers_iff hfits).2 hadded⟩
  rw [hinsert]
  refine ⟨h.wellFormed.insertRange hlt hclear, fun path address => ?_, fun s hs => ?_, ?_⟩
  · rw [covers_insertRange_iff h.wellFormed hlt hclear, h.covers_iff, ← g.covers_iff hfits]
    simp only [Ledger.note, List.mem_append, List.mem_singleton, or_and_right, exists_or,
      exists_eq_left]
  · obtain ⟨o, ho, hcovers⟩ := h.accepted_covered s hs
    exact ⟨o, List.mem_append_left _ ho, hcovers⟩
  · obtain ⟨old, rest, new, hmap, hmap', -, -, hsymbols, hcovers⟩ :=
      exists_inserted h.wellFormed hlt hclear g.path
    intro m hm address hm'
    obtain rfl | hm := List.mem_cons.1 (hmap'.mem_iff.1 hm)
    case inr => exact h.symbols_at m (hmap.mem_iff.2 (List.mem_append_right _ hm)) address hm'
    obtain ⟨o, rfl, ho'⟩ | hadded := (hcovers address).1 hm'
    · rw [hsymbols]
      exact h.symbols_at o (hmap.mem_iff.2 (.head _)) address ho'
    · -- nothing was accepted at the new addresses
      rw [hsymbols]
      refine Eq.trans ?_ (h.filter_accepted_eq_nil (hfree hadded)).symm
      cases old with
      | none => rfl
      | some o =>
        have ho : o ∈ map := hmap.mem_iff.2 (.head _)
        exact filter_eq_nil_of_not_covers (h.wellFormed.ranges o ho) fun ho' =>
          hfree hadded (h.covers.1 ⟨o, ho, ho'⟩)

theorem Reflects.symbol (h : map.Reflects l) (s : ExportedSymbol) :
    (map.step (.symbol s)).Reflects (l.note (.symbol s)) := by
  by_cases hs : l.Covers s.address
  · obtain ⟨m, hm, hcovers⟩ := h.covers.2 hs
    obtain ⟨before, after, rfl⟩ := List.append_of_mem hm
    rw [step, insertSymbol_of_covers h.wellFormed hcovers, Ledger.note, if_pos hs]
    refine ⟨h.wellFormed.addSymbol hcovers, fun path address => ?_, fun t ht => ?_, ?_⟩
    · rw [← h.covers_iff]
      simp only [List.mem_append, List.mem_cons, or_and_right, exists_or, exists_eq_left]
      rfl
    · obtain ht | ht := List.mem_append.1 ht
      · exact h.accepted_covered t ht
      · exact List.mem_singleton.1 ht ▸ hs
    · intro o ho address ho'
      rw [List.filter_append]
      obtain rfl | ho := List.mem_cons.1 (List.perm_middle.mem_iff.1 ho)
      · rw [(h.wellFormed.ranges m hm).filter_symbols_addSymbol]
        exact congrArg (· ++ _) (h.symbols_at m hm address ho')
      · -- no other range covers the address of the symbol
        have hnone : [s].filter (fun t => t.address == address) = [] :=
          List.filter_cons_of_neg fun heq =>
            not_covers_of_covers h.wellFormed hcovers o ho (beq_iff_eq.1 heq ▸ ho')
        rw [hnone, List.append_nil]
        exact h.symbols_at o (List.perm_middle.mem_iff.2 (.tail _ ho)) address ho'
  · have hnone : ∀ m ∈ map, ¬ m.Covers s.address := fun m hm hm' => hs (h.covers.1 ⟨m, hm, hm'⟩)
    rw [step, insertSymbol_of_not_covers h.wellFormed hnone, Ledger.note, if_neg hs]
    exact h

/-- While the modules are apart, every step of building keeps table and ledger in agreement. -/
theorem reflects_build {steps : List BuildStep}
    (h : PlacedModule.AreApart (Ledger.ofSteps steps).modules) :
    (build steps).Reflects (Ledger.ofSteps steps) := by
  induction steps using List.reverseRecOn with
  | nil => exact reflects_nil
  | append_singleton steps last ih =>
    rw [build_concat, Ledger.ofSteps_concat]
    rw [Ledger.ofSteps_concat] at h
    cases last with
    | module g =>
      have hg : g ∈ ((Ledger.ofSteps steps).note (.module g)).modules :=
        List.mem_append_right _ (.head _)
      refine (ih h.init).module (h.nonempty g hg) (h.fits g hg) fun o ho => ?_
      exact (List.pairwise_append.1 h.disjoint).2.2 o ho g (.head _)
    | symbol s =>
      refine (ih ?_).symbol s
      rw [Ledger.note] at h
      split at h <;> exact h

/-! ## Answers -/

/-- What a table answers, as the ledger has it. The ranges ascend, are disjoint, and cover what the
modules cover; all other addresses are unknown. An address that a module covers is named after the
file of that module, with the nearest symbol in the range that covers it, or none if there is none;
the offset counts from that symbol, or from the start of the range, and both are at or below the
address. A symbol makes a difference to the table exactly if a module covers it, and the symbols in
the table are those that were accepted. -/
structure IsExact (map : ModuleMap) (l : Ledger) : Prop where
  sorted : map.Pairwise fun m n => m.base < n.base
  disjoint : map.Pairwise fun m n => ∀ address, ¬ (m.Covers address ∧ n.Covers address)
  covers_iff : ∀ address, (∃ m ∈ map, m.Covers address) ↔ l.Covers address
  unknown_iff : ∀ address, map.resolve address = .unknown address ↔ ¬ l.Covers address
  resolves : ∀ g ∈ l.modules, ∀ address, g.Covers address →
    ∃ m ∈ map, m.path = g.path ∧ m.base ≤ address ∧ address < m.stop ∧
      ((∃ s, l.IsNearest m address s ∧ map.resolve address =
          { address, module := some (baseName g.path), symbol := some s.name
            offset := address - s.address }) ∨
        (∀ s ∈ l.accepted, m.Covers s.address → ¬ s.address ≤ address) ∧ map.resolve address =
          { address, module := some (baseName g.path), offset := address - m.base })
  accepts_iff : ∀ s, map.step (.symbol s) ≠ map ↔ l.Covers s.address
  stores_iff : ∀ s, (∃ m ∈ map, s ∈ m.symbols) ↔ s ∈ l.accepted

theorem Reflects.mem_symbols_iff (h : map.Reflects l) {m : ModuleRange} (hm : m ∈ map)
    {s : ExportedSymbol} : s ∈ m.symbols ↔ s ∈ l.accepted ∧ m.Covers s.address := by
  have hat : m.Covers s.address → (s ∈ m.symbols ↔ s ∈ l.accepted) := by
    intro hcovers
    have hsymbols := congrArg (s ∈ ·) (h.symbols_at m hm s.address hcovers)
    simpa only [List.mem_filter, beq_self_eq_true, and_true, eq_iff_iff] using hsymbols
  constructor
  · intro hs
    have hcovers := (h.wellFormed.ranges m hm).covers s hs
    exact ⟨(hat hcovers).1 hs, hcovers⟩
  · exact fun ⟨hs, hcovers⟩ => (hat hcovers).2 hs

theorem Reflects.accepts_iff (h : map.Reflects l) (s : ExportedSymbol) :
    map.step (.symbol s) ≠ map ↔ l.Covers s.address := by
  rw [← h.covers, step]
  constructor
  · intro hne
    by_contra hnone
    exact hne (insertSymbol_of_not_covers h.wellFormed (fun m hm hm' => hnone ⟨m, hm, hm'⟩) s.name)
  · intro ⟨m, hm, hcovers⟩ heq
    obtain ⟨before, after, rfl⟩ := List.append_of_mem hm
    rw [insertSymbol_of_covers h.wellFormed hcovers] at heq
    exact m.addSymbol_ne s (List.cons.inj (List.append_cancel_left heq)).1

theorem Reflects.resolves (h : map.Reflects l) {m : ModuleRange} (hm : m ∈ map)
    (hcovers : m.Covers address) :
    (∃ s, l.IsNearest m address s ∧ map.resolve address =
        { address, module := some m.name, symbol := some s.name, offset := address - s.address }) ∨
      (∀ s ∈ l.accepted, m.Covers s.address → ¬ s.address ≤ address) ∧ map.resolve address =
        { address, module := some m.name, offset := address - m.base } := by
  rw [resolve_of_covers h.wellFormed hm hcovers]
  obtain ⟨s, hs, hle, hgreatest, hlast, hname⟩ | ⟨hnone, hname⟩ :=
    (h.wellFormed.ranges m hm).describe_cases address
  · have hs' := (h.mem_symbols_iff hm).1 hs
    refine .inl ⟨s, ⟨hs'.2, hle, fun t ht ht' => ?_, ?_⟩, hname⟩
    · exact hgreatest t ((h.mem_symbols_iff hm).2 ⟨ht, ht'⟩)
    · rw [← h.symbols_at m hm s.address hs'.2]
      exact hlast
  · exact .inr ⟨fun s hs hs' => hnone s ((h.mem_symbols_iff hm).2 ⟨hs, hs'⟩), hname⟩

/-- **Look-ups are exact.** However modules and symbols are added to a table, if the modules are not
empty, end within the address space and are disjoint, it answers as the ledger of what was given
has it. -/
theorem build_isExact {steps : List BuildStep}
    (h : PlacedModule.AreApart (Ledger.ofSteps steps).modules) :
    (build steps).IsExact (Ledger.ofSteps steps) := by
  have hreflects := reflects_build h
  have hascending := hreflects.wellFormed.ascending
  have hresolves : ∀ g ∈ (Ledger.ofSteps steps).modules, ∀ address, g.Covers address →
      ∃ m ∈ build steps, m.path = g.path ∧ m.Covers address :=
    fun g hg address hg' => (hreflects.covers_iff g.path address).2 ⟨g, hg, rfl, hg'⟩
  constructor
  case sorted =>
    refine hascending.imp_of_mem fun hm _ hle => ?_
    exact UInt64.lt_of_lt_of_le (hreflects.wellFormed.ranges _ hm).nonempty hle
  case disjoint =>
    refine hascending.imp fun hle address hboth => ?_
    exact UInt64.lt_irrefl _ (UInt64.lt_of_lt_of_le hboth.1.2 (UInt64.le_trans hle hboth.2.1))
  case covers_iff => exact fun address => hreflects.covers
  case unknown_iff =>
    intro address
    rw [← hreflects.covers]
    constructor
    · intro hunknown ⟨m, hm, hcovers⟩
      obtain ⟨s, -, hname⟩ | ⟨-, hname⟩ := hreflects.resolves hm hcovers
      · cases hunknown.symm.trans hname
      · cases hunknown.symm.trans hname
    · intro hnone
      exact resolve_of_not_covers hreflects.wellFormed fun m hm hcovers => hnone ⟨m, hm, hcovers⟩
  case resolves =>
    intro g hg address hg'
    obtain ⟨m, hm, hpath, hcovers⟩ := hresolves g hg address hg'
    refine ⟨m, hm, hpath, hcovers.1, hcovers.2, ?_⟩
    rw [← hpath]
    exact hreflects.resolves hm hcovers
  case accepts_iff => exact hreflects.accepts_iff
  case stores_iff =>
    intro s
    constructor
    · intro ⟨m, hm, hs⟩
      exact ((hreflects.mem_symbols_iff hm).1 hs).1
    · intro hs
      obtain ⟨m, hm, hcovers⟩ := hreflects.covers.2 (hreflects.accepted_covered s hs)
      exact ⟨m, hm, (hreflects.mem_symbols_iff hm).2 ⟨hs, hcovers⟩⟩

/-- Three parts of one library, of which the last joins the first, and one of another; the first
symbol comes too early, and two are at one address. -/
def splitLibrary : List BuildStep :=
  [.symbol ⟨0x1100, "early"⟩, .module ⟨"/lib/a.so", 0x1000, 0x1000⟩, .symbol ⟨0x1100, "open"⟩,
    .symbol ⟨0x1100, "open64"⟩, .module ⟨"/lib/a.so", 0x3000, 0x1000⟩,
    .module ⟨"/lib/b.so", 0x4000, 0x1000⟩, .module ⟨"/lib/a.so", 0x2000, 0x1000⟩,
    .symbol ⟨0x1040, "close"⟩]

theorem splitLibrary_isExact :
    PlacedModule.AreApart (Ledger.ofSteps splitLibrary).modules ∧
    (Ledger.ofSteps splitLibrary).accepted =
      [⟨0x1100, "open"⟩, ⟨0x1100, "open64"⟩, ⟨0x1040, "close"⟩] ∧
    (build splitLibrary).IsExact (Ledger.ofSteps splitLibrary) := by
  have hordered : (Ledger.ofSteps splitLibrary).modules.Pairwise fun g o =>
      g.base.toNat + g.size.toNat ≤ o.base.toNat ∨ o.base.toNat + o.size.toNat ≤ g.base.toNat := by
    decide
  have hapart : PlacedModule.AreApart (Ledger.ofSteps splitLibrary).modules :=
    { nonempty := by decide
      fits := by decide
      disjoint := hordered.imp fun hle address ⟨hg, ho⟩ => by
        unfold PlacedModule.Covers at hg ho
        omega }
  exact ⟨hapart, by decide, build_isExact hapart⟩

end ModuleMap

end ScriptDiag
