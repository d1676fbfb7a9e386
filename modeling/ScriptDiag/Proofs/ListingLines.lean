import Mathlib.Data.Nat.Digits.Defs
import ScriptDiag.Native.Mapping

/-!
# The mappings of a listing

`Mapping.IsOnLine` says what a line of a listing has to look like, and `Mapping.Listed` which
mappings a list of lines has: one for each line of that form, in order. Reading a listing finds
just these (`Mapping.listed_iff`).
-/

namespace ScriptDiag

/-! ## Numbers -/

section Numerals

variable {base limit n : Nat} {cs digits : List Char}

/-- The digits, of which the first is the most significant, write `n`. -/
def AreDigits (base : Nat) (digits : List Char) (n : Nat) : Prop :=
  digits ≠ [] ∧ ∃ values : List Nat, values.map some = digits.map (digitValue? base) ∧
    Nat.ofDigits base values.reverse = n

/-- `cs` write `n`, perhaps with a plus sign in front. -/
def IsNumeral (base : Nat) (cs : List Char) (n : Nat) : Prop :=
  ∃ digits, AreDigits base digits n ∧ (cs = digits ∨ cs = '+' :: digits)

theorem digitsValue?_eq_some_iff {acc : Nat} : digitsValue? base acc digits = some n ↔
    ∃ values : List Nat, values.map some = digits.map (digitValue? base) ∧
      values.foldl (fun acc d => acc * base + d) acc = n := by
  induction digits generalizing acc with
  | nil =>
    rw [digitsValue?, Option.some_inj]
    constructor
    · exact fun hn => ⟨[], rfl, hn⟩
    · rintro ⟨values, hvalues, hn⟩
      rwa [List.map_eq_nil_iff.1 hvalues] at hn
  | cons c digits ih =>
    rw [digitsValue?]
    cases hc : digitValue? base c with
    | none => simp [hc, List.map_eq_cons_iff]
    | some d => simp [hc, ih, List.map_eq_cons_iff]

theorem ofDigits_reverse_eq_foldl (values : List Nat) :
    Nat.ofDigits base values.reverse = values.foldl (fun acc d => acc * base + d) 0 := by
  rw [Nat.ofDigits_eq_foldr, List.foldr_reverse]
  congr 1
  funext acc d
  rw [Nat.cast_id, Nat.add_comm, Nat.mul_comm]

theorem areDigits_iff :
    AreDigits base digits n ↔ digits ≠ [] ∧ digitsValue? base 0 digits = some n := by
  simp only [AreDigits, digitsValue?_eq_some_iff, ofDigits_reverse_eq_foldl]

theorem AreDigits.exists_value {c : Char} (h : AreDigits base digits n) (hc : c ∈ digits) :
    ∃ d, digitValue? base c = some d := by
  obtain ⟨-, values, hvalues, -⟩ := h
  obtain ⟨d, -, hd⟩ := List.mem_map.1 (hvalues.symm ▸ List.mem_map_of_mem hc)
  exact ⟨d, hd.symm⟩

theorem AreDigits.plus_not_mem (h : AreDigits base digits n) : '+' ∉ digits :=
  fun hplus => nomatch h.exists_value hplus

theorem AreDigits.hyphen_not_mem (h : AreDigits base digits n) : '-' ∉ digits :=
  fun hhyphen => nomatch h.exists_value hhyphen

theorem IsNumeral.hyphen_not_mem (h : IsNumeral base cs n) : '-' ∉ cs := by
  obtain ⟨digits, hdigits, rfl | rfl⟩ := h
  · exact hdigits.hyphen_not_mem
  · rw [List.mem_cons]
    rintro (hhyphen | hhyphen)
    · cases hhyphen
    · exact hdigits.hyphen_not_mem hhyphen

/-- A numeral without its plus sign is its digits. -/
theorem isNumeral_iff :
    IsNumeral base cs n ↔ AreDigits base (if cs.head? = some '+' then cs.tail else cs) n := by
  constructor
  · rintro ⟨digits, hdigits, rfl | rfl⟩
    · have hplus : cs.head? ≠ some '+' :=
        fun hplus => hdigits.plus_not_mem (List.mem_of_mem_head? hplus)
      rwa [if_neg hplus]
    · exact hdigits
  · intro hdigits
    split at hdigits
    case isTrue hplus =>
      obtain ⟨digits, rfl⟩ := List.head?_eq_some_iff.1 hplus
      exact ⟨digits, hdigits, .inr rfl⟩
    case isFalse => exact ⟨cs, hdigits, .inl rfl⟩

theorem readUnsigned?_eq_some_iff :
    readUnsigned? base limit cs = some n ↔ IsNumeral base cs n ∧ n < limit := by
  rw [readUnsigned?, isNumeral_iff, areDigits_iff]
  generalize (if cs.head? = some '+' then cs.tail else cs) = digits
  split
  case isTrue hempty => simp [List.isEmpty_iff.1 hempty]
  case isFalse hempty =>
    have hne : digits ≠ [] := fun heq => hempty (List.isEmpty_iff.2 heq)
    rw [Option.filter_eq_some_iff, decide_eq_true_eq, and_iff_right hne]

end Numerals

namespace Mapping

variable {cs line : List Char} {lines : List (List Char)} {m : Mapping} {ms : List Mapping}
  {start stop : Address}

/-! ## Lines -/

theorem address?_eq_some_iff : address? cs = some start ↔ IsNumeral 16 cs start.toNat := by
  rw [address?, Option.map_eq_some_iff]
  constructor
  · rintro ⟨n, hn, rfl⟩
    obtain ⟨hnumeral, hlt⟩ := readUnsigned?_eq_some_iff.1 hn
    rwa [UInt64.toNat_ofNat_of_lt' hlt]
  · intro hnumeral
    exact ⟨start.toNat, readUnsigned?_eq_some_iff.2 ⟨hnumeral, start.toNat_lt⟩,
      UInt64.ofNat_toNat⟩

theorem range?_eq_some_iff : range? cs = some (start, stop) ↔
    ∃ low high, cs = low ++ '-' :: high ∧ IsNumeral 16 low start.toNat ∧
      IsNumeral 16 high stop.toNat := by
  rw [range?]
  constructor
  · intro h
    split at h
    case h_1 => cases h
    case h_2 c high hdrop =>
      have hc : c = '-' := by simpa [hdrop] using List.head?_dropWhile_not (· != '-') cs
      have hcs := List.takeWhile_append_dropWhile (p := (· != '-')) (l := cs)
      simp only [Option.bind_eq_bind, Option.bind_eq_some_iff] at h
      obtain ⟨_, hlow, _, hhigh, h⟩ := h
      cases h
      rw [hdrop, hc] at hcs
      exact ⟨_, high, hcs.symm, address?_eq_some_iff.1 hlow, address?_eq_some_iff.1 hhigh⟩
  · rintro ⟨low, high, rfl, hlow, hhigh⟩
    have hhyphen : ∀ c ∈ low, (c != '-') = true :=
      fun c hc => bne_iff_ne.2 fun heq => hlow.hyphen_not_mem (heq ▸ hc)
    rw [List.takeWhile_append_of_pos hhyphen, List.dropWhile_append_of_pos hhyphen]
    simp [address?_eq_some_iff.2 hlow, address?_eq_some_iff.2 hhigh]

/-- What a line has to look like to describe the mapping: the ends of the range with a hyphen
between them, the permissions, three words of any kind, and the path if there is one. -/
def IsOnLine (m : Mapping) (line : List Char) : Prop :=
  ∃ low high others, words line = (low ++ '-' :: high) :: m.perms :: others ∧
    IsNumeral 16 low m.start.toNat ∧ IsNumeral 16 high m.stop.toNat ∧
    m.path = (others[3]?).map String.ofList

theorem parseLine?_eq_some_iff : parseLine? line = some m ↔ m.IsOnLine line := by
  rw [parseLine?, IsOnLine]
  split
  case h_1 range perms others hwords =>
    rw [hwords, Option.bind_eq_bind, Option.bind_eq_some_iff]
    constructor
    · rintro ⟨⟨start, stop⟩, hrange, hm⟩
      cases hm
      obtain ⟨low, high, rfl, hlow, hhigh⟩ := range?_eq_some_iff.1 hrange
      exact ⟨low, high, others, rfl, hlow, hhigh, rfl⟩
    · rintro ⟨low, high, _, hline, hlow, hhigh, hpath⟩
      obtain ⟨rfl, rfl, rfl⟩ : range = low ++ '-' :: high ∧ perms = m.perms ∧ others = _ := by
        simpa using hline
      refine ⟨(m.start, m.stop), range?_eq_some_iff.2 ⟨low, high, rfl, hlow, hhigh⟩, ?_⟩
      exact congrArg (fun path => some { m with path }) hpath.symm
  case h_2 hwords =>
    refine iff_of_false nofun ?_
    rintro ⟨low, high, others, hline, -⟩
    exact hwords _ _ _ hline

/-- The mappings are those on the lines: one for each line that describes one. -/
inductive Listed : List (List Char) → List Mapping → Prop
  | nil : Listed [] []
  | described {line : List Char} {lines : List (List Char)} {m : Mapping} {ms : List Mapping} :
      m.IsOnLine line → Listed lines ms → Listed (line :: lines) (m :: ms)
  | malformed {line : List Char} {lines : List (List Char)} {ms : List Mapping} :
      (∀ m : Mapping, ¬ m.IsOnLine line) → Listed lines ms → Listed (line :: lines) ms

/-- Reading a listing finds its mappings. -/
theorem listed_iff : Listed lines ms ↔ lines.filterMap parseLine? = ms := by
  constructor
  · intro h
    induction h with
    | nil => rfl
    | described hline _ ih =>
      rw [List.filterMap_cons_some (parseLine?_eq_some_iff.2 hline), ih]
    | malformed hline _ ih =>
      rw [List.filterMap_cons_none, ih]
      exact Option.eq_none_iff_forall_ne_some.2 fun m hm => hline m (parseLine?_eq_some_iff.1 hm)
  · rintro rfl
    induction lines with
    | nil => exact .nil
    | cons line lines ih =>
      cases hline : parseLine? line with
      | none =>
        rw [List.filterMap_cons_none hline]
        refine .malformed (fun m hm => ?_) ih
        cases hline.symm.trans (parseLine?_eq_some_iff.2 hm)
      | some m =>
        rw [List.filterMap_cons_some hline]
        exact .described (parseLine?_eq_some_iff.1 hline) ih

end Mapping

end ScriptDiag
