import Mathlib.Data.List.Forall2
import Mathlib.Data.List.TakeWhile
import ScriptDiag.Proofs.Reading

/-!
# Fields at their places

Headers and records have their fields at fixed places, so what a format accepts is said best by what
stands where: `u16At bytes 4` is the number at offset 4, and `HoldsText bytes 26 s` says that `s`
stands at offset 26. A read at a place gives what stands there, if there are bytes enough, and
leaves the reader behind it (`Fixed`, `text_eq_ok_iff`).

`Reads` says that what was written is read. `Takes` says the reverse, that what is read was written:
a read that succeeds has moved past bytes that encode what it gave. It passes along `bind` and
`many` as `Reads` does.
-/

namespace ScriptDiag

/-! ## What stands at a place -/

/-- The number in the `width` bytes at `offset`. -/
def numberAt (width : Nat) (bytes : Bytes) (offset : Nat) : Nat :=
  ofLittleEndian ((bytes.drop offset).take width)

def u8At (bytes : Bytes) (offset : Nat) : UInt8 :=
  UInt8.ofNat (numberAt 1 bytes offset)

def u16At (bytes : Bytes) (offset : Nat) : UInt16 :=
  UInt16.ofNat (numberAt 2 bytes offset)

def i16At (bytes : Bytes) (offset : Nat) : Int16 :=
  (u16At bytes offset).toInt16

def u32At (bytes : Bytes) (offset : Nat) : UInt32 :=
  UInt32.ofNat (numberAt 4 bytes offset)

def i32At (bytes : Bytes) (offset : Nat) : Int32 :=
  (u32At bytes offset).toInt32

/-- At `offset` stands the text `s`, and the zero byte that ends it. -/
def HoldsText (bytes : Bytes) (offset : Nat) (s : String) : Prop :=
  NulFree s ∧ Encode.text s <+: bytes.drop offset

theorem nulFree_of_zero_not_mem {s : String} (h : (0 : UInt8) ∉ utf8 s) : NulFree s := by
  intro hmem
  rw [utf8_eq_flatMap, List.mem_flatMap] at h
  exact h ⟨'\x00', hmem, by decide⟩

theorem length_text (s : String) : (Encode.text s).length = (utf8 s).length + 1 := by
  rw [Encode.text, List.length_append, List.length_singleton]

/-- No two texts stand at the same place. -/
theorem HoldsText.unique {bytes : Bytes} {offset : Nat} {s s' : String}
    (h : HoldsText bytes offset s) (h' : HoldsText bytes offset s') : s = s' := by
  obtain ⟨rest, hrest⟩ := h.2
  obtain ⟨rest', hrest'⟩ := h'.2
  have heq : utf8 s = utf8 s' := by
    rw [← h.1.takeWhile_text rest, ← h'.1.takeWhile_text rest', hrest, hrest']
  have hsome := ofUtf8?_utf8 s
  rw [heq, ofUtf8?_utf8] at hsome
  exact (Option.some.inj hsome).symm

/-! ## Readers at a place -/

/-- The reader of `bytes` at `offset`, which may lie past the end. -/
def Reader.atOffset (bytes : Bytes) (offset : Nat) : Reader :=
  (ofBytes bytes).seek offset

namespace Reader

theorem ofBytes_eq_atOffset (bytes : Bytes) : ofBytes bytes = atOffset bytes 0 := rfl

theorem advance_atOffset (bytes : Bytes) (offset n : Nat) :
    (atOffset bytes offset).advance n = atOffset bytes (offset + n) := by
  simp [atOffset, advance, seek, ofBytes, List.drop_drop]

end Reader

namespace Decoder

variable {α β : Type}

theorem decode_eq_ok_iff {read : Decoder α} {bytes : Bytes} {x : α} :
    decode read bytes = .ok x ↔ ∃ r, read (.atOffset bytes 0) = .ok x r := by
  rw [decode, Reader.ofBytes_eq_atOffset]
  split <;> simp_all

theorem seek_bind_apply (place : Nat) (f : Unit → Decoder α) (bytes : Bytes) (offset : Nat) :
    (seek place >>= f) (.atOffset bytes offset) = f () (.atOffset bytes place) := rfl

/-! ## Fields of fixed width -/

/-- Wherever `read` stands, it gives the value in the next `width` bytes and moves past them, and if
there are fewer it fails. -/
def Fixed (read : Decoder α) (width : Nat) (value : Bytes → Nat → α) : Prop :=
  ∀ bytes offset, read (.atOffset bytes offset) =
    if offset + width ≤ bytes.length then
      .ok (value bytes offset) (.atOffset bytes (offset + width))
    else .error (.unexpectedEnd offset) (.atOffset bytes offset)

theorem fixed_take (n : Nat) : Fixed (take n) n fun bytes offset => (bytes.drop offset).take n := by
  intro bytes offset
  rw [← Reader.advance_atOffset]
  rfl

theorem Fixed.map {read : Decoder α} {width : Nat} {value : Bytes → Nat → α}
    (h : Fixed read width value) (f : α → β) :
    Fixed (f <$> read) width fun bytes offset => f (value bytes offset) := by
  intro bytes offset
  rw [Act.map_apply, h bytes offset]
  by_cases hle : offset + width ≤ bytes.length
  · simp only [if_pos hle]
  · simp only [if_neg hle]

theorem fixed_number (width : Nat) : Fixed (number width) width (numberAt width) :=
  (fixed_take width).map ofLittleEndian

theorem fixed_u8 : Fixed u8 1 u8At :=
  (fixed_number 1).map UInt8.ofNat

theorem fixed_u16 : Fixed u16 2 u16At :=
  (fixed_number 2).map UInt16.ofNat

theorem fixed_i16 : Fixed i16 2 i16At :=
  fixed_u16.map UInt16.toInt16

theorem fixed_u32 : Fixed u32 4 u32At :=
  (fixed_number 4).map UInt32.ofNat

theorem fixed_i32 : Fixed i32 4 i32At :=
  fixed_u32.map UInt32.toInt32

/-- A field is there if its bytes are, and then what comes next reads on behind it. -/
theorem Fixed.bind_eq_ok_iff {read : Decoder α} {width : Nat} {value : Bytes → Nat → α}
    (h : Fixed read width value) {f : α → Decoder β} {bytes : Bytes} {offset : Nat} {x : β}
    {r : Reader} :
    (read >>= f) (.atOffset bytes offset) = .ok x r ↔
      offset + width ≤ bytes.length ∧
        f (value bytes offset) (.atOffset bytes (offset + width)) = .ok x r := by
  rw [Act.bind_apply, h bytes offset]
  by_cases hle : offset + width ≤ bytes.length
  · rw [if_pos hle]
    exact (and_iff_right hle).symm
  · rw [if_neg hle]
    exact iff_of_false nofun fun h => hle h.1

/-- A decoder goes on past a check if nothing is wrong. -/
theorem unless_eq_ok_iff {wrong : Prop} [Decidable wrong] {e : DecodeError}
    {f : PUnit → Decoder α} {read : Decoder α} {r r' : Reader} {x : α} :
    (if wrong then throw e >>= f else read) r = .ok x r' ↔ ¬wrong ∧ read r = .ok x r' := by
  by_cases h : wrong
  · rw [if_pos h]
    exact iff_of_false nofun fun hr => hr.1 h
  · rw [if_neg h]
    exact (and_iff_right h).symm

theorem text_eq_ok_iff {bytes : Bytes} {offset : Nat} {s : String} {r : Reader} :
    text (.atOffset bytes offset) = .ok s r ↔
      HoldsText bytes offset s ∧ r = .atOffset bytes (offset + (Encode.text s).length) := by
  constructor
  · intro h
    have hsplit := List.takeWhile_append_dropWhile (p := (· != 0)) (l := bytes.drop offset)
    simp only [text, show (Reader.atOffset bytes offset).rest = bytes.drop offset from rfl] at h
    split at h
    · cases h
    next b tail hdrop =>
      split at h
      · cases h
      next s' hs' =>
        obtain rfl : s' = s := by
          injection h
        have hraw := (utf8_of_ofUtf8? hs').symm
        have hb : b = 0 := by
          have hhead := List.head?_dropWhile_not (· != 0) (bytes.drop offset)
          rw [hdrop] at hhead
          simpa using hhead
        have hzero : (0 : UInt8) ∉ utf8 s' := by
          rw [← hraw]
          intro hmem
          simpa using List.mem_takeWhile_imp hmem
        have hr : (Reader.atOffset bytes offset).advance ((utf8 s').length + 1) = r := by
          rw [hraw] at h
          injection h
        refine ⟨⟨nulFree_of_zero_not_mem hzero, tail, ?_⟩, ?_⟩
        · rw [← hsplit, hdrop, hraw, hb, Encode.text, List.append_assoc, List.singleton_append]
        · rw [← hr, Reader.advance_atOffset, length_text]
  · rintro ⟨⟨hnul, rest, hrest⟩, rfl⟩
    simp only [text, show (Reader.atOffset bytes offset).rest = bytes.drop offset from rfl,
      ← hrest, hnul.dropWhile_text, hnul.takeWhile_text, ofUtf8?_utf8]
    rw [Reader.advance_atOffset, length_text]

/-- A text is there if it stands there, and then what comes next reads on behind it. -/
theorem text_bind_eq_ok_iff {f : String → Decoder α} {bytes : Bytes} {offset : Nat} {x : α}
    {r : Reader} :
    (text >>= f) (.atOffset bytes offset) = .ok x r ↔ ∃ s, HoldsText bytes offset s ∧
      f s (.atOffset bytes (offset + (Encode.text s).length)) = .ok x r := by
  rw [Act.bind_apply]
  constructor
  · intro h
    split at h
    next s r' hread =>
      obtain ⟨hs, rfl⟩ := text_eq_ok_iff.mp hread
      exact ⟨s, hs, h⟩
    next => cases h
  · rintro ⟨s, hs, h⟩
    rw [text_eq_ok_iff.mpr ⟨hs, rfl⟩]
    exact h

/-! ## What was read was written -/

/-- Wherever `read` succeeds, it moves past some bytes that stand to what it gives as `p` says. -/
def Takes (read : Decoder α) (p : Bytes → α → Prop) : Prop :=
  ∀ bytes offset x r, read (.atOffset bytes offset) = .ok x r →
    ∃ part, part <+: bytes.drop offset ∧ p part x ∧ r = .atOffset bytes (offset + part.length)

theorem Takes.imp {read : Decoder α} {p q : Bytes → α → Prop} (h : Takes read p)
    (hpq : ∀ part x, p part x → q part x) : Takes read q := by
  intro bytes offset x r hread
  obtain ⟨part, hpart, hp, hr⟩ := h bytes offset x r hread
  exact ⟨part, hpart, hpq part x hp, hr⟩

theorem takes_pure (x : α) : Takes (pure x) fun part y => part = [] ∧ y = x := by
  intro bytes offset y r h
  rw [Act.pure_apply] at h
  injection h with hx hr
  exact ⟨[], List.nil_prefix, ⟨rfl, hx.symm⟩, hr.symm⟩

theorem append_prefix_drop {bytes as bs : Bytes} {offset : Nat} (ha : as <+: bytes.drop offset)
    (hb : bs <+: bytes.drop (offset + as.length)) : as ++ bs <+: bytes.drop offset := by
  obtain ⟨rest, hrest⟩ := ha
  rw [← List.drop_drop, ← hrest, List.drop_left] at hb
  obtain ⟨rest', rfl⟩ := hb
  exact ⟨rest', by rw [List.append_assoc, hrest]⟩

theorem Takes.bind {x : Decoder α} {f : α → Decoder β} {p : Bytes → α → Prop}
    {q : α → Bytes → β → Prop} (hx : Takes x p) (hf : ∀ a, Takes (f a) (q a)) :
    Takes (x >>= f) fun part b => ∃ as bs a, part = as ++ bs ∧ p as a ∧ q a bs b := by
  intro bytes offset b r h
  rw [Act.bind_apply] at h
  split at h
  next a r' hread =>
    obtain ⟨as, has, hp, rfl⟩ := hx bytes offset a r' hread
    obtain ⟨bs, hbs, hq, rfl⟩ := hf a bytes (offset + as.length) b r h
    refine ⟨as ++ bs, append_prefix_drop has hbs, ⟨as, bs, a, rfl, hp, hq⟩, ?_⟩
    rw [List.length_append, Nat.add_assoc]
  next => cases h

theorem Takes.bind_pure {x : Decoder α} {p : Bytes → α → Prop} (hx : Takes x p) (f : α → β) :
    Takes (x >>= fun a => pure (f a)) fun part b => ∃ a, p part a ∧ b = f a := by
  refine (hx.bind fun a => takes_pure (f a)).imp fun part b => ?_
  rintro ⟨as, bs, a, rfl, hp, rfl, rfl⟩
  exact ⟨a, (List.append_nil as).symm ▸ hp, rfl⟩

theorem Takes.map {x : Decoder α} {p : Bytes → α → Prop} (hx : Takes x p) (f : α → β) :
    Takes (f <$> x) fun part b => ∃ a, p part a ∧ b = f a := by
  intro bytes offset b r h
  rw [Act.map_apply] at h
  split at h
  next a r' hread =>
    obtain ⟨part, hpart, hp, rfl⟩ := hx bytes offset a r' hread
    injection h with hb hr
    exact ⟨part, hpart, ⟨a, hp, hb.symm⟩, hr.symm⟩
  next => cases h

/-! ## Fields read are fields written -/

theorem takes_number (width : Nat) :
    Takes (number width) fun part n =>
      part = toLittleEndian width n ∧ n < Nat.pow 256 width := by
  intro bytes offset n r h
  rw [fixed_number width bytes offset] at h
  split at h
  next hle =>
    injection h with hn hr
    obtain rfl : numberAt width bytes offset = n := hn
    have hlen : ((bytes.drop offset).take width).length = width := by
      rw [List.length_take, List.length_drop]
      omega
    have hback := toLittleEndian_ofLittleEndian ((bytes.drop offset).take width)
    have hlt := ofLittleEndian_lt ((bytes.drop offset).take width)
    rw [hlen] at hback hlt
    refine ⟨(bytes.drop offset).take width, List.take_prefix _ _, ⟨hback.symm, hlt⟩, ?_⟩
    rw [hlen, hr]
  next => cases h

theorem takes_u8 : Takes u8 fun part value => part = Encode.u8 value := by
  refine ((takes_number 1).map UInt8.ofNat).imp fun part value => ?_
  rintro ⟨n, ⟨rfl, hn⟩, rfl⟩
  rw [Encode.u8, UInt8.toNat_ofNat_of_lt' hn]

theorem takes_u16 : Takes u16 fun part value => part = Encode.u16 value := by
  refine ((takes_number 2).map UInt16.ofNat).imp fun part value => ?_
  rintro ⟨n, ⟨rfl, hn⟩, rfl⟩
  rw [Encode.u16, UInt16.toNat_ofNat_of_lt' hn]

theorem takes_u32 : Takes u32 fun part value => part = Encode.u32 value := by
  refine ((takes_number 4).map UInt32.ofNat).imp fun part value => ?_
  rintro ⟨n, ⟨rfl, hn⟩, rfl⟩
  rw [Encode.u32, UInt32.toNat_ofNat_of_lt' hn]

theorem takes_i16 : Takes i16 fun part value => part = Encode.i16 value := by
  refine (takes_u16.map UInt16.toInt16).imp fun part value => ?_
  rintro ⟨n, rfl, rfl⟩
  rfl

theorem takes_i32 : Takes i32 fun part value => part = Encode.i32 value := by
  refine (takes_u32.map UInt32.toInt32).imp fun part value => ?_
  rintro ⟨n, rfl, rfl⟩
  rfl

theorem takes_text : Takes text fun part s => part = Encode.text s ∧ NulFree s := by
  intro bytes offset s r h
  obtain ⟨hs, rfl⟩ := text_eq_ok_iff.mp h
  exact ⟨Encode.text s, hs.2, ⟨rfl, hs.1⟩, rfl⟩

/-! ## Repetition -/

theorem takes_manyAfter {read : Decoder α} {p : Bytes → α → Prop} (h : Takes read p) (n : Nat)
    (acc : List α) :
    Takes (manyAfter read n acc) fun part xs => ∃ ys parts, xs = acc.reverse ++ ys ∧
      ys.length = n ∧ List.Forall₂ p parts ys ∧ part = parts.flatten := by
  induction n generalizing acc with
  | zero =>
    refine (takes_pure acc.reverse).imp fun part xs => ?_
    rintro ⟨rfl, rfl⟩
    exact ⟨[], [], (List.append_nil _).symm, rfl, .nil, rfl⟩
  | succ n ih =>
    refine (h.bind fun x => ih (x :: acc)).imp fun part xs => ?_
    rintro ⟨as, bs, x, rfl, hp, ys, parts, rfl, rfl, hparts, rfl⟩
    refine ⟨x :: ys, as :: parts, ?_, rfl, .cons hp hparts, rfl⟩
    rw [List.reverse_cons, List.append_assoc, List.singleton_append]

/-- A loop takes one part after the other, each as its own read does. -/
theorem takes_many {read : Decoder α} {p : Bytes → α → Prop} (h : Takes read p) (n : Nat) :
    Takes (many n read) fun part xs =>
      xs.length = n ∧ ∃ parts, List.Forall₂ p parts xs ∧ part = parts.flatten := by
  refine (takes_manyAfter h n []).imp fun part xs => ?_
  rintro ⟨ys, parts, rfl, hlen, hparts, rfl⟩
  exact ⟨hlen, parts, hparts, rfl⟩

end Decoder

/-- Parts that are encodings are together the encoding of the list. -/
theorem flatten_eq_flatMap {α : Type} {encode : α → Bytes} {q : α → Prop} {parts : List Bytes}
    {xs : List α} (h : List.Forall₂ (fun part x => part = encode x ∧ q x) parts xs) :
    parts.flatten = xs.flatMap encode ∧ ∀ x ∈ xs, q x := by
  induction h with
  | nil => exact ⟨rfl, fun _ hx => absurd hx List.not_mem_nil⟩
  | cons hx _ ih =>
    obtain ⟨rfl, hq⟩ := hx
    exact ⟨by rw [List.flatten_cons, List.flatMap_cons, ih.1], List.forall_mem_cons.mpr ⟨hq, ih.2⟩⟩

end ScriptDiag
