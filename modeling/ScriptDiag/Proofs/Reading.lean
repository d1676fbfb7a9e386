import ScriptDiag.Bytes.Field
import ScriptDiag.Proofs.Act

/-!
# What a decoder reads

`Reads read bytes x` is the law of a read: wherever `bytes` stand next, whatever stands before and
behind them, `read` gives `x` and moves past them. The typed reads obey it for what `Encode`
writes (`reads_u8` to `reads_text`), and it passes along `bind` and `many`, so a decoder for a
record follows from the reads of its fields, in the order of the fields.

A text is read up to its first zero byte, hence only texts without a NUL read back as themselves.
-/

namespace ScriptDiag

/-! ## Texts without a NUL -/

def NulFree (s : String) : Prop :=
  '\x00' ∉ s.toList

instance (s : String) : Decidable (NulFree s) :=
  inferInstanceAs (Decidable ('\x00' ∉ s.toList))

theorem utf8_eq_flatMap (s : String) : utf8 s = s.toList.flatMap String.utf8EncodeChar := by
  rw [← String.ofList_toList (s := s), utf8, String.toByteArray_ofList]
  simp [List.utf8Encode]

theorem length_utf8 (s : String) : (utf8 s).length = s.utf8ByteSize := rfl

/-- Only the NUL character has a zero among the bytes that encode it. -/
theorem zero_not_mem_utf8EncodeChar {c : Char} (hc : c ≠ '\x00') :
    (0 : UInt8) ∉ String.utf8EncodeChar c := by
  have hpos : c.val.toNat ≠ 0 := by
    intro h
    exact hc (Char.ext (UInt32.toNat_inj.mp h))
  have hbyte : ∀ n, n % 256 ≠ 0 → (0 : UInt8) ≠ UInt8.ofNat n := by
    intro n hn h
    have h := congrArg UInt8.toNat h
    rw [UInt8.toNat_ofNat'] at h
    exact hn h.symm
  unfold String.utf8EncodeChar
  simp only
  -- the first byte of a longer encoding has its two top bits set, the others the top bit
  repeat' split
  all_goals
    simp only [List.mem_cons, List.not_mem_nil, or_false, not_or, ne_eq]
    repeat' apply And.intro
    all_goals
      apply hbyte
      omega

theorem NulFree.zero_not_mem {s : String} (h : NulFree s) : (0 : UInt8) ∉ utf8 s := by
  rw [utf8_eq_flatMap, List.mem_flatMap]
  rintro ⟨c, hc, hzero⟩
  exact zero_not_mem_utf8EncodeChar (fun e => h (e ▸ hc)) hzero

theorem NulFree.takeWhile_text {s : String} (h : NulFree s) (rest : Bytes) :
    (Encode.text s ++ rest).takeWhile (· != 0) = utf8 s := by
  have hne : ∀ b ∈ utf8 s, (b != 0) = true := fun b hb =>
    bne_iff_ne.mpr fun e => h.zero_not_mem (e ▸ hb)
  rw [Encode.text, List.append_assoc, List.takeWhile_append_of_pos hne]
  simp

theorem NulFree.dropWhile_text {s : String} (h : NulFree s) (rest : Bytes) :
    (Encode.text s ++ rest).dropWhile (· != 0) = 0 :: rest := by
  have hne : ∀ b ∈ utf8 s, (b != 0) = true := fun b hb =>
    bne_iff_ne.mpr fun e => h.zero_not_mem (e ▸ hb)
  rw [Encode.text, List.append_assoc, List.dropWhile_append_of_pos hne]
  rfl

/-! ## Readers between two byte strings -/

namespace Reader

/-- The reader that has passed `before` and has `rest` ahead. -/
def between (before rest : Bytes) : Reader where
  bytes := before ++ rest
  size := (before ++ rest).length
  position := before.length
  rest := rest
  size_eq := rfl
  rest_eq := by simp

theorem ofBytes_eq_between (bytes : Bytes) : ofBytes bytes = between [] bytes := rfl

theorem advance_between (before bytes rest : Bytes) :
    (between before (bytes ++ rest)).advance bytes.length = between (before ++ bytes) rest := by
  simp [advance, between]

theorem seek_between {before rest before' rest' : Bytes} {n : Nat}
    (h : before ++ rest = before' ++ rest') (hn : n = before'.length) :
    (between before rest).seek n = between before' rest' := by
  subst hn
  simp [seek, between, h]

end Reader

/-! ## The law of a read -/

namespace Decoder

variable {α β : Type}

def Reads (read : Decoder α) (bytes : Bytes) (x : α) : Prop :=
  ∀ before rest, read (.between before (bytes ++ rest)) = .ok x (.between (before ++ bytes) rest)

theorem Reads.decode {read : Decoder α} {bytes : Bytes} {x : α} (h : Reads read bytes x)
    (rest : Bytes) : Decoder.decode read (bytes ++ rest) = .ok x := by
  rw [Decoder.decode, Reader.ofBytes_eq_between, h [] rest]

/-- Seeking leads to any splitting of the same bytes. -/
theorem seek_apply {n : Nat} {before rest before' rest' : Bytes}
    (h : before ++ rest = before' ++ rest') (hn : n = before'.length) :
    seek n (.between before rest) = .ok () (.between before' rest') :=
  congrArg _ (Reader.seek_between h hn)

theorem decode_seek {n : Nat} {f : Unit → Decoder α} {before bytes rest : Bytes} {x : α}
    (hn : n = before.length) (h : Reads (f ()) bytes x) :
    Decoder.decode (seek n >>= f) (before ++ (bytes ++ rest)) = .ok x := by
  have hstart : [] ++ (before ++ (bytes ++ rest)) = before ++ (bytes ++ rest) := List.nil_append _
  rw [Decoder.decode, Reader.ofBytes_eq_between, Act.bind_of_ok (seek_apply hstart hn),
    h before rest]

theorem reads_pure (x : α) : Reads (pure x) [] x := by
  intro before rest
  rw [Act.pure_apply, List.nil_append, List.append_nil]

theorem Reads.bind {x : Decoder α} {f : α → Decoder β} {as bs : Bytes} {a : α} {b : β}
    (hx : Reads x as a) (hf : Reads (f a) bs b) : Reads (x >>= f) (as ++ bs) b := by
  intro before rest
  rw [List.append_assoc, Act.bind_of_ok (hx before (bs ++ rest)), hf (before ++ as) rest,
    List.append_assoc]

theorem Reads.map {x : Decoder α} {bytes : Bytes} {a : α} (hx : Reads x bytes a) (f : α → β) :
    Reads (f <$> x) bytes (f a) := by
  intro before rest
  rw [Act.map_apply, hx before rest]

/-- The last field of a record. -/
theorem Reads.bind_pure {x : Decoder α} {bytes : Bytes} {a : α} (hx : Reads x bytes a)
    (f : α → β) : Reads (x >>= fun a => pure (f a)) bytes (f a) := by
  have h := hx.bind (f := fun a => pure (f a)) (reads_pure (f a))
  rwa [List.append_nil] at h

theorem reads_take (bytes : Bytes) : Reads (take bytes.length) bytes bytes := by
  intro before rest
  have hle : before.length + bytes.length ≤ (before ++ (bytes ++ rest)).length := by
    simp only [List.length_append]
    omega
  have h := Reader.advance_between before bytes rest
  simp only [take, Reader.between, List.take_left'] at h ⊢
  rw [if_pos hle, h]

/-! ## Typed reads -/

theorem reads_number (width n : Nat) :
    Reads (number width) (toLittleEndian width n) (n % Nat.pow 256 width) := by
  have h := (reads_take (toLittleEndian width n)).map ofLittleEndian
  rwa [length_toLittleEndian, ofLittleEndian_toLittleEndian] at h

theorem reads_u8 (value : UInt8) : Reads u8 (Encode.u8 value) value := by
  have h := (reads_number 1 value.toNat).map UInt8.ofNat
  have hn : UInt8.ofNat (value.toNat % Nat.pow 256 1) = value := by
    rw [Nat.mod_eq_of_lt value.toNat_lt, UInt8.ofNat_toNat]
  rwa [hn] at h

theorem reads_u16 (value : UInt16) : Reads u16 (Encode.u16 value) value := by
  have h := (reads_number 2 value.toNat).map UInt16.ofNat
  have hn : UInt16.ofNat (value.toNat % Nat.pow 256 2) = value := by
    rw [Nat.mod_eq_of_lt value.toNat_lt, UInt16.ofNat_toNat]
  rwa [hn] at h

theorem reads_u32 (value : UInt32) : Reads u32 (Encode.u32 value) value := by
  have h := (reads_number 4 value.toNat).map UInt32.ofNat
  have hn : UInt32.ofNat (value.toNat % Nat.pow 256 4) = value := by
    rw [Nat.mod_eq_of_lt value.toNat_lt, UInt32.ofNat_toNat]
  rwa [hn] at h

theorem reads_i16 (value : Int16) : Reads i16 (Encode.i16 value) value :=
  (reads_u16 value.toUInt16).map UInt16.toInt16

theorem reads_i32 (value : Int32) : Reads i32 (Encode.i32 value) value :=
  (reads_u32 value.toUInt32).map UInt32.toInt32

/-- A number that was written without regard to its sign. -/
theorem reads_i32_ofNat (n : Nat) : Reads i32 (Encode.u32 (UInt32.ofNat n)) (Int32.ofNat n) :=
  (reads_u32 (UInt32.ofNat n)).map UInt32.toInt32

theorem reads_text {s : String} (hs : NulFree s) : Reads text (Encode.text s) s := by
  intro before rest
  have hlen : (utf8 s).length + 1 = (Encode.text s).length := by simp [Encode.text]
  show text _ = _
  simp only [text, Reader.between, hs.dropWhile_text, hs.takeWhile_text, ofUtf8?_utf8, hlen]
  exact congrArg _ (Reader.advance_between before (Encode.text s) rest)

/-! ## Repetition -/

theorem reads_manyAfter {read : Decoder β} {encode : α → Bytes} {g : α → β} {xs : List α}
    (h : ∀ x ∈ xs, Reads read (encode x) (g x)) (acc : List β) :
    Reads (manyAfter read xs.length acc) (xs.flatMap encode) (acc.reverse ++ xs.map g) := by
  induction xs generalizing acc with
  | nil =>
    rw [List.map_nil, List.append_nil]
    exact reads_pure acc.reverse
  | cons x xs ih =>
    have hx := h x (List.mem_cons_self ..)
    have hxs := ih (fun y hy => h y (List.mem_cons_of_mem _ hy)) (g x :: acc)
    rw [List.reverse_cons, List.append_assoc] at hxs
    exact hx.bind hxs

/-- `g x` is what the encoding of `x` reads as, in general `x` itself. -/
theorem reads_many {read : Decoder β} {encode : α → Bytes} {g : α → β} {xs : List α}
    (h : ∀ x ∈ xs, Reads read (encode x) (g x)) :
    Reads (many xs.length read) (xs.flatMap encode) (xs.map g) :=
  reads_manyAfter h []

end Decoder

end ScriptDiag
