import ScriptDiag.Proofs.BlockGrammar

/-!
# Where a debug block ends

A block says in its header how long it is. A module image hands over everything behind its own end,
so a block may have more bytes behind it than it announces, and if the file was cut it has fewer.
The main statement is that neither makes a difference to what is read
(`parse_depends_on_extent`): a block reads the same whatever stands behind its announced end, also
if it is malformed, and of a block that is cut before that end nothing is read.

The header is looked at in the whole data, and the tables in the announced part alone. So all there
is to show is that the header of a longer byte string is the same one (`Header.ofBytes_of_prefix`).
-/

namespace ScriptDiag

/-! ## Numbers in longer byte strings -/

theorem numberAt_of_prefix {width offset : Nat} {bytes longer : Bytes} (h : bytes <+: longer)
    (hlen : offset + width ≤ bytes.length) :
    numberAt width longer offset = numberAt width bytes offset := by
  obtain ⟨rest, rfl⟩ := h
  have hoffset : offset ≤ bytes.length := by omega
  have hwidth : width ≤ (bytes.drop offset).length := by
    rw [List.length_drop]
    omega
  rw [numberAt, numberAt, List.drop_append_of_le_length hoffset,
    List.take_append_of_le_length hwidth]

/-- A field is read first, if its bytes are there. -/
theorem Decoder.Fixed.bind_apply {α β : Type} {read : Decoder α} {width : Nat}
    {value : Bytes → Nat → α} (h : Fixed read width value) (f : α → Decoder β) (bytes : Bytes)
    (offset : Nat) :
    (read >>= f) (.atOffset bytes offset) =
      if offset + width ≤ bytes.length then
        f (value bytes offset) (.atOffset bytes (offset + width))
      else .error (.unexpectedEnd offset) (.atOffset bytes offset) := by
  rw [Act.bind_apply, h bytes offset]
  by_cases hle : offset + width ≤ bytes.length
  · simp only [if_pos hle]
  · simp only [if_neg hle]

namespace DebugBlock

/-! ## The announced part -/

/-- The number of bytes that a block says it has. -/
def extent (bytes : Bytes) : Nat :=
  (i32At bytes 0).toNatClampNeg

variable {bytes longer : Bytes}

theorem HasHeader.extent_ge (h : HasHeader bytes) : debugHeaderSize ≤ extent bytes := by
  have hsize := h.toNatClampNeg_size
  have hge := h.size_ge
  rw [extent]
  omega

theorem HasHeader.extent_le (h : HasHeader bytes) : extent bytes ≤ bytes.length := by
  have hsize := h.toNatClampNeg_size
  have hle := h.size_le
  rw [extent]
  omega

theorem Header.ofBytes_of_prefix (h : bytes <+: longer) (hlen : debugHeaderSize ≤ bytes.length) :
    ofBytes longer = ofBytes bytes := by
  have hat : ∀ width offset, offset + width ≤ debugHeaderSize →
      numberAt width longer offset = numberAt width bytes offset := fun _ _ hle =>
    numberAt_of_prefix h (Nat.le_trans hle hlen)
  simp only [ofBytes, i32At, u32At, u16At, u8At, hat 4 0 (by decide), hat 1 6 (by decide),
    hat 1 7 (by decide), hat 2 10 (by decide), hat 2 12 (by decide), hat 2 14 (by decide),
    hat 2 16 (by decide)]

theorem i32At_zero_of_prefix (h : bytes <+: longer) (hlen : 4 ≤ bytes.length) :
    i32At longer 0 = i32At bytes 0 := by
  rw [i32At, i32At, u32At, u32At, numberAt_of_prefix h hlen]

theorem magic_of_begins (h : bytes <+: longer) (hlen : 6 ≤ bytes.length) :
    u16At longer 4 = u16At bytes 4 := by
  rw [u16At, u16At, numberAt_of_prefix h hlen]

theorem HasHeader.six_le_extent (h : HasHeader bytes) : 6 ≤ extent bytes :=
  Nat.le_trans (by decide) h.extent_ge

theorem HasHeader.of_prefix (hb : HasHeader bytes) (h : bytes <+: longer) : HasHeader longer := by
  have hlen : 6 ≤ bytes.length := hb.six_le_extent.trans hb.extent_le
  have hsize := i32At_zero_of_prefix h (Nat.le_trans (by decide) hlen)
  have hlonger : (bytes.length : Int) ≤ longer.length := Int.ofNat_le.mpr h.length_le
  exact ⟨(magic_of_begins h hlen).trans hb.magic, hsize ▸ hb.size_ge,
    hsize ▸ Int.le_trans hb.size_le hlonger⟩

theorem parse_of_hasHeader (h : HasHeader bytes) :
    parse bytes = Decoder.decode (tables (Header.ofBytes bytes)) (bytes.take (extent bytes)) := by
  rw [parse, decode_header_eq_ok_iff.mpr ⟨h, rfl⟩]
  rfl

/-- What stands behind the announced end is not looked at. -/
theorem HasHeader.parse_of_prefix (hb : HasHeader bytes) (h : bytes <+: longer) :
    parse longer = parse bytes := by
  have hlen : 6 ≤ bytes.length := hb.six_le_extent.trans hb.extent_le
  have hextent : extent longer = extent bytes := by
    rw [extent, i32At_zero_of_prefix h (Nat.le_trans (by decide) hlen), extent]
  have htake : longer.take (extent bytes) = bytes.take (extent bytes) := by
    obtain ⟨rest, rfl⟩ := h
    exact List.take_append_of_le_length hb.extent_le
  rw [parse_of_hasHeader (hb.of_prefix h), parse_of_hasHeader hb,
    Header.ofBytes_of_prefix h (hb.extent_ge.trans hb.extent_le), hextent, htake]

/-- The announced part is a block of its own. -/
theorem HasHeader.take_extent (h : HasHeader bytes) : HasHeader (bytes.take (extent bytes)) := by
  have hprefix := List.take_prefix (extent bytes) bytes
  have hlen : (bytes.take (extent bytes)).length = extent bytes :=
    List.length_take_of_le h.extent_le
  have hsix : 6 ≤ (bytes.take (extent bytes)).length := hlen.symm ▸ h.six_le_extent
  have hsize := i32At_zero_of_prefix hprefix (Nat.le_trans (by decide) hsix)
  have hmagic := magic_of_begins hprefix hsix
  have hlength : ((bytes.take (extent bytes)).length : Int) = (i32At bytes 0).toInt := by
    rw [hlen, extent, h.toNatClampNeg_size]
  exact ⟨hmagic ▸ h.magic, hsize ▸ h.size_ge, Int.le_of_eq (hsize ▸ hlength.symm)⟩

/-! ## Blocks that are cut -/

/-- Why the first `n` bytes of a block are refused, if it announces the size `size` and they are
fewer: they end within the size or the mark, or the size is more than there is. -/
def cutError (size : Int32) (n : Nat) : DecodeError :=
  if n < 4 then .unexpectedEnd 0
  else if n < 6 then .unexpectedEnd 4
  else .invalidOffset "debug size" size

theorem HasHeader.parse_take (h : HasHeader bytes) {n : Nat} (hn : n < extent bytes) :
    parse (bytes.take n) = .error (cutError (i32At bytes 0) n) := by
  have hprefix := List.take_prefix n bytes
  have hlen : (bytes.take n).length = n :=
    List.length_take_of_le (hn.le.trans h.extent_le)
  have hheader : Decoder.decode (header n) (bytes.take n) =
      .error (cutError (i32At bytes 0) n) := by
    rw [Decoder.decode, Reader.ofBytes_eq_atOffset, header, Decoder.fixed_i32.bind_apply, hlen,
      cutError, Nat.zero_add]
    by_cases h4 : 4 ≤ n
    · rw [if_pos h4, if_neg (Nat.not_lt.mpr h4), Decoder.fixed_u16.bind_apply, hlen]
      by_cases h6 : 6 ≤ n
      · have hsize := i32At_zero_of_prefix hprefix (hlen.symm ▸ h4)
        have hmagic := (magic_of_begins hprefix (hlen.symm ▸ h6)).symm.trans h.magic
        have hwrong : i32At (bytes.take n) 0 < Int32.ofNat debugHeaderSize ∨
            n < (i32At (bytes.take n) 0).toNatClampNeg := .inr (hsize ▸ hn)
        rw [if_pos h6, if_neg (Nat.not_lt.mpr h6), hmagic, if_neg (not_not.mpr rfl), if_pos hwrong,
          hsize]
        rfl
      · rw [if_neg h6, if_pos (Nat.not_le.mp h6)]
    · rw [if_neg h4, if_pos (Nat.not_le.mp h4)]
  rw [parse, hlen, hheader]
  rfl

/-! ## Self-delimiting blocks -/

/-- **A block is self-delimiting.** If the header of `data` has the mark, and a size that holds the
header and is not more than there is, then whatever stands behind the data, and whether what stands
behind the announced end is there or not, the same block is read, or the same error is found. All
that is cut before the announced end is refused, with an error that tells no more than where it was
cut. -/
theorem parse_depends_on_extent {data : Bytes} (h : HasHeader data) :
    (∀ rest, parse (data ++ rest) = parse data) ∧
      parse (data.take (extent data)) = parse data ∧
      ∀ n < extent data, parse (data.take n) = .error (cutError (i32At data 0) n) :=
  ⟨fun rest => h.parse_of_prefix (List.prefix_append data rest),
    (h.take_extent.parse_of_prefix (List.take_prefix _ data)).symm, fun _ => h.parse_take⟩

/-- The bytes of a block with one file. The announced end is in the middle of the file's name, whose
rest stands behind it. -/
def shortenedBytes : Bytes :=
  let b := ofEntries [.file ⟨0, "main.pwn"⟩]
  b.encodeHeader 30 ++ b.encodeTables

theorem shortenedBytes_reads_extent :
    HasHeader shortenedBytes ∧ extent shortenedBytes = 30 ∧
      parse shortenedBytes = .error (.unexpectedEnd 26) ∧
      parse (shortenedBytes ++ [0, 0]) = .error (.unexpectedEnd 26) ∧
      parse (shortenedBytes.take 30) = .error (.unexpectedEnd 26) ∧
      parse (shortenedBytes.take 29) = .error (.invalidOffset "debug size" 30) := by
  have hheader : HasHeader shortenedBytes := by
    constructor <;> decide +kernel
  have hparse : parse shortenedBytes = .error (.unexpectedEnd 26) := by decide +kernel
  obtain ⟨hbehind, hextent, hcut⟩ := parse_depends_on_extent hheader
  exact ⟨hheader, by decide +kernel, hparse, (hbehind _).trans hparse, hextent.trans hparse,
    hcut 29 (by decide +kernel)⟩

end DebugBlock

end ScriptDiag
