import ScriptDiag.DebugBlock.Parse
import ScriptDiag.Proofs.Reading

/-!
# Debug blocks read back as they were written

The encoding of a block that fits the format (`DebugBlock.Encodable`) reads as the same four
tables in the same order, with both versions the current one (`parse_encode_append`). Whatever
follows the encoding is not looked at. The one thing that is not kept is a symbol kind that was
given by the number of a named kind: it comes back as that named kind (`SymbolKind.normal`).

Each table is read by its own decoder, record by record, and a symbol's dimensions by a loop
within that. So the proof has one law of reading for each record, and `reads_many` for each loop.
-/

namespace ScriptDiag

/-! ## Symbol kinds -/

namespace SymbolKind

/-- A kind is kept unless it is a number that has a name. -/
theorem normal_eq_self {kind : SymbolKind}
    (h : ∀ ident, kind = .other ident → ident ∉ ([1, 2, 3, 4, 9] : List UInt8)) :
    kind.normal = kind := by
  cases kind with
  | other ident =>
    have hident := h ident rfl
    simp only [List.mem_cons, List.not_mem_nil, or_false, not_or] at hident
    simp [normal, SymbolKind.ident, ofIdent, hident]
  | scalar | reference | array | refArray | function => decide

end SymbolKind

/-- The symbol that is read back when `s` is written. -/
def SymbolEntry.normal (s : SymbolEntry) : SymbolEntry :=
  { s with kind := s.kind.normal }

/-! ## One record -/

namespace Decoder

theorem reads_fileEntry {e : FileEntry} (hname : NulFree e.name) :
    Reads fileEntry e.encode e :=
  (reads_u32 e.address).bind ((reads_text hname).bind_pure _)

theorem reads_lineEntry (e : LineEntry) : Reads lineEntry e.encode e :=
  (reads_u32 e.address).bind ((reads_i32 e.line).bind_pure _)

theorem reads_tagEntry {e : TagEntry} (hname : NulFree e.name) : Reads tagEntry e.encode e :=
  (reads_i16 e.id).bind ((reads_text hname).bind_pure _)

theorem reads_dimension (d : Dimension) : Reads dimension d.encode d :=
  (reads_i16 d.tag).bind ((reads_u32 d.size).bind_pure _)

theorem reads_dims {dims : List Dimension} (h : dims.length ≤ 32767) :
    Reads (many (Int16.ofNat dims.length).toNatClampNeg dimension)
      (dims.flatMap Dimension.encode) dims := by
  have hdims := reads_many (g := id) fun d (_ : d ∈ dims) => reads_dimension d
  rw [Int16.toNatClampNeg_ofNat_of_lt (by omega)]
  rwa [List.map_id] at hdims

theorem reads_symbolEntry {s : SymbolEntry} (hdims : s.dims.length ≤ 32767)
    (hname : NulFree s.name) : Reads symbolEntry s.encode s.normal := by
  simp only [SymbolEntry.encode, List.append_assoc]
  refine (reads_u32 s.address).bind ?_
  refine (reads_i16 s.tag).bind ?_
  refine (reads_u32 s.codeStart).bind ?_
  refine (reads_u32 s.codeEnd).bind ?_
  refine (reads_u8 s.kind.ident).bind ?_
  refine (reads_u8 s.storage).bind ?_
  refine (reads_i16 (Int16.ofNat s.dims.length)).bind ?_
  refine (reads_text hname).bind ?_
  exact (reads_dims hdims).bind_pure _

end Decoder

namespace DebugBlock

/-! ## The header -/

/-- A block that the format can hold. -/
structure Encodable (b : DebugBlock) : Prop where
  files_le : b.files.length ≤ 65535
  lines_le : b.lines.length ≤ 65535
  symbols_le : b.symbols.length ≤ 65535
  tags_le : b.tags.length ≤ 65535
  dims_le : ∀ s ∈ b.symbols, s.dims.length ≤ 32767
  file_names : ∀ e ∈ b.files, NulFree e.name
  symbol_names : ∀ s ∈ b.symbols, NulFree s.name
  tag_names : ∀ e ∈ b.tags, NulFree e.name
  length_le : b.encode.length ≤ 2147483647

/-- The header that `encodeHeader` writes. -/
def headerFor (b : DebugBlock) (size : Nat) : Header where
  size := Int32.ofNat size
  fileVersion := formatVersion
  vmVersion := formatVersion
  files := UInt16.ofNat b.files.length
  lines := UInt16.ofNat b.lines.length
  symbols := UInt16.ofNat b.symbols.length
  tags := UInt16.ofNat b.tags.length

theorem length_encode (b : DebugBlock) :
    b.encode.length = debugHeaderSize + b.encodeTables.length := by
  rw [encode, List.length_append, length_encodeHeader]

/-- The header up to the numbers of automatons and states, which are not read. -/
def headerFront (b : DebugBlock) (size : Nat) : Bytes :=
  Encode.u32 (UInt32.ofNat size) ++ Encode.u16 debugMagic ++ Encode.u8 formatVersion
    ++ Encode.u8 formatVersion ++ Encode.i16 0
    ++ Encode.u16 (UInt16.ofNat b.files.length) ++ Encode.u16 (UInt16.ofNat b.lines.length)
    ++ Encode.u16 (UInt16.ofNat b.symbols.length) ++ Encode.u16 (UInt16.ofNat b.tags.length)

theorem encodeHeader_eq_front (b : DebugBlock) (size : Nat) :
    b.encodeHeader size = b.headerFront size ++ (Encode.u16 0 ++ Encode.u16 0) := by
  simp only [encodeHeader, headerFront, List.append_assoc]

theorem reads_header (b : DebugBlock) {size available : Nat} (hmin : debugHeaderSize ≤ size)
    (hmax : size ≤ 2147483647) (havail : size ≤ available) :
    Decoder.Reads (header available) (b.headerFront size) (b.headerFor size) := by
  have hsize : ¬(Int32.ofNat size < Int32.ofNat debugHeaderSize ∨
      available < (Int32.ofNat size).toNatClampNeg) := by
    rw [Int32.ofNat_lt_iff_lt (by omega) (by decide), Int32.toNatClampNeg_ofNat_of_lt (by omega)]
    omega
  simp only [headerFront, List.append_assoc]
  refine (Decoder.reads_i32_ofNat size).bind ?_
  refine (Decoder.reads_u16 debugMagic).bind ?_
  simp only [ne_eq, not_true_eq_false, if_false, if_neg hsize]
  refine (Decoder.reads_u8 formatVersion).bind ?_
  refine (Decoder.reads_u8 formatVersion).bind ?_
  refine (Decoder.reads_i16 0).bind ?_
  refine (Decoder.reads_u16 (UInt16.ofNat b.files.length)).bind ?_
  refine (Decoder.reads_u16 (UInt16.ofNat b.lines.length)).bind ?_
  refine (Decoder.reads_u16 (UInt16.ofNat b.symbols.length)).bind ?_
  exact (Decoder.reads_u16 (UInt16.ofNat b.tags.length)).bind_pure _

theorem decode_header (b : DebugBlock) {size available : Nat} (hmin : debugHeaderSize ≤ size)
    (hmax : size ≤ 2147483647) (havail : size ≤ available) (rest : Bytes) :
    Decoder.decode (header available) (b.encodeHeader size ++ rest) = .ok (b.headerFor size) := by
  rw [encodeHeader_eq_front, List.append_assoc]
  exact (b.reads_header hmin hmax havail).decode _

/-! ## The tables -/

/-- A block whose entries can be told apart when they stand one behind the other. -/
structure Readable (b : DebugBlock) : Prop where
  dims_le : ∀ s ∈ b.symbols, s.dims.length ≤ 32767
  file_names : ∀ e ∈ b.files, NulFree e.name
  symbol_names : ∀ s ∈ b.symbols, NulFree s.name
  tag_names : ∀ e ∈ b.tags, NulFree e.name

theorem Encodable.readable {b : DebugBlock} (h : b.Encodable) : b.Readable :=
  ⟨h.dims_le, h.file_names, h.symbol_names, h.tag_names⟩

/-- The header announces as many entries as the tables of the block have. -/
structure Header.Counts (h : Header) (b : DebugBlock) : Prop where
  files : h.files.toNat = b.files.length
  lines : h.lines.toNat = b.lines.length
  symbols : h.symbols.toNat = b.symbols.length
  tags : h.tags.toNat = b.tags.length

theorem Encodable.counts {b : DebugBlock} (h : b.Encodable) (size : Nat) :
    (b.headerFor size).Counts b := by
  have hcount : ∀ {n : Nat}, n ≤ 65535 → (UInt16.ofNat n).toNat = n := fun hn =>
    UInt16.toNat_ofNat_of_lt' (by simp [UInt16.size]; omega)
  exact ⟨hcount h.files_le, hcount h.lines_le, hcount h.symbols_le, hcount h.tags_le⟩

/-- The block that is read back when the tables of `b` are written behind the header `h`. -/
def readBack (b : DebugBlock) (h : Header) : DebugBlock where
  fileVersion := h.fileVersion
  vmVersion := h.vmVersion
  files := b.files
  lines := b.lines
  symbols := b.symbols.map SymbolEntry.normal
  tags := b.tags

/-- One table, of which the header gives the number of entries. -/
theorem reads_table {α : Type} {read : Decoder α} {encode : α → Bytes} {g : α → α}
    {entries : List α} {count : UInt16} (hcount : count.toNat = entries.length)
    (h : ∀ e ∈ entries, Decoder.Reads read (encode e) (g e)) :
    Decoder.Reads (Decoder.many count.toNat read) (entries.flatMap encode) (entries.map g) := by
  rw [hcount]
  exact Decoder.reads_many h

theorem decode_tables {b : DebugBlock} {h : Header} (hb : b.Readable) (hcounts : h.Counts b)
    {front : Bytes} (hfront : front.length = debugHeaderSize) (rest : Bytes) :
    Decoder.decode (tables h) (front ++ (b.encodeTables ++ rest)) = .ok (b.readBack h) := by
  have hfiles := reads_table (g := id) hcounts.files fun e he =>
    Decoder.reads_fileEntry (hb.file_names e he)
  have hlines := reads_table (g := id) hcounts.lines fun e _ => Decoder.reads_lineEntry e
  have hsymbols := reads_table hcounts.symbols fun s hs =>
    Decoder.reads_symbolEntry (hb.dims_le s hs) (hb.symbol_names s hs)
  have htags := reads_table (g := id) hcounts.tags fun e he =>
    Decoder.reads_tagEntry (hb.tag_names e he)
  rw [List.map_id] at hfiles hlines htags
  have hbytes : b.encodeTables = b.files.flatMap FileEntry.encode
      ++ (b.lines.flatMap LineEntry.encode ++ (b.symbols.flatMap SymbolEntry.encode
        ++ b.tags.flatMap TagEntry.encode)) := by
    simp only [encodeTables, List.append_assoc]
  rw [tables, hbytes]
  refine Decoder.decode_seek hfront.symm ?_
  refine hfiles.bind ?_
  refine hlines.bind ?_
  refine hsymbols.bind ?_
  exact htags.bind_pure _

theorem parse_encode_append {b : DebugBlock} (h : b.Encodable) (rest : Bytes) :
    parse (b.encode ++ rest) = .ok (b.readBack (b.headerFor b.encode.length)) := by
  have hlen := b.length_encode
  have hmax := h.length_le
  have hencode : b.encode = b.encodeHeader b.encode.length ++ b.encodeTables := by
    rw [hlen, encode]
  have hheader : Decoder.decode (header (b.encode ++ rest).length) (b.encode ++ rest) =
      .ok (b.headerFor b.encode.length) := by
    have havail : b.encode.length ≤ (b.encode ++ rest).length := by simp
    have hdecode := b.decode_header (by omega) hmax havail (b.encodeTables ++ rest)
    rwa [← List.append_assoc, ← hencode] at hdecode
  have hsize : (b.headerFor b.encode.length).size.toNatClampNeg = b.encode.length :=
    Int32.toNatClampNeg_ofNat_of_lt (by omega)
  have htables := decode_tables h.readable (h.counts b.encode.length)
    (b.length_encodeHeader b.encode.length) []
  rw [List.append_nil, ← hencode] at htables
  rw [parse, hheader]
  show Decoder.decode _ ((b.encode ++ rest).take _) = _
  rw [hsize, List.take_left, htables]

/-- What is written entry by entry is read back table by table, each in the order of the entries;
of a symbol, only a kind that was given by number may change, to the name of that number. -/
theorem parse_encode_ofEntries {entries : List DebugEntry} (h : (ofEntries entries).Encodable) :
    parse (ofEntries entries).encode = .ok
      { fileVersion := formatVersion
        vmVersion := formatVersion
        files := entries.filterMap DebugEntry.file?
        lines := entries.filterMap DebugEntry.line?
        symbols := (entries.filterMap DebugEntry.symbol?).map
          fun s => { s with kind := s.kind.normal }
        tags := entries.filterMap DebugEntry.tag? } ∧
    (SymbolKind.other 1).normal = .scalar ∧ (SymbolKind.other 2).normal = .reference ∧
    (SymbolKind.other 3).normal = .array ∧ (SymbolKind.other 4).normal = .refArray ∧
    (SymbolKind.other 9).normal = .function ∧
    ∀ kind : SymbolKind,
      (∀ ident, kind = .other ident → ident ∉ ([1, 2, 3, 4, 9] : List UInt8)) →
        kind.normal = kind := by
  refine ⟨?_, rfl, rfl, rfl, rfl, rfl, fun kind => SymbolKind.normal_eq_self⟩
  have hparse := parse_encode_append h []
  rwa [List.append_nil] at hparse

/-- Entries of the four tables in mixed order, among them an array with two dimensions, a function
whose kind is given by its number, and a kind without a name. -/
def mixedEntries : List DebugEntry :=
  [.tag ⟨-1, "größe"⟩,
    .symbol ⟨16, 3, 16, 400, .array, 1, [⟨0, 4⟩, ⟨-1, 0⟩], "grid"⟩,
    .file ⟨0, "main.pwn"⟩,
    .symbol ⟨8, 0, 8, 96, .other 9, 0, [], "OnStart"⟩,
    .line ⟨8, 12⟩,
    .symbol ⟨24, 0, 0, 4294967295, .other 77, 255, [], ""⟩,
    .line ⟨8, -1⟩,
    .function "main" (-5) 0 8,
    .file ⟨40, "inc/a.inc"⟩]

theorem encodable_mixedEntries : (ofEntries mixedEntries).Encodable where
  files_le := by decide
  lines_le := by decide
  symbols_le := by decide
  tags_le := by decide
  dims_le := by decide
  file_names := by decide +kernel
  symbol_names := by decide +kernel
  tag_names := by decide +kernel
  length_le := by decide +kernel

theorem parse_encode_mixedEntries :
    (ofEntries mixedEntries).Encodable ∧
      parse (ofEntries mixedEntries).encode = .ok
        { fileVersion := 8
          vmVersion := 8
          files := [⟨0, "main.pwn"⟩, ⟨40, "inc/a.inc"⟩]
          lines := [⟨8, 12⟩, ⟨8, -1⟩]
          symbols := [⟨16, 3, 16, 400, .array, 1, [⟨0, 4⟩, ⟨-1, 0⟩], "grid"⟩,
            ⟨8, 0, 8, 96, .function, 0, [], "OnStart"⟩,
            ⟨24, 0, 0, 4294967295, .other 77, 255, [], ""⟩,
            ⟨0, -5, 0, 8, .function, 0, [], "main"⟩]
          tags := [⟨-1, "größe"⟩] } :=
  ⟨encodable_mixedEntries, (parse_encode_ofEntries encodable_mixedEntries).1⟩

end DebugBlock

end ScriptDiag
