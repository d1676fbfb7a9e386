import ScriptDiag.Proofs.BlockRoundTrip
import ScriptDiag.Proofs.FieldsAt

/-!
# What a debug block is

`DebugBlock.IsPacked bytes b` says what it is for bytes to begin with the packed form of a block, by
what stands in the header and that the encoded tables follow it without a gap. The main statement is
that exactly these bytes are read as the block (`parse_eq_ok_iff_isPacked`). There is one exception:
of a symbol, a negative number of dimensions is read as none, so such bytes are accepted though
nothing is written like this.

To read is to take one record after the other, and each record taken is the encoding of what it
reads as (`takes_fileEntry` to `takes_symbolEntry`). Only a symbol's number of dimensions may differ
from what would be written (`SymbolEntry.encodeWith`).
-/

namespace ScriptDiag

/-! ## Symbols with any number of dimensions announced -/

/-- A symbol as bytes, with `count` in the place of the number of its dimensions. -/
def SymbolEntry.encodeWith (s : SymbolEntry) (count : Int16) : Bytes :=
  Encode.u32 s.address ++ Encode.i16 s.tag ++ Encode.u32 s.codeStart ++ Encode.u32 s.codeEnd
    ++ Encode.u8 s.kind.ident ++ Encode.u8 s.storage ++ Encode.i16 count
    ++ Encode.text s.name ++ s.dims.flatMap Dimension.encode

theorem SymbolEntry.encodeWith_dims (s : SymbolEntry) :
    s.encodeWith (Int16.ofNat s.dims.length) = s.encode := rfl

/-- Bytes of a symbol in front of the number of its dimensions. -/
def dimCountPlace : Nat := 16

theorem SymbolEntry.encodeWith_split (s : SymbolEntry) (count : Int16) :
    ∃ front rest, front.length = dimCountPlace ∧
      s.encodeWith count = front ++ (Encode.i16 count ++ rest) := by
  refine ⟨Encode.u32 s.address ++ Encode.i16 s.tag ++ Encode.u32 s.codeStart ++
      Encode.u32 s.codeEnd ++ Encode.u8 s.kind.ident ++ Encode.u8 s.storage,
    Encode.text s.name ++ s.dims.flatMap Dimension.encode, ?_, ?_⟩
  · simp [dimCountPlace, Encode.u32, Encode.i16, Encode.u16, Encode.u8]
  · simp only [encodeWith, List.append_assoc]

theorem SymbolEntry.length_encodeWith (s : SymbolEntry) (count : Int16) :
    (s.encodeWith count).length = s.encode.length := by
  rw [← s.encodeWith_dims]
  simp [encodeWith, Encode.i16, Encode.u16]

namespace SymbolKind

/-- Not the number of a kind that has a name. -/
def IsNormal (kind : SymbolKind) : Prop :=
  ∀ ident, kind = .other ident → ident ∉ ([1, 2, 3, 4, 9] : List UInt8)

theorem isNormal_ofIdent (n : UInt8) : (ofIdent n).IsNormal := by
  intro ident h
  unfold ofIdent at h
  repeat' split at h
  all_goals cases h
  simp_all

end SymbolKind

theorem SymbolEntry.normal_eq_self {s : SymbolEntry} (h : s.kind.IsNormal) : s.normal = s := by
  rw [normal, SymbolKind.normal_eq_self h]

/-! ## Records taken are records written -/

/-- What is known of a symbol that was read from `part`. -/
structure SymbolPart (part : Bytes) (s : SymbolEntry) (count : Int16) : Prop where
  encoded : part = s.encodeWith count
  dims : s.dims.length = count.toNatClampNeg
  name : NulFree s.name
  kind : s.kind.IsNormal

namespace Decoder

theorem takes_fileEntry : Takes fileEntry fun part e => part = e.encode ∧ NulFree e.name := by
  refine (takes_u32.bind fun address => takes_text.bind_pure _).imp fun part e => ?_
  rintro ⟨_, _, address, rfl, rfl, name, ⟨rfl, hname⟩, rfl⟩
  exact ⟨rfl, hname⟩

theorem takes_lineEntry : Takes lineEntry fun part e => part = e.encode := by
  refine (takes_u32.bind fun address => takes_i32.bind_pure _).imp fun part e => ?_
  rintro ⟨_, _, address, rfl, rfl, line, rfl, rfl⟩
  rfl

theorem takes_tagEntry : Takes tagEntry fun part e => part = e.encode ∧ NulFree e.name := by
  refine (takes_i16.bind fun id => takes_text.bind_pure _).imp fun part e => ?_
  rintro ⟨_, _, id, rfl, rfl, name, ⟨rfl, hname⟩, rfl⟩
  exact ⟨rfl, hname⟩

theorem takes_dimension : Takes dimension fun part d => part = d.encode := by
  refine (takes_i16.bind fun tag => takes_u32.bind_pure _).imp fun part d => ?_
  rintro ⟨_, _, tag, rfl, rfl, size, rfl, rfl⟩
  rfl

theorem takes_symbolEntry : Takes symbolEntry fun part s => ∃ count, SymbolPart part s count := by
  have hdims := fun count : Int16 => takes_many takes_dimension count.toNatClampNeg
  refine (takes_u32.bind fun address => takes_i16.bind fun tag => takes_u32.bind fun codeStart =>
    takes_u32.bind fun codeEnd => takes_u8.bind fun ident => takes_u8.bind fun storage =>
    takes_i16.bind fun count => takes_text.bind fun name =>
    (hdims count).bind_pure _).imp fun part s => ?_
  rintro ⟨_, _, address, rfl, rfl, _, _, tag, rfl, rfl, _, _, codeStart, rfl, rfl, _, _, codeEnd,
    rfl, rfl, _, _, ident, rfl, rfl, _, _, storage, rfl, rfl, _, _, count, rfl, rfl, _, _, name,
    rfl, ⟨rfl, hname⟩, dims, ⟨hlen, parts, hparts, rfl⟩, rfl⟩
  have hflat := (flatten_eq_flatMap (q := fun _ => True)
    (hparts.imp fun _ _ h => ⟨h, trivial⟩)).1
  refine ⟨count, ⟨?_, hlen, hname, SymbolKind.isNormal_ofIdent ident⟩⟩
  simp only [SymbolEntry.encodeWith, SymbolKind.ident_ofIdent, hflat, List.append_assoc]

end Decoder

namespace DebugBlock

/-! ## The header -/

/-- What stands in the header that `bytes` begin with. -/
def Header.ofBytes (bytes : Bytes) : Header where
  size := i32At bytes 0
  fileVersion := u8At bytes 6
  vmVersion := u8At bytes 7
  files := u16At bytes 10
  lines := u16At bytes 12
  symbols := u16At bytes 14
  tags := u16At bytes 16

/-- The header of `bytes` has the mark, and a size that holds the header and is not more than there
is. -/
structure HasHeader (bytes : Bytes) : Prop where
  magic : u16At bytes 4 = debugMagic
  size_ge : (debugHeaderSize : Int) ≤ (i32At bytes 0).toInt
  size_le : (i32At bytes 0).toInt ≤ bytes.length

/-- The size is checked as a signed number and as a number of bytes, which comes to the same. -/
theorem size_checks_iff {size : Int32} {available : Nat} :
    ¬(size < Int32.ofNat debugHeaderSize ∨ available < size.toNatClampNeg) ↔
      (debugHeaderSize : Int) ≤ size.toInt ∧ size.toInt ≤ available := by
  have hmin : (Int32.ofNat debugHeaderSize).toInt = debugHeaderSize := rfl
  rw [not_or, Int32.lt_iff_toInt_lt, hmin, Int32.toNatClampNeg]
  have hpos : (0 : Int) ≤ debugHeaderSize := Int.natCast_nonneg _
  omega

theorem decode_header_eq_ok_iff {bytes : Bytes} {h : Header} :
    Decoder.decode (header bytes.length) bytes = .ok h ↔
      HasHeader bytes ∧ h = Header.ofBytes bytes := by
  rw [Decoder.decode_eq_ok_iff]
  unfold header
  simp only [Decoder.fixed_i32.bind_eq_ok_iff, Decoder.fixed_u16.bind_eq_ok_iff,
    Decoder.unless_eq_ok_iff, Decoder.fixed_u8.bind_eq_ok_iff, Decoder.fixed_i16.bind_eq_ok_iff,
    size_checks_iff, Act.pure_apply, Nat.zero_add, Nat.reduceAdd]
  constructor
  · rintro ⟨r, -, -, hmagic, ⟨hge, hle⟩, -, -, -, -, -, -, -, hok⟩
    injection hok with hh
    exact ⟨⟨not_not.mp hmagic, hge, hle⟩, hh.symm⟩
  · rintro ⟨⟨hmagic, hge, hle⟩, rfl⟩
    have hlen : 22 ≤ bytes.length := by
      have hmin : debugHeaderSize = 22 := rfl
      omega
    exact ⟨_, by omega, by omega, not_not.mpr hmagic, ⟨hge, hle⟩, by omega, by omega, by omega,
      by omega, by omega, by omega, by omega, rfl⟩

/-! ## The tables -/

/-- The tables of a block as bytes, with `parts` in place of its symbols. -/
def tablesWith (b : DebugBlock) (parts : List Bytes) : Bytes :=
  b.files.flatMap FileEntry.encode ++ (b.lines.flatMap LineEntry.encode
    ++ (parts.flatten ++ b.tags.flatMap TagEntry.encode))

/-- What is known of a block whose tables were read as the header announced them, its symbols from
`parts`. -/
structure TablesPart (h : Header) (parts : List Bytes) (b : DebugBlock) : Prop where
  symbols : List.Forall₂ (fun part s => ∃ count, SymbolPart part s count) parts b.symbols
  counts : h.Counts b
  file_names : ∀ e ∈ b.files, NulFree e.name
  tag_names : ∀ e ∈ b.tags, NulFree e.name
  fileVersion : b.fileVersion = h.fileVersion
  vmVersion : b.vmVersion = h.vmVersion

theorem tables_eq_ok {h : Header} {bytes : Bytes} {b : DebugBlock}
    (hok : Decoder.decode (tables h) bytes = .ok b) :
    ∃ parts, b.tablesWith parts <+: bytes.drop debugHeaderSize ∧ TablesPart h parts b := by
  obtain ⟨r, hread⟩ := Decoder.decode_eq_ok_iff.mp hok
  rw [tables, Decoder.seek_bind_apply] at hread
  have htakes := (Decoder.takes_many Decoder.takes_fileEntry h.files.toNat).bind fun files =>
    (Decoder.takes_many Decoder.takes_lineEntry h.lines.toNat).bind fun lines =>
    (Decoder.takes_many Decoder.takes_symbolEntry h.symbols.toNat).bind fun symbols =>
    (Decoder.takes_many Decoder.takes_tagEntry h.tags.toNat).bind_pure fun tags =>
      ({ fileVersion := h.fileVersion, vmVersion := h.vmVersion, files, lines, symbols, tags } :
        DebugBlock)
  obtain ⟨part, hpart, htables, -⟩ := htakes bytes debugHeaderSize b r hread
  obtain ⟨_, _, files, rfl, ⟨hfiles, fileParts, hfileParts, rfl⟩, _, _, lines, rfl,
    ⟨hlines, lineParts, hlineParts, rfl⟩, _, _, symbols, rfl,
    ⟨hsymbols, parts, hparts, rfl⟩, tags, ⟨htags, tagParts, htagParts, rfl⟩, rfl⟩ := htables
  obtain ⟨hfileBytes, hfileNames⟩ := flatten_eq_flatMap hfileParts
  obtain ⟨hlineBytes, -⟩ := flatten_eq_flatMap (q := fun _ => True)
    (hlineParts.imp fun _ _ h => ⟨h, trivial⟩)
  obtain ⟨htagBytes, htagNames⟩ := flatten_eq_flatMap htagParts
  rw [hfileBytes, hlineBytes, htagBytes] at hpart
  exact ⟨parts, hpart, hparts, ⟨hfiles.symm, hlines.symm, hsymbols.symm, htags.symm⟩, hfileNames,
    htagNames, rfl, rfl⟩

/-! ## Numbers of dimensions -/

/-- Where the symbol table starts. -/
def symbolsOffset (b : DebugBlock) : Nat :=
  debugHeaderSize + (b.files.flatMap FileEntry.encode).length
    + (b.lines.flatMap LineEntry.encode).length

theorem drop_symbolsOffset {b : DebugBlock} {bytes rest : Bytes}
    (h : bytes.drop debugHeaderSize = b.files.flatMap FileEntry.encode ++
      (b.lines.flatMap LineEntry.encode ++ rest)) :
    bytes.drop b.symbolsOffset = rest := by
  rw [symbolsOffset, ← List.drop_drop, ← List.drop_drop, h, List.drop_left, List.drop_left]

theorem symbols_follow {b : DebugBlock} {bytes : Bytes} {parts : List Bytes}
    (h : b.tablesWith parts <+: bytes.drop debugHeaderSize) :
    parts.flatten <+: bytes.drop b.symbolsOffset := by
  obtain ⟨after, hafter⟩ := h
  refine ⟨b.tags.flatMap TagEntry.encode ++ after, (drop_symbolsOffset (hafter.symm.trans ?_)).symm⟩
  simp only [tablesWith, List.append_assoc]

/-- Where the number of dimensions of the `i`-th symbol stands. -/
def dimCountOffset (b : DebugBlock) (i : Nat) : Nat :=
  b.symbolsOffset + ((b.symbols.take i).flatMap SymbolEntry.encode).length + dimCountPlace

end DebugBlock

theorem u16At_of_prefix {bytes : Bytes} {offset : Nat} {value : UInt16}
    (h : Encode.u16 value <+: bytes.drop offset) : u16At bytes offset = value := by
  obtain ⟨rest, hrest⟩ := h
  have hlen : (Encode.u16 value).length = 2 := length_toLittleEndian _ _
  have htake : (bytes.drop offset).take 2 = Encode.u16 value := by
    rw [← hrest, List.take_left' hlen]
  have hlt : value.toNat < Nat.pow 256 2 := value.toNat_lt
  rw [u16At, numberAt, htake, Encode.u16, ofLittleEndian_toLittleEndian, Nat.mod_eq_of_lt hlt,
    UInt16.ofNat_toNat]

theorem i16At_of_prefix {bytes : Bytes} {offset : Nat} {value : Int16}
    (h : Encode.i16 value <+: bytes.drop offset) : i16At bytes offset = value := by
  rw [i16At, u16At_of_prefix h]
  rfl

/-- The number of dimensions that a symbol carries stands in its place. -/
theorem SymbolEntry.i16At_dimCount {s : SymbolEntry} {count : Int16} {bytes : Bytes} {offset : Nat}
    (h : s.encodeWith count <+: bytes.drop offset) :
    i16At bytes (offset + dimCountPlace) = count := by
  obtain ⟨front, rest, hfront, hsplit⟩ := s.encodeWith_split count
  obtain ⟨after, hafter⟩ := h
  refine i16At_of_prefix ⟨rest ++ after, ?_⟩
  rw [← List.drop_drop, ← hafter, hsplit, List.append_assoc, List.drop_left' hfront,
    List.append_assoc]

/-- In symbols that stand at `offset`, the number of dimensions of each stands behind those before
it. -/
theorem exists_symbolPart {parts : List Bytes} {symbols : List SymbolEntry} {bytes : Bytes}
    {offset : Nat}
    (hparts : List.Forall₂ (fun part s => ∃ count, SymbolPart part s count) parts symbols)
    (hstart : parts.flatten <+: bytes.drop offset) :
    ∀ i (hi : i < symbols.length), ∃ part, parts[i]? = some part ∧ SymbolPart part symbols[i]
      (i16At bytes (offset + ((symbols.take i).flatMap SymbolEntry.encode).length
        + dimCountPlace)) := by
  induction hparts generalizing offset with
  | nil => exact fun i hi => absurd hi (Nat.not_lt_zero i)
  | @cons part s parts symbols hpart _ ih =>
    obtain ⟨count, hpart⟩ := hpart
    obtain ⟨after, hafter⟩ := hstart
    rw [List.flatten_cons, hpart.encoded, List.append_assoc] at hafter
    intro i hi
    cases i with
    | zero =>
      have hcount := s.i16At_dimCount ⟨_, hafter⟩
      rw [List.take_zero, List.flatMap_nil, List.length_nil, Nat.add_zero, hcount]
      exact ⟨part, rfl, hpart⟩
    | succ i =>
      have hrest : parts.flatten <+: bytes.drop (offset + s.encode.length) := by
        refine ⟨after, ?_⟩
        rw [← s.length_encodeWith count, ← List.drop_drop, ← hafter, List.drop_left]
      have h := ih hrest i (Nat.lt_of_succ_lt_succ hi)
      rwa [Nat.add_assoc offset, ← List.length_append, ← List.flatMap_cons,
        ← List.take_succ_cons] at h

/-- Symbols of which none carries a negative number of dimensions were read from their encoding. -/
theorem flatten_eq_encode {parts : List Bytes} {symbols : List SymbolEntry} {bytes : Bytes}
    {offset : Nat}
    (hparts : List.Forall₂ (fun part s => ∃ count, SymbolPart part s count) parts symbols)
    (hstart : parts.flatten <+: bytes.drop offset)
    (hcounts : ∀ i < symbols.length,
      0 ≤ i16At bytes (offset + ((symbols.take i).flatMap SymbolEntry.encode).length
        + dimCountPlace)) :
    parts.flatten = symbols.flatMap SymbolEntry.encode := by
  have hencoded : parts = symbols.map SymbolEntry.encode := by
    refine List.ext_getElem? fun i => ?_
    by_cases hi : i < symbols.length
    · obtain ⟨part, hpart, hsymbol⟩ := exists_symbolPart hparts hstart i hi
      rw [hpart, List.getElem?_map, List.getElem?_eq_getElem hi, hsymbol.encoded, Option.map_some,
        ← SymbolEntry.encodeWith_dims, hsymbol.dims, Int16.ofNat_toNatClampNeg _ (hcounts i hi)]
    · rw [List.getElem?_eq_none (hparts.length_eq ▸ Nat.not_lt.mp hi),
        List.getElem?_eq_none (by rwa [List.length_map, ← Nat.not_lt])]
  rw [hencoded, List.flatMap_def]

theorem forall_of_forall₂ {α β : Type} {r : α → β → Prop} {q : β → Prop} {as : List α} {bs : List β}
    (h : List.Forall₂ r as bs) (hq : ∀ a b, r a b → q b) : ∀ b ∈ bs, q b := by
  induction h with
  | nil => exact fun _ hb => absurd hb List.not_mem_nil
  | cons hr _ ih => exact List.forall_mem_cons.mpr ⟨hq _ _ hr, ih⟩

namespace DebugBlock

/-! ## Exactly the packed form is read -/

/-- `bytes` begin with the packed form of `b`. Of the header, the flags and the numbers of
automatons and states may be anything. -/
structure IsPacked (bytes : Bytes) (b : DebugBlock) : Prop where
  header : HasHeader bytes
  fileVersion : b.fileVersion = u8At bytes 6
  vmVersion : b.vmVersion = u8At bytes 7
  files : (u16At bytes 10).toNat = b.files.length
  lines : (u16At bytes 12).toNat = b.lines.length
  symbols : (u16At bytes 14).toNat = b.symbols.length
  tags : (u16At bytes 16).toNat = b.tags.length
  tables : b.encodeTables <+: bytes.drop debugHeaderSize
  fits : (debugHeaderSize + b.encodeTables.length : Int) ≤ (i32At bytes 0).toInt
  readable : b.Readable
  kinds : ∀ s ∈ b.symbols, s.kind.IsNormal

theorem parse_eq_ok_iff {bytes : Bytes} {b : DebugBlock} :
    parse bytes = .ok b ↔ HasHeader bytes ∧
      Decoder.decode (DebugBlock.tables (Header.ofBytes bytes))
        (bytes.take (i32At bytes 0).toNatClampNeg) = .ok b := by
  rw [parse]
  constructor
  · intro h
    cases hheader : Decoder.decode (DebugBlock.header bytes.length) bytes with
    | error e =>
      rw [hheader] at h
      cases h
    | ok header =>
      obtain ⟨hhas, rfl⟩ := decode_header_eq_ok_iff.mp hheader
      rw [hheader] at h
      exact ⟨hhas, h⟩
  · rintro ⟨hhas, htables⟩
    rw [decode_header_eq_ok_iff.mpr ⟨hhas, rfl⟩]
    exact htables

theorem HasHeader.toNatClampNeg_size {bytes : Bytes} (h : HasHeader bytes) :
    ((i32At bytes 0).toNatClampNeg : Int) = (i32At bytes 0).toInt := by
  have hge := h.size_ge
  have hpos : (0 : Int) ≤ debugHeaderSize := Int.natCast_nonneg _
  rw [Int32.toNatClampNeg]
  omega

/-- What is read was in the bytes that the size in the header covers. -/
theorem exists_tablesPart {bytes : Bytes} {b : DebugBlock} (h : parse bytes = .ok b) :
    ∃ parts, TablesPart (Header.ofBytes bytes) parts b ∧ b.tablesWith parts <+:
      (bytes.drop debugHeaderSize).take ((i32At bytes 0).toNatClampNeg - debugHeaderSize) := by
  obtain ⟨-, htables⟩ := parse_eq_ok_iff.mp h
  obtain ⟨parts, hstart, htables⟩ := tables_eq_ok htables
  rw [List.drop_take] at hstart
  exact ⟨parts, htables, hstart⟩

theorem isPacked_of_parse {bytes : Bytes} {b : DebugBlock} (h : parse bytes = .ok b)
    (hcounts : ∀ i < b.symbols.length, 0 ≤ i16At bytes (b.dimCountOffset i)) :
    IsPacked bytes b := by
  have hhas := (parse_eq_ok_iff.mp h).1
  obtain ⟨parts, htables, htake⟩ := exists_tablesPart h
  have hstart := htake.trans (List.take_prefix _ _)
  have hfits := htake.length_le
  have hflat := flatten_eq_encode htables.symbols (symbols_follow hstart) hcounts
  have hencoded : b.tablesWith parts = b.encodeTables := by
    simp only [tablesWith, encodeTables, hflat, List.append_assoc]
  rw [hencoded] at hstart hfits
  refine ⟨hhas, htables.fileVersion, htables.vmVersion, htables.counts.files, htables.counts.lines,
    htables.counts.symbols, htables.counts.tags, hstart, ?_, ⟨?_, htables.file_names, ?_,
    htables.tag_names⟩, ?_⟩
  · have hsize := hhas.toNatClampNeg_size
    have hge := hhas.size_ge
    rw [List.length_take] at hfits
    omega
  · refine forall_of_forall₂ htables.symbols fun part s hs => ?_
    obtain ⟨count, hs⟩ := hs
    have hlt := count.toNatClampNeg_lt
    rw [hs.dims]
    omega
  · exact forall_of_forall₂ htables.symbols fun part s hs => hs.elim fun _ hs => hs.name
  · exact forall_of_forall₂ htables.symbols fun part s hs => hs.elim fun _ hs => hs.kind

theorem IsPacked.parse {bytes : Bytes} {b : DebugBlock} (h : IsPacked bytes b) :
    parse bytes = .ok b := by
  refine parse_eq_ok_iff.mpr ⟨h.header, ?_⟩
  have hsize := h.header.toNatClampNeg_size
  have hge := h.header.size_ge
  have hle := h.header.size_le
  have hfits := h.fits
  obtain ⟨after, hafter⟩ := h.tables
  generalize hn : (i32At bytes 0).toNatClampNeg = n at hsize ⊢
  have hfront : ((bytes.take n).take debugHeaderSize).length = debugHeaderSize := by
    rw [List.length_take, List.length_take]
    omega
  have hback : (bytes.take n).drop debugHeaderSize =
      b.encodeTables ++ after.take (n - debugHeaderSize - b.encodeTables.length) := by
    rw [List.drop_take, ← hafter, List.take_append, List.take_of_length_le (by omega)]
  have hdecode := decode_tables (h := Header.ofBytes bytes) h.readable
    ⟨h.files, h.lines, h.symbols, h.tags⟩ hfront
    (after.take (n - debugHeaderSize - b.encodeTables.length))
  rw [← hback, List.take_append_drop] at hdecode
  have hnormal : b.symbols.map SymbolEntry.normal = b.symbols :=
    (List.map_congr_left fun s hs => SymbolEntry.normal_eq_self (h.kinds s hs)).trans
      (List.map_id _)
  have hsame : b.readBack (Header.ofBytes bytes) = b := by
    simp only [readBack, hnormal, Header.ofBytes, ← h.fileVersion, ← h.vmVersion]
  rw [hdecode, hsame]

theorem IsPacked.dimCount_nonneg {bytes : Bytes} {b : DebugBlock} (h : IsPacked bytes b) {i : Nat}
    (hi : i < b.symbols.length) : 0 ≤ i16At bytes (b.dimCountOffset i) := by
  obtain ⟨after, hafter⟩ := h.tables
  have hsplit : b.symbols.flatMap SymbolEntry.encode =
      (b.symbols.take i).flatMap SymbolEntry.encode ++ (b.symbols[i].encode ++
        (b.symbols.drop (i + 1)).flatMap SymbolEntry.encode) := by
    rw [← List.flatMap_cons, ← List.flatMap_append, List.getElem_cons_drop hi,
      List.take_append_drop]
  have hdrop : bytes.drop b.symbolsOffset = (b.symbols.take i).flatMap SymbolEntry.encode ++
      (b.symbols[i].encode ++ ((b.symbols.drop (i + 1)).flatMap SymbolEntry.encode ++
        (b.tags.flatMap TagEntry.encode ++ after))) := by
    refine drop_symbolsOffset (hafter.symm.trans ?_)
    simp only [encodeTables, hsplit, List.append_assoc]
  have hstart : b.symbols[i].encodeWith (Int16.ofNat b.symbols[i].dims.length) <+:
      bytes.drop (b.symbolsOffset + ((b.symbols.take i).flatMap SymbolEntry.encode).length) := by
    rw [SymbolEntry.encodeWith_dims, ← List.drop_drop, hdrop, List.drop_left]
    exact List.prefix_append _ _
  have hdims := h.readable.dims_le b.symbols[i] (List.getElem_mem hi)
  rw [dimCountOffset, SymbolEntry.i16At_dimCount hstart, Int16.le_iff_toInt_le,
    Int16.toInt_ofNat_of_lt (by omega)]
  exact Int.natCast_nonneg _

/-- **Exactly the packed form is read.** Bytes are read as a block, and none of its symbols carries
a negative number of dimensions, if and only if they begin with the packed form of the block: the
header has the mark, a size that fits and the numbers of entries; from offset 22 on stand the
encoded files, lines, symbols and tags, one behind the other, and end where the size says or before;
and the names, the numbers of dimensions and the kinds are such as can be written. -/
theorem parse_eq_ok_iff_isPacked (bytes : Bytes) (b : DebugBlock) :
    (parse bytes = .ok b ∧ ∀ i < b.symbols.length, 0 ≤ i16At bytes (b.dimCountOffset i)) ↔
      IsPacked bytes b :=
  ⟨fun h => isPacked_of_parse h.1 h.2, fun h => ⟨h.parse, fun _ => h.dimCount_nonneg⟩⟩

/-- A block of one symbol, which has no dimensions. -/
def scalarBlock : DebugBlock :=
  { fileVersion := formatVersion, vmVersion := formatVersion, files := [], lines := []
    symbols := [⟨16, 3, 16, 400, .scalar, 1, [], "total"⟩], tags := [] }

/-- The block as bytes, with -1 for the number of dimensions. -/
def scalarBytes : Bytes :=
  let symbols := scalarBlock.symbols.flatMap (·.encodeWith (-1))
  scalarBlock.encodeHeader (debugHeaderSize + symbols.length) ++ symbols

-- A negative number of dimensions is read as none, though it is never written.
example : parse scalarBytes = .ok scalarBlock ∧ ¬IsPacked scalarBytes scalarBlock := by
  refine ⟨by decide +kernel, fun h => ?_⟩
  have hcount : 0 ≤ i16At scalarBytes (scalarBlock.dimCountOffset 0) :=
    h.dimCount_nonneg (Nat.zero_lt_succ 0)
  revert hcount
  decide +kernel

end DebugBlock

end ScriptDiag
