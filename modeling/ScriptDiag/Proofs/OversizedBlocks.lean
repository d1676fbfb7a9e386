import ScriptDiag.Proofs.BlockGrammar

/-!
# Blocks with more entries than their headers can say

The header of a debug block has 16 bits for the number of entries of each table, and a symbol has 16
bits, one of them for the sign, for the number of its dimensions. Of larger numbers the low bits are
written, and all entries follow nevertheless. So a block that is too large is not refused when it is
written. When it is read, as many entries are taken as the header announces, and the bytes of the
others are taken for those of the next table. It depends on these whether that is noticed.

The main statement is `parse_encode_keeps_iff`: entries can get lost without notice unless all
numbers fit (`FitsCounts`) or the block cannot be read. If no table behind one that is too long
has entries, then nothing is noticed, and of the last table with entries there is left what the
remainder of its length modulo 65536 says.
-/

namespace ScriptDiag

namespace DebugBlock

/-! ## Blocks that fit -/

/-- No name has a zero byte in it, which would end it. -/
structure HasPlainNames (b : DebugBlock) : Prop where
  file_names : ∀ e ∈ b.files, NulFree e.name
  symbol_names : ∀ s ∈ b.symbols, NulFree s.name
  tag_names : ∀ e ∈ b.tags, NulFree e.name

/-- The numbers of entries and of dimensions can be written down. -/
structure FitsCounts (b : DebugBlock) : Prop where
  files_le : b.files.length ≤ 65535
  lines_le : b.lines.length ≤ 65535
  symbols_le : b.symbols.length ≤ 65535
  tags_le : b.tags.length ≤ 65535
  dims_le : ∀ s ∈ b.symbols, s.dims.length ≤ 32767

/-- The block has all the entries of `written`, each table in its order. A symbol kind that was
given by the number of a named kind has that name. -/
structure Keeps (b written : DebugBlock) : Prop where
  files : b.files = written.files
  lines : b.lines = written.lines
  symbols : b.symbols = written.symbols.map SymbolEntry.normal
  tags : b.tags = written.tags

variable {b b' : DebugBlock}

theorem keeps_readBack (b : DebugBlock) (h : Header) : (b.readBack h).Keeps b :=
  ⟨rfl, rfl, rfl, rfl⟩

theorem FitsCounts.encodable (hfits : b.FitsCounts) (hnames : b.HasPlainNames)
    (hsize : b.encode.length ≤ 2147483647) : b.Encodable :=
  ⟨hfits.files_le, hfits.lines_le, hfits.symbols_le, hfits.tags_le, hfits.dims_le,
    hnames.file_names, hnames.symbol_names, hnames.tag_names, hsize⟩

/-- What fits is read back. -/
theorem FitsCounts.parse_eq (hfits : b.FitsCounts) (hnames : b.HasPlainNames)
    (hsize : b.encode.length ≤ 2147483647) :
    parse b.encode = .ok (b.readBack (b.headerFor b.encode.length)) := by
  have h := parse_encode_append (hfits.encodable hnames hsize) []
  rwa [List.append_nil] at h

/-! ## What is read of a block that may be too large -/

/-- The header of a written block is read, whatever the numbers in it. -/
theorem parse_encode_eq (hsize : b.encode.length ≤ 2147483647) :
    parse b.encode = Decoder.decode (tables (b.headerFor b.encode.length)) b.encode := by
  have hlen := b.length_encode
  have hheader : Decoder.decode (header b.encode.length) b.encode =
      .ok (b.headerFor b.encode.length) := by
    have hdecode := b.decode_header (by omega) hsize (Nat.le_refl _) b.encodeTables
    rwa [hlen, ← encode, ← hlen] at hdecode
  have htake : (b.headerFor b.encode.length).size.toNatClampNeg = b.encode.length :=
    Int32.toNatClampNeg_ofNat_of_lt (by omega)
  rw [parse, hheader]
  show Decoder.decode _ (b.encode.take _) = _
  rw [htake, List.take_length]

/-- A block that was read has as many entries as the low bits of the numbers say, and symbols with
dimensions that fit. -/
theorem counts_of_parse_encode (hsize : b.encode.length ≤ 2147483647)
    (h : parse b.encode = .ok b') :
    b'.files.length = b.files.length % 65536 ∧ b'.lines.length = b.lines.length % 65536 ∧
      b'.symbols.length = b.symbols.length % 65536 ∧ b'.tags.length = b.tags.length % 65536 ∧
      ∀ s ∈ b'.symbols, s.dims.length ≤ 32767 := by
  rw [parse_encode_eq hsize] at h
  obtain ⟨parts, -, htables⟩ := tables_eq_ok h
  have hmod : ∀ n : Nat, (UInt16.ofNat n).toNat = n % 65536 := fun _ => UInt16.toNat_ofNat'
  have hcounts := htables.counts
  refine ⟨hcounts.files.symm.trans (hmod _), hcounts.lines.symm.trans (hmod _),
    hcounts.symbols.symm.trans (hmod _), hcounts.tags.symm.trans (hmod _), ?_⟩
  refine forall_of_forall₂ htables.symbols fun part s hs => ?_
  obtain ⟨count, hs⟩ := hs
  have hlt := count.toNatClampNeg_lt
  rw [hs.dims]
  omega

/-- All entries are read only if their numbers fit. -/
theorem Keeps.fitsCounts (hkeeps : b'.Keeps b) (hsize : b.encode.length ≤ 2147483647)
    (h : parse b.encode = .ok b') : b.FitsCounts := by
  obtain ⟨hfiles, hlines, hsymbols, htags, hdims⟩ := counts_of_parse_encode hsize h
  have hle : ∀ {n : Nat}, n = n % 65536 → n ≤ 65535 := fun {n} hn => by omega
  rw [hkeeps.files] at hfiles
  rw [hkeeps.lines] at hlines
  rw [hkeeps.symbols, List.length_map] at hsymbols
  rw [hkeeps.tags] at htags
  rw [hkeeps.symbols] at hdims
  exact ⟨hle hfiles, hle hlines, hle hsymbols, hle htags,
    fun s hs => hdims s.normal (List.mem_map_of_mem hs)⟩

/-! ## Tables that are too long -/

/-- No table behind one that is too long has entries. -/
structure OnlyLastIsLong (b : DebugBlock) : Prop where
  files : b.files.length ≤ 65535 ∨ b.lines = [] ∧ b.symbols = [] ∧ b.tags = []
  lines : b.lines.length ≤ 65535 ∨ b.symbols = [] ∧ b.tags = []
  symbols : b.symbols.length ≤ 65535 ∨ b.tags = []

/-- The block with as many entries of each table as its header announces. -/
def announced (b : DebugBlock) : DebugBlock :=
  { b with
    files := b.files.take (b.files.length % 65536)
    lines := b.lines.take (b.lines.length % 65536)
    symbols := b.symbols.take (b.symbols.length % 65536)
    tags := b.tags.take (b.tags.length % 65536) }

theorem prefix_flatMap_take {α : Type} (encode : α → Bytes) (entries : List α) (n : Nat) :
    (entries.take n).flatMap encode <+: entries.flatMap encode := by
  obtain ⟨others, hothers⟩ := List.take_prefix n entries
  exact ⟨others.flatMap encode, by rw [← List.flatMap_append, hothers]⟩

/-- The announced entries of a table stand in front, and are followed by what is announced behind
the table if that is nothing or the table is not too long. -/
theorem announced_prefix {α : Type} (encode : α → Bytes) {entries : List α} {behind rest : Bytes}
    (h : entries.length ≤ 65535 ∨ behind = []) (hbehind : behind <+: rest) :
    (entries.take (entries.length % 65536)).flatMap encode ++ behind <+:
      entries.flatMap encode ++ rest := by
  rcases h with hle | rfl
  · rw [Nat.mod_eq_of_lt (by omega), List.take_length]
    exact (List.prefix_append_right_inj _).mpr hbehind
  · rw [List.append_nil]
    exact (prefix_flatMap_take _ _ _).trans (List.prefix_append _ _)

theorem OnlyLastIsLong.encodeTables_prefix (h : b.OnlyLastIsLong) :
    b.announced.encodeTables <+: b.encodeTables := by
  simp only [announced, encodeTables, List.append_assoc]
  refine announced_prefix _ (h.files.imp_right ?_) <| announced_prefix _ (h.lines.imp_right ?_) <|
    announced_prefix _ (h.symbols.imp_right ?_) (prefix_flatMap_take _ _ _)
  · rintro ⟨hlines, hsymbols, htags⟩
    simp [hlines, hsymbols, htags]
  · rintro ⟨hsymbols, htags⟩
    simp [hsymbols, htags]
  · intro htags
    simp [htags]

theorem HasPlainNames.announced_readable (hnames : b.HasPlainNames)
    (hdims : ∀ s ∈ b.symbols, s.dims.length ≤ 32767) : b.announced.Readable where
  dims_le := fun s hs => hdims s (List.mem_of_mem_take hs)
  file_names := fun e he => hnames.file_names e (List.mem_of_mem_take he)
  symbol_names := fun s hs => hnames.symbol_names s (List.mem_of_mem_take hs)
  tag_names := fun e he => hnames.tag_names e (List.mem_of_mem_take he)

theorem headerFor_counts_announced (b : DebugBlock) (size : Nat) :
    (b.headerFor size).Counts b.announced := by
  have hcount : ∀ {α : Type} (entries : List α), (UInt16.ofNat entries.length).toNat =
      (entries.take (entries.length % 65536)).length := fun entries => by
    rw [UInt16.toNat_ofNat', List.length_take, Nat.min_eq_left (Nat.mod_le _ _)]
  exact ⟨hcount _, hcount _, hcount _, hcount _⟩

/-- Nothing is noticed if the tables behind one that is too long are empty. -/
theorem OnlyLastIsLong.parse_eq (h : b.OnlyLastIsLong) (hnames : b.HasPlainNames)
    (hdims : ∀ s ∈ b.symbols, s.dims.length ≤ 32767) (hsize : b.encode.length ≤ 2147483647) :
    parse b.encode = .ok (b.announced.readBack (b.headerFor b.encode.length)) := by
  obtain ⟨rest, hrest⟩ := h.encodeTables_prefix
  have hdecode := decode_tables (hnames.announced_readable hdims)
    (b.headerFor_counts_announced b.encode.length)
    (b.length_encodeHeader (debugHeaderSize + b.encodeTables.length)) rest
  rw [parse_encode_eq hsize]
  rwa [hrest] at hdecode

/-! ## The main statement -/

/-- **Entries can get lost without notice.** Let a block be written that was made entry by entry,
with names as they must be and a size that can be said. If it is read at all, then all entries are
there exactly if their numbers fit; of each table there is what the number of its entries is modulo
65536. If the numbers fit it is read. But it is also read if a table is too long and no table behind
it has entries, and then the table loses entries. -/
theorem parse_encode_keeps_iff {entries : List DebugEntry}
    (hnames : (ofEntries entries).HasPlainNames)
    (hsize : (ofEntries entries).encode.length ≤ 2147483647) :
    (∀ b, parse (ofEntries entries).encode = .ok b →
      (b.Keeps (ofEntries entries) ↔ (ofEntries entries).FitsCounts) ∧
      b.files.length = (entries.filterMap DebugEntry.file?).length % 65536 ∧
      b.lines.length = (entries.filterMap DebugEntry.line?).length % 65536 ∧
      b.symbols.length = (entries.filterMap DebugEntry.symbol?).length % 65536 ∧
      b.tags.length = (entries.filterMap DebugEntry.tag?).length % 65536) ∧
    ((ofEntries entries).FitsCounts →
      ∃ b, parse (ofEntries entries).encode = .ok b ∧ b.Keeps (ofEntries entries)) ∧
    ((∀ s ∈ (ofEntries entries).symbols, s.dims.length ≤ 32767) →
      (ofEntries entries).OnlyLastIsLong →
      ∃ b, parse (ofEntries entries).encode = .ok b ∧ b.Keeps (ofEntries entries).announced) := by
  refine ⟨fun b h => ⟨⟨fun hkeeps => hkeeps.fitsCounts hsize h, fun hfits => ?_⟩, ?_⟩,
    fun hfits => ⟨_, hfits.parse_eq hnames hsize, keeps_readBack _ _⟩,
    fun hdims hlast => ⟨_, hlast.parse_eq hnames hdims hsize, keeps_readBack _ _⟩⟩
  · rw [hfits.parse_eq hnames hsize] at h
    injection h with h
    exact h ▸ keeps_readBack _ _
  · obtain ⟨hfiles, hlines, hsymbols, htags, -⟩ := counts_of_parse_encode hsize h
    exact ⟨hfiles, hlines, hsymbols, htags⟩

/-! ## Blocks of lines only -/

/-- A block with `n` lines and nothing else. -/
def linesOnly (n : Nat) : List DebugEntry :=
  List.replicate n (.line ⟨0, 0⟩)

theorem filterMap_linesOnly (n : Nat) :
    (linesOnly n).filterMap DebugEntry.line? = List.replicate n ⟨0, 0⟩ :=
  List.filterMap_replicate_of_some rfl

theorem ofEntries_linesOnly (n : Nat) :
    ofEntries (linesOnly n) =
      { fileVersion := formatVersion, vmVersion := formatVersion, files := []
        lines := List.replicate n ⟨0, 0⟩, symbols := [], tags := [] } := by
  simp only [ofEntries, filterMap_linesOnly]
  simp [linesOnly, DebugEntry.file?, DebugEntry.symbol?, DebugEntry.tag?]

theorem length_encode_linesOnly (n : Nat) :
    (ofEntries (linesOnly n)).encode.length = debugHeaderSize + n * 8 := by
  rw [length_encode, ofEntries_linesOnly, encodeTables]
  have hentry : (LineEntry.encode ⟨0, 0⟩).length = 8 := rfl
  simp [List.length_flatMap, hentry]

theorem hasPlainNames_linesOnly (n : Nat) : (ofEntries (linesOnly n)).HasPlainNames := by
  rw [ofEntries_linesOnly]
  exact ⟨fun _ h => absurd h List.not_mem_nil, fun _ h => absurd h List.not_mem_nil,
    fun _ h => absurd h List.not_mem_nil⟩

theorem dims_le_linesOnly (n : Nat) :
    ∀ s ∈ (ofEntries (linesOnly n)).symbols, s.dims.length ≤ 32767 := by
  rw [ofEntries_linesOnly]
  exact fun _ h => absurd h List.not_mem_nil

theorem onlyLastIsLong_linesOnly (n : Nat) : (ofEntries (linesOnly n)).OnlyLastIsLong := by
  rw [ofEntries_linesOnly]
  exact ⟨.inl (Nat.zero_le _), .inr ⟨rfl, rfl⟩, .inr rfl⟩

/-- Of lines only, the remainder modulo 65536 is left. -/
theorem parse_encode_linesOnly {n : Nat} (h : debugHeaderSize + n * 8 ≤ 2147483647) :
    parse (ofEntries (linesOnly n)).encode = .ok
      { fileVersion := formatVersion, vmVersion := formatVersion, files := []
        lines := List.replicate (n % 65536) ⟨0, 0⟩, symbols := [], tags := [] } := by
  rw [← length_encode_linesOnly] at h
  rw [(onlyLastIsLong_linesOnly n).parse_eq (hasPlainNames_linesOnly n) (dims_le_linesOnly n) h]
  simp only [announced, readBack, headerFor, ofEntries_linesOnly, List.length_replicate,
    List.take_replicate, Nat.min_eq_left (Nat.mod_le _ _), List.take_nil, List.map_nil]

theorem linesOnly_keep_announced :
    (ofEntries (linesOnly 65600)).HasPlainNames ∧
      (ofEntries (linesOnly 65600)).encode.length ≤ 2147483647 ∧
      ∃ b, parse (ofEntries (linesOnly 65600)).encode = .ok b ∧ b.lines.length = 64 := by
  have hsize : (ofEntries (linesOnly 65600)).encode.length ≤ 2147483647 := by
    rw [length_encode_linesOnly]
    decide
  obtain ⟨hread, -, hlost⟩ := parse_encode_keeps_iff (hasPlainNames_linesOnly 65600) hsize
  obtain ⟨b, hparse, -⟩ := hlost (dims_le_linesOnly 65600) (onlyLastIsLong_linesOnly 65600)
  refine ⟨hasPlainNames_linesOnly 65600, hsize, b, hparse, ?_⟩
  obtain ⟨-, -, hlines, -⟩ := hread b hparse
  rw [hlines, filterMap_linesOnly, List.length_replicate]

/-- Of 65536 lines none is left, and the block is read without an error. -/
theorem linesOnly_all_lost :
    (ofEntries (linesOnly 65536)).HasPlainNames ∧
      (ofEntries (linesOnly 65536)).encode.length ≤ 2147483647 ∧
      (ofEntries (linesOnly 65536)).lines.length = 65536 ∧
      parse (ofEntries (linesOnly 65536)).encode = .ok
        { fileVersion := formatVersion, vmVersion := formatVersion, files := [], lines := []
          symbols := [], tags := [] } := by
  refine ⟨hasPlainNames_linesOnly 65536, ?_, ?_, parse_encode_linesOnly (by decide)⟩
  · rw [length_encode_linesOnly]
    decide
  · rw [ofEntries_linesOnly, List.length_replicate]

end DebugBlock

end ScriptDiag
