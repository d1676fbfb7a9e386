import ScriptDiag.DiagError
import ScriptDiag.Image.Build
import ScriptDiag.Image.Parse
import ScriptDiag.Proofs.Reading

/-!
# Images read back as they were built

An image built from publics, natives, code, data and a debug block parses to those publics and
natives and, if it is not empty, that debug block (`parse_encode`). So the tables of a module file
are the tables of the debug block that was built into it.

A record refers to its name by an offset that the writer computed before it wrote the name table.
Where the two meet is `decode_record`: the records of the entries before a given one take 8 bytes
each (`length_records`), and the texts of those entries stand in front of its name
(`records_append`).
-/

namespace ScriptDiag

theorem ok_bind {ε α β : Type} (a : α) (f : α → Except ε β) : (Except.ok a >>= f) = f a := rfl

/-! ## The header -/

namespace ImageHeader

def encode (h : ImageHeader) : Bytes :=
  List.flatten
    [Encode.i32 h.size, Encode.u16 h.magic, Encode.u8 h.fileVersion, Encode.u8 h.vmVersion,
      Encode.i16 h.flags, Encode.i16 h.defsize, Encode.i32 h.cod, Encode.i32 h.dat,
      Encode.i32 h.hea, Encode.i32 h.stp, Encode.i32 h.cip, Encode.i32 h.publics,
      Encode.i32 h.natives, Encode.i32 h.libraries, Encode.i32 h.pubvars, Encode.i32 h.tags,
      Encode.i32 h.nametable]

theorem length_encode (h : ImageHeader) : h.encode.length = imageHeaderSize := by
  simp [encode, imageHeaderSize, Encode.u16, Encode.u8, Encode.i16, Encode.i32, Encode.u32]

theorem reads_encode {h : ImageHeader} (hmagic : h.magic = imageMagic) :
    Decoder.Reads decoder h.encode h := by
  simp only [encode, List.flatten_cons, List.flatten_nil, List.append_nil]
  refine (Decoder.reads_i32 h.size).bind ?_
  refine (Decoder.reads_u16 h.magic).bind ?_
  simp only [hmagic, ne_eq, not_true_eq_false, if_false]
  refine (Decoder.reads_u8 h.fileVersion).bind ?_
  refine (Decoder.reads_u8 h.vmVersion).bind ?_
  refine (Decoder.reads_i16 h.flags).bind ?_
  refine (Decoder.reads_i16 h.defsize).bind ?_
  refine (Decoder.reads_i32 h.cod).bind ?_
  refine (Decoder.reads_i32 h.dat).bind ?_
  refine (Decoder.reads_i32 h.hea).bind ?_
  refine (Decoder.reads_i32 h.stp).bind ?_
  refine (Decoder.reads_i32 h.cip).bind ?_
  refine (Decoder.reads_i32 h.publics).bind ?_
  refine (Decoder.reads_i32 h.natives).bind ?_
  refine (Decoder.reads_i32 h.libraries).bind ?_
  refine (Decoder.reads_i32 h.pubvars).bind ?_
  refine (Decoder.reads_i32 h.tags).bind ?_
  rw [← hmagic]
  exact (Decoder.reads_i32 h.nametable).bind_pure _

theorem recordCount_eq_ok {h : ImageHeader} {field : String} {first last limit : Nat}
    (hdefsize : h.defsize = namedRecordSize) (hle : first ≤ last) (hlimit : last ≤ limit)
    (hmax : last ≤ 2147483647) :
    h.recordCount field (Int32.ofNat first) (Int32.ofNat last) limit
      = .ok ((last - first) / 8) := by
  have hfirst : (Int32.ofNat first).toNatClampNeg = first :=
    Int32.toNatClampNeg_ofNat_of_lt (by omega)
  have hlast : (Int32.ofNat last).toNatClampNeg = last :=
    Int32.toNatClampNeg_ofNat_of_lt (by omega)
  have hfirst' : ¬Int32.ofNat first < 0 :=
    Int32.not_lt.mpr (Int32.zero_le_ofNat_of_lt (by omega))
  have hlast' : ¬Int32.ofNat last < 0 :=
    Int32.not_lt.mpr (Int32.zero_le_ofNat_of_lt (by omega))
  have horder : ¬Int32.ofNat last < Int32.ofNat first := by
    rw [Int32.ofNat_lt_iff_lt (by omega) (by omega)]
    omega
  have hwidth : namedRecordSize.toNatClampNeg = 8 :=
    Int16.toNatClampNeg_ofNat_of_lt (by decide)
  have hwidth' : ¬namedRecordSize ≤ 0 := by decide
  unfold recordCount
  rw [hfirst, hlast, hdefsize, hwidth, if_neg hfirst', if_neg hlast', if_neg (by omega),
    if_neg (by omega), if_neg hwidth', if_neg horder]
  rfl

/-! ## Records that refer to their names -/

/-- The record after `before`, whose name is the one after `before'` in the same bytes. -/
theorem decode_record {h : ImageHeader} {bytes before rest before' rest' : Bytes}
    {address : UCell} {name : String} (hdefsize : h.defsize = namedRecordSize)
    (hname : NulFree name) (hlen : before'.length < 4294967296)
    (hrecord : bytes = before ++ (Encode.u32 address ++
      (Encode.u32 (UInt32.ofNat before'.length) ++ rest)))
    (htext : bytes = before' ++ (Encode.text name ++ rest')) :
    Decoder.decode (h.record before.length) bytes = .ok (address, name) := by
  have hoffset : (UInt32.ofNat before'.length).toNat = before'.length :=
    UInt32.toNat_ofNat_of_lt' hlen
  have hstart : [] ++ bytes = before ++ (Encode.u32 address ++
      (Encode.u32 (UInt32.ofNat before'.length) ++ rest)) := hrecord
  have hjump : before ++ Encode.u32 address ++ Encode.u32 (UInt32.ofNat before'.length) ++ rest =
      before' ++ (Encode.text name ++ rest') := by
    rw [← htext, hrecord]
    simp only [List.append_assoc]
  rw [Decoder.decode, Reader.ofBytes_eq_between, record,
    Act.bind_of_ok (Decoder.seek_apply hstart rfl),
    Act.bind_of_ok (Decoder.reads_u32 address before _)]
  simp only [hdefsize, if_true]
  rw [Act.bind_of_ok (Decoder.reads_u32 _ _ rest),
    Act.bind_of_ok (Decoder.seek_apply hjump hoffset),
    Act.bind_of_ok (Decoder.reads_text hname before' rest')]
  rfl

end ImageHeader

/-- A table that is read index by index. -/
theorem mapM_range_eq_ok {ε α : Type} {f : Nat → Except ε α} {xs : List α}
    (h : ∀ i (hi : i < xs.length), f i = .ok xs[i]) :
    (List.range xs.length).mapM f = .ok xs := by
  have htake : ∀ n ≤ xs.length, (List.range n).mapM f = .ok (xs.take n) := by
    intro n hn
    induction n with
    | zero => rfl
    | succ n ih =>
      rw [List.range_succ, List.mapM_append, ih (by omega), List.mapM_cons, h n hn]
      show Except.ok (xs.take n ++ [xs[n]]) = _
      rw [List.take_append_getElem]
  rw [htake xs.length (Nat.le_refl _), List.take_length]

namespace ImageSource

/-! ## The parts of an image -/

/-- Bytes in the image without its debug block. -/
def properSize (s : ImageSource) : Nat :=
  imageHeaderSize + 8 * s.publics.length + 8 * s.natives.length + s.nameTable.length
    + s.code.length + s.data.length

def header (s : ImageSource) : ImageHeader where
  size := Int32.ofNat s.properSize
  magic := imageMagic
  fileVersion := 8
  vmVersion := 8
  flags := if s.debugBlock.isSome then debugFlag else 0
  defsize := namedRecordSize
  cod := Int32.ofNat (imageHeaderSize + 8 * s.publics.length + 8 * s.natives.length
    + s.nameTable.length)
  dat := Int32.ofNat (imageHeaderSize + 8 * s.publics.length + 8 * s.natives.length
    + s.nameTable.length + s.code.length)
  hea := Int32.ofNat s.properSize
  stp := Int32.ofNat (s.properSize + stackSize)
  cip := -1
  publics := Int32.ofNat imageHeaderSize
  natives := Int32.ofNat (imageHeaderSize + 8 * s.publics.length)
  libraries := Int32.ofNat (imageHeaderSize + 8 * s.publics.length + 8 * s.natives.length)
  pubvars := Int32.ofNat (imageHeaderSize + 8 * s.publics.length + 8 * s.natives.length)
  tags := Int32.ofNat (imageHeaderSize + 8 * s.publics.length + 8 * s.natives.length)
  nametable := Int32.ofNat (imageHeaderSize + 8 * s.publics.length + 8 * s.natives.length)

/-- The names of the given entries as the name table holds them. -/
def texts (entries : List (UCell × String)) : Bytes :=
  entries.flatMap fun e => Encode.text e.2

theorem nameTable_eq (s : ImageSource) :
    ∃ longest, s.nameTable = Encode.u16 longest ++ texts s.entries := by
  have htexts : s.names.flatMap Encode.text = texts s.entries := by
    simp [names, entries, texts, List.flatMap_map]
  exact ⟨_, congrArg (_ ++ ·) htexts⟩

theorem word_eq (n : Nat) : word n = Encode.i32 (Int32.ofNat n) := rfl

theorem encode_eq (s : ImageSource) :
    s.encode = s.header.encode ++
      (records (imageHeaderSize + 8 * s.publics.length + 8 * s.natives.length + 2) s.entries
        ++ (s.nameTable ++ (s.code ++ (s.data ++ s.debugBlock.getD [])))) := by
  unfold encode ImageHeader.encode header properSize
  dsimp only
  simp only [List.flatten_cons, List.flatten_nil, List.append_assoc, List.nil_append, word_eq]

theorem length_records (offset : Nat) (entries : List (UCell × String)) :
    (records offset entries).length = 8 * entries.length := by
  induction entries generalizing offset with
  | nil => rfl
  | cons entry entries ih =>
    simp only [records, List.length_append, List.length_cons, word, Encode.u32,
      length_toLittleEndian, ih]
    omega

theorem length_entries (s : ImageSource) :
    s.entries.length = s.publics.length + s.natives.length := by
  simp [entries]

theorem records_append (offset : Nat) (xs ys : List (UCell × String)) :
    records offset (xs ++ ys) = records offset xs ++ records (offset + (texts xs).length) ys := by
  induction xs generalizing offset with
  | nil => rfl
  | cons x xs ih =>
    obtain ⟨address, name⟩ := x
    have hlen : offset + name.utf8ByteSize + 1 + (texts xs).length =
        offset + (texts ((address, name) :: xs)).length := by
      simp only [texts, List.flatMap_cons, List.length_append, Encode.text, length_utf8,
        List.length_singleton]
      omega
    simp only [List.cons_append, records, ih, hlen, List.append_assoc]

/-! ## A record and its name

For an entry with the entries `pre` before it, the bytes of the image split at its record and at
its name, and the record holds the length of what stands before the name. -/

/-- Where the first name stands. -/
def nameStart (s : ImageSource) : Nat :=
  imageHeaderSize + 8 * s.publics.length + 8 * s.natives.length + 2

theorem encode_at_record {s : ImageSource} {pre post : List (UCell × String)} {address : UCell}
    {name : String} (h : s.entries = pre ++ (address, name) :: post) :
    ∃ before rest, before.length = imageHeaderSize + 8 * pre.length ∧
      s.encode = before ++ (Encode.u32 address ++
        (Encode.u32 (UInt32.ofNat (s.nameStart + (texts pre).length)) ++ rest)) := by
  refine ⟨s.header.encode ++ records s.nameStart pre,
    records (s.nameStart + (texts pre).length + name.utf8ByteSize + 1) post
      ++ (s.nameTable ++ (s.code ++ (s.data ++ s.debugBlock.getD []))), ?_, ?_⟩
  · rw [List.length_append, ImageHeader.length_encode, length_records]
  · rw [encode_eq, ← nameStart, h, records_append, records, word]
    simp only [List.append_assoc]

theorem encode_at_name {s : ImageSource} {pre post : List (UCell × String)} {address : UCell}
    {name : String} (h : s.entries = pre ++ (address, name) :: post) :
    ∃ before rest, before.length = s.nameStart + (texts pre).length ∧
      s.encode = before ++ (Encode.text name ++ rest) := by
  obtain ⟨longest, htable⟩ := s.nameTable_eq
  have htexts : texts s.entries = texts pre ++ (Encode.text name ++ texts post) := by
    rw [h, texts, List.flatMap_append, List.flatMap_cons]
    rfl
  refine ⟨s.header.encode ++ (records s.nameStart s.entries ++ (Encode.u16 longest ++ texts pre)),
    texts post ++ (s.code ++ (s.data ++ s.debugBlock.getD [])), ?_, ?_⟩
  · simp only [List.length_append, ImageHeader.length_encode, length_records, length_entries,
      Encode.u16, length_toLittleEndian, nameStart]
    omega
  · rw [encode_eq, htable, htexts]
    simp only [List.append_assoc]
    rfl

theorem nameStart_add_le {s : ImageSource} {pre post : List (UCell × String)}
    (h : s.entries = pre ++ post) : s.nameStart + (texts pre).length ≤ s.properSize := by
  obtain ⟨longest, htable⟩ := s.nameTable_eq
  have htexts : texts s.entries = texts pre ++ texts post := by
    rw [h, texts, List.flatMap_append]
    rfl
  have hlen : s.nameTable.length = 2 + (texts pre).length + (texts post).length := by
    rw [htable, htexts, List.length_append, List.length_append, Encode.u16,
      length_toLittleEndian, Nat.add_assoc]
  unfold properSize nameStart
  omega

theorem decode_entry {s : ImageSource} (hsize : s.properSize ≤ 2147483647)
    {pre post : List (UCell × String)} {entry : UCell × String} (hname : NulFree entry.2)
    (h : s.entries = pre ++ entry :: post) :
    Decoder.decode (s.header.record (imageHeaderSize + 8 * pre.length)) s.encode = .ok entry := by
  have hle := nameStart_add_le h
  obtain ⟨before, rest, hbefore, hrecord⟩ := encode_at_record h
  obtain ⟨before', rest', hbefore', htext⟩ := encode_at_name h
  rw [← hbefore'] at hrecord
  rw [← hbefore]
  exact ImageHeader.decode_record rfl hname (by omega) hrecord htext

/-- The records of `xs`, a part of the entries. -/
theorem recordTable_entries {s : ImageSource} (hnames : ∀ e ∈ s.entries, NulFree e.2)
    (hsize : s.properSize ≤ 2147483647) {pre xs post : List (UCell × String)}
    (h : s.entries = pre ++ (xs ++ post)) :
    s.header.recordTable s.encode (Int32.ofNat (imageHeaderSize + 8 * pre.length)) xs.length
      = .ok xs := by
  have hlen : imageHeaderSize + 8 * pre.length ≤ s.properSize := by
    have hentries := s.length_entries
    rw [h, List.length_append] at hentries
    unfold properSize
    omega
  have hfirst : (Int32.ofNat (imageHeaderSize + 8 * pre.length)).toNatClampNeg =
      imageHeaderSize + 8 * pre.length := Int32.toNatClampNeg_ofNat_of_lt (by omega)
  unfold ImageHeader.recordTable
  rw [hfirst]
  refine mapM_range_eq_ok fun i hi => ?_
  have hsplit : s.entries = (pre ++ xs.take i) ++ xs[i] :: (xs.drop (i + 1) ++ post) := by
    rw [h, List.append_assoc, ← List.cons_append, List.getElem_cons_drop,
      ← List.append_assoc (xs.take i), List.take_append_drop]
  have hmem : xs[i] ∈ s.entries := by simp [h]
  have hpos : imageHeaderSize + 8 * (pre ++ xs.take i).length =
      imageHeaderSize + 8 * pre.length + i * s.header.defsize.toNatClampNeg := by
    have hwidth : s.header.defsize.toNatClampNeg = 8 := Int16.toNatClampNeg_ofNat_of_lt (by decide)
    rw [List.length_append, List.length_take, Nat.min_eq_left (Nat.le_of_lt hi), hwidth]
    omega
  rw [← hpos]
  exact decode_entry hsize (hnames _ hmem) hsplit

/-! ## The whole image -/

theorem length_encode (s : ImageSource) :
    s.encode.length = s.properSize + (s.debugBlock.getD []).length := by
  rw [encode_eq]
  simp only [List.length_append, ImageHeader.length_encode, length_records, length_entries]
  unfold properSize
  omega

theorem length_proper (s : ImageSource) :
    ({ s with debugBlock := none } : ImageSource).encode.length = s.properSize :=
  length_encode { s with debugBlock := none }

/-- The debug block stands behind everything else. -/
theorem drop_encode (s : ImageSource) :
    s.encode.drop s.properSize = s.debugBlock.getD [] := by
  have hlen := s.length_encode
  rw [encode_eq] at hlen ⊢
  simp only [← List.append_assoc] at hlen ⊢
  rw [List.length_append, Nat.add_right_cancel_iff] at hlen
  exact List.drop_left' hlen

/-- The image that is read back when `s` is built. -/
def readBack (s : ImageSource) : Image where
  header := s.header
  publics := s.publics
  natives := s.natives.map fun name => { name, address := none }
  debugBlock := s.debugBlock.filter fun block => !block.isEmpty

theorem parse_header (s : ImageSource) : ImageHeader.parse s.encode = .ok s.header := by
  rw [encode_eq]
  exact (ImageHeader.reads_encode rfl).decode _

/-- The flag tells an image without a debug block from one with an empty one, but both read as
without. -/
theorem debugBlock_readBack (s : ImageSource) :
    (if s.header.hasDebug && !(s.debugBlock.getD []).isEmpty then some (s.debugBlock.getD [])
      else none) = s.readBack.debugBlock := by
  unfold readBack
  cases hblock : s.debugBlock with
  | none => simp
  | some block =>
    have hflag : s.header.hasDebug = true := by
      unfold header ImageHeader.hasDebug
      simp only [hblock, Option.isSome_some, if_true]
      decide
    cases block <;> simp [hflag, Option.filter_some]

theorem nulFree_entries {s : ImageSource} (hnames : ∀ name ∈ s.names, NulFree name) :
    ∀ e ∈ s.entries, NulFree e.2 := by
  intro e he
  refine hnames e.2 ?_
  rcases List.mem_append.mp he with he | he
  · obtain ⟨p, hp, rfl⟩ := List.mem_map.mp he
    exact List.mem_append_left _ (List.mem_map_of_mem hp)
  · obtain ⟨n, hn, rfl⟩ := List.mem_map.mp he
    exact List.mem_append_right _ hn

theorem parse_encode_eq {s : ImageSource} (hnames : ∀ name ∈ s.names, NulFree name)
    (hsize : s.properSize ≤ 2147483647) : Image.parse s.encode = .ok s.readBack := by
  have hmin : imageHeaderSize + 8 * s.publics.length + 8 * s.natives.length ≤ s.properSize := by
    unfold properSize
    omega
  have hlimit : s.header.size.toNatClampNeg = s.properSize :=
    Int32.toNatClampNeg_ofNat_of_lt (by omega)
  have hfits : ¬(s.header.size < Int32.ofNat imageHeaderSize ∨
      s.encode.length < s.header.size.toNatClampNeg) := by
    have hproper : ¬Int32.ofNat s.properSize < Int32.ofNat imageHeaderSize := by
      rw [Int32.ofNat_lt_iff_lt (by omega) (by decide)]
      omega
    rw [hlimit, length_encode]
    exact not_or.mpr ⟨hproper, by omega⟩
  have hpublicCount : s.header.recordCount "publics" s.header.publics s.header.natives
      s.properSize = .ok s.publics.length := by
    refine (ImageHeader.recordCount_eq_ok rfl (by omega) (by omega) (by omega)).trans ?_
    rw [Nat.add_sub_cancel_left, Nat.mul_div_cancel_left _ (by omega)]
  have hnativeCount : s.header.recordCount "natives" s.header.natives s.header.libraries
      s.properSize = .ok s.natives.length := by
    refine (ImageHeader.recordCount_eq_ok rfl (by omega) (by omega) (by omega)).trans ?_
    rw [Nat.add_sub_cancel_left, Nat.mul_div_cancel_left _ (by omega)]
  have hpublics : s.header.recordTable s.encode s.header.publics s.publics.length =
      .ok (s.publics.map fun p => (p.address, p.name)) := by
    have hsplit : s.entries = [] ++ (s.publics.map (fun p => (p.address, p.name)) ++
        s.natives.map fun n => (0, n)) := rfl
    have htable := recordTable_entries (nulFree_entries hnames) hsize hsplit
    rwa [List.length_map] at htable
  have hnatives : s.header.recordTable s.encode s.header.natives s.natives.length =
      .ok (s.natives.map fun n => (0, n)) := by
    have hsplit : s.entries = s.publics.map (fun p => (p.address, p.name)) ++
        (s.natives.map (fun n => (0, n)) ++ []) := by
      rw [List.append_nil]
      rfl
    have htable := recordTable_entries (nulFree_entries hnames) hsize hsplit
    rwa [List.length_map, List.length_map] at htable
  unfold Image.parse
  rw [parse_header]
  show (if _ then _ else _) = _
  rw [if_neg hfits, hlimit, hpublicCount, hnativeCount, ok_bind, ok_bind, hpublics, ok_bind,
    hnatives, ok_bind, drop_encode]
  dsimp only
  rw [debugBlock_readBack]
  simp only [readBack, List.map_map, Function.comp_def, List.map_id']
  rfl

/-- The tables of a module file are those of the debug block in it. -/
theorem ofImage_encode {s : ImageSource} (hnames : ∀ name ∈ s.names, NulFree name)
    (hsize : s.properSize ≤ 2147483647) :
    DebugTables.ofImage s.encode =
      match s.debugBlock.filter fun block => !block.isEmpty with
      | some block => DebugTables.parse block
      | none => .ok .empty := by
  rw [DebugTables.ofImage, parse_encode_eq hnames hsize]
  rfl

/-- An image with NUL-free names, short enough for its offsets to be written as signed numbers,
reads back as what it was built from; and a module file with that image has the tables of its debug
block, or the error of decoding them, and none if the block is missing or empty. -/
theorem parse_encode {s : ImageSource} (hnames : ∀ name ∈ s.names, NulFree name)
    (hsize : ({ s with debugBlock := none } : ImageSource).encode.length ≤ 2147483647 - 4096) :
    (∃ image, Image.parse s.encode = .ok image ∧
      image.publics = s.publics ∧
      image.natives = s.natives.map (fun name => { name, address := none }) ∧
      image.debugBlock = s.debugBlock.filter fun block => !block.isEmpty) ∧
    ∀ (files : FileTable) (path : String), files.read path = .ok s.encode →
      DebugTables.loadFile files path =
        match s.debugBlock.filter fun block => !block.isEmpty with
        | some block => DebugTables.load block
        | none => .ok .empty := by
  have hproper : s.properSize ≤ 2147483647 := by
    rw [length_proper] at hsize
    omega
  refine ⟨⟨s.readBack, parse_encode_eq hnames hproper, rfl, rfl, rfl⟩, ?_⟩
  intro files path hread
  have hbytes : (files.read path).mapError DiagError.unreadable = .ok s.encode := by
    rw [hread]
    rfl
  rw [DebugTables.loadFile, hbytes, ok_bind, ofImage_encode hnames hproper]
  cases s.debugBlock.filter fun block => !block.isEmpty <;> rfl

/-- A module with two publics, two natives and an encoded debug block. -/
def sample : ImageSource where
  publics := [⟨"main", 0⟩, ⟨"OnGameModeInit", 72⟩]
  natives := ["print", "größe"]
  code := [1, 0, 255]
  data := [0]
  debugBlock := some (DebugBlock.ofEntries [.file ⟨0, "main.pwn"⟩, .line ⟨8, 12⟩]).encode

theorem parse_encode_sample :
    (∃ image, Image.parse sample.encode = .ok image ∧
      image.publics = [⟨"main", 0⟩, ⟨"OnGameModeInit", 72⟩] ∧
      image.natives = [⟨"print", none⟩, ⟨"größe", none⟩] ∧
      image.debugBlock = sample.debugBlock) ∧
    DebugTables.loadFile [⟨["gamemodes", "a.amx"], sample.encode⟩] "gamemodes/a.amx" =
      .ok { files := [⟨0, "main.pwn"⟩], lines := [⟨8, 12⟩] } := by
  have hnames : ∀ name ∈ sample.names, NulFree name := by decide +kernel
  have hsize : ({ sample with debugBlock := none } : ImageSource).encode.length
      ≤ 2147483647 - 4096 := by decide +kernel
  have hread : FileTable.read [⟨["gamemodes", "a.amx"], sample.encode⟩] "gamemodes/a.amx" =
      .ok sample.encode := by decide +kernel
  obtain ⟨hparse, hload⟩ := parse_encode hnames hsize
  refine ⟨hparse, ?_⟩
  rw [hload _ _ hread]
  decide +kernel

end ImageSource

end ScriptDiag
