import ScriptDiag.Proofs.FieldsAt
import ScriptDiag.Proofs.ImageRoundTrip

/-!
# What an image is

`Image.HasTables bytes` says of bytes that they have the form of an image: a header whose offsets
are in order and inside, and at each place where its tables have a record an address and a name.
`Image.IsImage bytes image` says in addition what the image consists of. The main statement is that
these are exactly the bytes that are read, and that what is read is exactly that image
(`parse_eq_ok_iff_isImage`).

The offsets of records are products and sums of numbers from the header. `Image.parse?` gives up
when one of them is negative or does not fit a signed word, and when the debug block is cut off
behind the end of the data. It never does, since the checks of the header come first (`parse?_eq`).
-/

namespace ScriptDiag

/-- A computation goes on past a check if nothing is wrong. -/
theorem unless_ok_iff {ε α : Type} {wrong : Prop} [Decidable wrong] {e : ε}
    {f : PUnit → Except ε α} {next : Except ε α} {x : α} :
    (if wrong then throw e >>= f else next) = .ok x ↔ ¬wrong ∧ next = .ok x := by
  by_cases h : wrong
  · rw [if_pos h]
    exact iff_of_false nofun fun hx => hx.1 h
  · rw [if_neg h]
    exact (and_iff_right h).symm

theorem bind_eq_ok_iff {ε α β : Type} {x : Except ε α} {f : α → Except ε β} {b : β} :
    (x >>= f) = .ok b ↔ ∃ a, x = .ok a ∧ f a = .ok b := by
  constructor
  · intro h
    cases x with
    | error e => cases h
    | ok a => exact ⟨a, rfl, h⟩
  · rintro ⟨a, rfl, h⟩
    exact h

/-- Lists are equal if their items are wherever their images under `f` are. -/
theorem eq_of_map_eq {α β : Type} {f : α → β} {xs ys : List α} (h : xs.map f = ys.map f)
    (hitems : ∀ i (hi : i < xs.length) (hi' : i < ys.length), f xs[i] = f ys[i] → xs[i] = ys[i]) :
    xs = ys := by
  have hlen : xs.length = ys.length := by
    simpa using congrArg List.length h
  refine List.ext_getElem hlen fun i hi hi' => hitems i hi hi' ?_
  have hat := congrArg (·[i]?) h
  simpa [hi, hi'] using hat

/-- A table that is read index by index. -/
theorem mapM_range_eq_ok_iff {ε α : Type} {f : Nat → Except ε α} {n : Nat} {xs : List α} :
    (List.range n).mapM f = .ok xs ↔ xs.length = n ∧ ∀ i (hi : i < xs.length), f i = .ok xs[i] := by
  constructor
  · intro h
    -- The last index comes off at the end, where the list that is read grows.
    induction n generalizing xs with
    | zero =>
      injection h with h
      subst h
      exact ⟨rfl, nofun⟩
    | succ n ih =>
      rw [List.range_succ, List.mapM_append] at h
      obtain ⟨front, hfront, h⟩ := bind_eq_ok_iff.mp h
      obtain ⟨tail, htail, h⟩ := bind_eq_ok_iff.mp h
      rw [List.mapM_cons] at htail
      obtain ⟨last, hlast, htail⟩ := bind_eq_ok_iff.mp htail
      obtain rfl : [last] = tail := Except.ok.inj htail
      obtain rfl : front ++ [last] = xs := Except.ok.inj h
      obtain ⟨hlen, hitems⟩ := ih hfront
      refine ⟨by rw [List.length_append, hlen, List.length_singleton], fun i hi => ?_⟩
      rw [List.getElem_append]
      split
      next hi' => exact hitems i hi'
      next hi' =>
        obtain rfl : i = n := by
          rw [List.length_append, List.length_singleton] at hi
          omega
        rw [List.getElem_singleton, hlast]
  · rintro ⟨rfl, h⟩
    exact mapM_range_eq_ok h

attribute [ext] PublicEntry NativeEntry

namespace ImageHeader

/-! ## The header -/

/-- What stands in the header that `bytes` begin with. -/
def ofBytes (bytes : Bytes) : ImageHeader where
  size := i32At bytes 0
  magic := u16At bytes 4
  fileVersion := u8At bytes 6
  vmVersion := u8At bytes 7
  flags := i16At bytes 8
  defsize := i16At bytes 10
  cod := i32At bytes 12
  dat := i32At bytes 16
  hea := i32At bytes 20
  stp := i32At bytes 24
  cip := i32At bytes 28
  publics := i32At bytes 32
  natives := i32At bytes 36
  libraries := i32At bytes 40
  pubvars := i32At bytes 44
  tags := i32At bytes 48
  nametable := i32At bytes 52

theorem parse_eq_ok_iff {bytes : Bytes} {h : ImageHeader} :
    parse bytes = .ok h ↔
      imageHeaderSize ≤ bytes.length ∧ u16At bytes 4 = imageMagic ∧ h = ofBytes bytes := by
  rw [parse, Decoder.decode_eq_ok_iff]
  unfold decoder
  simp only [Decoder.fixed_i32.bind_eq_ok_iff, Decoder.fixed_u16.bind_eq_ok_iff,
    Decoder.unless_eq_ok_iff, Decoder.fixed_u8.bind_eq_ok_iff, Decoder.fixed_i16.bind_eq_ok_iff,
    Act.pure_apply, Nat.zero_add, Nat.reduceAdd]
  constructor
  · rintro ⟨r, -, -, hmagic, -, -, -, -, -, -, -, -, -, -, -, -, -, -, hlen, hok⟩
    injection hok with hh
    exact ⟨hlen, not_not.mp hmagic, hh.symm⟩
  · rintro ⟨hlen, hmagic, rfl⟩
    have hlen : 56 ≤ bytes.length := hlen
    exact ⟨_, by omega, by omega, not_not.mpr hmagic, by omega, by omega, by omega, by omega,
      by omega, by omega, by omega, by omega, by omega, by omega, by omega, by omega, by omega,
      by omega, hlen, rfl⟩

/-! ## Tables inside the image -/

/-- A table of records reaches from `first` to `last`, inside the first `limit` bytes. -/
structure Spans (h : ImageHeader) (first last : Int32) (limit : Nat) : Prop where
  first_ge : 0 ≤ first.toInt
  first_le : first.toInt ≤ last.toInt
  last_le : last.toInt ≤ limit
  defsize_pos : 0 < h.defsize.toInt

/-- The number of records between two offsets. -/
def tableLength (h : ImageHeader) (first last : Int32) : Nat :=
  ((last.toInt - first.toInt) / h.defsize.toInt).toNat

/-- Where the `i`-th record of the table at `first` starts. -/
def recordOffset (h : ImageHeader) (first : Int32) (i : Nat) : Nat :=
  first.toNatClampNeg + i * h.defsize.toNatClampNeg

namespace Spans

variable {h : ImageHeader} {first last : Int32} {limit : Nat}

theorem toNatClampNeg_le (hspans : h.Spans first last limit) :
    first.toNatClampNeg ≤ last.toNatClampNeg ∧ last.toNatClampNeg ≤ limit := by
  have hfirst := hspans.first_ge
  have hle := hspans.first_le
  have hlast := hspans.last_le
  simp only [Int32.toNatClampNeg]
  omega

theorem width_pos (hspans : h.Spans first last limit) : 0 < h.defsize.toNatClampNeg := by
  have hdefsize := hspans.defsize_pos
  rw [Int16.toNatClampNeg]
  omega

/-- The records are counted in natural numbers. -/
theorem tableLength_eq (hspans : h.Spans first last limit) :
    h.tableLength first last =
      (last.toNatClampNeg - first.toNatClampNeg) / h.defsize.toNatClampNeg := by
  have hle := hspans.first_le
  have hfirst := hspans.first_ge
  have hdefsize := hspans.defsize_pos
  have hdiff : ((last.toNatClampNeg - first.toNatClampNeg : Nat) : Int) =
      last.toInt - first.toInt := by
    simp only [Int32.toNatClampNeg]
    omega
  have hwidth : (h.defsize.toNatClampNeg : Int) = h.defsize.toInt := by
    rw [Int16.toNatClampNeg]
    omega
  rw [tableLength, ← hdiff, ← hwidth, ← Int.natCast_ediv, Int.toNat_natCast]

end Spans

theorem recordCount_eq_ok_iff {h : ImageHeader} {field : String} {first last : Int32}
    {limit count : Nat} :
    h.recordCount field first last limit = .ok count ↔
      h.Spans first last limit ∧ count = h.tableLength first last := by
  have hzero : (0 : Int32).toInt = 0 := rfl
  have hzero' : (0 : Int16).toInt = 0 := rfl
  unfold recordCount
  simp only [unless_ok_iff, Int32.lt_iff_toInt_lt, Int16.le_iff_toInt_le, hzero, hzero']
  constructor
  · rintro ⟨hfirst, -, -, hlimit, hdefsize, hle, hok⟩
    have hspans : h.Spans first last limit := by
      refine ⟨by omega, by omega, ?_, by omega⟩
      have hlast := hfirst
      rw [Int32.toNatClampNeg] at hlimit
      omega
    injection hok with hcount
    exact ⟨hspans, hcount.symm.trans hspans.tableLength_eq.symm⟩
  · rintro ⟨hspans, rfl⟩
    have hfirst := hspans.first_ge
    have hle := hspans.first_le
    have hlimit := hspans.last_le
    have hdefsize := hspans.defsize_pos
    rw [hspans.tableLength_eq]
    simp only [Int32.toNatClampNeg]
    exact ⟨by omega, by omega, by omega, by omega, by omega, by omega, rfl⟩

/-- Every record of a table ends inside it. -/
theorem Spans.recordOffset_le {h : ImageHeader} {first last : Int32} {limit i : Nat}
    (hspans : h.Spans first last limit) (hi : i < h.tableLength first last) :
    h.recordOffset first i + h.defsize.toNatClampNeg ≤ last.toNatClampNeg := by
  have hle := hspans.toNatClampNeg_le
  rw [hspans.tableLength_eq, Nat.lt_iff_add_one_le, Nat.le_div_iff_mul_le hspans.width_pos,
    Nat.succ_mul] at hi
  rw [recordOffset]
  omega

/-! ## Records -/

/-- Where the name of the record at `offset` stands. -/
def nameOffset (h : ImageHeader) (bytes : Bytes) (offset : Nat) : Nat :=
  if h.defsize = namedRecordSize then (u32At bytes (offset + 4)).toNat else offset + 4

/-- At `offset` stands a record with the name `name`. Its address is `u32At bytes offset`. -/
structure HoldsRecord (h : ImageHeader) (bytes : Bytes) (offset : Nat) (name : String) : Prop where
  address_le : offset + 4 ≤ bytes.length
  holdsName : HoldsText bytes (h.nameOffset bytes offset) name

theorem decode_record_eq_ok_iff {h : ImageHeader} {bytes : Bytes} {offset : Nat}
    {entry : UCell × String} (hfits : offset + h.defsize.toNatClampNeg ≤ bytes.length) :
    Decoder.decode (h.record offset) bytes = .ok entry ↔
      h.HoldsRecord bytes offset entry.2 ∧ entry.1 = u32At bytes offset := by
  rw [Decoder.decode_eq_ok_iff]
  unfold record
  simp only [Decoder.seek_bind_apply, Decoder.fixed_u32.bind_eq_ok_iff]
  by_cases hdefsize : h.defsize = namedRecordSize
  · have hwidth : h.defsize.toNatClampNeg = 8 := by
      rw [hdefsize]
      exact Int16.toNatClampNeg_ofNat_of_lt (by decide)
    have hname : h.nameOffset bytes offset = (u32At bytes (offset + 4)).toNat := if_pos hdefsize
    simp only [if_pos hdefsize, Decoder.fixed_u32.bind_eq_ok_iff, Decoder.seek_bind_apply,
      Decoder.text_bind_eq_ok_iff, Act.pure_apply, ← hname]
    constructor
    · rintro ⟨r, haddress, -, name, hholds, hok⟩
      injection hok with hentry
      exact hentry ▸ ⟨⟨haddress, hholds⟩, rfl⟩
    · rintro ⟨⟨haddress, hholds⟩, hentry⟩
      exact ⟨_, haddress, by omega, entry.2, hholds, by rw [← hentry]⟩
  · have hname : h.nameOffset bytes offset = offset + 4 := if_neg hdefsize
    simp only [if_neg hdefsize, Decoder.text_bind_eq_ok_iff, Act.pure_apply]
    constructor
    · rintro ⟨r, haddress, name, hholds, hok⟩
      injection hok with hentry
      exact hentry ▸ ⟨⟨haddress, hname.symm ▸ hholds⟩, rfl⟩
    · rintro ⟨⟨haddress, hholds⟩, hentry⟩
      exact ⟨_, haddress, entry.2, hname ▸ hholds, by rw [← hentry]⟩

/-! ## Tables -/

/-- At the places of a table stand records with these names. -/
structure HoldsTable (h : ImageHeader) (bytes : Bytes) (first last : Int32)
    (names : List String) : Prop where
  length : names.length = h.tableLength first last
  records : ∀ i (hi : i < names.length), h.HoldsRecord bytes (h.recordOffset first i) names[i]

theorem recordTable_eq_ok_iff {h : ImageHeader} {bytes : Bytes} {first last : Int32} {limit : Nat}
    {entries : List (UCell × String)} (hspans : h.Spans first last limit)
    (hlimit : limit ≤ bytes.length) :
    h.recordTable bytes first (h.tableLength first last) = .ok entries ↔
      h.HoldsTable bytes first last (entries.map (·.2)) ∧
        ∀ i (hi : i < entries.length), entries[i].1 = u32At bytes (h.recordOffset first i) := by
  have hle := hspans.toNatClampNeg_le
  have hrecord : ∀ i < h.tableLength first last, ∀ entry,
      Decoder.decode (h.record (h.recordOffset first i)) bytes = .ok entry ↔
        h.HoldsRecord bytes (h.recordOffset first i) entry.2 ∧
          entry.1 = u32At bytes (h.recordOffset first i) := by
    intro i hi entry
    have hend := hspans.recordOffset_le hi
    exact decode_record_eq_ok_iff (by omega)
  rw [recordTable, mapM_range_eq_ok_iff]
  constructor
  · rintro ⟨hlen, hentries⟩
    have hat := fun i (hi : i < entries.length) =>
      (hrecord i (hlen ▸ hi) entries[i]).mp (hentries i hi)
    refine ⟨⟨by rw [List.length_map, hlen], fun i hi => ?_⟩, fun i hi => (hat i hi).2⟩
    rw [List.getElem_map]
    exact (hat i (by rwa [List.length_map] at hi)).1
  · rintro ⟨⟨hlen, hnames⟩, haddresses⟩
    rw [List.length_map] at hlen
    refine ⟨hlen, fun i hi => (hrecord i (hlen ▸ hi) entries[i]).mpr ⟨?_, haddresses i hi⟩⟩
    have h := hnames i (by rwa [List.length_map])
    rwa [List.getElem_map] at h

theorem HoldsTable.exists_recordTable {h : ImageHeader} {bytes : Bytes} {first last : Int32}
    {limit : Nat} {names : List String} (htable : h.HoldsTable bytes first last names)
    (hspans : h.Spans first last limit) (hlimit : limit ≤ bytes.length) :
    ∃ entries, entries.map (·.2) = names ∧
      h.recordTable bytes first (h.tableLength first last) = .ok entries := by
  let entries := names.mapIdx fun i name => (u32At bytes (h.recordOffset first i), name)
  have hnames : entries.map (·.2) = names := by
    refine List.ext_getElem (by simp [entries]) fun i hi _ => ?_
    rw [List.getElem_map, List.getElem_mapIdx]
  refine ⟨entries, hnames, (recordTable_eq_ok_iff hspans hlimit).mpr ⟨?_, fun i hi => ?_⟩⟩
  · rwa [hnames]
  · rw [List.getElem_mapIdx]

theorem HoldsTable.exists_name {h : ImageHeader} {bytes : Bytes} {first last : Int32}
    {names : List String} (htable : h.HoldsTable bytes first last names) :
    ∀ i < h.tableLength first last, ∃ name, h.HoldsRecord bytes (h.recordOffset first i) name :=
  fun i hi => ⟨_, htable.records i (htable.length ▸ hi)⟩

/-- No two lists of names stand in the same table. -/
theorem HoldsTable.unique {h : ImageHeader} {bytes : Bytes} {first last : Int32}
    {names names' : List String} (htable : h.HoldsTable bytes first last names)
    (htable' : h.HoldsTable bytes first last names') : names = names' := by
  refine List.ext_getElem (htable.length.trans htable'.length.symm) fun i hi hi' => ?_
  exact (htable.records i hi).holdsName.unique (htable'.records i hi').holdsName

/-- A table that could be filled with names at every place has names. -/
theorem exists_holdsTable {h : ImageHeader} {bytes : Bytes} {first last : Int32}
    (hnames : ∀ i < h.tableLength first last,
      ∃ name, h.HoldsRecord bytes (h.recordOffset first i) name) :
    ∃ names, h.HoldsTable bytes first last names := by
  choose name hname using hnames
  refine ⟨List.ofFn fun i : Fin (h.tableLength first last) => name i i.isLt,
    List.length_ofFn, fun i hi => ?_⟩
  rw [List.getElem_ofFn]
  exact hname i (by rwa [List.length_ofFn] at hi)

/-! ## Headers whose offsets are in order -/

/-- The header has the mark, a size that holds the header and is not more than there is, offsets of
tables that are in order and inside, and a record size that is one. -/
structure IsLaidOut (h : ImageHeader) (available : Nat) : Prop where
  magic : h.magic = imageMagic
  size_ge : (imageHeaderSize : Int) ≤ h.size.toInt
  size_le : h.size.toInt ≤ available
  publics_ge : 0 ≤ h.publics.toInt
  publics_le : h.publics.toInt ≤ h.natives.toInt
  natives_le : h.natives.toInt ≤ h.libraries.toInt
  libraries_le : h.libraries.toInt ≤ h.size.toInt
  defsize_pos : 0 < h.defsize.toInt

def publicCount (h : ImageHeader) : Nat :=
  h.tableLength h.publics h.natives

def nativeCount (h : ImageHeader) : Nat :=
  h.tableLength h.natives h.libraries

/-- Both tables are inside if and only if their offsets are in order. -/
theorem isLaidOut_iff {h : ImageHeader} {available : Nat} :
    h.IsLaidOut available ↔ h.magic = imageMagic ∧
      ¬(h.size < Int32.ofNat imageHeaderSize ∨ available < h.size.toNatClampNeg) ∧
      h.Spans h.publics h.natives h.size.toNatClampNeg ∧
      h.Spans h.natives h.libraries h.size.toNatClampNeg := by
  have hmin : (Int32.ofNat imageHeaderSize).toInt = imageHeaderSize := rfl
  have hpos : (0 : Int) ≤ imageHeaderSize := Int.natCast_nonneg _
  rw [not_or, Int32.lt_iff_toInt_lt, hmin]
  constructor
  · rintro ⟨hmagic, hge, hle, hpublics, hnatives, hlibraries, hend, hdefsize⟩
    have hsize : (h.size.toNatClampNeg : Int) = h.size.toInt := by
      rw [Int32.toNatClampNeg]
      omega
    exact ⟨hmagic, ⟨by omega, by omega⟩, ⟨by omega, by omega, by omega, hdefsize⟩,
      ⟨by omega, by omega, by omega, hdefsize⟩⟩
  · rintro ⟨hmagic, ⟨hge, hle⟩, hpublics, hnatives⟩
    have hsize : (h.size.toNatClampNeg : Int) = h.size.toInt := by
      rw [Int32.toNatClampNeg]
      omega
    exact ⟨hmagic, by omega, by omega, hpublics.first_ge, hpublics.first_le, hnatives.first_le,
      hsize ▸ hnatives.last_le, hpublics.defsize_pos⟩

theorem IsLaidOut.spans {h : ImageHeader} {available : Nat} (hlayout : h.IsLaidOut available) :
    h.size.toNatClampNeg ≤ available ∧ h.Spans h.publics h.natives h.size.toNatClampNeg ∧
      h.Spans h.natives h.libraries h.size.toNatClampNeg := by
  obtain ⟨-, hsize, hpublics, hnatives⟩ := isLaidOut_iff.mp hlayout
  exact ⟨Nat.not_lt.mp (not_or.mp hsize).2, hpublics, hnatives⟩

end ImageHeader

namespace Image

/-! ## Exactly the images are read -/

/-- `bytes` have the form of an image: a header, and a record at each place of its two tables. -/
structure HasTables (bytes : Bytes) : Prop where
  length_ge : imageHeaderSize ≤ bytes.length
  layout : (ImageHeader.ofBytes bytes).IsLaidOut bytes.length
  publics : let h := ImageHeader.ofBytes bytes
    ∀ i < h.publicCount, ∃ name, h.HoldsRecord bytes (h.recordOffset h.publics i) name
  natives : let h := ImageHeader.ofBytes bytes
    ∀ i < h.nativeCount, ∃ name, h.HoldsRecord bytes (h.recordOffset h.natives i) name

/-- `bytes` have the form of an image, and these are its parts. -/
structure IsImage (bytes : Bytes) (image : Image) : Prop where
  length_ge : imageHeaderSize ≤ bytes.length
  layout : (ImageHeader.ofBytes bytes).IsLaidOut bytes.length
  header : image.header = ImageHeader.ofBytes bytes
  publics : image.header.HoldsTable bytes image.header.publics image.header.natives
    (image.publics.map (·.name))
  addresses : ∀ i (hi : i < image.publics.length),
    image.publics[i].address = u32At bytes (image.header.recordOffset image.header.publics i)
  natives : image.header.HoldsTable bytes image.header.natives image.header.libraries
    (image.natives.map (·.name))
  unregistered : ∀ n ∈ image.natives, n.address = none
  debugBlock : ∀ block, image.debugBlock = some block ↔
    image.header.hasDebug ∧ block = bytes.drop image.header.size.toNatClampNeg ∧ block ≠ []

/-- The image with the header of `bytes` and the given entries. -/
def ofTables (bytes : Bytes) (publics natives : List (UCell × String)) : Image :=
  let h := ImageHeader.ofBytes bytes
  let after := bytes.drop h.size.toNatClampNeg
  { header := h
    publics := publics.map fun (address, name) => { name, address }
    natives := natives.map fun (_, name) => { name, address := none }
    debugBlock := if h.hasDebug && !after.isEmpty then some after else none }

theorem debugBlock_ofTables {bytes : Bytes} {publics natives : List (UCell × String)}
    {block : Bytes} :
    (ofTables bytes publics natives).debugBlock = some block ↔
      (ImageHeader.ofBytes bytes).hasDebug ∧
        block = bytes.drop (ImageHeader.ofBytes bytes).size.toNatClampNeg ∧ block ≠ [] := by
  simp only [ofTables, Option.ite_none_right_eq_some, Option.some.injEq, Bool.and_eq_true,
    Bool.not_eq_true', List.isEmpty_eq_false_iff]
  constructor
  · rintro ⟨⟨hdebug, hne⟩, rfl⟩
    exact ⟨hdebug, rfl, hne⟩
  · rintro ⟨hdebug, rfl, hne⟩
    exact ⟨⟨hdebug, hne⟩, rfl⟩

/-- What is left to do when the header is in order is to read two tables. -/
theorem parse_eq_ok_iff_tables {bytes : Bytes} {image : Image} :
    parse bytes = .ok image ↔
      imageHeaderSize ≤ bytes.length ∧ (ImageHeader.ofBytes bytes).IsLaidOut bytes.length ∧
        let h := ImageHeader.ofBytes bytes
        ∃ publics natives, h.recordTable bytes h.publics h.publicCount = .ok publics ∧
          h.recordTable bytes h.natives h.nativeCount = .ok natives ∧
          image = ofTables bytes publics natives := by
  unfold parse
  simp only [bind_eq_ok_iff, unless_ok_iff, ImageHeader.parse_eq_ok_iff,
    ImageHeader.recordCount_eq_ok_iff, ImageHeader.isLaidOut_iff]
  constructor
  · rintro ⟨_, ⟨hlen, hmagic, rfl⟩, hsize, _, ⟨hpublics, rfl⟩, _, ⟨hnatives, rfl⟩, publics,
      hpublicTable, natives, hnativeTable, hok⟩
    exact ⟨hlen, ⟨hmagic, hsize, hpublics, hnatives⟩, publics, natives, hpublicTable, hnativeTable,
      (Except.ok.inj hok).symm⟩
  · rintro ⟨hlen, ⟨hmagic, hsize, hpublics, hnatives⟩, publics, natives, hpublicTable, hnativeTable,
      rfl⟩
    exact ⟨_, ⟨hlen, hmagic, rfl⟩, hsize, _, ⟨hpublics, rfl⟩, _, ⟨hnatives, rfl⟩, publics,
      hpublicTable, natives, hnativeTable, rfl⟩

theorem isImage_of_parse {bytes : Bytes} {image : Image} (hok : parse bytes = .ok image) :
    IsImage bytes image := by
  obtain ⟨hlen, hlayout, publics, natives, hpublicTable, hnativeTable, rfl⟩ :=
    parse_eq_ok_iff_tables.mp hok
  obtain ⟨hlimit, hpublics, hnatives⟩ := hlayout.spans
  obtain ⟨hpublicNames, haddresses⟩ :=
    (ImageHeader.recordTable_eq_ok_iff hpublics hlimit).mp hpublicTable
  obtain ⟨hnativeNames, -⟩ := (ImageHeader.recordTable_eq_ok_iff hnatives hlimit).mp hnativeTable
  refine ⟨hlen, hlayout, rfl, ?_, ?_, ?_, ?_, fun block => debugBlock_ofTables⟩
  · rwa [ofTables, List.map_map]
  · intro i hi
    simp only [ofTables, List.getElem_map]
    exact haddresses i (by rwa [ofTables, List.length_map] at hi)
  · rwa [ofTables, List.map_map]
  · intro n hn
    obtain ⟨entry, -, rfl⟩ := List.mem_map.mp hn
    rfl

theorem IsImage.hasTables {bytes : Bytes} {image : Image} (himage : IsImage bytes image) :
    HasTables bytes := by
  have hpublics := himage.publics.exists_name
  have hnatives := himage.natives.exists_name
  rw [himage.header] at hpublics hnatives
  exact ⟨himage.length_ge, himage.layout, hpublics, hnatives⟩

/-- An image is read if and only if its header is in order and a record stands at each place of its
tables. -/
theorem exists_parse_iff {bytes : Bytes} :
    (∃ image, parse bytes = .ok image) ↔ HasTables bytes := by
  constructor
  · rintro ⟨image, hok⟩
    exact (isImage_of_parse hok).hasTables
  · rintro ⟨hlen, hlayout, hpublicNames, hnativeNames⟩
    obtain ⟨hlimit, hpublics, hnatives⟩ := hlayout.spans
    obtain ⟨names, hnames⟩ := ImageHeader.exists_holdsTable hpublicNames
    obtain ⟨names', hnames'⟩ := ImageHeader.exists_holdsTable hnativeNames
    obtain ⟨entries, -, htable⟩ := hnames.exists_recordTable hpublics hlimit
    obtain ⟨entries', -, htable'⟩ := hnames'.exists_recordTable hnatives hlimit
    exact ⟨_, parse_eq_ok_iff_tables.mpr ⟨hlen, hlayout, entries, entries', htable, htable', rfl⟩⟩

/-- The parts of an image are given by its bytes. -/
theorem IsImage.unique {bytes : Bytes} {image image' : Image} (himage : IsImage bytes image)
    (himage' : IsImage bytes image') : image = image' := by
  obtain ⟨h, publics, natives, debugBlock⟩ := image
  obtain ⟨h', publics', natives', debugBlock'⟩ := image'
  obtain rfl : h = ImageHeader.ofBytes bytes := himage.header
  obtain rfl : h' = ImageHeader.ofBytes bytes := himage'.header
  have hnames : publics.map (·.name) = publics'.map (·.name) :=
    himage.publics.unique himage'.publics
  have hnames' : natives.map (·.name) = natives'.map (·.name) :=
    himage.natives.unique himage'.natives
  have hpublics : publics = publics' := eq_of_map_eq hnames fun i hi hi' hname =>
    PublicEntry.ext hname ((himage.addresses i hi).trans (himage'.addresses i hi').symm)
  have hnatives : natives = natives' := eq_of_map_eq hnames' fun i hi hi' hname =>
    NativeEntry.ext hname ((himage.unregistered _ (List.getElem_mem hi)).trans
      (himage'.unregistered _ (List.getElem_mem hi')).symm)
  have hblock : debugBlock = debugBlock' :=
    Option.ext fun block => (himage.debugBlock block).trans (himage'.debugBlock block).symm
  rw [hpublics, hnatives, hblock]

theorem IsImage.parse {bytes : Bytes} {image : Image} (himage : IsImage bytes image) :
    parse bytes = .ok image := by
  obtain ⟨image', hok⟩ := exists_parse_iff.mpr himage.hasTables
  rw [hok, (isImage_of_parse hok).unique himage]

end Image

/-! ## No offset runs over -/

/-- A parse that may give up instead of coming to a result. -/
abbrev Checked (α : Type) := ExceptT DecodeError Option α

namespace Checked

variable {α β : Type}

def giveUp : Checked α :=
  ExceptT.mk none

def ofExcept (x : Except DecodeError α) : Checked α :=
  ExceptT.mk (some x)

/-- A number as an offset. It must not be negative and fit a signed word of 32 bits. -/
def offset (n : Int) : Checked Nat :=
  if 0 ≤ n ∧ n ≤ 2147483647 then pure n.toNat else giveUp

/-- The bytes from `limit` on, which must not lie behind the end. -/
def behind (bytes : Bytes) (limit : Nat) : Checked Bytes :=
  if limit ≤ bytes.length then pure (bytes.drop limit) else giveUp

/-- The parse does not give up, and comes to `result`. -/
def Gives (x : Checked α) (result : Except DecodeError α) : Prop :=
  x.run = some result

theorem gives_ofExcept (x : Except DecodeError α) : Gives (ofExcept x) x := rfl

theorem gives_offset {n : Nat} {i : Int} (hi : i = n) (hn : n ≤ 2147483647) :
    Gives (offset i) (.ok n) := by
  subst hi
  rw [offset, if_pos (by omega)]
  rfl

theorem gives_behind {bytes : Bytes} {limit : Nat} (h : limit ≤ bytes.length) :
    Gives (behind bytes limit) (.ok (bytes.drop limit)) := by
  rw [behind, if_pos h]
  rfl

theorem Gives.bind {x : Checked α} {f : α → Checked β} {result : Except DecodeError α}
    {g : α → Except DecodeError β} (hx : Gives x result)
    (hf : ∀ a, result = .ok a → Gives (f a) (g a)) : Gives (x >>= f) (result >>= g) := by
  unfold Gives at hx ⊢
  rw [ExceptT.run_bind, hx]
  cases result with
  | error e => rfl
  | ok a => exact hf a rfl

/-- A step that comes to a value. -/
theorem Gives.bind_ok {x : Checked α} {f : α → Checked β} {a : α} {result : Except DecodeError β}
    (hx : Gives x (.ok a)) (hf : Gives (f a) result) : Gives (x >>= f) result :=
  hx.bind (g := fun _ => result) fun _ ha => Except.ok.inj ha ▸ hf

theorem gives_mapM {ι : Type} {f : ι → Checked α} {g : ι → Except DecodeError α} {is : List ι}
    (h : ∀ i ∈ is, Gives (f i) (g i)) : Gives (is.mapM f) (is.mapM g) := by
  induction is with
  | nil => rfl
  | cons i is ih =>
    rw [List.mapM_cons, List.mapM_cons]
    obtain ⟨hi, his⟩ := List.forall_mem_cons.mp h
    exact hi.bind fun a _ => (ih his).bind fun as _ => rfl

end Checked

/-- The records of a table, at offsets that are computed in words. -/
def ImageHeader.recordTable? (h : ImageHeader) (bytes : Bytes) (first : Int32) (count : Nat) :
    Checked (List (UCell × String)) :=
  (List.range count).mapM fun (i : Nat) => do
    let start ← Checked.offset first.toInt
    let distance ← Checked.offset ((i : Int) * h.defsize.toInt)
    let offset ← Checked.offset (start + distance)
    Checked.ofExcept (Decoder.decode (h.record offset) bytes)

/-- The parse of an image, with offsets that are computed in words. -/
def Image.parse? (bytes : Bytes) : Checked Image := do
  let h ← Checked.ofExcept (ImageHeader.parse bytes)
  if h.size < Int32.ofNat imageHeaderSize then
    throw (.invalidOffset "size" h.size)
  let limit ← Checked.offset h.size.toInt
  if bytes.length < limit then
    throw (.invalidOffset "size" h.size)
  let publicCount ← Checked.ofExcept (h.recordCount "publics" h.publics h.natives limit)
  let nativeCount ← Checked.ofExcept (h.recordCount "natives" h.natives h.libraries limit)
  let publics ← h.recordTable? bytes h.publics publicCount
  let natives ← h.recordTable? bytes h.natives nativeCount
  let after ← Checked.behind bytes limit
  return {
    header := h
    publics := publics.map fun (address, name) => { name, address }
    natives := natives.map fun (_, name) => { name, address := none }
    debugBlock := if h.hasDebug && !after.isEmpty then some after else none }

theorem ImageHeader.gives_recordTable {h : ImageHeader} {bytes : Bytes} {first last : Int32}
    {limit : Nat} (hspans : h.Spans first last limit) (hlimit : limit ≤ 2147483647) :
    Checked.Gives (h.recordTable? bytes first (h.tableLength first last))
      (h.recordTable bytes first (h.tableLength first last)) := by
  unfold recordTable? recordTable
  refine Checked.gives_mapM fun i hi => ?_
  have hend := hspans.recordOffset_le (List.mem_range.mp hi)
  have hle := hspans.toNatClampNeg_le
  have hfirst : first.toInt = first.toNatClampNeg := by
    have hge := hspans.first_ge
    rw [Int32.toNatClampNeg]
    omega
  have hwidth : h.defsize.toInt = h.defsize.toNatClampNeg := by
    have hpos := hspans.defsize_pos
    rw [Int16.toNatClampNeg]
    omega
  rw [recordOffset] at hend
  have hdistance : (i * h.defsize.toInt : Int) = (i * h.defsize.toNatClampNeg : Nat) := by
    rw [hwidth, Int.natCast_mul]
  refine (Checked.gives_offset hfirst (by omega)).bind_ok ?_
  refine (Checked.gives_offset hdistance (by omega)).bind_ok ?_
  refine (Checked.gives_offset (Int.natCast_add _ _).symm (by omega)).bind_ok ?_
  exact Checked.gives_ofExcept _

namespace Image

theorem gives_parse (bytes : Bytes) : Checked.Gives (parse? bytes) (parse bytes) := by
  unfold parse? parse
  refine (Checked.gives_ofExcept _).bind fun h _ => ?_
  by_cases hsmall : h.size < Int32.ofNat imageHeaderSize
  · rw [if_pos hsmall, if_pos (.inl hsmall)]
    rfl
  have hsize : h.size.toInt = h.size.toNatClampNeg := by
    have hmin : (Int32.ofNat imageHeaderSize).toInt = imageHeaderSize := rfl
    have hpos : (0 : Int) ≤ imageHeaderSize := Int.natCast_nonneg _
    rw [Int32.lt_iff_toInt_lt, hmin] at hsmall
    rw [Int32.toNatClampNeg]
    omega
  have hlimit : h.size.toNatClampNeg ≤ 2147483647 := by
    have hlt := h.size.toInt_lt
    omega
  rw [if_neg hsmall]
  refine (Checked.gives_offset hsize hlimit).bind_ok ?_
  by_cases hshort : bytes.length < h.size.toNatClampNeg
  · rw [if_pos hshort, if_pos (.inr hshort)]
    rfl
  rw [if_neg hshort, if_neg (not_or.mpr ⟨hsmall, hshort⟩)]
  refine (Checked.gives_ofExcept _).bind fun publicCount hpublicCount => ?_
  obtain ⟨hpublics, rfl⟩ := ImageHeader.recordCount_eq_ok_iff.mp hpublicCount
  refine (Checked.gives_ofExcept _).bind fun nativeCount hnativeCount => ?_
  obtain ⟨hnatives, rfl⟩ := ImageHeader.recordCount_eq_ok_iff.mp hnativeCount
  refine (ImageHeader.gives_recordTable hpublics hlimit).bind fun publics _ => ?_
  refine (ImageHeader.gives_recordTable hnatives hlimit).bind fun natives _ => ?_
  exact (Checked.gives_behind (Nat.not_lt.mp hshort)).bind_ok rfl

/-- **Exactly the images are read.** Bytes are read as an image if and only if they have a header
whose mark, size and offsets are in order, and at each place of its two tables an address and a
name; the image then has that header, these addresses and names in their order, natives that are all
unregistered, and as its debug block what follows it, if the header announces one and anything
follows. And on no bytes does an offset that is computed on the way leave the range of a signed
word, or the debug block start behind the end. -/
theorem parse_eq_ok_iff_isImage (bytes : Bytes) :
    ((∃ image, parse bytes = .ok image) ↔ HasTables bytes) ∧
    (∀ image, parse bytes = .ok image ↔ IsImage bytes image) ∧
    Checked.Gives (parse? bytes) (parse bytes) :=
  ⟨exists_parse_iff, fun _ => ⟨isImage_of_parse, IsImage.parse⟩, gives_parse bytes⟩

end Image

end ScriptDiag
