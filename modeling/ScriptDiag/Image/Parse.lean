import ScriptDiag.Image

/-!
# Reading images

`Image.parse` reads the header, then the names of publics and natives, and keeps what follows the
image proper as the debug block if the header announces one. The offsets of the tables are checked
against the size of the image proper, while records and names may lie anywhere in the data.
-/

namespace ScriptDiag

namespace ImageHeader

/-- The header. The mark is checked right after it is read. -/
def decoder : Decoder ImageHeader := do
  let size ← Decoder.i32
  let magic ← Decoder.u16
  if magic ≠ imageMagic then
    throw (.badMagic magic imageMagic)
  let fileVersion ← Decoder.u8
  let vmVersion ← Decoder.u8
  let flags ← Decoder.i16
  let defsize ← Decoder.i16
  let cod ← Decoder.i32
  let dat ← Decoder.i32
  let hea ← Decoder.i32
  let stp ← Decoder.i32
  let cip ← Decoder.i32
  let publics ← Decoder.i32
  let natives ← Decoder.i32
  let libraries ← Decoder.i32
  let pubvars ← Decoder.i32
  let tags ← Decoder.i32
  let nametable ← Decoder.i32
  return {
    size, magic, fileVersion, vmVersion, flags, defsize, cod, dat, hea, stp, cip, publics, natives,
    libraries, pubvars, tags, nametable }

/-- The header that `bytes` begin with. -/
def parse (bytes : Bytes) : Except DecodeError ImageHeader :=
  Decoder.decode decoder bytes

/-- The number of records of a table that reaches from `first` to `last`. Both must lie in the first
`limit` bytes; the record size must be positive and the table not end before it starts. -/
def recordCount (h : ImageHeader) (field : String) (first last : Int32) (limit : Nat) :
    Except DecodeError Nat := do
  if first < 0 then
    throw (.invalidOffset field first)
  if last < 0 then
    throw (.invalidOffset field last)
  if limit < first.toNatClampNeg then
    throw (.invalidOffset field first)
  if limit < last.toNatClampNeg then
    throw (.invalidOffset field last)
  if h.defsize ≤ 0 then
    throw (.invalidOffset field first)
  if last < first then
    throw (.invalidOffset field first)
  return (last.toNatClampNeg - first.toNatClampNeg) / h.defsize.toNatClampNeg

/-- The record at `offset`: an address and a name. Records of the usual size hold the offset of the
name, records of any other size are followed by the name itself. -/
def record (h : ImageHeader) (offset : Nat) : Decoder (UCell × String) := do
  Decoder.seek offset
  let address ← Decoder.u32
  if h.defsize = namedRecordSize then
    let nameOffset ← Decoder.u32
    Decoder.seek nameOffset.toNat
  let name ← Decoder.text
  return (address, name)

/-- The `count` records of the table at `first`. -/
def recordTable (h : ImageHeader) (bytes : Bytes) (first : Int32) (count : Nat) :
    Except DecodeError (List (UCell × String)) :=
  (List.range count).mapM fun i =>
    Decoder.decode (h.record (first.toNatClampNeg + i * h.defsize.toNatClampNeg)) bytes

end ImageHeader

def Image.parse (bytes : Bytes) : Except DecodeError Image := do
  let h ← ImageHeader.parse bytes
  if h.size < Int32.ofNat imageHeaderSize ∨ bytes.length < h.size.toNatClampNeg then
    throw (.invalidOffset "size" h.size)
  let limit := h.size.toNatClampNeg
  let publicCount ← h.recordCount "publics" h.publics h.natives limit
  let nativeCount ← h.recordCount "natives" h.natives h.libraries limit
  let publics ← h.recordTable bytes h.publics publicCount
  let natives ← h.recordTable bytes h.natives nativeCount
  let after := bytes.drop limit
  return {
    header := h
    publics := publics.map fun (address, name) => { name, address }
    natives := natives.map fun (_, name) => { name, address := none }
    debugBlock := if h.hasDebug && !after.isEmpty then some after else none }

end ScriptDiag
