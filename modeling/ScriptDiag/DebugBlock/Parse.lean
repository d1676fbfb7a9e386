import ScriptDiag.DebugBlock.Encode

/-!
# Reading debug blocks

`DebugBlock.parse` reads the packed form. A block says how long it is, and nothing behind that end
is looked at. The numbers of automatons and states, and whatever follows the tag table, carry
nothing that a trace needs and are left alone.
-/

namespace ScriptDiag

namespace Decoder

def fileEntry : Decoder FileEntry := do
  let address ← u32
  let name ← text
  return { address, name }

def lineEntry : Decoder LineEntry := do
  let address ← u32
  let line ← i32
  return { address, line }

def dimension : Decoder Dimension := do
  let tag ← i16
  let size ← u32
  return { tag, size }

/-- One symbol. A negative number of dimensions counts as none. -/
def symbolEntry : Decoder SymbolEntry := do
  let address ← u32
  let tag ← i16
  let codeStart ← u32
  let codeEnd ← u32
  let ident ← u8
  let storage ← u8
  let count ← i16
  let name ← text
  let dims ← many count.toNatClampNeg dimension
  return {
    address, tag, codeStart, codeEnd, kind := SymbolKind.ofIdent ident, storage, dims, name }

def tagEntry : Decoder TagEntry := do
  let id ← i16
  let name ← text
  return { id, name }

end Decoder

namespace DebugBlock

/-- What the header of a block says. -/
structure Header where
  size : Int32
  fileVersion : UInt8
  vmVersion : UInt8
  files : UInt16
  lines : UInt16
  symbols : UInt16
  tags : UInt16
deriving DecidableEq, Repr, Inhabited

/-- The header. The mark is checked before the size, and the size against the number of bytes
that there are. -/
def header (available : Nat) : Decoder Header := do
  let size ← Decoder.i32
  let magic ← Decoder.u16
  if magic ≠ debugMagic then
    throw (.badMagic magic debugMagic)
  if size < Int32.ofNat debugHeaderSize ∨ available < size.toNatClampNeg then
    throw (.invalidOffset "debug size" size)
  let fileVersion ← Decoder.u8
  let vmVersion ← Decoder.u8
  let _flags ← Decoder.i16
  let files ← Decoder.u16
  let lines ← Decoder.u16
  let symbols ← Decoder.u16
  let tags ← Decoder.u16
  return { size, fileVersion, vmVersion, files, lines, symbols, tags }

/-- The tables that the header announces. -/
def tables (h : Header) : Decoder DebugBlock := do
  Decoder.seek debugHeaderSize
  let files ← Decoder.many h.files.toNat Decoder.fileEntry
  let lines ← Decoder.many h.lines.toNat Decoder.lineEntry
  let symbols ← Decoder.many h.symbols.toNat Decoder.symbolEntry
  let tags ← Decoder.many h.tags.toNat Decoder.tagEntry
  return { fileVersion := h.fileVersion, vmVersion := h.vmVersion, files, lines, symbols, tags }

/-- The block that `bytes` begin with. -/
def parse (bytes : Bytes) : Except DecodeError DebugBlock := do
  let h ← Decoder.decode (header bytes.length) bytes
  Decoder.decode (tables h) (bytes.take h.size.toNatClampNeg)

end DebugBlock

end ScriptDiag
