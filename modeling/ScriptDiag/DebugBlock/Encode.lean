import ScriptDiag.Bytes.Field
import ScriptDiag.DebugBlock

/-!
# The packed form of debug blocks

A block is a header of 22 bytes and the tables, without gaps, in the order files, lines, symbols,
tags. The header holds the size of the whole, a mark, the versions, and the number of entries of
each table. The size has 32 bits and each number 16: of a larger one the low bits are written, and
so of the number of dimensions of a symbol.
-/

namespace ScriptDiag

/-- The mark of a debug block. -/
def debugMagic : UInt16 := 0xF1EF

/-- Bytes in the header of a debug block. -/
def debugHeaderSize : Nat := 22

def FileEntry.encode (e : FileEntry) : Bytes :=
  Encode.u32 e.address ++ Encode.text e.name

def LineEntry.encode (e : LineEntry) : Bytes :=
  Encode.u32 e.address ++ Encode.i32 e.line

def Dimension.encode (d : Dimension) : Bytes :=
  Encode.i16 d.tag ++ Encode.u32 d.size

/-- A symbol as bytes; its dimensions follow its name. -/
def SymbolEntry.encode (s : SymbolEntry) : Bytes :=
  Encode.u32 s.address ++ Encode.i16 s.tag ++ Encode.u32 s.codeStart ++ Encode.u32 s.codeEnd
    ++ Encode.u8 s.kind.ident ++ Encode.u8 s.storage ++ Encode.i16 (Int16.ofNat s.dims.length)
    ++ Encode.text s.name ++ s.dims.flatMap Dimension.encode

def TagEntry.encode (e : TagEntry) : Bytes :=
  Encode.i16 e.id ++ Encode.text e.name

namespace DebugBlock

def encodeTables (b : DebugBlock) : Bytes :=
  b.files.flatMap FileEntry.encode ++ b.lines.flatMap LineEntry.encode
    ++ b.symbols.flatMap SymbolEntry.encode ++ b.tags.flatMap TagEntry.encode

/-- The header in front of the tables of `b`, for a block of `size` bytes. -/
def encodeHeader (b : DebugBlock) (size : Nat) : Bytes :=
  Encode.u32 (UInt32.ofNat size) ++ Encode.u16 debugMagic ++ Encode.u8 formatVersion
    ++ Encode.u8 formatVersion ++ Encode.i16 0
    ++ Encode.u16 (UInt16.ofNat b.files.length) ++ Encode.u16 (UInt16.ofNat b.lines.length)
    ++ Encode.u16 (UInt16.ofNat b.symbols.length) ++ Encode.u16 (UInt16.ofNat b.tags.length)
    ++ Encode.u16 0 ++ Encode.u16 0

/-- A block as bytes. Both versions are written as the current one. -/
def encode (b : DebugBlock) : Bytes :=
  let tables := b.encodeTables
  b.encodeHeader (debugHeaderSize + tables.length) ++ tables

theorem length_encodeHeader (b : DebugBlock) (size : Nat) :
    (b.encodeHeader size).length = debugHeaderSize := by
  simp [encodeHeader, debugHeaderSize, Encode.u32, Encode.u16, Encode.u8, Encode.i16]

end DebugBlock

end ScriptDiag
