import ScriptDiag.Bytes.Reader

/-!
# Typed fields

The packed formats are sequences of fields: numbers of fixed width, texts ended by a zero byte,
and raw bytes. The `encode` functions are the writing side of the reads of `Decoder`. A `Field`
is a value together with its type, so that sequences of mixed fields can be written and read.
-/

namespace ScriptDiag

namespace Encode

def u8 (value : UInt8) : Bytes :=
  toLittleEndian 1 value.toNat

def u16 (value : UInt16) : Bytes :=
  toLittleEndian 2 value.toNat

def i16 (value : Int16) : Bytes :=
  u16 value.toUInt16

def u32 (value : UInt32) : Bytes :=
  toLittleEndian 4 value.toNat

def i32 (value : Int32) : Bytes :=
  u32 value.toUInt32

/-- A text and the zero byte that ends it. -/
def text (value : String) : Bytes :=
  utf8 value ++ [0]

end Encode

/-- A value of one of the field types. -/
inductive Field where
  | u8 (value : UInt8)
  | u16 (value : UInt16)
  | i16 (value : Int16)
  | u32 (value : UInt32)
  | i32 (value : Int32)
  | text (value : String)
  | raw (bytes : Bytes)
deriving DecidableEq, Repr, Inhabited

/-- The type of a field. Raw bytes have their number in the type. -/
inductive FieldType where
  | u8
  | u16
  | i16
  | u32
  | i32
  | text
  | raw (length : Nat)
deriving DecidableEq, Repr, Inhabited

def Field.type : Field → FieldType
  | .u8 _ => .u8
  | .u16 _ => .u16
  | .i16 _ => .i16
  | .u32 _ => .u32
  | .i32 _ => .i32
  | .text _ => .text
  | .raw bytes => .raw bytes.length

def Field.encode : Field → Bytes
  | .u8 value => Encode.u8 value
  | .u16 value => Encode.u16 value
  | .i16 value => Encode.i16 value
  | .u32 value => Encode.u32 value
  | .i32 value => Encode.i32 value
  | .text value => Encode.text value
  | .raw bytes => bytes

def FieldType.read : FieldType → Decoder Field
  | .u8 => .u8 <$> Decoder.u8
  | .u16 => .u16 <$> Decoder.u16
  | .i16 => .i16 <$> Decoder.i16
  | .u32 => .u32 <$> Decoder.u32
  | .i32 => .i32 <$> Decoder.i32
  | .text => .text <$> Decoder.text
  | .raw length => .raw <$> Decoder.take length

/-- `bytes` with the four bytes from `offset` on replaced by `value`, if there are that many. -/
def patchU32? (bytes : Bytes) (offset : Nat) (value : UInt32) : Option Bytes :=
  if offset + 4 ≤ bytes.length then
    some (bytes.take offset ++ Encode.u32 value ++ bytes.drop (offset + 4))
  else none

/-- One step of building a byte string. -/
inductive WriteStep where
  | field (value : Field)
  | patch (offset : Nat) (value : UInt32)
deriving Repr, Inhabited

/-- The bytes after a step; a patch that does not fit is refused. -/
def WriteStep.run? (bytes : Bytes) : WriteStep → Option Bytes
  | .field value => some (bytes ++ value.encode)
  | .patch offset value => patchU32? bytes offset value

end ScriptDiag
