import ScriptDiag.Image

/-!
# Building images

`ImageSource.encode` lays out a minimal image: header, publics, natives, name table, code, data,
debug block. The records refer to their names by offset, publics first. All numbers are written
with 32 bits and the longest name's length with 16.
-/

namespace ScriptDiag

/-- What an image is built from. -/
structure ImageSource where
  publics : List PublicEntry := []
  natives : List String := []
  code : Bytes := []
  data : Bytes := []
  debugBlock : Option Bytes := none
deriving DecidableEq, Repr, Inhabited

namespace ImageSource

/-- Bytes that the header reserves for stack and heap. -/
def stackSize : Nat := 4096

def word (n : Nat) : Bytes :=
  Encode.u32 (UInt32.ofNat n)

def names (s : ImageSource) : List String :=
  s.publics.map PublicEntry.name ++ s.natives

/-- The name table: the length of the longest name, then the names. -/
def nameTable (s : ImageSource) : Bytes :=
  let longest := (s.names.map String.utf8ByteSize).foldl max 0
  Encode.u16 (UInt16.ofNat longest) ++ s.names.flatMap Encode.text

/-- Records with the given addresses, whose names stand one after the other from `offset` on. -/
def records (offset : Nat) : List (UCell × String) → Bytes
  | [] => []
  | (address, name) :: rest =>
    Encode.u32 address ++ word offset ++ records (offset + name.utf8ByteSize + 1) rest

/-- The records of the publics and natives. A native has no address. -/
def entries (s : ImageSource) : List (UCell × String) :=
  s.publics.map (fun p => (p.address, p.name)) ++ s.natives.map fun n => (0, n)

def encode (s : ImageSource) : Bytes :=
  let publics := imageHeaderSize
  let natives := publics + 8 * s.publics.length
  let libraries := natives + 8 * s.natives.length
  let nameTable := s.nameTable
  let cod := libraries + nameTable.length
  let dat := cod + s.code.length
  let size := dat + s.data.length
  let flags := if s.debugBlock.isSome then debugFlag else 0
  word size ++ Encode.u16 imageMagic ++ Encode.u8 8 ++ Encode.u8 8 ++ Encode.i16 flags
    ++ Encode.i16 namedRecordSize
    ++ word cod ++ word dat ++ word size ++ word (size + stackSize) ++ Encode.i32 (-1)
    ++ word publics ++ word natives ++ word libraries ++ word libraries ++ word libraries
    ++ word libraries
    ++ records (libraries + 2) s.entries ++ nameTable ++ s.code ++ s.data
    ++ s.debugBlock.getD []

end ImageSource

end ScriptDiag
