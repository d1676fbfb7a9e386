import ScriptDiag.Cell
import ScriptDiag.Bytes.Field

/-!
# Module images

A module file is an image: a header of 56 bytes, tables of publics and natives, a name table, code
and data, and possibly a debug block behind all of it. Of these, `Image` keeps what diagnostics
need.
-/

namespace ScriptDiag

/-- The mark of an image for a machine with 32-bit cells. -/
def imageMagic : UInt16 := 0xF1E0

def imageHeaderSize : Nat := 56

/-- The flag of an image that a debug block follows. -/
def debugFlag : Int16 := 0x02

/-- The size of a table record whose name stands in the name table. -/
def namedRecordSize : Int16 := 8

/-- The header of an image. `size` counts the image proper, without a debug block; `defsize` is the
size of one record of the public and native tables; the other numbers are offsets, apart from
`cip`, which is the code address of `main`, or -1. -/
structure ImageHeader where
  size : Int32
  magic : UInt16
  fileVersion : UInt8
  vmVersion : UInt8
  flags : Int16
  defsize : Int16
  cod : Int32
  dat : Int32
  hea : Int32
  stp : Int32
  cip : Int32
  publics : Int32
  natives : Int32
  libraries : Int32
  pubvars : Int32
  tags : Int32
  nametable : Int32
deriving DecidableEq, Repr, Inhabited

/-- Whether the image was compiled with debug information. -/
def ImageHeader.hasDebug (h : ImageHeader) : Bool :=
  h.flags &&& debugFlag != 0

/-- A public function: its name and the address of its first instruction. -/
structure PublicEntry where
  name : String
  address : UCell
deriving DecidableEq, Repr, Inhabited

/-- A native function as a module imports it, with the address of the host function behind it once
the host has registered one. -/
structure NativeEntry where
  name : String
  address : Option Address
deriving DecidableEq, Repr, Inhabited

def NativeEntry.isRegistered (e : NativeEntry) : Bool :=
  e.address.isSome

/-- A decoded image. Its natives are all unregistered. -/
structure Image where
  header : ImageHeader
  publics : List PublicEntry
  natives : List NativeEntry
  debugBlock : Option Bytes
deriving DecidableEq, Repr, Inhabited

end ScriptDiag
