import ScriptDiag.Bisect
import ScriptDiag.Cell
import ScriptDiag.Text.Utf8

/-!
# Reading host memory

A `CodeReader` gives the bytes at an address, as many as are readable and at most as many as asked
for. `ReadableRanges.read` never looks at a byte outside the ranges it was made from.
-/

namespace ScriptDiag

/-- The readable bytes at an address, up to a number of them. -/
abbrev CodeReader := Address → Nat → Bytes

namespace CodeReader

/-- The reader for which nothing is readable. -/
def nothing : CodeReader := fun _ _ => []

/-- The reader that finds `bytes` at `base` and nothing anywhere else. -/
def mapped (base : Address) (bytes : Bytes) : CodeReader := fun address length =>
  if address < base then [] else (bytes.drop (address - base).toNat).take length

end CodeReader

/-! ## Readable ranges -/

/-- The addresses from `start` to before `stop`. -/
structure AddressRange where
  start : Address
  stop : Address
deriving DecidableEq, Repr, Inhabited

/-- Readable ranges in ascending order, with gaps between them. -/
abbrev ReadableRanges := List AddressRange

namespace ReadableRanges

/-- Join each of `ranges`, which ascend, to `last` while they overlap or touch. -/
def joinTo (last : AddressRange) : List AddressRange → ReadableRanges
  | [] => [last]
  | r :: ranges =>
    if r.start ≤ last.stop then joinTo { last with stop := max last.stop r.stop } ranges
    else last :: joinTo r ranges

/-- The union of the given ranges, of which the empty and the inverted ones do not count. -/
def ofRanges (ranges : List AddressRange) : ReadableRanges :=
  let ascending := (ranges.filter fun r => r.start < r.stop).mergeSort fun a b =>
    a.start < b.start || (a.start == b.start && a.stop ≤ b.stop)
  match ascending with
  | [] => []
  | r :: rest => joinTo r rest

/-- How many of the `length` bytes at `address` are readable. -/
def readableLength (ranges : ReadableRanges) (address : Address) (length : Nat) : Nat :=
  match lastBefore? (fun r => r.start ≤ address) ranges with
  | some r => if address < r.stop then min (r.stop - address).toNat length else 0
  | none => 0

/-- The reader that finds in the ranges what `memory` holds. -/
def read (ranges : ReadableRanges) (memory : Address → UInt8) : CodeReader := fun address length =>
  (List.range (ranges.readableLength address length)).map fun i => memory (address + UInt64.ofNat i)

end ReadableRanges

end ScriptDiag
