import ScriptDiag.Bytes.Field
import ScriptDiag.Cell

/-!
# Data memory

A machine has a data segment, addressed by byte from zero. A cell occupies four bytes, lowest first,
and may lie at any address, as long as all of it lies in the segment.

`read?_write?` and `read?_write?_of_disjoint` say what is read after a cell was written: what was
written in its place, and what was there before in all places that do not overlap it.
-/

namespace ScriptDiag

/-- A data segment. -/
structure Memory where
  bytes : Array UInt8
deriving DecidableEq, Repr, Inhabited

namespace Memory

def zeros (size : Nat) : Memory :=
  ⟨Array.replicate size 0⟩

def size (m : Memory) : Nat :=
  m.bytes.size

/-- Whether a cell at `address` lies in the segment. -/
def inBounds (m : Memory) (address : UCell) : Bool :=
  address.toNat + cellSize.toNat ≤ m.size

/-- The bytes of the cell at `address`, as far as they lie in the segment. -/
def cellBytes (m : Memory) (address : UCell) : Bytes :=
  (m.bytes.extract address.toNat (address.toNat + cellSize.toNat)).toList

def read? (m : Memory) (address : UCell) : Option Cell :=
  if m.inBounds address then
    some (UInt32.ofNat (ofLittleEndian (m.cellBytes address))).toInt32
  else none

/-- The segment with `values` in place of the bytes from `offset` on. -/
def setBytes (m : Memory) (offset : Nat) : Bytes → Memory
  | [] => m
  | b :: values => setBytes ⟨m.bytes.setIfInBounds offset b⟩ (offset + 1) values

/-- The segment with `value` in the cell at `address`. -/
def write? (m : Memory) (address : UCell) (value : Cell) : Option Memory :=
  if m.inBounds address then some (m.setBytes address.toNat (Encode.i32 value)) else none

/-! ## Replacing bytes -/

@[simp] theorem size_setBytes (m : Memory) (offset : Nat) (values : Bytes) :
    (m.setBytes offset values).size = m.size := by
  induction values generalizing m offset with
  | nil => rfl
  | cons b values ih =>
    rw [setBytes, ih]
    simp [size]

/-- Bytes outside the part written stay as they are. -/
theorem getElem?_setBytes_of_outside (m : Memory) {offset i : Nat} {values : Bytes}
    (h : i < offset ∨ offset + values.length ≤ i) :
    (m.setBytes offset values).bytes[i]? = m.bytes[i]? := by
  induction values generalizing m offset with
  | nil => rfl
  | cons b values ih =>
    rw [List.length_cons] at h
    rw [setBytes, ih _ (by omega), Array.getElem?_setIfInBounds_ne (by omega)]

/-- Bytes inside the part written are those given. -/
theorem getElem?_setBytes_of_inside (m : Memory) {offset i : Nat} {values : Bytes}
    (hi : i < values.length) (hm : offset + i < m.size) :
    (m.setBytes offset values).bytes[offset + i]? = values[i]? := by
  induction values generalizing m offset i with
  | nil => exact absurd hi (Nat.not_lt_zero _)
  | cons b values ih =>
    rw [setBytes]
    cases i with
    | zero =>
      rw [getElem?_setBytes_of_outside _ (by omega)]
      simp [show offset < m.bytes.size from hm]
    | succ i =>
      rw [show offset + (i + 1) = offset + 1 + i by omega, List.getElem?_cons_succ]
      refine ih _ (by simpa using hi) ?_
      simp only [size, Array.size_setIfInBounds] at hm ⊢
      omega

/-! ## Cells -/

theorem inBounds_iff {m : Memory} {address : UCell} :
    m.inBounds address = true ↔ address.toNat + 4 ≤ m.size :=
  decide_eq_true_iff

theorem getElem?_cellBytes (m : Memory) (address : UCell) (i : Nat) :
    (m.cellBytes address)[i]? = if i < 4 then m.bytes[address.toNat + i]? else none := by
  rw [cellBytes, Array.getElem?_toList, Array.getElem?_extract, show cellSize.toNat = 4 from rfl]
  by_cases h : i < 4
  · by_cases hi : address.toNat + i < m.bytes.size
    · rw [if_pos (by omega), if_pos h]
    · rw [if_neg (by omega), if_pos h, Array.getElem?_eq_none (by omega)]
  · rw [if_neg (by omega), if_neg h]

theorem write?_eq_some_iff {m m' : Memory} {address : UCell} {value : Cell} :
    m.write? address value = some m' ↔
      address.toNat + 4 ≤ m.size ∧ m' = m.setBytes address.toNat (Encode.i32 value) := by
  by_cases h : m.inBounds address = true
  · simp [write?, h, inBounds_iff.1 h, eq_comm]
  · have hn : ¬ address.toNat + 4 ≤ m.size := fun hb => h (inBounds_iff.2 hb)
    simp [write?, h, hn]

theorem size_write? {m m' : Memory} {address : UCell} {value : Cell}
    (h : m.write? address value = some m') : m'.size = m.size := by
  obtain ⟨-, rfl⟩ := write?_eq_some_iff.1 h
  exact size_setBytes _ _ _

/-- A cell reads as what was written to it. -/
theorem read?_write? {m m' : Memory} {address : UCell} {value : Cell}
    (h : m.write? address value = some m') : m'.read? address = some value := by
  have hsize := size_write? h
  obtain ⟨hb, rfl⟩ := write?_eq_some_iff.1 h
  have hlen : (Encode.i32 value).length = 4 := length_toLittleEndian _ _
  have hraw : (m.setBytes address.toNat (Encode.i32 value)).cellBytes address
      = Encode.i32 value := by
    apply List.ext_getElem?
    intro i
    rw [getElem?_cellBytes]
    split
    · exact getElem?_setBytes_of_inside m (by omega) (by omega)
    · exact (List.getElem?_eq_none (by omega)).symm
  have hlt : value.toUInt32.toNat < Nat.pow 256 4 := value.toUInt32.toNat_lt
  rw [read?, if_pos (inBounds_iff.2 (by omega)), hraw, Encode.i32, Encode.u32,
    ofLittleEndian_toLittleEndian, Nat.mod_eq_of_lt hlt, UInt32.ofNat_toNat]
  rfl

/-- Writing a cell leaves the cells that do not overlap it as they are. -/
theorem read?_write?_of_disjoint {m m' : Memory} {address other : UCell} {value : Cell}
    (h : m.write? address value = some m')
    (hd : other.toNat + 4 ≤ address.toNat ∨ address.toNat + 4 ≤ other.toNat) :
    m'.read? other = m.read? other := by
  have hsize := size_write? h
  obtain ⟨-, rfl⟩ := write?_eq_some_iff.1 h
  have hlen : (Encode.i32 value).length = 4 := length_toLittleEndian _ _
  have hraw : (m.setBytes address.toNat (Encode.i32 value)).cellBytes other
      = m.cellBytes other := by
    apply List.ext_getElem?
    intro i
    rw [getElem?_cellBytes, getElem?_cellBytes]
    split
    · exact getElem?_setBytes_of_outside m (by omega)
    · rfl
  rw [read?, read?, hraw, inBounds, inBounds, hsize]

end Memory

end ScriptDiag
