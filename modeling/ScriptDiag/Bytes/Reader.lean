import ScriptDiag.Text.Hex
import ScriptDiag.Bytes.LittleEndian

/-!
# Reading a byte string

A `Reader` is a position in a byte string, and a `Decoder` is a computation that moves it and may
fail. The reads of this module either succeed and move the reader past what they read, or fail
and leave it where it was; `take_error` and `text_error` are the two cases from which the others
follow. Positions may lie past the end: there every read fails.
-/

namespace ScriptDiag

/-- Why a byte string does not decode. Positions count from its first byte. -/
inductive DecodeError where
  /-- Fewer bytes than needed follow the position. -/
  | unexpectedEnd (position : Nat)
  /-- The text that starts at the position is not valid UTF-8. -/
  | invalidUtf8 (position : Nat)
  /-- The format's mark was expected and something else found. -/
  | badMagic (found expected : UInt16)
  /-- A header field points outside the data. -/
  | invalidOffset (field : String) (offset : Int32)
deriving DecidableEq, Repr, Inhabited

def DecodeError.message : DecodeError → String
  | .unexpectedEnd position => s!"Unexpected end of data at offset {position}"
  | .invalidUtf8 position => s!"Invalid UTF-8 string at offset {position}"
  | .badMagic found expected =>
    "Bad magic 0x" ++ hexAtLeast 4 found.toNat ++ " (expected 0x" ++ hexAtLeast 4 expected.toNat
      ++ ")"
  | .invalidOffset field offset => s!"Invalid {field} offset {offset.toInt}"

/-- A position in a byte string, with the bytes from there on at hand. -/
structure Reader where
  bytes : Bytes
  size : Nat
  position : Nat
  rest : Bytes
  size_eq : size = bytes.length
  rest_eq : rest = bytes.drop position

namespace Reader

def ofBytes (bytes : Bytes) : Reader :=
  ⟨bytes, bytes.length, 0, bytes, rfl, rfl⟩

instance : Inhabited Reader := ⟨ofBytes []⟩

/-- The same bytes, read from `position` on. -/
def seek (r : Reader) (position : Nat) : Reader :=
  { r with position := position, rest := r.bytes.drop position, rest_eq := rfl }

def advance (r : Reader) (n : Nat) : Reader :=
  { r with
    position := r.position + n
    rest := r.rest.drop n
    rest_eq := by rw [r.rest_eq, List.drop_drop] }

def remaining (r : Reader) : Nat :=
  r.size - r.position

end Reader

/-- A computation that reads bytes and fails with a `DecodeError`. -/
abbrev Decoder := EStateM DecodeError Reader

namespace Decoder

/-! ## Reads -/

/-- The next `n` bytes. -/
def take (n : Nat) : Decoder Bytes := fun r =>
  if r.position + n ≤ r.size then .ok (r.rest.take n) (r.advance n)
  else .error (.unexpectedEnd r.position) r

/-- The next `width` bytes as a number. -/
def number (width : Nat) : Decoder Nat :=
  ofLittleEndian <$> take width

def u8 : Decoder UInt8 :=
  UInt8.ofNat <$> number 1

def u16 : Decoder UInt16 :=
  UInt16.ofNat <$> number 2

def i16 : Decoder Int16 :=
  UInt16.toInt16 <$> u16

def u32 : Decoder UInt32 :=
  UInt32.ofNat <$> number 4

def i32 : Decoder Int32 :=
  UInt32.toInt32 <$> u32

/-- The text up to the next zero byte, which is read as well. -/
def text : Decoder String := fun r =>
  match r.rest.dropWhile (· != 0) with
  | [] => .error (.unexpectedEnd r.position) r
  | _ :: _ =>
    let raw := r.rest.takeWhile (· != 0)
    match ofUtf8? raw with
    | none => .error (.invalidUtf8 r.position) r
    | some s => .ok s (r.advance (raw.length + 1))

/-- Move the reader to `position`, which may lie past the end. -/
def seek (position : Nat) : Decoder Unit := fun r =>
  .ok () (r.seek position)

/-! ## Repetition -/

/-- What `n` further runs of `read` give, behind the values in `acc`, which are kept last first. -/
def manyAfter {α : Type} (read : Decoder α) : Nat → List α → Decoder (List α)
  | 0, acc => pure acc.reverse
  | n + 1, acc => do
    let x ← read
    manyAfter read n (x :: acc)

/-- What `n` runs of `read` give, in order. -/
def many {α : Type} (n : Nat) (read : Decoder α) : Decoder (List α) :=
  manyAfter read n []

/-- Run a decoder on `bytes` from the first on. -/
def decode {α : Type} (read : Decoder α) (bytes : Bytes) : Except DecodeError α :=
  match read (Reader.ofBytes bytes) with
  | .ok x _ => .ok x
  | .error e _ => .error e

/-! ## A failed read moves nothing -/

theorem take_error {n : Nat} {r r' : Reader} {e : DecodeError} (h : take n r = .error e r') :
    r' = r ∧ e = .unexpectedEnd r.position := by
  simp only [take] at h
  split at h
  · cases h
  · cases h; exact ⟨rfl, rfl⟩

theorem text_error {r r' : Reader} {e : DecodeError} (h : text r = .error e r') :
    r' = r ∧ (e = .unexpectedEnd r.position ∨ e = .invalidUtf8 r.position) := by
  simp only [text] at h
  split at h
  · cases h; exact ⟨rfl, .inl rfl⟩
  · split at h
    · cases h; exact ⟨rfl, .inr rfl⟩
    · cases h

/-- Mapping the result of a read does not change where it fails. -/
theorem map_error {α β : Type} {f : α → β} {read : Decoder α} {r r' : Reader} {e : DecodeError}
    (h : (f <$> read) r = .error e r') : read r = .error e r' := by
  simp only [Functor.map, EStateM.map] at h
  split at h
  · cases h
  · next he => cases h; exact he

end Decoder

end ScriptDiag
