import Mathlib.Data.List.Infix
import ScriptDiag.Bytes.Field
import ScriptDiag.Native.Stub

/-!
# The table of stubs

The table of known stubs has a row for each way to jump: the bytes of the stub for an instruction
set, and the address that such a stub leads to (`StubRow.Describes`). Distances are signed and are
counted modulo `2 ^ 64`; addresses of 32 bits are unsigned.

No opcode of an instruction set begins another one (`StubRow.eq_of_opcode_begins`), so at most one
stub of the table begins a byte string (`StubRow.Describes.unique`). What is recognised is therefore
the table, whatever the order in which its forms are tried (`matchStub_eq_some_iff`).
-/

namespace ScriptDiag

/-! ## Reading an operand -/

namespace StubForm

variable {f : StubForm} {code : Bytes} {n : Nat}

/-- A form is recognised exactly where one of its stubs begins the code. -/
theorem operand?_eq_some_iff :
    f.operand? code = some n ↔ n < Nat.pow 256 f.width ∧ f.encode n <+: code := by
  constructor
  · intro h
    rw [operand?] at h
    generalize (code.drop f.opcode.length).take f.width = operand at h
    simp only [Option.ite_none_right_eq_some, Bool.and_eq_true, beq_iff_eq,
      List.isPrefixOf_iff_prefix, Option.some_inj] at h
    obtain ⟨⟨hbegins, hlen⟩, rfl⟩ := h
    rw [encode, ← hlen, toLittleEndian_ofLittleEndian]
    exact ⟨ofLittleEndian_lt operand, hbegins⟩
  · rintro ⟨hlt, hbegins⟩
    have hoperand : (code.drop f.opcode.length).take f.width = toLittleEndian f.width n := by
      obtain ⟨rest, rfl⟩ := hbegins
      simp [encode]
    have hvalue : ofLittleEndian (toLittleEndian f.width n) = n := by
      rw [ofLittleEndian_toLittleEndian, Nat.mod_eq_of_lt hlt]
    rw [operand?, hoperand, if_pos, hvalue]
    rw [← encode, length_toLittleEndian, List.isPrefixOf_iff_prefix.2 hbegins, beq_self_eq_true,
      Bool.and_self]

end StubForm

/-! ## The rows -/

/-- The address at a distance from `base`, modulo `2 ^ 64`. -/
def addressAt (base : Address) (distance : Int) : Address :=
  UInt64.ofInt (base.toNat + distance)

/-- The rows of the table. -/
inductive StubRow where
  | nearJump
  | shortJump
  | absoluteSlotJump
  | relativeSlotJump
  | pushReturn
  | registerJump
  | scratchRegisterJump
deriving DecidableEq

namespace StubRow

/-- What a row says of a stub at `address`: its bytes for an instruction set, and where it leads. -/
inductive Describes (address : Address) : StubRow → Abi → Bytes → StubTarget → Prop
  | nearJump {abi : Abi} (known : abi ≠ .other) (distance : Int32) :
    Describes address .nearJump abi (0xE9 :: Encode.i32 distance)
      (.direct (addressAt address (5 + distance.toInt)))
  | shortJump {abi : Abi} (known : abi ≠ .other) (distance : Int8) :
    Describes address .shortJump abi [0xEB, distance.toUInt8]
      (.direct (addressAt address (2 + distance.toInt)))
  | absoluteSlotJump (slot : UInt32) :
    Describes address .absoluteSlotJump .x86 ([0xFF, 0x25] ++ Encode.u32 slot)
      (.indirect slot.toUInt64)
  | relativeSlotJump (distance : Int32) :
    Describes address .relativeSlotJump .x86_64 ([0xFF, 0x25] ++ Encode.i32 distance)
      (.indirect (addressAt address (6 + distance.toInt)))
  | pushReturn (target : UInt32) :
    Describes address .pushReturn .x86 ([0x68] ++ Encode.u32 target ++ [0xC3])
      (.direct target.toUInt64)
  | registerJump (target : UInt64) :
    Describes address .registerJump .x86_64
      ([0x48, 0xB8] ++ toLittleEndian 8 target.toNat ++ [0xFF, 0xE0]) (.direct target)
  | scratchRegisterJump (target : UInt64) :
    Describes address .scratchRegisterJump .x86_64
      ([0x49, 0xBB] ++ toLittleEndian 8 target.toNat ++ [0x41, 0xFF, 0xE3]) (.direct target)

/-- The form that recognises the stubs of a row. -/
def form : StubRow → StubForm
  | .nearJump => .nearJump
  | .shortJump => .shortJump
  | .absoluteSlotJump => .absoluteSlotJump
  | .relativeSlotJump => .relativeSlotJump
  | .pushReturn => .pushReturn
  | .registerJump => .registerJump
  | .scratchRegisterJump => .scratchRegisterJump

/-- The rows for an instruction set. -/
def knownFor : Abi → List StubRow
  | .x86 => [.nearJump, .shortJump, .absoluteSlotJump, .pushReturn]
  | .x86_64 => [.nearJump, .shortJump, .relativeSlotJump, .registerJump, .scratchRegisterJump]
  | .other => []

theorem stubForms_eq (abi : Abi) : stubForms abi = (knownFor abi).map form := by
  cases abi <;> rfl

theorem jumps_mem_knownFor {abi : Abi} (known : abi ≠ .other) :
    nearJump ∈ knownFor abi ∧ shortJump ∈ knownFor abi := by
  cases abi with
  | x86 | x86_64 => decide
  | other => exact absurd rfl known

theorem eq_x86_of_mem_knownFor {abi : Abi} :
    absoluteSlotJump ∈ knownFor abi ∨ pushReturn ∈ knownFor abi → abi = .x86 := by
  cases abi <;> decide

theorem eq_x86_64_of_mem_knownFor {abi : Abi} :
    relativeSlotJump ∈ knownFor abi ∨ registerJump ∈ knownFor abi ∨
      scratchRegisterJump ∈ knownFor abi → abi = .x86_64 := by
  cases abi <;> decide

/-- No opcode of an instruction set begins another one. -/
theorem eq_of_opcode_begins {abi : Abi} :
    ∀ row ∈ knownFor abi, ∀ other ∈ knownFor abi,
      row.form.opcode <+: other.form.opcode → row = other := by
  cases abi <;> decide

end StubRow

/-! ### Stubs by operand -/

theorem ofInt_natCast (n : Nat) : UInt64.ofInt n = UInt64.ofNat n := by
  rw [← UInt64.toNat_inj, UInt64.ofInt]
  simp only [UInt64.toNat_ofNat']
  omega

theorem addressAt_eq (base : Address) (distance : Int) :
    addressAt base distance = base + UInt64.ofInt distance := by
  rw [addressAt, UInt64.ofInt_add, ofInt_natCast, UInt64.ofNat_toNat]

theorem addressAt_addressAt (base : Address) (m n : Int) :
    addressAt (addressAt base m) n = addressAt base (m + n) := by
  simp only [addressAt_eq, UInt64.ofInt_add, UInt64.add_assoc]

theorem exists_int32 {n : Nat} (h : n < Nat.pow 256 4) : ∃ d : Int32, d.toUInt32.toNat = n :=
  ⟨(UInt32.ofNat n).toInt32, by simpa using h⟩

theorem exists_int8 {n : Nat} (h : n < Nat.pow 256 1) : ∃ d : Int8, d.toUInt8.toNat = n :=
  ⟨(UInt8.ofNat n).toInt8, by simpa using h⟩

theorem exists_uint32 {n : Nat} (h : n < Nat.pow 256 4) : ∃ a : UInt32, a.toNat = n :=
  ⟨UInt32.ofNat n, by simpa using h⟩

theorem exists_uint64 {n : Nat} (h : n < Nat.pow 256 8) : ∃ a : UInt64, a.toNat = n :=
  ⟨UInt64.ofNat n, by simpa using h⟩

namespace StubForm

variable (address : Address)

/-- A distance is counted from the end of the instruction, which has `length` bytes. -/
theorem add_signed32 (length : Nat) (d : Int32) :
    address + UInt64.ofNat length + signed32 d.toUInt32.toNat =
      addressAt address (length + d.toInt) := by
  have hsigned : signed32 d.toUInt32.toNat = UInt64.ofInt d.toInt := by simp [signed32]
  rw [hsigned, addressAt_eq, UInt64.ofInt_add, ofInt_natCast, UInt64.add_assoc]

theorem add_signed8 (length : Nat) (d : Int8) :
    address + UInt64.ofNat length + signed8 d.toUInt8.toNat =
      addressAt address (length + d.toInt) := by
  have hsigned : signed8 d.toUInt8.toNat = UInt64.ofInt d.toInt := by simp [signed8]
  rw [hsigned, addressAt_eq, UInt64.ofInt_add, ofInt_natCast, UInt64.add_assoc]

theorem encode_nearJump (d : Int32) :
    nearJump.encode d.toUInt32.toNat = 0xE9 :: Encode.i32 d :=
  List.append_nil _

theorem target_nearJump (d : Int32) :
    nearJump.target address d.toUInt32.toNat = .direct (addressAt address (5 + d.toInt)) :=
  congrArg StubTarget.direct (add_signed32 address 5 d)

theorem encode_shortJump (d : Int8) :
    shortJump.encode d.toUInt8.toNat = [0xEB, d.toUInt8] := by
  simp [encode, shortJump, toLittleEndian]

theorem target_shortJump (d : Int8) :
    shortJump.target address d.toUInt8.toNat = .direct (addressAt address (2 + d.toInt)) :=
  congrArg StubTarget.direct (add_signed8 address 2 d)

theorem encode_absoluteSlotJump (slot : UInt32) :
    absoluteSlotJump.encode slot.toNat = [0xFF, 0x25] ++ Encode.u32 slot :=
  List.append_nil _

theorem target_absoluteSlotJump (slot : UInt32) :
    absoluteSlotJump.target address slot.toNat = .indirect slot.toUInt64 := by
  simp [absoluteSlotJump]

theorem encode_relativeSlotJump (d : Int32) :
    relativeSlotJump.encode d.toUInt32.toNat = [0xFF, 0x25] ++ Encode.i32 d :=
  List.append_nil _

theorem target_relativeSlotJump (d : Int32) :
    relativeSlotJump.target address d.toUInt32.toNat =
      .indirect (addressAt address (6 + d.toInt)) :=
  congrArg StubTarget.indirect (add_signed32 address 6 d)

theorem target_pushReturn (target : UInt32) :
    pushReturn.target address target.toNat = .direct target.toUInt64 := by
  simp [pushReturn]

theorem target_registerJump (target : UInt64) :
    registerJump.target address target.toNat = .direct target := by
  simp [registerJump]

theorem target_scratchRegisterJump (target : UInt64) :
    scratchRegisterJump.target address target.toNat = .direct target := by
  simp [scratchRegisterJump]

end StubForm

namespace StubRow

variable {row other : StubRow} {abi : Abi} {address : Address} {code stub stub' : Bytes}
  {t t' : StubTarget} {n : Nat}

open StubForm in
/-- What a row describes is what its form encodes. -/
theorem Describes.exists_operand (h : row.Describes address abi stub t) :
    row ∈ knownFor abi ∧ ∃ n < Nat.pow 256 row.form.width,
      row.form.encode n = stub ∧ row.form.target address n = t := by
  cases h with
  | nearJump known d =>
    exact ⟨(jumps_mem_knownFor known).1, _, d.toUInt32.toNat_lt, encode_nearJump d,
      target_nearJump address d⟩
  | shortJump known d =>
    exact ⟨(jumps_mem_knownFor known).2, _, d.toUInt8.toNat_lt, encode_shortJump d,
      target_shortJump address d⟩
  | absoluteSlotJump slot =>
    exact ⟨by decide, _, slot.toNat_lt, encode_absoluteSlotJump slot,
      target_absoluteSlotJump address slot⟩
  | relativeSlotJump d =>
    exact ⟨by decide, _, d.toUInt32.toNat_lt, encode_relativeSlotJump d,
      target_relativeSlotJump address d⟩
  | pushReturn target =>
    exact ⟨by decide, _, target.toNat_lt, rfl, target_pushReturn address target⟩
  | registerJump target =>
    exact ⟨by decide, _, target.toNat_lt, rfl, target_registerJump address target⟩
  | scratchRegisterJump target =>
    exact ⟨by decide, _, target.toNat_lt, rfl, target_scratchRegisterJump address target⟩

open StubForm in
/-- What the form of a row encodes is what the row describes. -/
theorem describes_form (hrow : row ∈ knownFor abi) (hn : n < Nat.pow 256 row.form.width) :
    row.Describes address abi (row.form.encode n) (row.form.target address n) := by
  have known : abi ≠ .other := by
    rintro rfl
    exact List.not_mem_nil hrow
  cases row with
  | nearJump =>
    obtain ⟨d, rfl⟩ := exists_int32 hn
    rw [form, encode_nearJump, target_nearJump]
    exact .nearJump known d
  | shortJump =>
    obtain ⟨d, rfl⟩ := exists_int8 hn
    rw [form, encode_shortJump, target_shortJump]
    exact .shortJump known d
  | absoluteSlotJump =>
    obtain rfl := eq_x86_of_mem_knownFor (.inl hrow)
    obtain ⟨slot, rfl⟩ := exists_uint32 hn
    rw [form, encode_absoluteSlotJump, target_absoluteSlotJump]
    exact .absoluteSlotJump slot
  | relativeSlotJump =>
    obtain rfl := eq_x86_64_of_mem_knownFor (.inl hrow)
    obtain ⟨d, rfl⟩ := exists_int32 hn
    rw [form, encode_relativeSlotJump, target_relativeSlotJump]
    exact .relativeSlotJump d
  | pushReturn =>
    obtain rfl := eq_x86_of_mem_knownFor (.inr hrow)
    obtain ⟨target, rfl⟩ := exists_uint32 hn
    rw [form, target_pushReturn]
    exact .pushReturn target
  | registerJump =>
    obtain rfl := eq_x86_64_of_mem_knownFor (.inr (.inl hrow))
    obtain ⟨target, rfl⟩ := exists_uint64 hn
    rw [form, target_registerJump]
    exact .registerJump target
  | scratchRegisterJump =>
    obtain rfl := eq_x86_64_of_mem_knownFor (.inr (.inr hrow))
    obtain ⟨target, rfl⟩ := exists_uint64 hn
    rw [form, target_scratchRegisterJump]
    exact .scratchRegisterJump target

/-! ## At most one stub -/

/-- Of two stubs that begin the same code, none is another one. -/
theorem Describes.unique (h : row.Describes address abi stub t)
    (h' : other.Describes address abi stub' t') (hcode : stub <+: code) (hcode' : stub' <+: code) :
    row = other ∧ stub = stub' ∧ t = t' := by
  obtain ⟨hrow, n, hn, rfl, rfl⟩ := h.exists_operand
  obtain ⟨hother, m, hm, rfl, rfl⟩ := h'.exists_operand
  have hopcode : ∀ (f : StubForm) (n : Nat), f.opcode <+: f.encode n := fun f n => by
    rw [StubForm.encode, List.append_assoc]
    exact List.prefix_append _ _
  have hopcodes := List.prefix_or_prefix_of_prefix ((hopcode _ n).trans hcode)
    ((hopcode _ m).trans hcode')
  obtain rfl : row = other := by
    obtain hbegins | hbegins := hopcodes
    · exact eq_of_opcode_begins row hrow other hother hbegins
    · exact (eq_of_opcode_begins other hother row hrow hbegins).symm
  -- both operands are read off the same bytes
  have hread := StubForm.operand?_eq_some_iff.2 ⟨hn, hcode⟩
  rw [StubForm.operand?_eq_some_iff.2 ⟨hm, hcode'⟩, Option.some_inj] at hread
  subst hread
  exact ⟨rfl, rfl, rfl⟩

end StubRow

/-! ## Recognition -/

section Recognition

variable {abi : Abi} {address : Address} {code : Bytes} {t : StubTarget}

theorem matchStub_eq (abi : Abi) (address : Address) (code : Bytes) :
    matchStub abi address code = (StubRow.knownFor abi).findSome? fun row =>
      (row.form.operand? code).map (row.form.target address) := by
  rw [matchStub, StubRow.stubForms_eq, List.findSome?_map]
  rfl

/-- What is recognised is the table. -/
theorem matchStub_eq_some_iff :
    matchStub abi address code = some t ↔
      ∃ row stub, StubRow.Describes address row abi stub t ∧ stub <+: code := by
  have hsound : ∀ {t}, matchStub abi address code = some t →
      ∃ row stub, StubRow.Describes address row abi stub t ∧ stub <+: code := by
    intro t h
    rw [matchStub_eq] at h
    obtain ⟨row, hrow, hform⟩ := List.exists_of_findSome?_eq_some h
    obtain ⟨n, hread, rfl⟩ := Option.map_eq_some_iff.1 hform
    obtain ⟨hn, hcode⟩ := StubForm.operand?_eq_some_iff.1 hread
    exact ⟨row, _, StubRow.describes_form hrow hn, hcode⟩
  refine ⟨hsound, ?_⟩
  rintro ⟨row, stub, h, hcode⟩
  obtain ⟨hrow, n, hn, rfl, -⟩ := h.exists_operand
  have hfound : (matchStub abi address code).isSome := by
    rw [matchStub_eq, List.findSome?_isSome_iff]
    exact ⟨row, hrow, by simp [StubForm.operand?_eq_some_iff.2 ⟨hn, hcode⟩]⟩
  -- the search may have come upon another row first, but no other one fits
  obtain ⟨found, hmatch⟩ := Option.isSome_iff_exists.1 hfound
  obtain ⟨other, stub', h', hcode'⟩ := hsound hmatch
  obtain ⟨-, -, rfl⟩ := h'.unique h hcode' hcode
  exact hmatch

/-- The instruction set tells how the operand is to be taken. -/
example :
    matchStub .x86 0x1000 [0xFF, 0x25, 0xFA, 0xFF, 0xFF, 0xFF] = some (.indirect 0xFFFFFFFA) ∧
    matchStub .x86_64 0x1000 [0xFF, 0x25, 0xFA, 0xFF, 0xFF, 0xFF] = some (.indirect 0x1000) := by
  decide

theorem matchStub_of_describes {row : StubRow} (h : row.Describes address abi code t) :
    matchStub abi address code = some t :=
  matchStub_eq_some_iff.2 ⟨row, code, h, List.prefix_refl code⟩

/-- What follows a stub does not matter. -/
theorem matchStub_append (h : matchStub abi address code = some t) (more : Bytes) :
    matchStub abi address (code ++ more) = some t := by
  obtain ⟨row, stub, hstub, hcode⟩ := matchStub_eq_some_iff.1 h
  exact matchStub_eq_some_iff.2 ⟨row, stub, hstub, hcode.trans (List.prefix_append _ _)⟩

/-- A stub that lacks its end is none. -/
theorem matchStub_cut {row : StubRow} {stub cut : Bytes}
    (h : row.Describes address abi stub t) (hcut : cut <+: stub) (hne : cut ≠ stub) :
    matchStub abi address cut = none := by
  by_contra hsome
  obtain ⟨t', ht'⟩ := Option.ne_none_iff_exists'.1 hsome
  obtain ⟨other, stub', h', hstub'⟩ := matchStub_eq_some_iff.1 ht'
  obtain ⟨-, rfl, -⟩ := h'.unique h (hstub'.trans hcut) (List.prefix_refl _)
  exact hne (hcut.eq_of_length_le hstub'.length_le)

end Recognition

/-! ## Assembling jumps -/

/-- The jump from `address` to `target` by a distance of 32 bits. -/
def assembleNearJump (address target : Address) : Bytes :=
  0xE9 :: Encode.i32 (target - (address + 5)).toInt64.toInt32

/-- The jump from `address` to `target` by a distance of 8 bits. -/
def assembleShortJump (address target : Address) : Bytes :=
  [0xEB, (target - (address + 2)).toInt64.toInt8.toUInt8]

/-- `target` is reached from `base` by a signed distance of that many bits. -/
def InReach (bits : Nat) (base target : Address) : Prop :=
  ∃ distance : Int, -(Nat.pow 2 (bits - 1) : Nat) ≤ distance ∧
    distance < (Nat.pow 2 (bits - 1) : Nat) ∧ target = addressAt base distance

theorem toInt64_addressAt_sub (base : Address) (distance : Int) :
    (addressAt base distance - base).toInt64 = Int64.ofInt distance := by
  have hsub : addressAt base distance - base = UInt64.ofInt distance := by
    rw [addressAt_eq, UInt64.add_comm, UInt64.add_sub_cancel]
  have hnonneg : 0 ≤ distance % 2 ^ 64 := Int.emod_nonneg _ (by decide)
  rw [hsub, UInt64.ofInt, UInt64.toInt64_ofNat', ← Int64.ofInt_eq_ofNat,
    Int.toNat_of_nonneg hnonneg, ← Int64.toInt_inj, Int64.toInt_ofInt, Int64.toInt_ofInt]
  exact Int.emod_bmod _ _

theorem addressAt_end (address : Address) (length : Nat) (distance : Int) :
    addressAt (address + UInt64.ofNat length) distance = addressAt address (length + distance) := by
  rw [← ofInt_natCast, ← addressAt_eq, addressAt_addressAt]

theorem describes_assembleNearJump {abi : Abi} {address target : Address} (known : abi ≠ .other)
    (h : InReach 32 (address + 5) target) :
    StubRow.Describes address .nearJump abi (assembleNearJump address target) (.direct target) := by
  obtain ⟨d, hlow, hhigh, rfl⟩ := h
  have htarget : addressAt (address + 5) d = addressAt address (5 + (Int32.ofInt d).toInt) := by
    rw [Int32.toInt_ofInt_of_le hlow hhigh]
    exact addressAt_end address 5 d
  rw [assembleNearJump, toInt64_addressAt_sub, Int64.toInt32_ofInt, htarget]
  exact .nearJump known _

theorem describes_assembleShortJump {abi : Abi} {address target : Address} (known : abi ≠ .other)
    (h : InReach 8 (address + 2) target) :
    StubRow.Describes address .shortJump abi (assembleShortJump address target)
      (.direct target) := by
  obtain ⟨d, hlow, hhigh, rfl⟩ := h
  have htarget : addressAt (address + 2) d = addressAt address (2 + (Int8.ofInt d).toInt) := by
    rw [Int8.toInt_ofInt_of_le hlow hhigh]
    exact addressAt_end address 2 d
  rw [assembleShortJump, toInt64_addressAt_sub, Int64.toInt8_ofInt, htarget]
  exact .shortJump known _

/-- **Stubs are recognised by the table.** A byte string at an address is taken for a stub exactly
if a stub of a row begins it, and then for one that leads where that row says. At most one row fits,
so what follows a stub does not matter, and no part of a stub that lacks its end is taken for one.
No stub is known for other instruction sets. A jump assembled to lead to a target in reach is
recognised as leading there. -/
theorem matchStub_follows_table (abi : Abi) (address : Address) :
    (∀ code t, matchStub abi address code = some t ↔
      ∃ row stub, StubRow.Describes address row abi stub t ∧ stub <+: code) ∧
    (∀ code row stub t other stub' t', StubRow.Describes address row abi stub t → stub <+: code →
      StubRow.Describes address other abi stub' t' → stub' <+: code →
        row = other ∧ stub = stub' ∧ t = t') ∧
    (∀ code more t, matchStub abi address code = some t →
      matchStub abi address (code ++ more) = some t) ∧
    (∀ row stub t cut, StubRow.Describes address row abi stub t → cut <+: stub → cut ≠ stub →
      matchStub abi address cut = none) ∧
    (∀ code, matchStub .other address code = none) ∧
    (abi ≠ .other → ∀ target more,
      (InReach 32 (address + 5) target →
        matchStub abi address (assembleNearJump address target ++ more) = some (.direct target)) ∧
      (InReach 8 (address + 2) target →
        matchStub abi address (assembleShortJump address target ++ more) =
          some (.direct target))) := by
  refine ⟨fun code t => matchStub_eq_some_iff, ?unique, ?append, ?cut, fun code => rfl, ?assembled⟩
  case unique =>
    exact fun code row stub t other stub' t' h hcode h' hcode' => h.unique h' hcode hcode'
  case append => exact fun code more t h => matchStub_append h more
  case cut => exact fun row stub t cut h hcut hne => matchStub_cut h hcut hne
  case assembled =>
    intro known target more
    constructor
    · intro hreach
      exact matchStub_append
        (matchStub_of_describes (describes_assembleNearJump known hreach)) more
    · intro hreach
      exact matchStub_append
        (matchStub_of_describes (describes_assembleShortJump known hreach)) more

end ScriptDiag
