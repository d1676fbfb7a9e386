import ScriptDiag.Native.Stub
import ScriptDiag.Proofs.ReadableBytes

/-!
# Following stubs

Stubs are followed from address to address, one hop at a time (`IsHop`), until there is no hop from
where one has come, for one of four reasons (`IsFinal`), or the hops allowed have been made. Such an
address is left by no hop, so asking again changes nothing, however many hops are allowed.

Where the code is read from readable ranges, each hop looks at readable bytes only: a stub and a
pointer count as far as they lie in the ranges. What the memory holds elsewhere makes no difference.
-/

namespace ScriptDiag

variable {read : CodeReader} {abi : Abi} {address target : Address} {m n : Nat}

/-! ## One hop -/

/-- Following the stub leads to `target`: the stub names it, or it is the pointer in the stub's slot
and all bytes of that can be read. -/
def StubTarget.LeadsTo (read : CodeReader) (abi : Abi) : StubTarget → Address → Prop
  | .direct address, target => address = target
  | .indirect slot, target =>
    abi.pointerSize ≤ (read slot abi.pointerSize).length ∧
      UInt64.ofNat (ofLittleEndian (read slot abi.pointerSize)) = target

/-- A stub is found at `address`. -/
def StubAt (read : CodeReader) (abi : Abi) (address : Address) (stub : StubTarget) : Prop :=
  matchStub abi address (read address stubPrefixLength) = some stub

/-- A stub at `address` leads to `target`, which is somewhere else. -/
structure IsHop (read : CodeReader) (abi : Abi) (address target : Address) : Prop where
  leads : ∃ stub, StubAt read abi address stub ∧ stub.LeadsTo read abi target
  somewhere : target ≠ 0
  elsewhere : target ≠ address

/-- Why no stub can be followed from `address`. -/
inductive IsFinal (read : CodeReader) (abi : Abi) (address : Address) : Prop where
  | noStub (h : ∀ stub, ¬ StubAt read abi address stub)
  | cutSlot {slot : Address} (h : StubAt read abi address (.indirect slot))
    (short : (read slot abi.pointerSize).length < abi.pointerSize)
  | nowhere {stub : StubTarget} (h : StubAt read abi address stub)
    (leads : stub.LeadsTo read abi 0)
  | itself {stub : StubTarget} (h : StubAt read abi address stub)
    (leads : stub.LeadsTo read abi address)

theorem StubTarget.LeadsTo.unique {stub : StubTarget} {other : Address}
    (h : stub.LeadsTo read abi target) (h' : stub.LeadsTo read abi other) : target = other := by
  cases stub with
  | direct _ => exact h.symm.trans h'
  | indirect _ => exact h.2.symm.trans h'.2

theorem StubAt.unique {stub other : StubTarget} (h : StubAt read abi address stub)
    (h' : StubAt read abi address other) : stub = other :=
  Option.some_inj.1 (h.symm.trans h')

theorem StubAt.isHop_iff {stub : StubTarget} (h : StubAt read abi address stub) :
    IsHop read abi address target ↔
      stub.LeadsTo read abi target ∧ target ≠ 0 ∧ target ≠ address := by
  constructor
  · rintro ⟨⟨other, hother, hleads⟩, hzero, hself⟩
    obtain rfl := h.unique hother
    exact ⟨hleads, hzero, hself⟩
  · exact fun ⟨hleads, hzero, hself⟩ => ⟨⟨stub, h, hleads⟩, hzero, hself⟩

theorem IsFinal.not_isHop (h : IsFinal read abi address) : ¬ IsHop read abi address target := by
  intro hhop
  cases h with
  | noStub h =>
    obtain ⟨stub, hstub, -⟩ := hhop.leads
    exact h stub hstub
  | cutSlot h short =>
    obtain ⟨⟨hfull, -⟩, -⟩ := h.isHop_iff.1 hhop
    omega
  | nowhere h leads =>
    obtain ⟨hleads, hzero, -⟩ := h.isHop_iff.1 hhop
    exact hzero (hleads.unique leads)
  | itself h leads =>
    obtain ⟨hleads, -, hself⟩ := h.isHop_iff.1 hhop
    exact hself (hleads.unique leads)

theorem isFinal_of_not_isHop (h : ∀ target, ¬ IsHop read abi address target) :
    IsFinal read abi address := by
  by_cases hstub : ∃ stub, StubAt read abi address stub
  · obtain ⟨stub, hstub⟩ := hstub
    by_cases hleads : ∃ target, stub.LeadsTo read abi target
    · obtain ⟨target, hleads⟩ := hleads
      by_cases hzero : target = 0
      · exact .nowhere hstub (hzero ▸ hleads)
      by_cases hself : target = address
      · exact .itself hstub (hself ▸ hleads)
      exact absurd (hstub.isHop_iff.2 ⟨hleads, hzero, hself⟩) (h target)
    · cases stub with
      | direct t => exact absurd ⟨t, rfl⟩ hleads
      | indirect slot => exact .cutSlot hstub (Nat.not_le.1 fun hfull => hleads ⟨_, hfull, rfl⟩)
  · exact .noStub fun stub h => hstub ⟨stub, h⟩

theorem readPointer?_eq_some_iff {slot : Address} : readPointer? read abi slot = some target ↔
    (StubTarget.indirect slot).LeadsTo read abi target := by
  rw [readPointer?, StubTarget.LeadsTo]
  split
  case isTrue hshort => exact iff_of_false nofun fun h => Nat.not_lt.2 h.1 hshort
  case isFalse hfull => rw [Option.some_inj, and_iff_right (Nat.not_lt.1 hfull)]

theorem hop?_eq_some_iff : hop? read abi address = some target ↔ IsHop read abi address target := by
  rw [hop?]
  cases hmatch : matchStub abi address (read address stubPrefixLength) with
  | none =>
    refine iff_of_false nofun fun ⟨⟨stub, hstub, _⟩, _, _⟩ => ?_
    exact Option.some_ne_none stub (hstub.symm.trans hmatch)
  | some stub =>
    rw [StubAt.isHop_iff hmatch, Option.filter_eq_some_iff, Bool.and_eq_true, bne_iff_ne,
      bne_iff_ne]
    refine and_congr_left' ?_
    cases stub with
    | direct address => exact Option.some_inj
    | indirect slot => exact readPointer?_eq_some_iff

theorem hop?_eq_none_iff : hop? read abi address = none ↔ IsFinal read abi address := by
  rw [Option.eq_none_iff_forall_ne_some]
  constructor
  · exact fun h => isFinal_of_not_isHop fun target hhop => h target (hop?_eq_some_iff.2 hhop)
  · exact fun h target hhop => h.not_isHop (hop?_eq_some_iff.1 hhop)

/-! ## Several hops -/

/-- `target` is reached from `address` by `n` hops. -/
inductive Hops (read : CodeReader) (abi : Abi) : (n : Nat) → (address target : Address) → Prop
  | none {address : Address} : Hops read abi 0 address address
  | some {n : Nat} {address next target : Address} (first : IsHop read abi address next)
    (rest : Hops read abi n next target) : Hops read abi (n + 1) address target

theorem Hops.eq_zero (h : Hops read abi n address target) (hzero : target = 0) :
    address = 0 := by
  induction h with
  | none => exact hzero
  | some first _ ih => exact absurd (ih hzero) first.somewhere

theorem resolveJump_of_isHop (h : IsHop read abi address target) (hops : Nat) :
    resolveJump read abi (hops + 1) address = resolveJump read abi hops target := by
  rw [resolveJump, hop?_eq_some_iff.2 h]

/-- Final addresses are kept. -/
theorem IsFinal.resolveJump_eq (h : IsFinal read abi address) (hops : Nat) :
    resolveJump read abi hops address = address := by
  cases hops with
  | zero => rfl
  | succ hops => rw [resolveJump, hop?_eq_none_iff.2 h]

theorem isFinal_or_exists_isHop (read : CodeReader) (abi : Abi) (address : Address) :
    IsFinal read abi address ∨ ∃ next, IsHop read abi address next := by
  rw [← hop?_eq_none_iff]
  cases hhop : hop? read abi address with
  | none => exact .inl rfl
  | some next => exact .inr ⟨next, hop?_eq_some_iff.1 hhop⟩

theorem resolveJump_add (m n : Nat) (address : Address) :
    resolveJump read abi (m + n) address =
      resolveJump read abi n (resolveJump read abi m address) := by
  induction m generalizing address with
  | zero => rw [Nat.zero_add, resolveJump]
  | succ m ih =>
    obtain hfinal | ⟨next, hhop⟩ := isFinal_or_exists_isHop read abi address
    · simp only [hfinal.resolveJump_eq]
    · rw [Nat.add_right_comm, resolveJump_of_isHop hhop, ih, resolveJump_of_isHop hhop]

theorem exists_hops (read : CodeReader) (abi : Abi) (m : Nat) (address : Address) :
    ∃ made ≤ m, Hops read abi made address (resolveJump read abi m address) ∧
      (made < m → IsFinal read abi (resolveJump read abi m address)) := by
  induction m generalizing address with
  | zero => exact ⟨0, Nat.le_refl 0, .none, nofun⟩
  | succ m ih =>
    obtain hfinal | ⟨next, hhop⟩ := isFinal_or_exists_isHop read abi address
    · rw [hfinal.resolveJump_eq]
      exact ⟨0, Nat.zero_le _, .none, fun _ => hfinal⟩
    · obtain ⟨made, hle, hhops, hstop⟩ := ih next
      rw [resolveJump_of_isHop hhop]
      exact ⟨made + 1, Nat.succ_le_succ hle, .some hhop hhops,
        fun hlt => hstop (Nat.lt_of_succ_lt_succ hlt)⟩

/-- **Stubs are followed hop by hop.** Whatever a reader finds, to allow `m + n` hops is to allow
`m` and then `n` more. At most `m` hops are made; if fewer, there is no hop from the address
reached, and however many are allowed there, it is kept. Zero is reached from zero only. -/
theorem resolveJump_follows_hops (read : CodeReader) (abi : Abi) (address : Address) (m : Nat) :
    (∀ n, resolveJump read abi (m + n) address =
      resolveJump read abi n (resolveJump read abi m address)) ∧
    (∃ made ≤ m, Hops read abi made address (resolveJump read abi m address) ∧
      (made < m → IsFinal read abi (resolveJump read abi m address) ∧
        ∀ limit, resolveJump read abi limit (resolveJump read abi m address) =
          resolveJump read abi m address)) ∧
    (resolveJump read abi m address = 0 → address = 0) := by
  obtain ⟨made, hle, hhops, hstop⟩ := exists_hops read abi m address
  refine ⟨fun n => resolveJump_add m n address, ⟨made, hle, hhops, fun hlt => ?_⟩, fun hzero => ?_⟩
  · exact ⟨hstop hlt, (hstop hlt).resolveJump_eq⟩
  · exact hhops.eq_zero hzero

/-! ## Reading from ranges -/

namespace ReadableRanges

/-- A read from the ranges given sees nothing of the memory outside them. -/
theorem read_eq_of_agree {given : List AddressRange} {memory other : Address → UInt8}
    (h : ∀ address : Address, IsReadable given address.toNat → memory address = other address) :
    (ofRanges given).read memory = (ofRanges given).read other := by
  have hstored := wellFormed_ofRanges given
  funext address length
  obtain ⟨n, hrun⟩ := hstored.exists_runsFor address.toNat
  rw [ReadableRanges.read, ReadableRanges.read, hstored.readableLength_eq hrun]
  refine List.map_congr_left fun i hi => h _ ?_
  have hlt : i < n := Nat.lt_of_lt_of_le (List.mem_range.1 hi) (Nat.min_le_right _ _)
  rw [hrun.toNat_add hlt, ← isReadable_ofRanges_iff]
  exact hrun.1 i hlt

/-- **Following stubs is confined to the readable ranges.** If two memories agree on all bytes of
the ranges given, then from every address the same address is reached in both, wherever the stubs,
their targets and their slots lie. -/
theorem resolveJump_of_agree {given : List AddressRange} {memory other : Address → UInt8}
    (h : ∀ address : Address, IsReadable given address.toNat → memory address = other address)
    (abi : Abi) (hops : Nat) (address : Address) :
    resolveJump ((ofRanges given).read memory) abi hops address =
      resolveJump ((ofRanges given).read other) abi hops address := by
  rw [read_eq_of_agree h]

/-- At `0x1000` a jump to `0x1006`, there a jump by the slot at `0x100C`, and there the first three
bytes of a pointer. All other bytes are `filling`. -/
def cutSlotMemory (filling : UInt8) (address : Address) : UInt8 :=
  let bytes : Bytes := [0xE9, 1, 0, 0, 0, 0x90, 0xFF, 0x25, 0, 0, 0, 0, 0x34, 0x12, 0]
  (bytes[(address - 0x1000).toNat]?).getD filling

/-- Ranges that end with those three bytes of the pointer. -/
def cutSlotRanges : List AddressRange :=
  [⟨0x1006, 0x100F⟩, ⟨0x2000, 0x2000⟩, ⟨0x1000, 0x1008⟩]

theorem cutSlot_stops_at_stub :
    (∀ address : Address, IsReadable cutSlotRanges address.toNat →
      cutSlotMemory 0 address = cutSlotMemory 0x77 address) ∧
    resolveJump ((ofRanges cutSlotRanges).read (cutSlotMemory 0)) .x86_64 8 0x1000 = 0x1006 ∧
    resolveJump ((ofRanges cutSlotRanges).read (cutSlotMemory 0x77)) .x86_64 8 0x1000 = 0x1006 := by
  have hagree : ∀ address : Address, IsReadable cutSlotRanges address.toNat →
      cutSlotMemory 0 address = cutSlotMemory 0x77 address := by
    rintro address ⟨r, hr, hlow, hhigh⟩
    have hbounds : 0x1000 ≤ address.toNat ∧ address.toNat < 0x100F := by
      simp only [cutSlotRanges, List.mem_cons, List.not_mem_nil, or_false] at hr
      obtain rfl | rfl | rfl := hr
      all_goals
        simp at hlow hhigh
        omega
    have hle : (0x1000 : Address) ≤ address := UInt64.le_iff_toNat_le.2 hbounds.1
    have hlt : (address - 0x1000).toNat < 15 := by
      rw [UInt64.toNat_sub_of_le _ _ hle]
      simp
      omega
    rw [cutSlotMemory, cutSlotMemory, List.getElem?_eq_getElem hlt]
    rfl
  have hjoined : ofRanges cutSlotRanges = [⟨0x1000, 0x100F⟩] := by
    have hlonger : max (0x1008 : Address) 0x100F = 0x100F := by decide
    simp [ofRanges, cutSlotRanges, List.mergeSort, List.MergeSort.Internal.splitInTwo, joinTo,
      hlonger]
  have hreached : resolveJump ((ofRanges cutSlotRanges).read (cutSlotMemory 0)) .x86_64 8 0x1000 =
      0x1006 := by
    rw [hjoined]
    decide +kernel
  refine ⟨hagree, hreached, ?_⟩
  rw [← resolveJump_of_agree hagree, hreached]

end ReadableRanges

end ScriptDiag
