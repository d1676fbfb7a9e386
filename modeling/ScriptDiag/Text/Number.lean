/-!
# Reading unsigned numbers

`readUnsigned? base limit` reads a whole text as a number below `limit`: digits in the given base,
of either case, behind at most one plus sign.
-/

namespace ScriptDiag

/-- The value of an ASCII digit or letter as a digit in a base up to 36. -/
def digitValue? (base : Nat) (c : Char) : Option Nat :=
  let value? :=
    if '0' ≤ c ∧ c ≤ '9' then some (c.toNat - '0'.toNat)
    else if 'a' ≤ c ∧ c ≤ 'z' then some (c.toNat - 'a'.toNat + 10)
    else if 'A' ≤ c ∧ c ≤ 'Z' then some (c.toNat - 'A'.toNat + 10)
    else none
  value?.filter fun n => n < base

/-- The number written by the digits `cs` behind others worth `acc`. -/
def digitsValue? (base : Nat) : Nat → List Char → Option Nat
  | acc, [] => some acc
  | acc, c :: cs =>
    match digitValue? base c with
    | some d => digitsValue? base (acc * base + d) cs
    | none => none

/-- The number below `limit` that `cs` write in the given base. -/
def readUnsigned? (base limit : Nat) (cs : List Char) : Option Nat :=
  let digits := if cs.head? = some '+' then cs.tail else cs
  if digits.isEmpty then none
  else (digitsValue? base 0 digits).filter fun n => n < limit

end ScriptDiag
