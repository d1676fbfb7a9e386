/-!
# Hexadecimal text

Numbers in reports are written in base sixteen with lower-case digits. `hex` writes the digits
alone, `hexAtLeast` pads them with zeros, and `prefixedHex` puts `0x` in front.
-/

namespace ScriptDiag

/-- The lower-case base-sixteen digits of `n`, without leading zeros. -/
def hex (n : Nat) : String :=
  String.ofList (Nat.toDigits 16 n)

/-- `hex n`, padded with zeros on the left to at least `width` digits. -/
def hexAtLeast (width n : Nat) : String :=
  String.ofList ((Nat.toDigits 16 n).leftpad width '0')

def prefixedHex (n : Nat) : String :=
  "0x" ++ hex n

end ScriptDiag
