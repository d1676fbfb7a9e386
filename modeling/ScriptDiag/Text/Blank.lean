/-!
# Blanks, words and lines

The blank characters are those with the Unicode property `White_Space`. Lines end at a line
feed, with one carriage return before it taken along.

`isBlank_of_isWhitespace` says that every character the core library calls white space is a
blank; the converse fails, for instance at the no-break space.
-/

namespace ScriptDiag

/-- The code points with the Unicode property `White_Space`. -/
def blankCodePoints : List Nat :=
  [0x9, 0xA, 0xB, 0xC, 0xD, 0x20, 0x85, 0xA0, 0x1680,
   0x2000, 0x2001, 0x2002, 0x2003, 0x2004, 0x2005, 0x2006, 0x2007, 0x2008, 0x2009, 0x200A,
   0x2028, 0x2029, 0x202F, 0x205F, 0x3000]

/-- Whether `c` has the property `White_Space`. -/
def isBlank (c : Char) : Bool :=
  blankCodePoints.contains c.toNat

theorem isBlank_of_isWhitespace {c : Char} (h : c.isWhitespace = true) : isBlank c = true := by
  simp only [Char.isWhitespace, Bool.or_eq_true, decide_eq_true_eq] at h
  rcases h with ((h | h) | h) | h <;> subst h <;> decide

/-- `cs` without the blanks at both ends. -/
def trimBlanks (cs : List Char) : List Char :=
  ((cs.dropWhile isBlank).reverse.dropWhile isBlank).reverse

/-- The first word of `cs` and what follows the blank that ends it, if a blank does. -/
def splitAtBlank (cs : List Char) : List Char × Option (List Char) :=
  match cs.dropWhile (fun c => !isBlank c) with
  | [] => (cs, none)
  | _ :: rest => (cs.takeWhile (fun c => !isBlank c), some rest)

/-- The pieces of `cs` between the characters satisfying `p`, empty pieces included. -/
def splitAll (p : Char → Bool) : List Char → List (List Char)
  | [] => [[]]
  | c :: cs =>
    if p c then [] :: splitAll p cs
    else match splitAll p cs with
      | [] => [[c]]
      | piece :: pieces => (c :: piece) :: pieces

/-- The non-empty pieces of `cs` between blanks. -/
def words (cs : List Char) : List (List Char) :=
  (splitAll isBlank cs).filter fun piece => !piece.isEmpty

/-- `cs` without a carriage return at its end. -/
def dropLastReturn (cs : List Char) : List Char :=
  if cs.getLast? = some '\r' then cs.dropLast else cs

/-- The lines of a text. Each ends with a line feed, which is dropped together with a carriage
return right before it; the last line may lack its end and is then kept as it stands. -/
def lines (cs : List Char) : List (List Char) :=
  let pieces := splitAll (· == '\n') cs
  let ended := pieces.dropLast.map dropLastReturn
  match pieces.getLast? with
  | some [] | none => ended
  | some unended => ended ++ [unended]

end ScriptDiag
