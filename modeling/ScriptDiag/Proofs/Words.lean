import Mathlib.Data.List.TakeWhile
import ScriptDiag.Text.Blank

/-!
# Words and lines of written text

What `words` and `lines` find in text that is put together from words and blanks, or from ended
lines. Both cut the text with `splitAll`, which is `List.splitOnP`.
-/

namespace ScriptDiag

variable {c : Char} {cs word : List Char}

theorem splitAll_eq_splitOnP (p : Char → Bool) (cs : List Char) :
    splitAll p cs = cs.splitOnP p := by
  induction cs with
  | nil => rfl
  | cons c cs ih =>
    rw [splitAll, List.splitOnP_cons_eq_if_modifyHead, ih]
    cases hpieces : cs.splitOnP p with
    | nil => exact absurd hpieces (List.splitOnP_ne_nil p cs)
    | cons piece pieces => rfl

/-! ## Words -/

/-- A word is not empty, and has no blank in it. -/
def IsWord (word : List Char) : Prop :=
  word ≠ [] ∧ ∀ c ∈ word, isBlank c = false

/-- The part of `cs` in front of its first blank. -/
def firstWord (cs : List Char) : List Char :=
  cs.takeWhile fun c => !isBlank c

theorem IsWord.append_cons {word' : List Char} (h : IsWord word) (hc : isBlank c = false)
    (h' : IsWord word') : IsWord (word ++ c :: word') := by
  refine ⟨by simp, fun d hd => ?_⟩
  rw [List.mem_append, List.mem_cons] at hd
  obtain hd | rfl | hd := hd
  · exact h.2 d hd
  · exact hc
  · exact h'.2 d hd

theorem words_append_cons (hc : isBlank c = true) (cs rest : List Char) :
    words (cs ++ c :: rest) = words cs ++ words rest := by
  simp only [words, splitAll_eq_splitOnP, List.splitOnP_append_cons cs rest hc, List.filter_append]

theorem IsWord.words_eq (h : IsWord word) : words word = [word] := by
  rw [words, splitAll_eq_splitOnP, List.splitOnP_eq_singleton h.2]
  exact List.filter_cons_of_pos (by simpa using h.1)

theorem words_cons_of_isBlank (hc : isBlank c = true) (cs : List Char) :
    words (c :: cs) = words cs :=
  words_append_cons hc [] cs

theorem words_concat_of_isBlank (hc : isBlank c = true) (cs : List Char) :
    words (cs ++ [c]) = words cs :=
  (words_append_cons hc cs []).trans (List.append_nil _)

theorem words_append_of_all_isBlank {blanks : List Char} (h : ∀ c ∈ blanks, isBlank c = true)
    (cs : List Char) : words (blanks ++ cs) = words cs := by
  induction blanks with
  | nil => rfl
  | cons c blanks ih =>
    rw [List.cons_append, words_cons_of_isBlank (h c (.head _)), ih fun c hc => h c (.tail _ hc)]

/-- Words that each have a blank behind them are found as they are. -/
theorem words_flatMap_append {fields : List (List Char)} (h : ∀ word ∈ fields, IsWord word)
    (hc : isBlank c = true) (rest : List Char) :
    words (fields.flatMap (· ++ [c]) ++ rest) = fields ++ words rest := by
  induction fields with
  | nil => rfl
  | cons word fields ih =>
    rw [List.flatMap_cons, List.append_assoc, List.append_assoc, List.singleton_append,
      words_append_cons hc, (h word (.head _)).words_eq, ih fun word hw => h word (.tail _ hw)]
    rfl

theorem firstWord_eq_self (h : ∀ c ∈ cs, isBlank c = false) : firstWord cs = cs :=
  List.takeWhile_eq_self_iff.2 fun c hc => by rw [h c hc]; rfl

/-- Text that does not begin with a blank begins with its first word. -/
theorem head?_words (hc : cs.head? = some c) (hblank : isBlank c = false) :
    (words cs).head? = some (firstWord cs) := by
  have hword : IsWord (firstWord cs) := by
    obtain ⟨rest, rfl⟩ := List.head?_eq_some_iff.1 hc
    refine ⟨by simp [firstWord, hblank], fun c hc => ?_⟩
    simpa using List.mem_takeWhile_imp hc
  have hcs : firstWord cs ++ cs.dropWhile (fun c => !isBlank c) = cs :=
    List.takeWhile_append_dropWhile
  have hrest := List.head?_dropWhile_not (fun c => !isBlank c) cs
  cases hdrop : cs.dropWhile fun c => !isBlank c with
  | nil =>
    rw [hdrop, List.append_nil] at hcs
    rw [hcs] at hword ⊢
    rw [hword.words_eq, List.head?_cons]
  | cons b rest =>
    rw [hdrop, List.head?_cons] at hrest
    rw [hdrop] at hcs
    have hb : isBlank b = true := by simpa using hrest
    calc (words cs).head?
      _ = (words (firstWord cs ++ b :: rest)).head? := by rw [hcs]
      _ = some (firstWord cs) := by rw [words_append_cons hb, hword.words_eq]; rfl

/-! ## Lines -/

theorem words_dropLastReturn (cs : List Char) : words (dropLastReturn cs) = words cs := by
  rw [dropLastReturn]
  split
  case isTrue hlast =>
    obtain ⟨init, rfl⟩ := List.getLast?_eq_some_iff.1 hlast
    rw [List.dropLast_concat, words_concat_of_isBlank (by decide)]
  case isFalse => rfl

theorem splitAll_flatMap_concat {ls : List (List Char)} (h : ∀ line ∈ ls, '\n' ∉ line) :
    splitAll (· == '\n') (ls.flatMap (· ++ ['\n'])) = ls ++ [[]] := by
  induction ls with
  | nil => rfl
  | cons line ls ih =>
    have hline : ∀ c ∈ line, (c == '\n') = false :=
      fun c hc => beq_eq_false_iff_ne.2 fun heq => h line (.head _) (heq ▸ hc)
    rw [List.flatMap_cons, List.append_assoc, List.singleton_append, splitAll_eq_splitOnP,
      List.splitOnP_append_cons_of_forall_mem hline _ rfl, ← splitAll_eq_splitOnP,
      ih fun line hl => h line (.tail _ hl), List.cons_append]

theorem lines_flatMap_concat {ls : List (List Char)} (h : ∀ line ∈ ls, '\n' ∉ line) :
    lines (ls.flatMap (· ++ ['\n'])) = ls.map dropLastReturn := by
  rw [lines, splitAll_flatMap_concat h]
  simp

end ScriptDiag
