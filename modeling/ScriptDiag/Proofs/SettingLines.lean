import Mathlib.Data.List.Induction
import ScriptDiag.Proofs.ListingLines
import ScriptDiag.Proofs.Words
import ScriptDiag.Settings.KeyValue

/-!
# Which lines settings are read from

Of a document of key and value lines only those matter whose first word is the name of a setting:
`ofKeyValues_reads_setting_lines` says what is read from these and that nothing depends on the
others, wherever they stand.

A comment is not an exception to this, since the first word of a comment is no setting's name. What
a line says, a key and a value, is put in terms of the text (`IsSettingLine`), and so is what a
value means (`SettingKey.Writes`). The document is then folded entry by entry: a step changes the
setting of its entry, and leaves the others alone.
-/

namespace ScriptDiag

variable {c : Char} {cs middle word rest line value : List Char}

/-! ## Blanks at the ends -/

/-- Neither begins nor ends with a blank. -/
structure IsTrimmed (cs : List Char) : Prop where
  head : ∀ c, cs.head? = some c → isBlank c = false
  last : ∀ c, cs.getLast? = some c → isBlank c = false

theorem dropWhile_isBlank_eq_self (h : ∀ c, cs.head? = some c → isBlank c = false) :
    cs.dropWhile isBlank = cs := by
  cases cs with
  | nil => rfl
  | cons c cs => rw [List.dropWhile_cons_of_neg (by simp [h c rfl])]

theorem isBlank_head_dropWhile (hc : (cs.dropWhile isBlank).head? = some c) :
    isBlank c = false := by
  have h := List.head?_dropWhile_not isBlank cs
  rwa [hc] at h

/-- A text has blanks, its trimmed middle, and blanks again. -/
theorem exists_blanks_around (cs : List Char) : IsTrimmed (trimBlanks cs) ∧ ∃ before after,
    (∀ c ∈ before, isBlank c = true) ∧ (∀ c ∈ after, isBlank c = true) ∧
      cs = before ++ (trimBlanks cs ++ after) := by
  have hfront := List.takeWhile_append_dropWhile (p := isBlank) (l := cs)
  have hback : trimBlanks cs ++ ((cs.dropWhile isBlank).reverse.takeWhile isBlank).reverse =
      cs.dropWhile isBlank := by
    rw [trimBlanks, ← List.reverse_append, List.takeWhile_append_dropWhile, List.reverse_reverse]
  refine ⟨⟨fun c hc => ?_, fun c hc => ?_⟩, cs.takeWhile isBlank,
    ((cs.dropWhile isBlank).reverse.takeWhile isBlank).reverse, ?_, ?_, ?_⟩
  · have hhead : (cs.dropWhile isBlank).head? = some c := by
      rw [← hback, List.head?_append, hc]
      rfl
    exact isBlank_head_dropWhile hhead
  · rw [trimBlanks, List.getLast?_reverse] at hc
    exact isBlank_head_dropWhile hc
  · exact fun c hc => List.mem_takeWhile_imp hc
  · exact fun c hc => List.mem_takeWhile_imp (List.mem_reverse.1 hc)
  · rw [hback, hfront]

theorem trimBlanks_eq_of_blanks_around {before after : List Char} (h : IsTrimmed middle)
    (hbefore : ∀ c ∈ before, isBlank c = true) (hafter : ∀ c ∈ after, isBlank c = true) :
    trimBlanks (before ++ (middle ++ after)) = middle := by
  rw [trimBlanks, List.dropWhile_append_of_pos hbefore]
  cases middle with
  | nil => simp [List.dropWhile_eq_nil_iff.2 hafter]
  | cons c cs =>
    have hback : ∀ c ∈ after.reverse, isBlank c = true :=
      fun c hc => hafter c (List.mem_reverse.1 hc)
    rw [List.cons_append, List.dropWhile_cons_of_neg (by simp [h.head c rfl]), ← List.cons_append,
      List.reverse_append, List.dropWhile_append_of_pos hback, dropWhile_isBlank_eq_self,
      List.reverse_reverse]
    rw [List.head?_reverse]
    exact h.last

theorem trimBlanks_cons_of_isBlank (hc : isBlank c = true) (cs : List Char) :
    trimBlanks (c :: cs) = trimBlanks cs := by
  rw [trimBlanks, List.dropWhile_cons_of_pos hc, ← trimBlanks]

theorem trimBlanks_append_of_all_isBlank {blanks : List Char} (cs : List Char)
    (h : ∀ c ∈ blanks, isBlank c = true) : trimBlanks (cs ++ blanks) = trimBlanks cs := by
  obtain ⟨hmiddle, before, after, hbefore, hafter, hcs⟩ := exists_blanks_around cs
  have hback : ∀ c ∈ after ++ blanks, isBlank c = true :=
    fun c hc => (List.mem_append.1 hc).elim (hafter c) (h c)
  generalize trimBlanks cs = middle at *
  rw [hcs, List.append_assoc, List.append_assoc,
    trimBlanks_eq_of_blanks_around hmiddle hbefore hback]

/-! ## The first word -/

theorem IsWord.isTrimmed (h : IsWord word) : IsTrimmed word :=
  ⟨fun c hc => h.2 c (List.mem_of_mem_head? hc), fun c hc => h.2 c (List.mem_of_mem_getLast? hc)⟩

/-- A text without the blanks at its ends still begins with its first word, and what stands behind
the word loses blanks at its end only. -/
theorem trimBlanks_word_append {before behind : List Char} (h : IsWord word)
    (hbefore : ∀ c ∈ before, isBlank c = true)
    (hbehind : ∀ c, behind.head? = some c → isBlank c = true) :
    ∃ tail, trimBlanks (before ++ (word ++ behind)) = word ++ tail ∧
      (∀ c, tail.head? = some c → isBlank c = true) ∧ trimBlanks tail = trimBlanks behind := by
  obtain ⟨hvalue, gap, after, hgap, hafter, hsplit⟩ := exists_blanks_around behind
  by_cases hempty : trimBlanks behind = []
  · rw [hempty, List.nil_append] at hsplit
    have hblank : ∀ c ∈ behind, isBlank c = true := fun c hc =>
      (List.mem_append.1 (hsplit ▸ hc)).elim (hgap c) (hafter c)
    refine ⟨[], ?_, nofun, hempty.symm⟩
    rw [trimBlanks_eq_of_blanks_around h.isTrimmed hbefore hblank, List.append_nil]
  · have hlast : (word ++ (gap ++ trimBlanks behind)).getLast? = (trimBlanks behind).getLast? := by
      rw [← List.append_assoc, List.getLast?_append, List.getLast?_eq_some_getLast hempty]
      rfl
    have htrimmed : IsTrimmed (word ++ (gap ++ trimBlanks behind)) := by
      refine ⟨fun c hc => h.isTrimmed.head c ?_, fun c hc => hvalue.last c (hlast ▸ hc)⟩
      rw [List.head?_append, List.head?_eq_some_head h.1] at hc
      rwa [List.head?_eq_some_head h.1]
    refine ⟨gap ++ trimBlanks behind, ?_, fun c hc => hbehind c ?_, ?_⟩
    · have hline := trimBlanks_eq_of_blanks_around htrimmed hbefore hafter
      rwa [List.append_assoc word, List.append_assoc gap, ← hsplit] at hline
    · rw [hsplit, ← List.append_assoc, List.head?_append, hc]
      rfl
    · have hnil : ∀ c ∈ ([] : List Char), isBlank c = true := nofun
      have htail := trimBlanks_eq_of_blanks_around hvalue hgap hnil
      rwa [List.append_nil] at htail

theorem splitAtBlank_of_isWord (h : IsWord word) : splitAtBlank word = (word, none) := by
  have hdrop : word.dropWhile (fun c => !isBlank c) = [] :=
    List.dropWhile_eq_nil_iff.2 fun c hc => by rw [h.2 c hc]; rfl
  rw [splitAtBlank, hdrop]

theorem splitAtBlank_append_cons (h : IsWord word) (hc : isBlank c = true) :
    splitAtBlank (word ++ c :: rest) = (word, some rest) := by
  have hword : ∀ c ∈ word, (!isBlank c) = true := fun c hc => by rw [h.2 c hc]; rfl
  rw [splitAtBlank, List.dropWhile_append_of_pos hword, List.takeWhile_append_of_pos hword,
    List.dropWhile_cons_of_neg (by simp [hc]), List.takeWhile_cons_of_neg (by simp [hc]),
    List.append_nil]

/-- The text begins with its first word, which only a blank can end. -/
theorem firstWord_append (cs : List Char) : ∃ behind, cs = firstWord cs ++ behind ∧
    (∀ c, behind.head? = some c → isBlank c = true) ∧
      splitAtBlank cs = (firstWord cs, behind.head?.map fun _ => behind.tail) := by
  have hcs := (List.takeWhile_append_dropWhile (p := fun c => !isBlank c) (l := cs)).symm
  refine ⟨cs.dropWhile fun c => !isBlank c, hcs, fun c hc => ?_, ?_⟩
  · have h := List.head?_dropWhile_not (fun c => !isBlank c) cs
    rw [hc] at h
    simpa using h
  · rw [splitAtBlank]
    split
    case h_1 hdrop =>
      rw [hdrop, List.append_nil] at hcs
      rw [hdrop, firstWord, ← hcs]
      rfl
    case h_2 rest hdrop =>
      rw [hdrop]
      rfl

/-! ## Setting lines -/

namespace SettingKey

variable {key : SettingKey}

theorem isWord_text (key : SettingKey) : IsWord key.text.toList := by
  have hne : key.text.toList ≠ [] := by cases key <;> decide
  have hblank : key.text.toList.all (fun c => !isBlank c) = true := by cases key <;> decide
  exact ⟨hne, fun c hc => by simpa using List.all_eq_true.mp hblank c hc⟩

theorem ofChars?_eq_some_iff : ofChars? cs = some key ↔ cs = key.text.toList := by
  constructor
  · intro h
    exact (eq_of_beq (List.find?_some (p := fun key : SettingKey => key.text.toList == cs) h)).symm
  · rintro rfl
    cases key <;> decide

end SettingKey

namespace Settings

variable {key : SettingKey}

/-- The line has the name of the setting for its first word, and the value is what stands behind it,
without the blanks at its ends. -/
def IsSettingLine (line : List Char) (key : SettingKey) (value : List Char) : Prop :=
  ∃ before behind, line = before ++ (key.text.toList ++ behind) ∧
    (∀ c ∈ before, isBlank c = true) ∧ (∀ c, behind.head? = some c → isBlank c = true) ∧
    trimBlanks behind = value

/-- Text that begins with the name of a setting is not a comment. -/
theorem not_comment (key : SettingKey) (behind : List Char) :
    ((key.text.toList ++ behind).isEmpty || ['#'].isPrefixOf (key.text.toList ++ behind) ||
      ['/', '/'].isPrefixOf (key.text.toList ++ behind)) = false := by
  cases key <;> rfl

theorem IsSettingLine.readLine?_eq (h : IsSettingLine line key value) :
    readLine? line = some (key, value) := by
  obtain ⟨before, behind, rfl, hbefore, hbehind, rfl⟩ := h
  have hword := key.isWord_text
  have hkey : SettingKey.ofChars? key.text.toList = some key :=
    SettingKey.ofChars?_eq_some_iff.2 rfl
  obtain ⟨tail, htrim, htail, hvalue⟩ := trimBlanks_word_append hword hbefore hbehind
  rw [readLine?, htrim, not_comment, ← hvalue]
  cases tail with
  | nil =>
    rw [List.append_nil, splitAtBlank_of_isWord hword]
    simp [hkey]
  | cons c cs =>
    have hc := htail c rfl
    rw [splitAtBlank_append_cons hword hc, trimBlanks_cons_of_isBlank hc]
    simp [hkey]

theorem isSettingLine_of_readLine? (h : readLine? line = some (key, value)) :
    IsSettingLine line key value := by
  obtain ⟨-, before, after, hbefore, hafter, hline⟩ := exists_blanks_around line
  obtain ⟨behind, htrim, hbehind, hsplit⟩ := firstWord_append (trimBlanks line)
  rw [readLine?, hsplit] at h
  split at h
  case isTrue => cases h
  case isFalse =>
    obtain ⟨key', hkey, h⟩ := Option.map_eq_some_iff.1 h
    cases h
    rw [SettingKey.ofChars?_eq_some_iff.1 hkey] at htrim
    rw [htrim, List.append_assoc] at hline
    refine ⟨before, behind ++ after, hline, hbefore, fun c hc => ?_, ?_⟩
    · rw [List.head?_append] at hc
      cases hhead : behind.head? with
      | some b =>
        rw [hhead] at hc
        cases hc
        exact hbehind c hhead
      | none =>
        rw [hhead] at hc
        exact hafter c (List.mem_of_mem_head? hc)
    · rw [trimBlanks_append_of_all_isBlank behind hafter]
      cases behind with
      | nil => rfl
      | cons c cs => rw [trimBlanks_cons_of_isBlank (hbehind c rfl)]; rfl

/-- The setting lines are the lines that are read. -/
theorem readLine?_eq_some_iff :
    readLine? line = some (key, value) ↔ IsSettingLine line key value :=
  ⟨isSettingLine_of_readLine?, IsSettingLine.readLine?_eq⟩

/-- The first word of the line is the name of a setting. -/
def namesSetting (line : List Char) : Bool :=
  [SettingKey.dieOnError, .maxTraceDepth, .maxTrampolineHops].any fun key =>
    (words line).head? = some key.text.toList

theorem namesSetting_iff_exists_key :
    namesSetting line = true ↔ ∃ key : SettingKey, (words line).head? = some key.text.toList := by
  simp only [namesSetting, List.any_eq_true, decide_eq_true_eq]
  exact ⟨fun ⟨key, _, h⟩ => ⟨key, h⟩, fun ⟨key, h⟩ => ⟨key, by cases key <;> decide, h⟩⟩

/-- A line is about a setting exactly if its first word is the name of the setting. -/
theorem head?_words_iff :
    (words line).head? = some key.text.toList ↔ ∃ value, IsSettingLine line key value := by
  have hword := key.isWord_text
  constructor
  · intro h
    have hline := (List.takeWhile_append_dropWhile (p := isBlank) (l := line)).symm
    have hbefore : ∀ c ∈ line.takeWhile isBlank, isBlank c = true :=
      fun c hc => List.mem_takeWhile_imp hc
    rw [hline, words_append_of_all_isBlank hbefore] at h
    cases hrest : (line.dropWhile isBlank).head? with
    | none =>
      rw [List.head?_eq_none_iff.1 hrest] at h
      cases h
    | some c =>
      rw [head?_words hrest (isBlank_head_dropWhile hrest)] at h
      obtain ⟨behind, hbehind, hblank, -⟩ := firstWord_append (line.dropWhile isBlank)
      rw [Option.some_inj.1 h] at hbehind
      rw [hbehind] at hline
      exact ⟨trimBlanks behind, line.takeWhile isBlank, behind, hline, hbefore, hblank, rfl⟩
  · rintro ⟨value, before, behind, rfl, hbefore, hbehind, -⟩
    rw [words_append_of_all_isBlank hbefore]
    cases behind with
    | nil => rw [List.append_nil, hword.words_eq, List.head?_cons]
    | cons c cs =>
      rw [words_append_cons (hbehind c rfl), hword.words_eq]
      rfl

theorem namesSetting_eq_isSome (line : List Char) :
    namesSetting line = (readLine? line).isSome := by
  rw [Bool.eq_iff_iff, namesSetting_iff_exists_key, Option.isSome_iff_exists]
  simp only [head?_words_iff, Prod.exists, readLine?_eq_some_iff]

/-- A comment does not name a setting. -/
theorem namesSetting_comment (h : ['#'] <+: trimBlanks line ∨ ['/', '/'] <+: trimBlanks line) :
    namesSetting line = false := by
  have hcomment : ((trimBlanks line).isEmpty || ['#'].isPrefixOf (trimBlanks line) ||
      ['/', '/'].isPrefixOf (trimBlanks line)) = true := by
    rcases h with h | h <;> simp [List.isPrefixOf_iff_prefix.2 h]
  rw [namesSetting_eq_isSome, readLine?, if_pos hcomment]
  rfl

end Settings

/-! ## Values -/

namespace SettingKey

/-- The values that a setting can have. -/
def Value : SettingKey → Type
  | dieOnError => Bool
  | maxTraceDepth | maxTrampolineHops => Nat

/-- The text stands for the value: for a truth value it is one of four words, in letters of either
case, and for a number a decimal numeral, where the number has to fit into 64 bits. -/
def Writes : (key : SettingKey) → List Char → key.Value → Prop
  | dieOnError, value, (b : Bool) =>
    ∃ word ∈ if b then ["1", "true", "yes", "on"] else ["0", "false", "no", "off"],
      value.map Char.toLower = word.toList
  | maxTraceDepth, value, (n : Nat) | maxTrampolineHops, value, (n : Nat) =>
    IsNumeral 10 value n ∧ n < UInt64.size

end SettingKey

namespace Settings

variable {s s' : Settings} {key other : SettingKey}

def get (s : Settings) : (key : SettingKey) → key.Value
  | .dieOnError => s.dieOnError
  | .maxTraceDepth => s.maxTraceDepth
  | .maxTrampolineHops => s.maxTrampolineHops

/-- `s` with another value of `key`. -/
def set (s : Settings) : (key : SettingKey) → key.Value → Settings
  | .dieOnError, b => { s with dieOnError := b }
  | .maxTraceDepth, n => { s with maxTraceDepth := n }
  | .maxTrampolineHops, n => { s with maxTrampolineHops := n }

theorem get_set_self (s : Settings) (v : key.Value) : (s.set key v).get key = v := by
  cases key <;> rfl

theorem get_set_of_ne (s : Settings) (v : key.Value) (h : key ≠ other) :
    (s.set key v).get other = s.get other := by
  cases key <;> cases other <;> first | rfl | exact absurd rfl h

theorem ofList_mem_iff {spellings : List String} :
    String.ofList cs ∈ spellings ↔ ∃ word ∈ spellings, cs = word.toList := by
  constructor
  · exact fun h => ⟨_, h, String.toList_ofList.symm⟩
  · rintro ⟨word, hword, rfl⟩
    rwa [String.ofList_toList]

theorem readBool?_eq_some_iff {b : Bool} :
    readBool? value = some b ↔ SettingKey.dieOnError.Writes value b := by
  simp only [readBool?, SettingKey.Writes, ← ofList_mem_iff]
  generalize String.ofList (value.map Char.toLower) = word
  -- no spelling stands for both truth values
  have hdisjoint : word ∈ ["1", "true", "yes", "on"] → word ∉ ["0", "false", "no", "off"] := by
    simp only [List.mem_cons, List.not_mem_nil, or_false]
    rintro (rfl | rfl | rfl | rfl) <;> decide
  generalize ["1", "true", "yes", "on"] = trues, ["0", "false", "no", "off"] = falses at *
  by_cases htrue : word ∈ trues
  · cases b <;> simp [htrue, hdisjoint htrue]
  · cases b <;> simp [htrue]

/-- A text is a value for a setting exactly if it stands for one. -/
theorem assign?_eq_some_iff : s.assign? key value = some s' ↔
    ∃ v, key.Writes value v ∧ s.set key v = s' := by
  cases key with
  | dieOnError => simp only [assign?, Option.map_eq_some_iff, readBool?_eq_some_iff]; rfl
  | maxTraceDepth | maxTrampolineHops =>
    simp only [assign?, readCount?, Option.map_eq_some_iff, readUnsigned?_eq_some_iff]
    rfl

/-! ## Entries -/

/-- What a line says: the setting that it is about, and the value. -/
abbrev Entry := SettingKey × List Char

variable {said : List Entry} {v : key.Value}

/-- The value of the entry is one that its setting can have. -/
def HasValue (e : Entry) : Prop :=
  ∃ v, e.1.Writes e.2 v

/-- The last of the entries about the setting gives it this value, or there is none and the value is
the default. -/
def LastSaid (said : List Entry) (key : SettingKey) (v : key.Value) : Prop :=
  (∃ before value after, said = before ++ (key, value) :: after ∧ (∀ e ∈ after, e.1 ≠ key) ∧
    key.Writes value v) ∨
  (∀ e ∈ said, e.1 ≠ key) ∧ v = ({} : Settings).get key

/-- `s` after an entry. -/
def applyEntry (s : Settings) (e : Entry) : Except SettingsError Settings :=
  match s.assign? e.1 e.2 with
  | some s => .ok s
  | none => .error (.invalidValue e.1 (String.ofList e.2))

theorem applyLine_of_some {e : Entry} (h : readLine? line = some e) :
    s.applyLine line = s.applyEntry e := by
  rw [applyLine, h]
  rfl

theorem applyLine_of_none (h : readLine? line = none) : s.applyLine line = .ok s := by
  rw [applyLine, h]

theorem applyEntry_of_writes (s : Settings) (h : key.Writes value v) :
    s.applyEntry (key, value) = .ok (s.set key v) := by
  rw [applyEntry, assign?_eq_some_iff.2 ⟨v, h, rfl⟩]

theorem applyEntry_of_not_hasValue (s : Settings) {e : Entry} (h : ¬HasValue e) :
    s.applyEntry e = .error (.invalidValue e.1 (String.ofList e.2)) := by
  have hnone : s.assign? e.1 e.2 = none := by
    refine Option.eq_none_iff_forall_ne_some.2 fun s' hs' => h ?_
    obtain ⟨v, hv, -⟩ := assign?_eq_some_iff.1 hs'
    exact ⟨v, hv⟩
  rw [applyEntry, hnone]

/-! ## All entries -/

theorem foldlM_applyLine (ls : List (List Char)) (s : Settings) :
    ls.foldlM applyLine s = (ls.filterMap readLine?).foldlM applyEntry s := by
  induction ls generalizing s with
  | nil => rfl
  | cons line ls ih =>
    cases hline : readLine? line with
    | none =>
      rw [List.filterMap_cons_none hline, List.foldlM_cons, applyLine_of_none hline]
      exact ih s
    | some e =>
      rw [List.filterMap_cons_some hline, List.foldlM_cons, List.foldlM_cons,
        applyLine_of_some hline]
      exact congrArg _ (funext ih)

theorem lastSaid_concat_self (said : List Entry) (h : key.Writes value v) :
    LastSaid (said ++ [(key, value)]) key v :=
  .inl ⟨said, value, [], rfl, nofun, h⟩

/-- The other settings keep what was said last about them. -/
theorem LastSaid.concat_of_ne {e : Entry} (h : LastSaid said key v) (hne : e.1 ≠ key) :
    LastSaid (said ++ [e]) key v := by
  have hadded : ∀ {entries : List Entry}, (∀ e ∈ entries, e.1 ≠ key) →
      ∀ e' ∈ entries ++ [e], e'.1 ≠ key := fun hentries e' he' =>
    (List.mem_append.1 he').elim (hentries e') fun he => List.mem_singleton.1 he ▸ hne
  rcases h with ⟨before, value, after, rfl, hafter, hv⟩ | ⟨hsaid, hv⟩
  · exact .inl ⟨before, value, after ++ [e], by simp, hadded hafter, hv⟩
  · exact .inr ⟨hadded hsaid, hv⟩

/-- If every entry has a value that its setting can have, the last one about each setting counts. -/
theorem exists_lastSaid (h : ∀ e ∈ said, HasValue e) :
    ∃ s, said.foldlM applyEntry {} = .ok s ∧ ∀ key, LastSaid said key (s.get key) := by
  induction said using List.reverseRecOn with
  | nil => exact ⟨{}, rfl, fun key => .inr ⟨nofun, rfl⟩⟩
  | append_singleton said e ih =>
    obtain ⟨s, hfold, hlast⟩ := ih fun e he => h e (List.mem_append_left _ he)
    obtain ⟨v, hv⟩ := h e (List.mem_append_right _ (.head _))
    refine ⟨s.set e.1 v, ?_, fun key => ?_⟩
    · have hstep : [e].foldlM applyEntry s = .ok (s.set e.1 v) := by
        rw [List.foldlM_cons, applyEntry_of_writes s hv]
        rfl
      rw [List.foldlM_append, hfold]
      exact hstep
    · by_cases hkey : e.1 = key
      · subst hkey
        rw [get_set_self]
        exact lastSaid_concat_self said hv
      · rw [get_set_of_ne s v hkey]
        exact (hlast key).concat_of_ne hkey

/-- The first entry whose value its setting cannot have is the error. -/
theorem foldlM_applyEntry_of_first {before after : List Entry} {e : Entry}
    (hbefore : ∀ e ∈ before, HasValue e) (he : ¬HasValue e) :
    (before ++ e :: after).foldlM applyEntry {} =
      .error (.invalidValue e.1 (String.ofList e.2)) := by
  obtain ⟨s, hfold, -⟩ := exists_lastSaid hbefore
  have hstop : (e :: after).foldlM applyEntry s =
      .error (.invalidValue e.1 (String.ofList e.2)) := by
    rw [List.foldlM_cons, applyEntry_of_not_hasValue s he]
    rfl
  rw [List.foldlM_append, hfold]
  exact hstop

/-! ## Documents -/

/-- The lines of a document that are about settings. -/
def settingLines (document : String) : List (List Char) :=
  (lines document.toList).filter namesSetting

theorem filterMap_readLine? (ls : List (List Char)) :
    ls.filterMap readLine? = (ls.filter namesSetting).filterMap readLine? := by
  rw [List.filterMap_filter]
  congr 1
  funext line
  rw [namesSetting_eq_isSome]
  cases readLine? line <;> rfl

theorem ofKeyValues_eq (document : String) : ofKeyValues document =
    ((settingLines document).filterMap readLine?).foldlM applyEntry {} >>= validate := by
  rw [settingLines, ← filterMap_readLine?, ← foldlM_applyLine]
  rfl

/-- Every setting line has its entry. -/
theorem forall₂_readLine? {ls : List (List Char)} (h : ∀ line ∈ ls, namesSetting line = true) :
    List.Forall₂ (fun line e => IsSettingLine line e.1 e.2) ls (ls.filterMap readLine?) := by
  induction ls with
  | nil => exact .nil
  | cons line ls ih =>
    have hline := h line (.head _)
    rw [namesSetting_eq_isSome, Option.isSome_iff_exists] at hline
    obtain ⟨e, he⟩ := hline
    rw [List.filterMap_cons_some he]
    exact .cons (readLine?_eq_some_iff.1 he) (ih fun line hl => h line (.tail _ hl))

/-- A text of the given lines, each ended. -/
def ofLines (ls : List (List Char)) : String :=
  String.ofList (ls.flatMap (· ++ ['\n']))

theorem settingLines_ofLines {ls : List (List Char)} (h : ∀ line ∈ ls, '\n' ∉ line) :
    settingLines (ofLines ls) = (ls.filter namesSetting).map dropLastReturn := by
  have hnames : namesSetting ∘ dropLastReturn = namesSetting := by
    funext line
    simp only [Function.comp, namesSetting, words_dropLastReturn]
  rw [settingLines, ofLines, String.toList_ofList, lines_flatMap_concat h, List.filter_map, hnames]

/-- **Settings are read from their lines only.** Of a document only the lines count whose first word
is the name of a setting, in their order, and a comment is never one. Each says a value, which is
what stands behind the name, without blanks at its ends. If there is one that its setting cannot
have, then the first of these is the error. Otherwise each setting has the value that is said last,
or its default if none is said, and these are the settings unless the depth of traces is zero. -/
theorem ofKeyValues_reads_setting_lines (document : String) :
    (∀ document', settingLines document' = settingLines document →
      ofKeyValues document' = ofKeyValues document) ∧
    (∀ ls ls' : List (List Char), (∀ line ∈ ls ++ ls', '\n' ∉ line) →
      ls.filter namesSetting = ls'.filter namesSetting →
      ofKeyValues (ofLines ls) = ofKeyValues (ofLines ls')) ∧
    (∀ line, ['#'] <+: trimBlanks line ∨ ['/', '/'] <+: trimBlanks line →
      line ∉ settingLines document) ∧
    ∃ said : List Entry,
      List.Forall₂ (fun line e => IsSettingLine line e.1 e.2) (settingLines document) said ∧
      (∀ before key value after, said = before ++ (key, value) :: after →
        (∀ e ∈ before, HasValue e) → ¬HasValue (key, value) →
        ofKeyValues document = .error (.invalidValue key (String.ofList value))) ∧
      ((∀ e ∈ said, HasValue e) → ∃ s, (∀ key, LastSaid said key (s.get key)) ∧
        ofKeyValues document =
          if 1 ≤ s.maxTraceDepth then .ok s else .error (.invalidValue .maxTraceDepth "0")) := by
  have hdepends : ∀ document document', settingLines document' = settingLines document →
      ofKeyValues document' = ofKeyValues document := fun document document' h => by
    rw [ofKeyValues_eq, ofKeyValues_eq, h]
  refine ⟨hdepends document, fun ls ls' hls h => hdepends _ _ ?_, fun line hcomment hline => ?_, ?_⟩
  · rw [settingLines_ofLines fun line hl => hls line (List.mem_append_left _ hl),
      settingLines_ofLines fun line hl => hls line (List.mem_append_right _ hl), h]
  · rw [settingLines, List.mem_filter, namesSetting_comment hcomment] at hline
    cases hline.2
  · refine ⟨_, forall₂_readLine? fun line hl => (List.mem_filter.1 hl).2, ?_, fun hvalues => ?_⟩
    · intro before key value after hsaid hbefore hvalue
      rw [ofKeyValues_eq, hsaid, foldlM_applyEntry_of_first hbefore hvalue]
      rfl
    · obtain ⟨s, hfold, hlast⟩ := exists_lastSaid hvalues
      refine ⟨s, hlast, ?_⟩
      rw [ofKeyValues_eq, hfold]
      show s.validate = _
      rw [validate]
      by_cases hzero : s.maxTraceDepth = 0
      · rw [if_pos hzero, if_neg (by omega)]
      · rw [if_neg hzero, if_pos (by omega)]

/-- Lines of a host's file, of which the first, the third and the last are about settings. -/
def hostLines : List (List Char) :=
  ["max_trace_depth 5", "// max_trace_depth", "  die_on_error\t On ", "port 7777",
    "max_trace_depth +12\r"].map String.toList

/-- The same setting lines between others. -/
def otherHostLines : List (List Char) :=
  ["", "max_trace_depth 5", "  die_on_error\t On ", "max_trace_depth +12\r", "#x"].map String.toList

theorem hostLines_read_alike :
    (∀ line ∈ hostLines ++ otherHostLines, '\n' ∉ line) ∧
      hostLines.filter namesSetting = otherHostLines.filter namesSetting ∧
      ofKeyValues (ofLines hostLines) = ofKeyValues (ofLines otherHostLines) := by
  have hlines : ∀ line ∈ hostLines ++ otherHostLines, '\n' ∉ line := by decide +kernel
  have hfilter : hostLines.filter namesSetting = otherHostLines.filter namesSetting := by
    decide +kernel
  exact ⟨hlines, hfilter,
    (ofKeyValues_reads_setting_lines "").2.1 hostLines otherHostLines hlines hfilter⟩

example : ofKeyValues (ofLines hostLines) = .ok
    { dieOnError := true, maxTraceDepth := 12, maxTrampolineHops := 8 } := by decide +kernel

end Settings

end ScriptDiag
