import ScriptDiag.Proofs.ListedRuns
import ScriptDiag.Proofs.Words
import ScriptDiag.Text.Hex

/-!
# Listings written by the kernel

A `FileMapping` is a mapping with a file behind it, as the kernel lists it: its path stands at the
end of the line, and is written as it is, blanks included. The path that is read from the line ends
before the first blank.

So the table read from such a listing knows each mapping by the first word of its path. It knows
them by their paths exactly if no code mapping changes its file name in this way, and no two that
are contiguous become ones of a single path (`ModuleMap.ofListing_listing_knowsBy`).
-/

namespace ScriptDiag

/-! ## Written numbers -/

section Numerals

variable {base d n : Nat} {c : Char} {digits : List Char}

theorem digitValue?_digitChar (hd : d < base) (hbase : base ≤ 16) :
    digitValue? base (Nat.digitChar d) = some d := by
  have hvalue : ∀ d < 16, digitValue? 16 (Nat.digitChar d) = some d := by decide
  have hd' := hvalue d (Nat.lt_of_lt_of_le hd hbase)
  rw [digitValue?, Option.filter_eq_some_iff] at hd' ⊢
  exact ⟨hd'.1, decide_eq_true hd⟩

/-- Digits lie between `0` and `z`, and blanks do not. -/
theorem not_isBlank_of_digitValue? (h : digitValue? base c = some d) : isBlank c = false := by
  have hbounds : '0'.toNat ≤ c.toNat ∧ c.toNat ≤ 'z'.toNat := by
    simp only [digitValue?, Option.filter_eq_some_iff, Char.le_def, UInt32.le_iff_toNat_le,
      Char.toNat_val] at h
    grind
  have hblanks : ∀ n ∈ blankCodePoints, n < '0'.toNat ∨ 'z'.toNat < n := by decide
  refine Bool.eq_false_iff.2 fun hblank => ?_
  have hapart := hblanks c.toNat (List.contains_iff_mem.1 hblank)
  omega

theorem AreDigits.concat (h : AreDigits base digits n) (hc : digitValue? base c = some d) :
    AreDigits base (digits ++ [c]) (n * base + d) := by
  obtain ⟨-, values, hvalues, rfl⟩ := h
  refine ⟨by simp, values ++ [d], by simp [hvalues, hc], ?_⟩
  rw [List.reverse_concat, Nat.ofDigits_cons, Nat.add_comm, Nat.mul_comm]

theorem AreDigits.zero_cons (h : AreDigits base digits n) (hbase : 0 < base) :
    AreDigits base ('0' :: digits) n := by
  obtain ⟨-, values, hvalues, rfl⟩ := h
  have hzero : digitValue? base '0' = some 0 := by simp [digitValue?, hbase]
  exact ⟨by simp, 0 :: values, by simp [hvalues, hzero], Nat.ofDigits_reverse_zero_cons values⟩

theorem areDigits_toDigits (hlow : 1 < base) (hhigh : base ≤ 16) (n : Nat) :
    AreDigits base (Nat.toDigits base n) n := by
  induction n using Nat.strongRecOn with
  | ind n ih =>
    rw [Nat.toDigits_eq_if hlow]
    split
    case isTrue hlt =>
      exact ⟨List.cons_ne_nil _ _, [n], by simp [digitValue?_digitChar hlt hhigh], by simp⟩
    case isFalse hlt =>
      have hdiv := ih (n / base) (Nat.div_lt_self (by omega) hlow)
      have hconcat := hdiv.concat (digitValue?_digitChar (Nat.mod_lt n (by omega)) hhigh)
      rwa [Nat.div_add_mod'] at hconcat

theorem areDigits_hexAtLeast (width n : Nat) : AreDigits 16 (hexAtLeast width n).toList n := by
  rw [hexAtLeast, String.toList_ofList, List.leftpad]
  induction width - (Nat.toDigits 16 n).length with
  | zero => exact areDigits_toDigits (by decide) (by decide) n
  | succ k ih => exact ih.zero_cons (by decide)

theorem AreDigits.isWord (h : AreDigits base digits n) : IsWord digits := by
  refine ⟨h.1, fun c hc => ?_⟩
  obtain ⟨d, hd⟩ := h.exists_value hc
  exact not_isBlank_of_digitValue? hd

end Numerals

/-! ## Lines of the kernel -/

/-- A mapping with a file behind it, as the kernel lists it. The path is absolute, has no line feed
in it, and may stand behind further blanks. -/
structure FileMapping where
  start : Address
  stop : Address
  isReadable : Bool
  isWritable : Bool
  isExecutable : Bool
  isShared : Bool
  offset : Address
  major : Nat
  minor : Nat
  inode : Nat
  padding : Nat
  path : String
  nonempty : start < stop
  absolute : path.toList.head? = some '/'
  oneLine : '\n' ∉ path.toList

namespace FileMapping

variable {m o : FileMapping} {ms : List FileMapping}

/-- `address` lies in the mapping. -/
def Covers (m : FileMapping) (address : Address) : Prop :=
  m.start ≤ address ∧ address < m.stop

def range (m : FileMapping) : List Char :=
  (hexAtLeast 8 m.start.toNat).toList ++ '-' :: (hexAtLeast 8 m.stop.toNat).toList

def perms (m : FileMapping) : List Char :=
  [if m.isReadable then 'r' else '-', if m.isWritable then 'w' else '-',
    if m.isExecutable then 'x' else '-', if m.isShared then 's' else 'p']

def device (m : FileMapping) : List Char :=
  (hexAtLeast 2 m.major).toList ++ ':' :: (hexAtLeast 2 m.minor).toList

/-- What stands in front of the path. -/
def fields (m : FileMapping) : List (List Char) :=
  [m.range, m.perms, (hexAtLeast 8 m.offset.toNat).toList, m.device, Nat.toDigits 10 m.inode]

def line (m : FileMapping) : List Char :=
  m.fields.flatMap (· ++ [' ']) ++ (List.replicate m.padding ' ' ++ m.path.toList)

def listing (ms : List FileMapping) : String :=
  String.ofList ((ms.map line).flatMap (· ++ ['\n']))

/-- The path up to its first blank. -/
def pathWord (m : FileMapping) : String :=
  String.ofList (firstWord m.path.toList)

/-- What is read from the line of the mapping. -/
def read (m : FileMapping) : Mapping :=
  { start := m.start, stop := m.stop, perms := m.perms, path := some m.pathWord }

/-- The mappings ascend without overlap. -/
def AreAscending (ms : List FileMapping) : Prop :=
  ms.Pairwise fun m o => m.stop ≤ o.start

/-- Code keeps its file name if its path is cut at the first blank, and contiguous code of different
paths does not get a single path. -/
structure SurvivesCutting (ms : List FileMapping) : Prop where
  names : ∀ m ∈ ms, m.isExecutable = true → baseName m.pathWord = baseName m.path
  paths : ∀ m ∈ ms, ∀ o ∈ ms, m.isExecutable = true → o.isExecutable = true →
    m.stop = o.start → m.pathWord = o.pathWord → m.path = o.path

theorem isWord_perms (m : FileMapping) : IsWord m.perms := by
  have hflag : ∀ (set : Bool) {c d : Char}, isBlank c = false → isBlank d = false →
      isBlank (if set then c else d) = false := by
    intro set c d hc hd
    cases set <;> assumption
  refine ⟨List.cons_ne_nil _ _, ?_⟩
  simp only [perms, List.forall_mem_cons]
  exact ⟨hflag _ (by decide) (by decide), hflag _ (by decide) (by decide),
    hflag _ (by decide) (by decide), hflag _ (by decide) (by decide), nofun⟩

theorem isWord_of_mem_fields (m : FileMapping) : ∀ word ∈ m.fields, IsWord word := by
  have hhex : ∀ width n, IsWord (hexAtLeast width n).toList :=
    fun width n => (areDigits_hexAtLeast width n).isWord
  have hinode : IsWord (Nat.toDigits 10 m.inode) :=
    (areDigits_toDigits (by decide) (by decide) m.inode).isWord
  simp only [fields, List.forall_mem_cons]
  exact ⟨(hhex _ _).append_cons (by decide) (hhex _ _), m.isWord_perms, hhex _ _,
    (hhex _ _).append_cons (by decide) (hhex _ _), hinode, nofun⟩

theorem exists_words_line (m : FileMapping) :
    ∃ others, words m.line = m.fields ++ m.pathWord.toList :: others := by
  have hpath : (words m.path.toList).head? = some m.pathWord.toList := by
    rw [head?_words m.absolute (by decide), pathWord, String.toList_ofList]
  obtain ⟨others, hothers⟩ := List.head?_eq_some_iff.1 hpath
  refine ⟨others, ?_⟩
  have hblanks : ∀ c ∈ List.replicate m.padding ' ', isBlank c = true := by
    rintro c hc
    rw [List.eq_of_mem_replicate hc]
    decide
  rw [line, words_flatMap_append m.isWord_of_mem_fields (by decide),
    words_append_of_all_isBlank hblanks, hothers]

/-- The line describes the mapping with its path cut: the rest of the path makes further words,
which are not read. -/
theorem isOnLine_read (m : FileMapping) : m.read.IsOnLine m.line := by
  obtain ⟨others, hwords⟩ := m.exists_words_line
  refine ⟨_, _, _, hwords, ⟨_, areDigits_hexAtLeast 8 m.start.toNat, .inl rfl⟩,
    ⟨_, areDigits_hexAtLeast 8 m.stop.toNat, .inl rfl⟩, ?_⟩
  exact congrArg some String.ofList_toList.symm

theorem lineFeed_not_mem_line (m : FileMapping) : '\n' ∉ m.line := by
  rw [line, List.mem_append, List.mem_append, List.mem_flatMap]
  rintro (⟨word, hword, hmem⟩ | hmem | hmem)
  · rw [List.mem_append, List.mem_singleton] at hmem
    obtain hmem | hmem := hmem
    · cases (m.isWord_of_mem_fields word hword).2 _ hmem
    · cases hmem
  · cases List.eq_of_mem_replicate hmem
  · exact m.oneLine hmem

theorem listed_listing (ms : List FileMapping) :
    Mapping.Listed (lines (listing ms).toList) (ms.map read) := by
  have hlines : ∀ cs ∈ ms.map line, '\n' ∉ cs :=
    List.forall_mem_map.2 fun m _ => m.lineFeed_not_mem_line
  rw [listing, String.toList_ofList, lines_flatMap_concat hlines]
  induction ms with
  | nil => exact .nil
  | cons m ms ih =>
    have hline : m.read.IsOnLine (dropLastReturn m.line) := by
      rw [Mapping.IsOnLine, words_dropLastReturn]
      exact m.isOnLine_read
    exact .described hline (ih (List.forall_mem_cons.1 hlines).2)

theorem isCode_read (m : FileMapping) : m.read.isCode = m.isExecutable := by
  have hexecutable : m.read.isExecutable = m.isExecutable := by
    have hmem : 'x' ∈ m.perms ↔ m.isExecutable = true := by
      simp only [perms, List.mem_cons]
      grind
    rwa [Bool.eq_iff_iff, Mapping.isExecutable, List.contains_iff_mem]
  have hslash : m.pathWord.toList.head? = some '/' := by
    obtain ⟨rest, hpath⟩ := List.head?_eq_some_iff.1 m.absolute
    rw [pathWord, String.toList_ofList, hpath]
    rfl
  rw [Mapping.isCode, hexecutable, read, Option.any_some, hslash, beq_self_eq_true, Bool.and_true]

theorem AreAscending.map_read (h : AreAscending ms) : Mapping.AreAscending (ms.map read) where
  nonempty := List.forall_mem_map.2 fun m _ => m.nonempty
  ascending := List.pairwise_map.2 h

theorem adjoins_read_iff :
    m.read.adjoins o.read = true ↔ m.stop = o.start ∧ m.pathWord = o.pathWord := by
  rw [Mapping.adjoins_iff, read, read, Option.some_inj]

theorem pathWord_eq_path (h : ∀ c ∈ m.path.toList, isBlank c = false) : m.pathWord = m.path := by
  rw [pathWord, firstWord_eq_self h, String.ofList_toList]

theorem survivesCutting_of_no_blank (h : ∀ m ∈ ms, ∀ c ∈ m.path.toList, isBlank c = false) :
    SurvivesCutting ms where
  names m hm _ := by rw [pathWord_eq_path (h m hm)]
  paths m hm o ho _ _ _ hword := by
    rwa [pathWord_eq_path (h m hm), pathWord_eq_path (h o ho)] at hword

end FileMapping

namespace ModuleMap

open FileMapping (AreAscending SurvivesCutting listing read pathWord)

variable {map : ModuleMap} {ms : List FileMapping} {m o : FileMapping} {address : Address}

/-! ## Tables -/

/-- Some range of the table has addresses of both mappings. -/
def Merges (map : ModuleMap) (m o : FileMapping) : Prop :=
  ∃ r ∈ map, (∃ address, r.Covers address ∧ m.Covers address) ∧
    ∃ address, r.Covers address ∧ o.Covers address

/-- The table knows the mappings by the given paths: the addresses of code are named after the files
at these paths, and contiguous mappings of different ones are not merged. -/
structure KnowsBy (map : ModuleMap) (ms : List FileMapping) (pathOf : FileMapping → String) :
    Prop where
  names : ∀ m ∈ ms, m.isExecutable = true → ∀ address, m.Covers address →
    (map.resolve address).module = some (baseName (pathOf m))
  apart : ∀ m ∈ ms, ∀ o ∈ ms, m.stop = o.start → map.Merges m o → pathOf m = pathOf o

theorem ofListing_listing (ms : List FileMapping) :
    ofListing (listing ms) = ofMappings (ms.map read) := by
  rw [ofListing, Mapping.parseListing, Mapping.listed_iff.1 (FileMapping.listed_listing ms)]

theorem module_resolve_of_covers (h : AreAscending ms) (hm : m ∈ ms)
    (hcode : m.isExecutable = true) (hcovers : m.Covers address) :
    ((ofListing (listing ms)).resolve address).module = some (baseName m.pathWord) := by
  have hascending := h.map_read
  obtain ⟨run, hrun, hmem⟩ := Mapping.exists_mem_runs (List.mem_map_of_mem hm)
    ((FileMapping.isCode_read m).trans hcode)
  obtain ⟨first, path, -, hpath, -, hresolve⟩ := (ofMappings_showsRuns hascending).resolves run
    ((Mapping.mem_runs_iff hascending).1 hrun) m.read hmem address hcovers
  cases hpath
  rw [ofListing_listing, hresolve]

/-- A range has addresses of code of one first word only. -/
theorem Merges.code (h : AreAscending ms) (hm : m ∈ ms) (ho : o ∈ ms)
    (hmerges : (ofListing (listing ms)).Merges m o) :
    m.isExecutable = true ∧ o.isExecutable = true ∧ m.pathWord = o.pathWord := by
  obtain ⟨r, hr, ⟨_, hrm, hcovers⟩, _, hro, hcovers'⟩ := hmerges
  rw [ofListing_listing] at hr
  have hpath := (ofMappings_showsRuns h.map_read).path r hr
  obtain ⟨hcode, hword⟩ := hpath m.read (List.mem_map_of_mem hm) _ hrm hcovers
  obtain ⟨hcode', hword'⟩ := hpath o.read (List.mem_map_of_mem ho) _ hro hcovers'
  rw [FileMapping.isCode_read] at hcode hcode'
  exact ⟨hcode, hcode', Option.some_inj.1 (hword.trans hword'.symm)⟩

/-- Contiguous code of one first word belongs to one run, and so to one range. -/
theorem merges_of_pathWord_eq (h : AreAscending ms) (hm : m ∈ ms) (ho : o ∈ ms)
    (hcode : m.isExecutable = true) (hcode' : o.isExecutable = true) (hstart : m.stop = o.start)
    (hword : m.pathWord = o.pathWord) : (ofListing (listing ms)).Merges m o := by
  have hascending := h.map_read
  rw [← FileMapping.isCode_read] at hcode hcode'
  obtain ⟨run, hrun, hmem⟩ := Mapping.exists_mem_runs (List.mem_map_of_mem hm) hcode
  have hmem' : o.read ∈ run :=
    ((Mapping.mem_runs_iff hascending).1 hrun).mem_of_adjoins hascending hmem
      (List.mem_map_of_mem ho) hcode' (FileMapping.adjoins_read_iff.2 ⟨hstart, hword⟩)
  obtain ⟨r, hr, hspan⟩ := exists_of_forall₂_left (spans_ofMappings hascending).2.flip hrun
  have hfirst : ∀ m : FileMapping, m.Covers m.start := fun m => ⟨UInt64.le_refl _, m.nonempty⟩
  refine ⟨r, ofListing_listing ms ▸ hr, ⟨m.start, ?_, hfirst m⟩, o.start, ?_, hfirst o⟩
  · exact (hspan.covers_iff m.start).2 ⟨m.read, hmem, hfirst m⟩
  · exact (hspan.covers_iff o.start).2 ⟨o.read, hmem', hfirst o⟩

theorem ofListing_listing_knowsBy_pathWord (h : AreAscending ms) :
    (ofListing (listing ms)).KnowsBy ms pathWord where
  names _ hm hcode _ hcovers := module_resolve_of_covers h hm hcode hcovers
  apart _ hm _ ho _ hmerges := (hmerges.code h hm ho).2.2

theorem knowsBy_path_iff_survivesCutting (h : AreAscending ms) :
    (ofListing (listing ms)).KnowsBy ms FileMapping.path ↔ SurvivesCutting ms := by
  constructor
  · intro hknows
    constructor
    case names =>
      intro m hm hcode
      have hcovers : m.Covers m.start := ⟨UInt64.le_refl _, m.nonempty⟩
      exact Option.some_inj.1 ((module_resolve_of_covers h hm hcode hcovers).symm.trans
        (hknows.names m hm hcode m.start hcovers))
    case paths =>
      intro m hm o ho hcode hcode' hstart hword
      exact hknows.apart m hm o ho hstart (merges_of_pathWord_eq h hm ho hcode hcode' hstart hword)
  · intro hsurvives
    constructor
    case names =>
      intro m hm hcode address hcovers
      rw [module_resolve_of_covers h hm hcode hcovers, hsurvives.names m hm hcode]
    case apart =>
      intro m hm o ho hstart hmerges
      obtain ⟨hcode, hcode', hword⟩ := hmerges.code h hm ho
      exact hsurvives.paths m hm o ho hcode hcode' hstart hword

/-- **The table of a listing of the kernel knows paths up to their first blank.** It names code
after the files at these shorter paths, and does not merge contiguous mappings for which they
differ. So it knows the mappings by their paths exactly if cutting the paths changes nothing, and
always does where the paths have no blanks. -/
theorem ofListing_listing_knowsBy (h : AreAscending ms) :
    (ofListing (listing ms)).KnowsBy ms pathWord ∧
    ((ofListing (listing ms)).KnowsBy ms FileMapping.path ↔ SurvivesCutting ms) ∧
    ((∀ m ∈ ms, ∀ c ∈ m.path.toList, isBlank c = false) →
      (ofListing (listing ms)).KnowsBy ms FileMapping.path) :=
  ⟨ofListing_listing_knowsBy_pathWord h, knowsBy_path_iff_survivesCutting h, fun hblank =>
    (knowsBy_path_iff_survivesCutting h).2 (FileMapping.survivesCutting_of_no_blank hblank)⟩

/-- Two libraries of one file name side by side, at paths without blanks. -/
def twoPlugins : List FileMapping :=
  [⟨0x1000, 0x2000, true, false, true, false, 0, 8, 1, 11, 5, "/a/x.so", by decide, by decide,
      by decide⟩,
    ⟨0x2000, 0x3000, true, false, true, false, 0, 8, 1, 12, 5, "/b/x.so", by decide, by decide,
      by decide⟩]

theorem twoPlugins_knowsBy_path :
    AreAscending twoPlugins ∧
    (ofListing (listing twoPlugins)).KnowsBy twoPlugins FileMapping.path := by
  have hascending : AreAscending twoPlugins := List.pairwise_pair.2 (by decide)
  have hblank : ∀ m ∈ twoPlugins, (m.path.toList.all fun c => !isBlank c) = true := by decide
  refine ⟨hascending, (ofListing_listing_knowsBy hascending).2.2 fun m hm c hc => ?_⟩
  simpa using List.all_eq_true.1 (hblank m hm) c hc

/-- A library in a directory with a blank in its name. -/
def myServer : FileMapping :=
  ⟨0x1000, 0x2000, true, false, true, false, 0, 8, 1, 11, 5, "/opt/my server/a.so", by decide,
    by decide, by decide⟩

/-- The next library, in a directory whose name begins with the same word. -/
def myOther : FileMapping :=
  ⟨0x2000, 0x3000, true, false, true, false, 0, 8, 1, 12, 5, "/opt/my other/b.so", by decide,
    by decide, by decide⟩

/-- The two become a single range, which has the name of neither. -/
theorem myServer_myOther_not_knowsBy_path :
    listing [myServer, myOther] =
      "00001000-00002000 r-xp 00000000 08:01 11      /opt/my server/a.so\n" ++
      "00002000-00003000 r-xp 00000000 08:01 12      /opt/my other/b.so\n" ∧
    AreAscending [myServer, myOther] ∧
    ((ofListing (listing [myServer, myOther])).resolve 0x1800).module = some "my" ∧
    (ofListing (listing [myServer, myOther])).Merges myServer myOther ∧
    ¬ (ofListing (listing [myServer, myOther])).KnowsBy [myServer, myOther] FileMapping.path := by
  have hascending : AreAscending [myServer, myOther] := List.pairwise_pair.2 (by decide)
  have hmodule : ((ofListing (listing [myServer, myOther])).resolve 0x1800).module = some "my" :=
    module_resolve_of_covers hascending (m := myServer) (.head _) rfl ⟨by decide, by decide⟩
  have hmerges : (ofListing (listing [myServer, myOther])).Merges myServer myOther :=
    merges_of_pathWord_eq hascending (.head _) (.tail _ (.head _)) rfl rfl rfl (by decide)
  refine ⟨by decide +kernel, hascending, hmodule, hmerges, fun hknows => ?_⟩
  have hpath := hknows.apart _ (.head _) _ (.tail _ (.head _)) rfl hmerges
  exact absurd hpath (by decide)

end ModuleMap

end ScriptDiag
