import LambdaMOO.Commands.Words
import Mathlib.Data.List.Infix

/-!
# Prepositions

`db_find_prep` and the table that it searches. A preposition is known by its place in the table.
-/

namespace LambdaMOO

/-- `'/'`. -/
def slash : UInt8 := 47

/-- `prep_list`. -/
def prepList : List (List UInt8) :=
  ["with/using",
    "at/to",
    "in front of",
    "in/inside/into",
    "on top of/on/onto/upon",
    "out of/from inside/from",
    "over",
    "through",
    "under/underneath/beneath",
    "behind",
    "beside",
    "for/about",
    "is",
    "as",
    "off/off of"].map asciiBytes

/-- `pt_entry` without its link: the words of an alias. -/
abbrev PtEntry := List (List UInt8)

/-- `MAXPPHRASE`. -/
def maxpphrase : Nat := 3

/-! ## The table -/

/-- What is copied to `cprep` in turn. -/
def aliasTexts : Nat → List UInt8 → List (List UInt8)
  | 0, _ => []
  | _, [] => []
  | n + 1, c :: p =>
    let p := if c = slash then p else c :: p
    p.takeWhile (· ≠ slash) :: aliasTexts n (p.dropWhile (· ≠ slash))

/-- The entry for the text in `cprep`, which has room for 100 characters. -/
def buildAlias (words : Option WordTable) (cprep : List UInt8) : Option (PtEntry × WordTable) :=
  if h : 0 ∉ cprep ∧ cprep.length < 100 then do
    let s ← parseIntoWords words ⟨cprep, h.1⟩
    let entry ← s.strings
    if entry.length ≤ maxpphrase then return (entry, s.words) else none
  else none

/-- The list of the entries of one preposition. -/
def buildAliases (words : Option WordTable) :
    List (List UInt8) → Option (List PtEntry × Option WordTable)
  | [] => some ([], words)
  | cprep :: more => do
    let (entry, words) ← buildAlias words cprep
    let (aliases, words) ← buildAliases (some words) more
    return (entry :: aliases, words)

/-- `dbpriv_build_prep_table`. -/
def buildPrepTable (words : Option WordTable) : List (List UInt8) → Option (List (List PtEntry))
  | [] => some []
  | p :: more => do
    let (aliases, words) ← buildAliases words (aliasTexts p.length p)
    let table ← buildPrepTable words more
    return aliases :: table

/-! ## The search -/

/-- `k` behind the loop that compares the words of an alias with the words from `i` on, of which
there are as many. -/
def comparedWords : List (List UInt8) → PtEntry → Nat
  | w :: argv, a :: entry => if mystrcasecmpEq w a then comparedWords argv entry + 1 else 0
  | _, _ => 0

/-- The tests for one alias, with the words from `i` on. -/
def aliasFits (exactMatch : Bool) (argv : List (List UInt8)) (entry : PtEntry) : Bool :=
  decide (entry.length ≤ argv.length) && comparedWords argv entry == entry.length &&
    (!exactMatch || comparedWords argv entry == argv.length)

/-- The loops over the prepositions from `j` on and over their aliases. -/
def tryPreps (exactMatch : Bool) (argv : List (List UInt8)) :
    Nat → List (List PtEntry) → Option (Nat × PtEntry)
  | _, [] => none
  | j, aliases :: table =>
    match aliases.find? (aliasFits exactMatch argv) with
    | some entry => some (j, entry)
    | none => tryPreps exactMatch argv (j + 1) table

/-- What `db_find_prep` finds: the preposition, and `*first` and `*last`. -/
structure FoundPrep where
  prep : Nat
  first : Nat
  last : Nat
  deriving DecidableEq, Repr

/-- The loop over the places from `i` on. -/
def findPrepFrom (exactMatch : Bool) (table : List (List PtEntry)) :
    Nat → List (List UInt8) → Option FoundPrep
  | _, [] => none
  | i, w :: argv =>
    match tryPreps exactMatch (w :: argv) 0 table with
    | some (j, entry) => some ⟨j, i, i + entry.length - 1⟩
    | none => if exactMatch then none else findPrepFrom exactMatch table (i + 1) argv

/-- `db_find_prep` with `first` and `last`. -/
def dbFindPrep (table : List (List PtEntry)) (argv : List (List UInt8)) : Option FoundPrep :=
  findPrepFrom false table 0 argv

/-- `db_find_prep` without `first` and `last`, for the words of a whole name. -/
def dbFindPrepExact (table : List (List PtEntry)) (argv : List (List UInt8)) : Option Nat :=
  (findPrepFrom true table 0 argv).map FoundPrep.prep

/-! ## What is to be found -/

/-- The words from `i` on begin with the alias, but for case. -/
def AliasAt (argv : List (List UInt8)) (i : Nat) (entry : PtEntry) : Prop :=
  entry.map (List.map cmap) <+: (argv.drop i).map (List.map cmap)

instance (argv : List (List UInt8)) (i : Nat) (entry : PtEntry) :
    Decidable (AliasAt argv i entry) := inferInstanceAs (Decidable (_ <+: _))

/-- No alias matches in front of the place `i`. -/
def NoneBefore (table : List (List PtEntry)) (argv : List (List UInt8)) (i : Nat) : Prop :=
  ∀ i' < i, ∀ entry ∈ table.flatten, ¬ AliasAt argv i' entry

/-- `db_find_prep` finds the leftmost place at which an alias matches, and there one with the most
words; nothing if no alias matches anywhere. -/
def FindsLongest (table : List (List PtEntry)) (argv : List (List UInt8)) : Prop :=
  (dbFindPrep table argv = none ↔ NoneBefore table argv argv.length) ∧
    ∀ f, dbFindPrep table argv = some f →
      NoneBefore table argv f.first ∧
        ∃ aliases entry, table[f.prep]? = some aliases ∧ entry ∈ aliases ∧
          AliasAt argv f.first entry ∧ f.last + 1 = f.first + entry.length ∧
          ∀ other ∈ table.flatten, AliasAt argv f.first other → other.length ≤ entry.length

/-- `off of`. -/
def offOf : PtEntry := [asciiBytes "off", asciiBytes "of"]

/-- The leftmost place at which an alias matches has the words `off of`. -/
def OffOfFirst (table : List (List PtEntry)) (argv : List (List UInt8)) : Prop :=
  ∃ i, NoneBefore table argv i ∧ AliasAt argv i offOf

/-! ## The table that is built -/

/-- The table that is built from `prep_list`. -/
def prepTable : List (List PtEntry) :=
  prepList.map fun p => (aliasTexts p.length p).map wordsOf

/-- The text fits into `cprep`, and its words into an entry. -/
def FitsEntry (cprep : List UInt8) : Prop :=
  0 ∉ cprep ∧ cprep.length < 100 ∧ (wordsOf cprep).length ≤ maxpphrase

instance (cprep : List UInt8) : Decidable (FitsEntry cprep) := inferInstanceAs (Decidable (_ ∧ _))

lemma FitsEntry.buildAlias {cprep : List UInt8} (h : FitsEntry cprep) (words : Option WordTable) :
    ∃ words', buildAlias words cprep = some (wordsOf cprep, words') := by
  obtain ⟨h0, hlen, hwords⟩ := h
  obtain ⟨s, hs, hstrings⟩ := exists_parseIntoWords words ⟨cprep, h0⟩
  refine ⟨s.words, ?_⟩
  rw [LambdaMOO.buildAlias, dif_pos ⟨h0, hlen⟩]
  simp only [hs, hstrings, Option.bind_eq_bind, Option.bind_some]
  rw [if_pos hwords]
  rfl

lemma buildAliases_eq {texts : List (List UInt8)} (h : ∀ cprep ∈ texts, FitsEntry cprep)
    (words : Option WordTable) :
    ∃ words', buildAliases words texts = some (texts.map wordsOf, words') := by
  induction texts generalizing words with
  | nil => exact ⟨words, rfl⟩
  | cons cprep texts ih =>
    obtain ⟨words₁, h₁⟩ := (h cprep List.mem_cons_self).buildAlias words
    obtain ⟨words₂, h₂⟩ := ih (fun t ht => h t (List.mem_cons_of_mem _ ht)) (some words₁)
    exact ⟨words₂, by simp [buildAliases, h₁, h₂]⟩

lemma buildPrepTable_eq {list : List (List UInt8)}
    (h : ∀ p ∈ list, ∀ cprep ∈ aliasTexts p.length p, FitsEntry cprep)
    (words : Option WordTable) :
    buildPrepTable words list =
      some (list.map fun p => (aliasTexts p.length p).map wordsOf) := by
  induction list generalizing words with
  | nil => rfl
  | cons p list ih =>
    obtain ⟨words', hp⟩ := buildAliases_eq (h p List.mem_cons_self) words
    have hlist := ih (fun q hq => h q (List.mem_cons_of_mem _ hq)) words'
    simp [buildPrepTable, hp, hlist]

lemma buildPrepTable_prepList (words : Option WordTable) :
    buildPrepTable words prepList = some prepTable :=
  buildPrepTable_eq (by decide +kernel) words

/-! ## The loops -/

section

variable {argv : List (List UInt8)} {entry : PtEntry} {table : List (List PtEntry)}
  {exactMatch : Bool} {i j : Nat}

lemma comparedWords_eq_length_iff :
    comparedWords argv entry = entry.length ↔
      entry.map (List.map cmap) <+: argv.map (List.map cmap) := by
  fun_induction comparedWords argv entry with
  | case1 w argv a entry hsame ih =>
    rw [mystrcasecmpEq_iff, SameWord] at hsame
    simp [ih, hsame]
  | case2 w argv a entry hsame =>
    rw [mystrcasecmpEq_iff, SameWord] at hsame
    simp [Ne.symm hsame]
  | case3 argv entry hcons =>
    cases entry with
    | nil => simp
    | cons a entry =>
      cases argv with
      | nil => simp
      | cons w argv => exact (hcons w argv a entry rfl rfl).elim

lemma aliasFits_false_iff :
    aliasFits false argv entry = true ↔
      entry.map (List.map cmap) <+: argv.map (List.map cmap) := by
  simp only [aliasFits, Bool.not_false, Bool.true_or, Bool.and_true, Bool.and_eq_true,
    decide_eq_true_eq, beq_iff_eq, comparedWords_eq_length_iff]
  constructor
  · exact And.right
  · intro h
    have hlen := h.length_le
    rw [List.length_map, List.length_map] at hlen
    exact ⟨hlen, h⟩

lemma tryPreps_eq_none :
    tryPreps exactMatch argv j table = none ↔
      ∀ entry ∈ table.flatten, ¬ aliasFits exactMatch argv entry = true := by
  induction table generalizing j with
  | nil => simp [tryPreps]
  | cons aliases table ih =>
    rw [tryPreps]
    cases hfind : aliases.find? (aliasFits exactMatch argv) with
    | none =>
      rw [List.find?_eq_none] at hfind
      simp only [ih, List.flatten_cons, List.mem_append]
      constructor
      · rintro h entry (hm | hm)
        · exact hfind entry hm
        · exact h entry hm
      · intro h entry hm
        exact h entry (.inr hm)
    | some entry =>
      simp only [reduceCtorEq, false_iff, List.flatten_cons]
      intro h
      exact h entry (List.mem_append_left _ (List.mem_of_find?_eq_some hfind))
        (List.find?_some hfind)

/-- The alias that is found is the first one of the table that fits. -/
lemma tryPreps_eq_some {j' : Nat} (h : tryPreps exactMatch argv j table = some (j', entry)) :
    ∃ k aliases, j' = j + k ∧ table[k]? = some aliases ∧ entry ∈ aliases ∧
      table.flatten.find? (aliasFits exactMatch argv) = some entry := by
  induction table generalizing j with
  | nil => simp [tryPreps] at h
  | cons aliases table ih =>
    rw [tryPreps] at h
    rw [List.flatten_cons, List.find?_append]
    cases hfind : aliases.find? (aliasFits exactMatch argv) with
    | none =>
      rw [hfind] at h
      obtain ⟨k, aliases', rfl, hk, hm, hf⟩ := ih h
      exact ⟨k + 1, aliases', by omega, by simpa using hk, hm, by simpa using hf⟩
    | some first =>
      rw [hfind] at h
      obtain ⟨rfl, rfl⟩ : j = j' ∧ first = entry := by simpa using h
      exact ⟨0, aliases, rfl, rfl, List.mem_of_find?_eq_some hfind, by simp⟩

lemma findPrepFrom_eq_none :
    findPrepFrom false table i argv = none ↔
      ∀ k < argv.length, tryPreps false (argv.drop k) 0 table = none := by
  induction argv generalizing i with
  | nil => simp [findPrepFrom]
  | cons w argv ih =>
    rw [findPrepFrom, List.length_cons, Nat.forall_lt_succ_left]
    cases htry : tryPreps false (w :: argv) 0 table with
    | none => simpa [htry] using ih
    | some found => simp [htry]

lemma findPrepFrom_eq_some {f : FoundPrep} (h : findPrepFrom false table i argv = some f) :
    ∃ k entry, f.first = i + k ∧ tryPreps false (argv.drop k) 0 table = some (f.prep, entry) ∧
      f.last = f.first + entry.length - 1 ∧
      ∀ k' < k, tryPreps false (argv.drop k') 0 table = none := by
  induction argv generalizing i with
  | nil => simp [findPrepFrom] at h
  | cons w argv ih =>
    rw [findPrepFrom] at h
    cases htry : tryPreps false (w :: argv) 0 table with
    | none =>
      rw [htry] at h
      obtain ⟨k, entry, hfirst, hk, hlast, hnone⟩ := ih (i := i + 1) (by simpa using h)
      refine ⟨k + 1, entry, by omega, hk, hlast, ?_⟩
      intro k' hk'
      cases k' with
      | zero => exact htry
      | succ k' => exact hnone k' (by omega)
    | some found =>
      obtain ⟨j, entry⟩ := found
      rw [htry] at h
      obtain rfl : FoundPrep.mk j i (i + entry.length - 1) = f := by simpa using h
      exact ⟨0, entry, rfl, htry, rfl, fun k' hk' => absurd hk' (Nat.not_lt_zero k')⟩

lemma tryPreps_drop_eq_none :
    tryPreps false (argv.drop i) 0 table = none ↔
      ∀ entry ∈ table.flatten, ¬ AliasAt argv i entry := by
  simp only [tryPreps_eq_none, aliasFits_false_iff, AliasAt]

end

/-! ## The order of the table -/

/-- `off`. -/
def offAlone : PtEntry := [asciiBytes "off"]

/-- No alias but `off of` continues one that stands before it. -/
lemma prepTable_pairwise : prepTable.flatten.Pairwise fun a b =>
    (a.map (List.map cmap) <+: b.map (List.map cmap) → b.length ≤ a.length ∨ b = offOf) ∧
      ¬ (a = offOf ∧ b = offAlone) := by
  decide +kernel

lemma offAlone_mem : offAlone ∈ prepTable.flatten := by decide +kernel

lemma offOf_mem : offOf ∈ prepTable.flatten := by decide +kernel

/-- An alias of two words or more that begins as `off of` does is `off of`. -/
lemma eq_offOf_of_comparable : ∀ entry ∈ prepTable.flatten,
    entry.map (List.map cmap) <+: offOf.map (List.map cmap) ∨
      offOf.map (List.map cmap) <+: entry.map (List.map cmap) →
    entry.length ≤ 1 ∨ entry = offOf := by
  decide +kernel

lemma entry_ne_nil : ∀ entry ∈ prepTable.flatten, entry ≠ [] := by decide +kernel

section

variable {argv : List (List UInt8)} {entry other : PtEntry} {i : Nat}

/-- Of two aliases that match at one place one continues the other. -/
lemma AliasAt.comparable (h : AliasAt argv i entry) (h' : AliasAt argv i other) :
    entry.map (List.map cmap) <+: other.map (List.map cmap) ∨
      other.map (List.map cmap) <+: entry.map (List.map cmap) := by
  obtain hle | hle := le_total (entry.map (List.map cmap)).length (other.map (List.map cmap)).length
  · exact .inl (List.prefix_of_prefix_length_le h h' hle)
  · exact .inr (List.prefix_of_prefix_length_le h' h hle)

/-- An alias has at least one word, so it matches in front of the end only. -/
lemma AliasAt.lt_length (h : AliasAt argv i entry) (hm : entry ∈ prepTable.flatten) :
    i < argv.length := by
  by_contra hi
  rw [AliasAt, List.drop_eq_nil_of_le (by omega), List.map_nil, List.prefix_nil,
    List.map_eq_nil_iff] at h
  exact entry_ne_nil entry hm h

/-- The alias that is found first at a place, against another one that matches there. -/
lemma length_le_of_find?
    (hf : prepTable.flatten.find? (aliasFits false (argv.drop i)) = some entry)
    (hm : other ∈ prepTable.flatten) (h : AliasAt argv i other) :
    other.length ≤ entry.length ∨ other = offOf := by
  obtain ⟨hfits, before, behind, htable, hbefore⟩ := List.find?_eq_some_iff_append.mp hf
  have hentry : AliasAt argv i entry := aliasFits_false_iff.mp hfits
  have hpair := prepTable_pairwise
  rw [htable, List.pairwise_append] at hpair
  rw [htable] at hm
  obtain hm | hm := List.mem_append.mp hm
  · have hnot := hbefore other hm
    rw [aliasFits_false_iff.mpr h] at hnot
    cases hnot
  obtain rfl | hm := List.mem_cons.mp hm
  · exact .inl le_rfl
  obtain hc | hc := hentry.comparable h
  · exact (List.rel_of_pairwise_cons hpair.2.1 hm).1 hc
  · have hlen := hc.length_le
    rw [List.length_map, List.length_map] at hlen
    exact .inl hlen

/-- Where the words are `off of`, `off` is found. -/
lemma length_le_one_of_find?
    (hf : prepTable.flatten.find? (aliasFits false (argv.drop i)) = some entry)
    (h : AliasAt argv i offOf) : entry.length ≤ 1 := by
  obtain ⟨hfits, before, behind, htable, hbefore⟩ := List.find?_eq_some_iff_append.mp hf
  have hentry : AliasAt argv i entry := aliasFits_false_iff.mp hfits
  have hoff : AliasAt argv i offAlone := List.IsPrefix.trans ⟨[asciiBytes "of"], by decide⟩ h
  obtain hle | rfl :=
    eq_offOf_of_comparable entry (List.mem_of_find?_eq_some hf) (hentry.comparable h)
  · exact hle
  have hpair := prepTable_pairwise
  have hmem := offAlone_mem
  rw [htable, List.pairwise_append] at hpair
  rw [htable] at hmem
  obtain hm | hm := List.mem_append.mp hmem
  · have hnot := hbefore offAlone hm
    rw [aliasFits_false_iff.mpr hoff] at hnot
    cases hnot
  obtain heq | hm := List.mem_cons.mp hm
  · exact absurd heq (by decide)
  · exact ((List.rel_of_pairwise_cons hpair.2.1 hm).2 ⟨rfl, rfl⟩).elim

/-- What the search finds, in terms of the order of the table. -/
lemma dbFindPrep_eq_some {f : FoundPrep} (h : dbFindPrep prepTable argv = some f) :
    ∃ aliases entry, prepTable[f.prep]? = some aliases ∧ entry ∈ aliases ∧
      prepTable.flatten.find? (aliasFits false (argv.drop f.first)) = some entry ∧
      f.last + 1 = f.first + entry.length ∧ NoneBefore prepTable argv f.first := by
  obtain ⟨k, entry, hfirst, htry, hlast, hnone⟩ := findPrepFrom_eq_some h
  obtain ⟨j, aliases, hj, haliases, hm, hfind⟩ := tryPreps_eq_some htry
  rw [Nat.zero_add] at hfirst hj
  subst hfirst hj
  have hpos := List.length_pos_iff.mpr (entry_ne_nil entry (List.mem_of_find?_eq_some hfind))
  exact ⟨aliases, entry, haliases, hm, hfind, by omega,
    fun i hi => tryPreps_drop_eq_none.mp (hnone i hi)⟩

lemma dbFindPrep_eq_none :
    dbFindPrep prepTable argv = none ↔ NoneBefore prepTable argv argv.length := by
  simp only [dbFindPrep, findPrepFrom_eq_none, tryPreps_drop_eq_none, NoneBefore]

lemma findsLongest_of_not_offOfFirst (h : ¬ OffOfFirst prepTable argv) :
    FindsLongest prepTable argv := by
  refine ⟨dbFindPrep_eq_none, ?_⟩
  intro f hf
  obtain ⟨aliases, entry, haliases, hm, hfind, hlast, hnone⟩ := dbFindPrep_eq_some hf
  refine ⟨hnone, aliases, entry, haliases, hm, aliasFits_false_iff.mp (List.find?_some hfind),
    hlast, ?_⟩
  intro other hother hat
  obtain hle | rfl := length_le_of_find? hfind hother hat
  · exact hle
  · exact absurd ⟨f.first, hnone, hat⟩ h

lemma not_findsLongest_of_offOfFirst (h : OffOfFirst prepTable argv) :
    ¬ FindsLongest prepTable argv := by
  rintro ⟨-, hsome⟩
  obtain ⟨i, hnone, hat⟩ := h
  have hi := hat.lt_length offOf_mem
  cases hf : dbFindPrep prepTable argv with
  | none => exact dbFindPrep_eq_none.mp hf i hi offOf offOf_mem hat
  | some f =>
    obtain ⟨hnone', aliases, entry, haliases, hm, hentry, hlast, hlongest⟩ := hsome f hf
    obtain ⟨-, found, -, -, hfind, hlast', -⟩ := dbFindPrep_eq_some hf
    have hmem := List.mem_flatten.mpr ⟨aliases, List.mem_of_getElem? haliases, hm⟩
    obtain hlt | heq | hlt := lt_trichotomy f.first i
    · exact hnone f.first hlt entry hmem hentry
    · subst heq
      have hone := length_le_one_of_find? hfind hat
      have htwo : 2 ≤ entry.length := hlongest offOf offOf_mem hat
      omega
    · exact hnone' i hlt offOf offOf_mem hat

end

/-- The alias that is found has the most words at its place exactly if these are not `off of`. -/
theorem dbFindPrep_longest_iff (words : Option WordTable) (argv : List (List UInt8)) :
    ∃ table, buildPrepTable words prepList = some table ∧
      (FindsLongest table argv ↔ ¬ OffOfFirst table argv) :=
  ⟨prepTable, buildPrepTable_prepList words,
    fun h hoff => not_findsLongest_of_offOfFirst hoff h, findsLongest_of_not_offOfFirst⟩

/-- In `off of table` only the word `off` is taken for the preposition. -/
theorem not_findsLongest_off_of : ∃ table, buildPrepTable none prepList = some table ∧
    dbFindPrep table (["off", "of", "table"].map asciiBytes) = some ⟨14, 0, 0⟩ ∧
    ¬ FindsLongest table (["off", "of", "table"].map asciiBytes) :=
  ⟨prepTable, buildPrepTable_prepList none, by decide +kernel,
    not_findsLongest_of_offOfFirst ⟨0, fun _ hi => absurd hi (Nat.not_lt_zero _), by decide⟩⟩

end LambdaMOO
