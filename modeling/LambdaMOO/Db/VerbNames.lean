import LambdaMOO.Strings.Compare
import Mathlib.Data.List.Find
import Mathlib.Data.List.TakeWhile
import Mathlib.Tactic.Common

/-!
# Names of verbs

`verbcasecmp` and the lookup of a verb on an object. The names of a verb are separated by
spaces, and a star in a name tells how far it may be abbreviated.
-/

namespace LambdaMOO

/-- `'*'`. -/
def asterisk : UInt8 := 42

/-- The stars seen in a name so far: none, one inside of it, or one at its end. -/
inductive Star where
  | none
  | inner
  | atEnd
  deriving DecidableEq, Repr

/-- `!*v || *v == ' '`. -/
def atNameEnd : List UInt8 → Bool
  | [] => true
  | c :: _ => c == space

/-- The loop of `verbcasecmp` over one name: `v`, `w` and `star` where it is left. -/
def verbScan : List UInt8 → List UInt8 → Star → List UInt8 × List UInt8 × Star
  | [], w, star => ([], w, star)
  | c :: v, w, star =>
    if c = asterisk then verbScan v w (if atNameEnd v then .atEnd else .inner)
    else if c = space then (c :: v, w, star)
    else
      match w with
      | [] => (c :: v, [], star)
      | d :: w => if cmap d ≠ cmap c then (c :: v, d :: w, star) else verbScan v w star

/-- The test behind the loop. -/
def verbAccepts : List UInt8 × List UInt8 × Star → Bool
  | (v, [], star) => star ≠ .none || atNameEnd v
  | (_, _ :: _, star) => star = .atEnd

/-- The loops to the next name. -/
def nextName (v : List UInt8) : List UInt8 := (v.dropWhile (· != space)).dropWhile (· == space)

section

variable {c d : UInt8} (v w : List UInt8) (star : Star)

@[simp] lemma verbScan_nil : verbScan [] w star = ([], w, star) := by simp [verbScan]

@[simp] lemma verbScan_asterisk :
    verbScan (asterisk :: v) w star = verbScan v w (if atNameEnd v then .atEnd else .inner) := by
  simp [verbScan]

@[simp] lemma verbScan_space : verbScan (space :: v) w star = (space :: v, w, star) := by
  simp [verbScan, space, asterisk]

lemma verbScan_word_nil (ha : c ≠ asterisk) (hs : c ≠ space) :
    verbScan (c :: v) [] star = (c :: v, [], star) := by
  rw [verbScan, if_neg ha, if_neg hs]

lemma verbScan_word_cons (ha : c ≠ asterisk) (hs : c ≠ space) :
    verbScan (c :: v) (d :: w) star =
      if cmap d ≠ cmap c then (c :: v, d :: w, star) else verbScan v w star := by
  rw [verbScan, if_neg ha, if_neg hs]

end

lemma verbScan_suffix (v w : List UInt8) (star : Star) : (verbScan v w star).1 <:+ v := by
  induction v generalizing w star with
  | nil => simp
  | cons c v ih =>
    by_cases ha : c = asterisk
    · subst ha
      rw [verbScan_asterisk]
      exact (ih _ _).trans (List.suffix_cons _ v)
    by_cases hs : c = space
    · subst hs
      simp
    cases w with
    | nil => simp [verbScan_word_nil v star ha hs]
    | cons d w =>
      rw [verbScan_word_cons v w star ha hs]
      split_ifs
      · exact List.suffix_refl _
      · exact (ih _ _).trans (List.suffix_cons c v)

lemma nextName_length (v : List UInt8) : (nextName v).length ≤ v.length :=
  ((List.dropWhile_suffix _).trans (List.dropWhile_suffix _)).length_le

lemma nextName_cons_length (c : UInt8) (v : List UInt8) :
    (nextName (c :: v)).length ≤ v.length := by
  unfold nextName
  by_cases hc : c = space
  · rw [List.dropWhile_cons_of_neg (by simp [hc]), List.dropWhile_cons_of_pos (by simp [hc])]
    exact (List.dropWhile_suffix _).length_le
  · rw [List.dropWhile_cons_of_pos (by simp [hc])]
    exact nextName_length v

/-- Each turn of the outer loop shortens what is left of the names. -/
lemma nextName_verbScan_lt (c : UInt8) (v w : List UInt8) (star : Star) :
    (nextName (verbScan (c :: v) w star).1).length < (c :: v).length := by
  obtain h | h := List.suffix_cons_iff.mp (verbScan_suffix (c :: v) w star)
  · rw [h]
    exact Nat.lt_succ_of_le (nextName_cons_length c v)
  · exact Nat.lt_succ_of_le ((nextName_length _).trans h.length_le)

/-- `verbcasecmp` without the comparison of the pointers. -/
def verbMatches : List UInt8 → List UInt8 → Bool
  | [], _ => false
  | c :: v, word =>
    let scan := verbScan (c :: v) word .none
    if verbAccepts scan then true else verbMatches (nextName scan.1) word
  termination_by v => v.length
  decreasing_by exact nextName_verbScan_lt c v word .none

/-- A string at its address. -/
structure SharedString where
  addr : Nat
  text : List UInt8

/-- `verbcasecmp`. -/
def verbcasecmp (verb word : SharedString) : Bool :=
  if verb.addr = word.addr then true else verbMatches verb.text word.text

/-- `Verbdef`, as far as a lookup by name looks at it. -/
structure SharedVerbdef where
  name : SharedString
  perms : UInt16

/-- `VF_EXEC`. -/
def vfExec : UInt16 := 4

/-- `find_verbdef_by_name`. -/
def findVerbdefByName (verbdefs : List SharedVerbdef) (vname : SharedString) (checkXBit : Bool) :
    Option SharedVerbdef :=
  verbdefs.find? fun v => verbcasecmp v.name vname && (!checkXBit || v.perms &&& vfExec ≠ 0)

/-- The names that `validate_verb_info` takes from the argument of `add_verb` or
`set_verb_info`. -/
def validateNames (names : List UInt8) : Option (List UInt8) :=
  match names.dropWhile (· == space) with
  | [] => none
  | c :: names => some (c :: names)

/-! ## What names stand for -/

/-- The names in a string of names. -/
def verbNames (names : List UInt8) : List (List UInt8) :=
  (names.splitOn space).filter (· ≠ [])

/-- A name without its stars. -/
def nameLetters (name : List UInt8) : List UInt8 := name.filter (· != asterisk)

/-- The length of the part of a name before its first star. -/
def leastLength (name : List UInt8) : Nat := (name.takeWhile (· != asterisk)).length

/-- The name matches the word. -/
def NameMatches (name word : List UInt8) : Prop :=
  if asterisk ∈ name then
    (PrefixWord word (nameLetters name) ∧ leastLength name ≤ word.length) ∨
      (name.getLast? = some asterisk ∧ PrefixWord (nameLetters name) word)
  else SameWord word (nameLetters name)

/-! ## One name -/

lemma cmap_eq_asterisk {c : UInt8} : cmap c = asterisk ↔ c = asterisk :=
  cmap_eq_iff (by decide) (by decide)

lemma cmap_eq_space {c : UInt8} : cmap c = space ↔ c = space :=
  cmap_eq_iff (by decide) (by decide)

lemma prefixWord_cons {c d : UInt8} {w p : List UInt8} :
    PrefixWord (d :: w) (c :: p) ↔ cmap d = cmap c ∧ PrefixWord w p := by
  simp only [PrefixWord, List.map_cons, List.cons_prefix_cons]

@[simp] lemma prefixWord_nil_left (p : List UInt8) : PrefixWord [] p := List.nil_prefix

@[simp] lemma prefixWord_nil_right {w : List UInt8} : PrefixWord w [] ↔ w = [] := by
  simp [PrefixWord]

@[simp] lemma nameLetters_asterisk (n : List UInt8) :
    nameLetters (asterisk :: n) = nameLetters n := by
  simp [nameLetters]

lemma nameLetters_cons {c : UInt8} (hc : c ≠ asterisk) (n : List UInt8) :
    nameLetters (c :: n) = c :: nameLetters n := by
  simp [nameLetters, hc]

@[simp] lemma leastLength_asterisk (n : List UInt8) : leastLength (asterisk :: n) = 0 := by
  simp [leastLength]

lemma leastLength_cons {c : UInt8} (hc : c ≠ asterisk) (n : List UInt8) :
    leastLength (c :: n) = leastLength n + 1 := by
  simp [leastLength, hc]

lemma atNameEnd_append {n rest : List UInt8} (hn : space ∉ n) (hrest : atNameEnd rest) :
    atNameEnd (n ++ rest) = decide (n = []) := by
  cases n with
  | nil => simpa using hrest
  | cons c n =>
    have hc : c ≠ space := fun h => hn (h ▸ List.mem_cons_self)
    simp [atNameEnd, hc]

/-- What the scan over the rest `n` of a name decides, when the part before it has been found
in the word and has left the stars in the state `star`. -/
def RestMatches (n w : List UInt8) (star : Star) : Prop :=
  (PrefixWord w (nameLetters n) ∧
    (star ≠ .none ∨ (asterisk ∈ n ∧ leastLength n ≤ w.length) ∨
      w.length = (nameLetters n).length)) ∨
  (PrefixWord (nameLetters n) w ∧ if n = [] then star = .atEnd else n.getLast? = some asterisk)

lemma restMatches_asterisk (n w : List UInt8) (star : Star) :
    RestMatches (asterisk :: n) w star ↔
      RestMatches n w (if n = [] then .atEnd else .inner) := by
  cases n with
  | nil => simp [RestMatches]
  | cons c n => simp [RestMatches]

lemma restMatches_word_nil {c : UInt8} (ha : c ≠ asterisk) (n : List UInt8) (star : Star) :
    RestMatches (c :: n) [] star ↔ star ≠ .none := by
  simp [RestMatches, nameLetters_cons ha, leastLength_cons ha]

lemma restMatches_word_cons {c d : UInt8} (ha : c ≠ asterisk) (n w : List UInt8) {star : Star}
    (hstar : star ≠ .atEnd) :
    RestMatches (c :: n) (d :: w) star ↔ cmap d = cmap c ∧ RestMatches n w star := by
  have hlast : (c :: n).getLast? = some asterisk ↔
      if n = [] then star = .atEnd else n.getLast? = some asterisk := by
    cases n with
    | nil => simp [ha, hstar]
    | cons e n => simp
  have hmem : asterisk ∈ c :: n ↔ asterisk ∈ n := by simp [ha.symm]
  unfold RestMatches
  rw [if_neg (List.cons_ne_nil c n), hlast, hmem, nameLetters_cons ha, leastLength_cons ha,
    prefixWord_cons, prefixWord_cons, eq_comm (a := cmap c)]
  simp only [List.length_cons, Nat.add_le_add_iff_right, Nat.add_right_cancel_iff]
  tauto

/-- The scan over what is left of a name. It stops in the name, or behind it. -/
lemma verbScan_append {rest : List UInt8} (hrest : atNameEnd rest) (n w : List UInt8) (star : Star)
    (hn : space ∉ n) (hstar : star = .atEnd → n = []) :
    (verbAccepts (verbScan (n ++ rest) w star) ↔ RestMatches n w star) ∧
      ∃ n', space ∉ n' ∧ (verbScan (n ++ rest) w star).1 = n' ++ rest := by
  induction n generalizing w star with
  | nil =>
    have hscan : verbScan rest w star = (rest, w, star) := by
      cases rest with
      | nil => simp
      | cons c rest =>
        obtain rfl : c = space := by simpa [atNameEnd] using hrest
        simp
    rw [List.nil_append, hscan]
    refine ⟨?_, [], List.not_mem_nil, rfl⟩
    cases w with
    | nil => simp [verbAccepts, hrest, RestMatches, nameLetters]
    | cons d w => simp [verbAccepts, RestMatches, nameLetters]
  | cons c n ih =>
    have hs : c ≠ space := fun h => hn (h ▸ List.mem_cons_self)
    have hn' : space ∉ n := fun h => hn (List.mem_cons_of_mem c h)
    have hstar' : star ≠ .atEnd := fun h => List.cons_ne_nil c n (hstar h)
    have hhere : ∃ n', space ∉ n' ∧ c :: n ++ rest = n' ++ rest := ⟨c :: n, hn, rfl⟩
    rw [List.cons_append]
    by_cases ha : c = asterisk
    · subst ha
      rw [verbScan_asterisk, atNameEnd_append hn' hrest, restMatches_asterisk]
      simp only [decide_eq_true_eq]
      apply ih _ _ hn'
      split_ifs with h
      · exact fun _ => h
      · rintro ⟨⟩
    cases w with
    | nil =>
      rw [verbScan_word_nil _ _ ha hs, restMatches_word_nil ha]
      refine ⟨?_, hhere⟩
      simp [verbAccepts, atNameEnd, hs]
    | cons d w =>
      rw [verbScan_word_cons _ _ _ ha hs, restMatches_word_cons ha n w hstar']
      split_ifs with hd
      · refine ⟨?_, hhere⟩
        simp [verbAccepts, hstar', hd]
      · obtain ⟨haccepts, hleft⟩ := ih w star hn' (fun h => absurd h hstar')
        refine ⟨?_, hleft⟩
        rw [haccepts, and_iff_right (not_not.mp hd)]

lemma sameWord_iff {w p : List UInt8} : SameWord w p ↔ PrefixWord w p ∧ w.length = p.length := by
  constructor
  · intro h
    refine ⟨?_, by simpa using congrArg List.length h⟩
    rw [PrefixWord, h]
  · rintro ⟨h, hlen⟩
    exact h.eq_of_length (by simpa using hlen)

lemma leastLength_le (name : List UInt8) : leastLength name ≤ (nameLetters name).length := by
  induction name with
  | nil => exact Nat.le_refl 0
  | cons c name ih =>
    by_cases ha : c = asterisk
    · simp [ha]
    · rw [leastLength_cons ha, nameLetters_cons ha]
      exact Nat.succ_le_succ ih

/-- The scan over a whole name decides whether it matches. -/
lemma restMatches_iff {name : List UInt8} (hname : name ≠ []) (w : List UInt8) :
    RestMatches name w .none ↔ NameMatches name w := by
  have hleast := leastLength_le name
  unfold RestMatches NameMatches
  rw [if_neg hname]
  split_ifs with ha
  · constructor
    · rintro (⟨h, hn | ⟨-, hle⟩ | hlen⟩ | ⟨h, hlast⟩)
      · exact absurd rfl hn
      · exact Or.inl ⟨h, hle⟩
      · exact Or.inl ⟨h, hlen ▸ hleast⟩
      · exact Or.inr ⟨hlast, h⟩
    · rintro (⟨h, hle⟩ | ⟨hlast, h⟩)
      · exact Or.inl ⟨h, Or.inr (Or.inl ⟨ha, hle⟩)⟩
      · exact Or.inr ⟨h, hlast⟩
  · have hlast : name.getLast? ≠ some asterisk := fun h => ha (List.mem_of_getLast? h)
    rw [sameWord_iff]
    simp [ha, hlast]

/-! ## All names -/

lemma atNameEnd_dropWhile (s : List UInt8) : atNameEnd (s.dropWhile (· != space)) := by
  induction s with
  | nil => rfl
  | cons c s ih =>
    rw [List.dropWhile_cons]
    split_ifs with hc
    · exact ih
    · simpa [atNameEnd] using hc

lemma space_notMem_takeWhile (s : List UInt8) : space ∉ s.takeWhile (· != space) := by
  intro h
  simpa using List.mem_takeWhile_imp h

lemma verbNames_space (s : List UInt8) : verbNames (space :: s) = verbNames s := by
  simp [verbNames, List.splitOn_cons_eq_if_modifyHead]

lemma verbNames_dropWhile (s : List UInt8) :
    verbNames (s.dropWhile (· == space)) = verbNames s := by
  induction s with
  | nil => rfl
  | cons c s ih =>
    rw [List.dropWhile_cons]
    split_ifs with hc
    · obtain rfl : c = space := by simpa using hc
      rw [ih, verbNames_space]
    · rfl

lemma verbNames_append {name rest : List UInt8} (hname : name ≠ []) (hn : space ∉ name)
    (hrest : atNameEnd rest) : verbNames (name ++ rest) = name :: verbNames rest := by
  cases rest with
  | nil =>
    rw [List.append_nil, verbNames, List.splitOn_eq_singleton hn]
    simp [hname, verbNames, List.splitOn_eq_singleton]
  | cons c rest =>
    obtain rfl : c = space := by simpa [atNameEnd] using hrest
    rw [verbNames_space, verbNames, List.splitOn_append_cons_self_of_not_mem hn]
    simp [hname, verbNames]

lemma nextName_append {n' rest : List UInt8} (hn : space ∉ n') (hrest : atNameEnd rest) :
    nextName (n' ++ rest) = rest.dropWhile (· == space) := by
  have hdrop : (n' ++ rest).dropWhile (· != space) = rest := by
    rw [List.dropWhile_append_of_pos]
    · cases rest with
      | nil => rfl
      | cons c rest =>
        obtain rfl : c = space := by simpa [atNameEnd] using hrest
        simp
    · intro c hc
      exact bne_iff_ne.mpr (ne_of_mem_of_not_mem hc hn)
  rw [nextName, hdrop]

lemma head?_dropWhile_ne_space (s : List UInt8) :
    (s.dropWhile (· == space)).head? ≠ some space := by
  intro h
  have hnot := List.head?_dropWhile_not (· == space) s
  rw [h] at hnot
  simp at hnot

/-- The scan accepts a word if and only if one of the names matches it. -/
lemma verbMatches_iff (names word : List UInt8) (h : names.head? ≠ some space) :
    verbMatches names word = true ↔ ∃ name ∈ verbNames names, NameMatches name word := by
  induction hk : names.length using Nat.strong_induction_on generalizing names with
  | _ k ih =>
  cases names with
  | nil => simp [verbMatches, verbNames]
  | cons c v =>
    obtain ⟨name, rest, hsplit, hname, hn, hrest⟩ : ∃ name rest, c :: v = name ++ rest ∧
        name ≠ [] ∧ space ∉ name ∧ atNameEnd rest := by
      have hc : c ≠ space := fun hc => h (hc ▸ rfl)
      refine ⟨_, _, (List.takeWhile_append_dropWhile (p := (· != space))).symm, ?_,
        space_notMem_takeWhile _, atNameEnd_dropWhile _⟩
      simp [hc]
    obtain ⟨haccepts, n', hn', hleft⟩ := verbScan_append hrest name word .none hn (by rintro ⟨⟩)
    have hnext : nextName (verbScan (c :: v) word .none).1 = rest.dropWhile (· == space) := by
      rw [hsplit, hleft, nextName_append hn' hrest]
    have hlt := nextName_verbScan_lt c v word .none
    rw [← hsplit, restMatches_iff hname] at haccepts
    rw [hnext] at hlt
    have ihrest := ih _ (hk ▸ hlt) _ (head?_dropWhile_ne_space rest) rfl
    rw [verbNames_dropWhile] at ihrest
    rw [verbMatches, hnext, hsplit, verbNames_append hname hn hrest]
    simp only [List.mem_cons, exists_eq_or_imp]
    rw [← ihrest, ← haccepts, ← hsplit]
    split_ifs with ha
    · simp [ha]
    · simp [ha]

/-- `verbcasecmp` accepts a word that is stored elsewhere if and only if one of the names matches
it. -/
theorem verbcasecmp_iff (verb word : SharedString) (haddr : verb.addr ≠ word.addr)
    (h : verb.text.head? ≠ some space) :
    verbcasecmp verb word = true ↔
      ∃ name ∈ verbNames verb.text, NameMatches name word.text := by
  rw [verbcasecmp, if_neg haddr]
  exact verbMatches_iff verb.text word.text h

/-- The names `l*ook ex*` and the word `Examine`. -/
theorem verbcasecmp_iff_look :
    verbcasecmp ⟨1, [108, 42, 111, 111, 107, 32, 101, 120, 42]⟩ ⟨2, [69, 120, 97, 109, 105]⟩
        = true ↔
      ∃ name ∈ verbNames [108, 42, 111, 111, 107, 32, 101, 120, 42],
        NameMatches name [69, 120, 97, 109, 105] :=
  verbcasecmp_iff ⟨1, [108, 42, 111, 111, 107, 32, 101, 120, 42]⟩ ⟨2, [69, 120, 97, 109, 105]⟩
    (by decide) (by decide)

/-! ## Words that are their own names -/

/-- The shortcut and the scan agree on a string that is looked up under itself, and it does not
matter to a lookup with this word whether names share its storage. -/
structure SharingIrrelevant (s : List UInt8) : Prop where
  scan : verbMatches s s = true
  lookup : ∀ (verbdefs : List SharedVerbdef) (vname : SharedString) (checkXBit : Bool),
    vname.text = s → (∀ v ∈ verbdefs, v.name.addr = vname.addr → v.name.text = vname.text) →
    findVerbdefByName verbdefs vname checkXBit = verbdefs.find? fun v =>
      verbMatches v.name.text vname.text && (!checkXBit || v.perms &&& vfExec ≠ 0)

/-- The string is a single name without a star, or one of its names ends in a star and has
letters with which the string begins. -/
def BeginsWithName (s : List UInt8) : Prop :=
  (asterisk ∉ s ∧ space ∉ s) ∨
    ∃ name ∈ verbNames s, name.getLast? = some asterisk ∧
      PrefixWord (nameLetters name) (s.takeWhile fun c => c != asterisk && c != space)

lemma validateNames_eq_some {s t : List UInt8} (h : validateNames t = some s) :
    s ≠ [] ∧ s.head? ≠ some space := by
  have hhead := head?_dropWhile_ne_space t
  unfold validateNames at h
  split at h
  · cases h
  · rename_i c names heq
    obtain rfl := Option.some.inj h
    exact ⟨List.cons_ne_nil c names, heq ▸ hhead⟩

lemma asterisk_notMem_nameLetters (name : List UInt8) : asterisk ∉ nameLetters name := by
  simp [nameLetters]

/-- A prefix without a star and without a space lies before the first of them. -/
lemma prefixWord_takeWhile {p s : List UInt8} (ha : asterisk ∉ p) (hs : space ∉ p) :
    PrefixWord p (s.takeWhile fun c => c != asterisk && c != space) ↔ PrefixWord p s := by
  induction s generalizing p with
  | nil => rfl
  | cons c s ih =>
    cases p with
    | nil => simp
    | cons d p =>
      have hd : d ≠ asterisk ∧ d ≠ space :=
        ⟨fun h => ha (h ▸ List.mem_cons_self), fun h => hs (h ▸ List.mem_cons_self)⟩
      have hp := ih (fun h => ha (List.mem_cons_of_mem d h)) (fun h => hs (List.mem_cons_of_mem d h))
      rw [List.takeWhile_cons, prefixWord_cons]
      split_ifs with hc
      · rw [prefixWord_cons, hp]
      · refine iff_of_false (by simp) fun h => hc ?_
        have hca : c ≠ asterisk := by
          rintro rfl
          exact hd.1 (cmap_eq_asterisk.mp h.1)
        have hcs : c ≠ space := by
          rintro rfl
          exact hd.2 (cmap_eq_space.mp h.1)
        simp [hca, hcs]

lemma PrefixWord.asterisk_notMem {w p : List UInt8} (h : PrefixWord w p) (ha : asterisk ∉ p) :
    asterisk ∉ w := by
  intro hw
  obtain ⟨c, hc, heq⟩ := List.mem_map.mp (h.subset (List.mem_map_of_mem hw))
  exact ha (cmap_eq_asterisk.mp heq ▸ hc)

lemma PrefixWord.space_notMem {w p : List UInt8} (h : PrefixWord w p) (hs : space ∉ p) :
    space ∉ w := by
  intro hw
  obtain ⟨c, hc, heq⟩ := List.mem_map.mp (h.subset (List.mem_map_of_mem hw))
  exact hs (cmap_eq_space.mp heq ▸ hc)

/-- A name is a part of the string without a space. -/
lemma mem_splitOn_space {s part : List UInt8} (h : part ∈ s.splitOn space) :
    space ∉ part ∧ part ⊆ s := by
  induction s generalizing part with
  | nil =>
    obtain rfl : part = [] := by simpa [List.splitOn_eq_splitOnP] using h
    exact ⟨List.not_mem_nil, List.Subset.refl _⟩
  | cons c s ih =>
    obtain ⟨p, parts, hparts⟩ := List.exists_cons_of_ne_nil (List.splitOn_ne_nil space s)
    rw [List.splitOn_cons_eq_if_modifyHead, hparts] at h
    rw [hparts] at ih
    split_ifs at h with hc
    · rcases List.mem_cons.mp h with rfl | h
      · exact ⟨List.not_mem_nil, List.nil_subset _⟩
      · exact ⟨(ih h).1, List.subset_cons_of_subset c (ih h).2⟩
    · rw [List.modifyHead_cons] at h
      rcases List.mem_cons.mp h with rfl | h
      · have hp := ih List.mem_cons_self
        refine ⟨?_, List.cons_subset_cons c hp.2⟩
        rw [List.mem_cons, not_or]
        exact ⟨fun heq => hc (beq_iff_eq.mpr heq.symm), hp.1⟩
      · have hp := ih (List.mem_cons_of_mem p h)
        exact ⟨hp.1, List.subset_cons_of_subset c hp.2⟩

lemma mem_verbNames {s name : List UInt8} (h : name ∈ verbNames s) :
    space ∉ name ∧ name ⊆ s :=
  mem_splitOn_space (List.mem_filter.mp h).1

lemma nameLetters_eq_self {name : List UInt8} (h : asterisk ∉ name) : nameLetters name = name := by
  apply List.filter_eq_self.mpr
  intro c hc
  exact bne_iff_ne.mpr (ne_of_mem_of_not_mem hc h)

/-- A string of names has itself among the words it matches if and only if it begins with a
name in this way. -/
lemma verbMatches_self_iff {s : List UInt8} (hs : s ≠ []) (hhead : s.head? ≠ some space) :
    verbMatches s s = true ↔ BeginsWithName s := by
  rw [verbMatches_iff s s hhead]
  constructor
  · rintro ⟨name, hname, hmatch⟩
    obtain ⟨hspace, hsub⟩ := mem_verbNames hname
    have hletters := asterisk_notMem_nameLetters name
    have hspace' : space ∉ nameLetters name := fun h => hspace (List.mem_filter.mp h).1
    unfold NameMatches at hmatch
    split_ifs at hmatch with ha
    · rcases hmatch with ⟨hword, -⟩ | ⟨hlast, hprefix⟩
      · exact absurd (hsub ha) (hword.asterisk_notMem hletters)
      · exact Or.inr ⟨name, hname, hlast, (prefixWord_takeWhile hletters hspace').mpr hprefix⟩
    · have hword := (sameWord_iff.mp hmatch).1
      exact Or.inl ⟨hword.asterisk_notMem hletters, hword.space_notMem hspace'⟩
  · rintro (⟨ha, hspace⟩ | ⟨name, hname, hlast, hprefix⟩)
    · have hnames : verbNames s = [s] := by
        have happend := verbNames_append hs hspace (show atNameEnd [] from rfl)
        rwa [List.append_nil] at happend
      refine ⟨s, hnames ▸ List.mem_singleton_self s, ?_⟩
      rw [NameMatches, if_neg ha, nameLetters_eq_self ha]
      rfl
    · obtain ⟨hspace, -⟩ := mem_verbNames hname
      have hspace' : space ∉ nameLetters name := fun h => hspace (List.mem_filter.mp h).1
      have hletters := asterisk_notMem_nameLetters name
      refine ⟨name, hname, ?_⟩
      rw [NameMatches, if_pos (List.mem_of_getLast? hlast)]
      exact Or.inr ⟨hlast, (prefixWord_takeWhile hletters hspace').mp hprefix⟩

/-- Sharing is irrelevant to a lookup under the names of a verb if and only if they begin with
one of them. -/
theorem sharingIrrelevant_iff (s t : List UInt8) (h : validateNames t = some s) :
    SharingIrrelevant s ↔ BeginsWithName s := by
  obtain ⟨hs, hhead⟩ := validateNames_eq_some h
  rw [← verbMatches_self_iff hs hhead]
  constructor
  · exact fun h => h.scan
  · intro hscan
    refine ⟨hscan, ?_⟩
    rintro verbdefs vname checkXBit rfl hshared
    apply List.find?_congr
    intro v hv
    rw [verbcasecmp]
    split_ifs with haddr
    · rw [hshared v hv haddr, hscan]
    · rfl

/-- The names `get*` match themselves. -/
theorem sharingIrrelevant_iff_get :
    SharingIrrelevant [103, 101, 116, 42] ↔ BeginsWithName [103, 101, 116, 42] :=
  sharingIrrelevant_iff [103, 101, 116, 42] [32, 103, 101, 116, 42] rfl

/-- The names `a b`. A verb with these names is found under its own string and not under a copy
of it. -/
theorem not_sharingIrrelevant_two_names :
    validateNames [97, 32, 98] = some [97, 32, 98] ∧
      (findVerbdefByName [⟨⟨1, [97, 32, 98]⟩, 4⟩] ⟨1, [97, 32, 98]⟩ true).isSome ∧
      (findVerbdefByName [⟨⟨1, [97, 32, 98]⟩, 4⟩] ⟨2, [97, 32, 98]⟩ true).isNone ∧
      ¬ SharingIrrelevant [97, 32, 98] := by
  have hscan : verbMatches [97, 32, 98] [97, 32, 98] = false := by
    simp [verbMatches, verbScan, verbAccepts, nextName, asterisk, space, cmap]
  refine ⟨rfl, rfl, ?_, fun h => ?_⟩
  · simp [findVerbdefByName, verbcasecmp, hscan]
  · exact absurd (hscan.symm.trans h.scan) Bool.false_ne_true

end LambdaMOO
