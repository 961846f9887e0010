import LambdaMOO.Strings.Compare
import LambdaMOO.Db.OperationsSpec
import LambdaMOO.Db.Reachable
import LambdaMOO.Db.Text

/-!
# Matching objects

`match.c`: the object that a word of a command means, by the names and aliases of what the player
has and sees. Nothing is the result where the server would crash or not come to an end.
-/

namespace LambdaMOO

namespace Db

variable {P : Type}

/-- `AMBIGUOUS`. -/
def ambiguous : Int := -2

/-- `FAILED_MATCH`. -/
def failedMatch : Int := -3

/-- The bytes of a string. -/
def stringBytes (s : String) : List UInt8 := s.toUTF8.toList

def aliasesName : String := "aliases"

/-- `aliases`. The name is none of the built-in ones. -/
def aliases (objects : Objects P) (oid : Int) : Option (List Var) :=
  match dbFindProperty objects oid aliasesName with
  | some (.slot _ n) => do
    match ← valueOnLine objects objects.length oid n with
    | .list names => return names
    | _ => return []
  | _ => some []

/-- The strings that the loop of `match_proc` looks at. -/
def matchNames (objects : Objects P) (oid : Int) : Option (List (List UInt8)) := do
  let o ← findObject objects oid
  let names ← aliases objects oid
  return stringBytes o.name :: names.filterMap fun
    | .str s => some (stringBytes s)
    | _ => none

/-- `exact` and `partial` of `struct match_data`. -/
structure MatchData where
  exactMatch : Int
  partialMatch : Int
  deriving DecidableEq, Repr

/-- The body of the loop of `match_proc`, and whether it returns. -/
def matchName (word : List UInt8) (oid : Int) (name : List UInt8) (d : MatchData) :
    Bool × MatchData :=
  if mystrncasecmpEq name word word.length then
    if name.length = word.length then
      if d.exactMatch = nothing ∨ d.exactMatch = oid then (false, { d with exactMatch := oid })
      else (true, d)
    else if d.partialMatch = failedMatch ∨ d.partialMatch = oid then
      (false, { d with partialMatch := oid })
    else (false, { d with partialMatch := ambiguous })
  else (false, d)

/-- The loop of `match_proc`. -/
def matchEach (word : List UInt8) (oid : Int) : List (List UInt8) → MatchData → Bool × MatchData
  | [], d => (false, d)
  | name :: names, d =>
    match matchName word oid name d with
    | (true, d) => (true, d)
    | (false, d) => matchEach word oid names d

/-- `match_proc`. -/
def matchProc (objects : Objects P) (word : List UInt8) (oid : Int) (d : MatchData) :
    Option (Bool × MatchData) := do
  let names ← matchNames objects oid
  return matchEach word oid names d

/-- The loop of `db_for_all_contents` from `c` on. -/
def forAllOnList {σ : Type} (objects : Objects P) (func : Int → σ → Option (Bool × σ)) :
    Nat → Int → σ → Option (Bool × σ)
  | 0, _, _ => none
  | n + 1, c, d =>
    if c = nothing then some (false, d)
    else do
      let (stop, d) ← func c d
      if stop then return (true, d)
      else
        let o ← findObject objects c
        forAllOnList objects func n o.next d

/-- `db_for_all_contents`. -/
def dbForAllContents {σ : Type} (objects : Objects P) (oid : Int)
    (func : Int → σ → Option (Bool × σ)) (d : σ) : Option (Bool × σ) := do
  let o ← findObject objects oid
  forAllOnList objects func (objects.length + 1) o.contents d

/-- One step of the loop of `match_contents`. -/
def matchIn (objects : Objects P) (word : List UInt8) (oid : Int) (d : MatchData) :
    Option (Bool × MatchData) :=
  if isValid objects oid then dbForAllContents objects oid (matchProc objects word) d
  else some (false, d)

/-- `match_contents`. -/
def matchContents (objects : Objects P) (player : Int) (word : List UInt8) : Option Int :=
  if isValid objects player then do
    let o ← findObject objects player
    let (stop, d) ← matchIn objects word player ⟨nothing, failedMatch⟩
    if stop then return ambiguous
    else
      let (stop, d) ← matchIn objects word o.location d
      if stop then return ambiguous
      else if d.exactMatch ≠ nothing then return d.exactMatch
      else return d.partialMatch
  else some failedMatch

/-- `match_object`. -/
def matchObject (objects : Objects P) (player : Int) : List UInt8 → Option Int
  | [] => some nothing
  | c :: word =>
    -- 35 is the character `#`
    if c = 35 then
      let (r, p, _) := strtoimax (word.map fun b => Char.ofNat b.toNat)
      if p ≠ [] ∨ ¬ isValid objects r then some failedMatch else some r
    else if isValid objects player then
      if mystrcasecmpEq (c :: word) (asciiBytes "me") then some player
      else if mystrcasecmpEq (c :: word) (asciiBytes "here") then
        (findObject objects player).map Object.location
      else matchContents objects player (c :: word)
    else some failedMatch

/-! ## What the word means -/

/-- The object is one of the contents of `oid`. -/
def Contains (objects : Objects P) (oid x : Int) : Prop :=
  ∃ o ks, findObject objects oid = some o ∧ Along objects Object.next o.contents ks ∧ x ∈ ks

/-- The player has the object, or is where it is. -/
def Near (objects : Objects P) (player x : Int) : Prop :=
  Contains objects player x ∨
    ∃ o, findObject objects player = some o ∧ Contains objects o.location x

/-- The object has a name or alias that is the word, but for case. -/
def MatchesExactly (objects : Objects P) (word : List UInt8) (x : Int) : Prop :=
  ∃ names, matchNames objects x = some names ∧ ∃ name ∈ names, SameWord name word

/-- The object has a name or alias that goes on behind the word. -/
def MatchesPartly (objects : Objects P) (word : List UInt8) (x : Int) : Prop :=
  ∃ names, matchNames objects x = some names ∧
    ∃ name ∈ names, PrefixWord word name ∧ ¬ SameWord name word

/-- The only one of some objects, or `AMBIGUOUS` if there are several. -/
def OnlyOne (among : Int → Prop) (r : Int) : Prop :=
  (among r ∧ ∀ x, among x → x = r) ∨ (r = ambiguous ∧ ∃ x y, among x ∧ among y ∧ x ≠ y)

/-- The only exact match; if there is none, the only partial one; if there is none either,
`FAILED_MATCH`. -/
def Means (objects : Objects P) (player : Int) (word : List UInt8) (r : Int) : Prop :=
  let exactly x := Near objects player x ∧ MatchesExactly objects word x
  let partly x := Near objects player x ∧ MatchesPartly objects word x
  OnlyOne exactly r ∨ ((∀ x, ¬ exactly x) ∧
    (OnlyOne partly r ∨ ((∀ x, ¬ partly x) ∧ r = failedMatch)))

/-- The word is looked up among the names of objects. -/
def IsName (word : List UInt8) : Prop :=
  word ≠ [] ∧ word.head? ≠ some 35 ∧ ¬ SameWord word (asciiBytes "me") ∧
    ¬ SameWord word (asciiBytes "here")

/-! ## Candidates -/

/-- An object that was seen with the word as its name. -/
def SeenExactly (word : List UInt8) (seen : List (Int × List UInt8)) (x : Int) : Prop :=
  ∃ name, (x, name) ∈ seen ∧ SameWord name word

/-- An object that was seen with a name that goes on behind the word. -/
def SeenPartly (word : List UInt8) (seen : List (Int × List UInt8)) (x : Int) : Prop :=
  ∃ name, (x, name) ∈ seen ∧ PrefixWord word name ∧ ¬ SameWord name word

instance (word : List UInt8) : Decidable (IsName word) := inferInstanceAs (Decidable (_ ∧ _))

/-- What `match_data` says about the exact and the partial matches seen so far. -/
structure Accumulated (exactly partly : Int → Prop) (d : MatchData) : Prop where
  nonneg : ∀ x, exactly x ∨ partly x → 0 ≤ x
  exactMatch : (d.exactMatch = nothing ∧ ∀ x, ¬ exactly x) ∨
    (exactly d.exactMatch ∧ ∀ x, exactly x → x = d.exactMatch)
  partialMatch : (d.partialMatch = failedMatch ∧ ∀ x, ¬ partly x) ∨ OnlyOne partly d.partialMatch

/-- Two objects have the word as a name. -/
def SeenTwo (word : List UInt8) (seen : List (Int × List UInt8)) : Prop :=
  ∃ x y, SeenExactly word seen x ∧ SeenExactly word seen y ∧ x ≠ y

/-- What is known after a loop over more names, that may have been left early. -/
def MatchOutcome (word : List UInt8) (seen : List (Int × List UInt8)) : Bool × MatchData → Prop
  | (true, _) => SeenTwo word seen
  | (false, d) => Accumulated (SeenExactly word seen) (SeenPartly word seen) d

section

variable {word name : List UInt8} {seen more : List (Int × List UInt8)} {d : MatchData}
  {oid x : Int}

lemma seenExactly_append : SeenExactly word (seen ++ more) x ↔
    SeenExactly word seen x ∨ SeenExactly word more x := by
  simp only [SeenExactly, List.mem_append, or_and_right, exists_or]

lemma seenPartly_append : SeenPartly word (seen ++ more) x ↔
    SeenPartly word seen x ∨ SeenPartly word more x := by
  simp only [SeenPartly, List.mem_append, or_and_right, exists_or]

lemma seenExactly_singleton :
    SeenExactly word [(oid, name)] x ↔ x = oid ∧ SameWord name word := by
  simp only [SeenExactly, List.mem_singleton, Prod.mk.injEq]
  constructor
  · rintro ⟨name', ⟨rfl, rfl⟩, h⟩
    exact ⟨rfl, h⟩
  · rintro ⟨rfl, h⟩
    exact ⟨name, ⟨rfl, rfl⟩, h⟩

lemma seenPartly_singleton : SeenPartly word [(oid, name)] x ↔
    x = oid ∧ PrefixWord word name ∧ ¬ SameWord name word := by
  simp only [SeenPartly, List.mem_singleton, Prod.mk.injEq]
  constructor
  · rintro ⟨name', ⟨rfl, rfl⟩, h⟩
    exact ⟨rfl, h⟩
  · rintro ⟨rfl, h⟩
    exact ⟨name, ⟨rfl, rfl⟩, h⟩

lemma SeenTwo.append (h : SeenTwo word seen) : SeenTwo word (seen ++ more) := by
  obtain ⟨x, y, hx, hy, hne⟩ := h
  exact ⟨x, y, seenExactly_append.mpr (.inl hx), seenExactly_append.mpr (.inl hy), hne⟩

/-- A prefix as long as the whole is the whole. -/
lemma sameWord_iff_of_prefixWord (h : PrefixWord word name) :
    name.length = word.length ↔ SameWord name word := by
  constructor
  · intro hlen
    refine (h.eq_of_length ?_).symm
    rw [List.length_map, List.length_map, hlen]
  · intro hsame
    have hlen := congrArg List.length hsame
    rwa [List.length_map, List.length_map] at hlen

lemma prefixWord_of_sameWord (h : SameWord name word) : PrefixWord word name :=
  ⟨[], (List.append_nil _).trans h.symm⟩

lemma accumulated_nil :
    Accumulated (SeenExactly word []) (SeenPartly word []) ⟨nothing, failedMatch⟩ := by
  have he : ∀ x, ¬ SeenExactly word [] x := fun x hx => by
    obtain ⟨name, hm, -⟩ := hx
    cases hm
  have hp : ∀ x, ¬ SeenPartly word [] x := fun x hx => by
    obtain ⟨name, hm, -⟩ := hx
    cases hm
  exact ⟨fun x hx => (hx.elim (he x) (hp x)).elim, .inl ⟨rfl, he⟩, .inl ⟨rfl, hp⟩⟩

section

variable {exactly partly : Int → Prop}

/-- An exact match with the object that was there before, or with the first one. -/
lemma Accumulated.addExact (h : Accumulated exactly partly d) (hoid : 0 ≤ oid)
    (hd : d.exactMatch = nothing ∨ d.exactMatch = oid) :
    Accumulated (fun x => exactly x ∨ x = oid) partly { d with exactMatch := oid } where
  nonneg x hx := by
    obtain (hx | rfl) | hx := hx
    · exact h.nonneg x (.inl hx)
    · exact hoid
    · exact h.nonneg x (.inr hx)
  exactMatch := by
    refine .inr ⟨.inr rfl, ?_⟩
    rintro x (hx | rfl)
    · obtain ⟨-, hno⟩ | ⟨hexact, honly⟩ := h.exactMatch
      · exact absurd hx (hno x)
      · obtain hd | hd := hd
        · have hpos := h.nonneg _ (.inl hexact)
          rw [hd] at hpos
          exact absurd hpos (by decide)
        · exact (honly x hx).trans hd
    · rfl
  partialMatch := h.partialMatch

/-- What `match_contents` returns in the end. -/
lemma Accumulated.result (h : Accumulated exactly partly d) {r : Int}
    (hr : r = if d.exactMatch ≠ nothing then d.exactMatch else d.partialMatch) :
    OnlyOne exactly r ∨ ((∀ x, ¬ exactly x) ∧
      (OnlyOne partly r ∨ ((∀ x, ¬ partly x) ∧ r = failedMatch))) := by
  obtain ⟨hd, hno⟩ | ⟨hd, honly⟩ := h.exactMatch
  · rw [if_neg (not_not.mpr hd)] at hr
    subst hr
    exact .inr ⟨hno, h.partialMatch.symm.imp_right And.symm⟩
  · have hpos := h.nonneg _ (.inl hd)
    have hne : d.exactMatch ≠ nothing := by
      rintro hnone
      rw [hnone] at hpos
      exact absurd hpos (by decide)
    rw [if_pos hne] at hr
    subst hr
    exact .inl (.inl ⟨hd, honly⟩)

/-- A partial match. -/
lemma Accumulated.addPartial (h : Accumulated exactly partly d) (hoid : 0 ≤ oid) :
    Accumulated exactly (fun x => partly x ∨ x = oid) { d with
      partialMatch := if d.partialMatch = failedMatch ∨ d.partialMatch = oid then oid
        else ambiguous } where
  nonneg x hx := by
    obtain hx | hx | rfl := hx
    · exact h.nonneg x (.inl hx)
    · exact h.nonneg x (.inr hx)
    · exact hoid
  exactMatch := h.exactMatch
  partialMatch := by
    refine .inr ?_
    obtain ⟨hd, hno⟩ | ⟨hd, honly⟩ | ⟨hd, x, y, hx, hy, hne⟩ := h.partialMatch
    · rw [if_pos (.inl hd)]
      exact .inl ⟨.inr rfl, fun x hx => hx.resolve_left (hno x)⟩
    · have hpos := h.nonneg _ (.inr hd)
      by_cases hsame : d.partialMatch = oid
      · rw [if_pos (.inr hsame)]
        exact .inl ⟨.inr rfl, fun x hx => hx.elim (fun hx => (honly x hx).trans hsame) id⟩
      · have hnot : d.partialMatch ≠ failedMatch := by
          rintro hfail
          rw [hfail] at hpos
          exact absurd hpos (by decide)
        rw [if_neg (not_or.mpr ⟨hnot, hsame⟩)]
        exact .inr ⟨rfl, d.partialMatch, oid, .inl hd, .inr rfl, hsame⟩
    · have hnot : ¬ (d.partialMatch = failedMatch ∨ d.partialMatch = oid) := by
        rw [hd]
        rintro (h | rfl)
        · exact absurd h (by decide)
        · exact absurd hoid (by decide)
      rw [if_neg hnot]
      exact .inr ⟨rfl, x, y, .inl hx, .inl hy, hne⟩

end

/-- The word is looked at with one more name of an object. -/
lemma matchName_outcome (h : Accumulated (SeenExactly word seen) (SeenPartly word seen) d)
    (hoid : 0 ≤ oid) : MatchOutcome word (seen ++ [(oid, name)]) (matchName word oid name d) := by
  have hexact (hsame : SameWord name word) : SeenExactly word (seen ++ [(oid, name)]) =
      fun x => SeenExactly word seen x ∨ x = oid := by
    funext x
    rw [seenExactly_append, seenExactly_singleton, and_iff_left hsame]
  have hexact' (hsame : ¬ SameWord name word) :
      SeenExactly word (seen ++ [(oid, name)]) = SeenExactly word seen := by
    funext x
    rw [seenExactly_append, seenExactly_singleton, or_iff_left fun hx => hsame hx.2]
  have hpartly (hpre : PrefixWord word name ∧ ¬ SameWord name word) :
      SeenPartly word (seen ++ [(oid, name)]) = fun x => SeenPartly word seen x ∨ x = oid := by
    funext x
    rw [seenPartly_append, seenPartly_singleton, and_iff_left hpre]
  have hpartly' (hpre : ¬ (PrefixWord word name ∧ ¬ SameWord name word)) :
      SeenPartly word (seen ++ [(oid, name)]) = SeenPartly word seen := by
    funext x
    rw [seenPartly_append, seenPartly_singleton, or_iff_left fun hx => hpre hx.2]
  rw [matchName]
  by_cases hpre : PrefixWord word name
  · rw [if_pos ((mystrncasecmpEq_iff name word).mpr hpre)]
    by_cases hsame : SameWord name word
    · rw [if_pos ((sameWord_iff_of_prefixWord hpre).mpr hsame)]
      split_ifs with hkeep
      · rw [MatchOutcome, hexact hsame, hpartly' fun h => h.2 hsame]
        exact h.addExact hoid hkeep
      · rw [not_or] at hkeep
        rw [MatchOutcome, SeenTwo, hexact hsame]
        obtain ⟨hd, -⟩ | ⟨hd, -⟩ := h.exactMatch
        · exact absurd hd hkeep.1
        · exact ⟨d.exactMatch, oid, .inl hd, .inr rfl, hkeep.2⟩
    · have hadd := h.addPartial hoid
      rw [if_neg fun hlen => hsame ((sameWord_iff_of_prefixWord hpre).mp hlen)]
      split_ifs at hadd ⊢
      all_goals
        rw [MatchOutcome, hexact' hsame, hpartly ⟨hpre, hsame⟩]
        exact hadd
  · rw [if_neg fun hcmp => hpre ((mystrncasecmpEq_iff name word).mp hcmp), MatchOutcome,
      hexact' fun hsame => hpre (prefixWord_of_sameWord hsame), hpartly' fun h => hpre h.1]
    exact h

lemma matchEach_outcome {names : List (List UInt8)}
    (h : Accumulated (SeenExactly word seen) (SeenPartly word seen) d) (hoid : 0 ≤ oid) :
    MatchOutcome word (seen ++ names.map (Prod.mk oid)) (matchEach word oid names d) := by
  induction names generalizing seen d with
  | nil =>
    rw [List.map_nil, List.append_nil]
    exact h
  | cons name names ih =>
    have hname : MatchOutcome word (seen ++ [(oid, name)]) (matchName word oid name d) :=
      matchName_outcome h hoid
    rw [List.map_cons, List.append_cons]
    rw [matchEach]
    split
    · next d' heq =>
      rw [heq] at hname
      exact SeenTwo.append hname
    · next d' heq =>
      rw [heq] at hname
      exact ih hname

end

section

variable {objects : Objects P} {word : List UInt8} {seen : List (Int × List UInt8)}
  {d : MatchData} {oid player : Int} {ks : List Int}

/-- The names that a loop over the objects looks at. -/
def namesSeen (objects : Objects P) (ks : List Int) : List (Int × List UInt8) :=
  ks.flatMap fun x => ((matchNames objects x).getD []).map (Prod.mk x)

lemma forAllOnList_outcome (hnames : ∀ x ∈ ks, ∃ names, matchNames objects x = some names)
    (h : Accumulated (SeenExactly word seen) (SeenPartly word seen) d) {c : Int}
    (ha : Along objects Object.next c ks) {n : Nat} (hn : ks.length < n) :
    ∃ r, forAllOnList objects (matchProc objects word) n c d = some r ∧
      MatchOutcome word (seen ++ namesSeen objects ks) r := by
  obtain ⟨n, rfl⟩ : ∃ m, n = m + 1 := ⟨n - 1, by omega⟩
  induction ks generalizing c seen d n with
  | nil =>
    have hend : c = nothing := ha
    refine ⟨(false, d), by rw [forAllOnList, if_pos hend], ?_⟩
    rw [namesSeen, List.flatMap_nil, List.append_nil]
    exact h
  | cons k ks ih =>
    obtain ⟨rfl, hne, o, ho, hrest⟩ := ha
    obtain ⟨names, hk⟩ := hnames c List.mem_cons_self
    have heach : MatchOutcome word (seen ++ names.map (Prod.mk c)) (matchEach word c names d) :=
      matchEach_outcome h (findObject_bounds ho).1
    have hseen : namesSeen objects (c :: ks) =
        names.map (Prod.mk c) ++ namesSeen objects ks := by
      simp [namesSeen, hk]
    rw [hseen, ← List.append_assoc]
    simp only [forAllOnList, if_neg hne, matchProc, hk, Option.bind_eq_bind, Option.bind_some,
      Option.pure_def]
    cases hr : matchEach word c names d with
    | mk stop d' =>
      rw [hr] at heach
      cases stop with
      | true => exact ⟨(true, d'), rfl, SeenTwo.append heach⟩
      | false =>
        rw [List.length_cons] at hn
        obtain ⟨m, rfl⟩ : ∃ m, n = m + 1 := ⟨n - 1, by omega⟩
        simp only [ho, Option.bind_some, Bool.false_eq_true, if_false]
        exact ih (fun x hx => hnames x (List.mem_cons_of_mem _ hx)) heach hrest m (by omega)

/-- The objects that one step of the loop of `match_contents` comes to. -/
def ContentsAre (objects : Objects P) (oid : Int) (ks : List Int) : Prop :=
  match findObject objects oid with
  | none => ks = []
  | some o => Along objects Object.next o.contents ks

lemma mem_iff_contains (hks : ContentsAre objects oid ks) (x : Int) :
    x ∈ ks ↔ Contains objects oid x := by
  unfold ContentsAre at hks
  cases ho : findObject objects oid with
  | none =>
    rw [ho] at hks
    simp [Contains, ho, show ks = [] from hks]
  | some o =>
    rw [ho] at hks
    constructor
    · exact fun hx => ⟨o, ks, ho, hks, hx⟩
    · rintro ⟨o', ks', ho', hks', hx⟩
      obtain rfl : o = o' := Option.some_inj.mp (ho.symm.trans ho')
      rwa [Along.unique hks hks']

lemma matchIn_outcome (hnames : ∀ x ∈ ks, ∃ names, matchNames objects x = some names)
    (h : Accumulated (SeenExactly word seen) (SeenPartly word seen) d)
    (hks : ContentsAre objects oid ks) :
    ∃ r, matchIn objects word oid d = some r ∧
      MatchOutcome word (seen ++ namesSeen objects ks) r := by
  unfold ContentsAre at hks
  cases ho : findObject objects oid with
  | none =>
    rw [ho] at hks
    refine ⟨(false, d), by simp [matchIn, isValid, ho], ?_⟩
    rw [show ks = [] from hks, namesSeen, List.flatMap_nil, List.append_nil]
    exact h
  | some o =>
    rw [ho] at hks
    have ha : Along objects Object.next o.contents ks := hks
    obtain ⟨r, hr, hout⟩ := forAllOnList_outcome hnames h ha (Nat.lt_succ_of_le ha.length_le)
    refine ⟨r, ?_, hout⟩
    simp only [matchIn, isValid, ho, Option.isSome_some, if_true, dbForAllContents,
      Option.bind_eq_bind, Option.bind_some]
    exact hr

lemma mem_namesSeen {x : Int} {name : List UInt8} : (x, name) ∈ namesSeen objects ks ↔
    x ∈ ks ∧ ∃ names, matchNames objects x = some names ∧ name ∈ names := by
  simp only [namesSeen, List.mem_flatMap, List.mem_map, Prod.mk.injEq]
  constructor
  · rintro ⟨k, hk, name', hm, rfl, rfl⟩
    cases hn : matchNames objects k with
    | none => simp [hn] at hm
    | some names => exact ⟨hk, names, rfl, by simpa [hn] using hm⟩
  · rintro ⟨hk, names, hn, hm⟩
    exact ⟨x, hk, name, by rwa [hn, Option.getD_some], rfl, rfl⟩

lemma seenExactly_namesSeen (x : Int) : SeenExactly word (namesSeen objects ks) x ↔
    x ∈ ks ∧ MatchesExactly objects word x := by
  simp only [SeenExactly, mem_namesSeen, MatchesExactly]
  constructor
  · rintro ⟨name, ⟨hk, names, hn, hm⟩, hsame⟩
    exact ⟨hk, names, hn, name, hm, hsame⟩
  · rintro ⟨hk, names, hn, name, hm, hsame⟩
    exact ⟨name, ⟨hk, names, hn, hm⟩, hsame⟩

lemma seenPartly_namesSeen (x : Int) : SeenPartly word (namesSeen objects ks) x ↔
    x ∈ ks ∧ MatchesPartly objects word x := by
  simp only [SeenPartly, mem_namesSeen, MatchesPartly]
  constructor
  · rintro ⟨name, ⟨hk, names, hn, hm⟩, hpre⟩
    exact ⟨hk, names, hn, name, hm, hpre⟩
  · rintro ⟨hk, names, hn, name, hm, hpre⟩
    exact ⟨name, ⟨hk, names, hn, hm⟩, hpre⟩

/-- What is returned for the two lists of contents is what the word means. -/
lemma matchContents_means {o : Object P} {ks' : List Int}
    (ho : findObject objects player = some o) (hks : ContentsAre objects player ks)
    (hks' : ContentsAre objects o.location ks')
    (hnames : ∀ x ∈ ks ++ ks', ∃ names, matchNames objects x = some names) :
    ∃ r, matchContents objects player word = some r ∧ Means objects player word r := by
  have hnear (x : Int) : Near objects player x ↔ x ∈ ks ++ ks' := by
    rw [Near, List.mem_append, mem_iff_contains hks, mem_iff_contains hks', ho]
    simp
  have hseen : namesSeen objects ks ++ namesSeen objects ks' = namesSeen objects (ks ++ ks') :=
    List.flatMap_append.symm
  have htwo (h : SeenTwo word (namesSeen objects (ks ++ ks'))) :
      Means objects player word ambiguous := by
    obtain ⟨x, y, hx, hy, hne⟩ := h
    rw [seenExactly_namesSeen, ← hnear] at hx hy
    exact .inl (.inr ⟨rfl, x, y, hx, hy, hne⟩)
  have hfirst : ∃ r, matchIn objects word player ⟨nothing, failedMatch⟩ = some r ∧
      MatchOutcome word ([] ++ namesSeen objects ks) r :=
    matchIn_outcome (fun x hx => hnames x (List.mem_append_left _ hx)) accumulated_nil hks
  obtain ⟨⟨stop, d⟩, h₁, hout₁⟩ := hfirst
  simp only [matchContents, isValid, ho, Option.isSome_some, if_true, Option.bind_eq_bind,
    Option.bind_some, h₁, Option.pure_def]
  cases stop with
  | true =>
    exact ⟨ambiguous, rfl, htwo (hseen ▸ SeenTwo.append hout₁)⟩
  | false =>
    obtain ⟨⟨stop, d'⟩, h₂, hout₂⟩ := matchIn_outcome
      (fun x hx => hnames x (List.mem_append_right _ hx)) hout₁ hks'
    rw [List.nil_append, hseen] at hout₂
    simp only [h₂, Option.bind_some, Bool.false_eq_true, if_false]
    cases stop with
    | true => exact ⟨ambiguous, rfl, htwo hout₂⟩
    | false =>
      have hexactly : SeenExactly word (namesSeen objects (ks ++ ks')) =
          fun x => Near objects player x ∧ MatchesExactly objects word x := by
        funext x
        rw [seenExactly_namesSeen, hnear]
      have hpartly : SeenPartly word (namesSeen objects (ks ++ ks')) =
          fun x => Near objects player x ∧ MatchesPartly objects word x := by
        funext x
        rw [seenPartly_namesSeen, hnear]
      rw [MatchOutcome, hexactly, hpartly] at hout₂
      refine ⟨_, ?_, hout₂.result rfl⟩
      rw [← apply_ite some]
      rfl

/-- There is one answer only. -/
lemma Means.unique (hnonneg : ∀ x, Near objects player x → 0 ≤ x) {r r' : Int}
    (h : Means objects player word r) (h' : Means objects player word r') : r = r' := by
  have honly {among : Int → Prop} (hpos : ∀ x, among x → 0 ≤ x) {r r' : Int}
      (h : OnlyOne among r) (h' : OnlyOne among r') : r = r' := by
    obtain ⟨hr, hall⟩ | ⟨rfl, x, y, hx, hy, hne⟩ := h
    · obtain ⟨hr', -⟩ | ⟨-, x, y, hx, hy, hne⟩ := h'
      · exact (hall r' hr').symm
      · exact absurd ((hall x hx).trans (hall y hy).symm) hne
    · obtain ⟨-, hall⟩ | ⟨hr', -⟩ := h'
      · exact absurd ((hall x hx).trans (hall y hy).symm) hne
      · exact hr'.symm
  have hnone {among : Int → Prop} (hno : ∀ x, ¬ among x) {r : Int} : ¬ OnlyOne among r := by
    rintro (⟨hr, -⟩ | ⟨-, x, -, hx, -⟩)
    · exact hno r hr
    · exact hno x hx
  obtain h | ⟨hno, h⟩ := h <;> obtain h' | ⟨hno', h'⟩ := h'
  · exact honly (fun x hx => hnonneg x hx.1) h h'
  · exact absurd h (hnone hno')
  · exact absurd h' (hnone hno)
  obtain h | ⟨hno, rfl⟩ := h <;> obtain h' | ⟨hno', hr'⟩ := h'
  · exact honly (fun x hx => hnonneg x hx.1) h h'
  · exact absurd h (hnone hno')
  · exact absurd h' (hnone hno)
  · exact hr'.symm

/-! ## Databases -/

lemma Contains.isValid {x : Int} (h : Contains objects oid x) : isValid objects x := by
  obtain ⟨o, ks, -, hks, hx⟩ := h
  obtain ⟨rest, o, -, ho, -⟩ := hks.exists_of_mem hx
  exact isValid_of_findObject ho

lemma Near.isValid (h : Near objects player oid) : Db.isValid objects oid := by
  obtain h | ⟨o, -, h⟩ := h
  · exact h.isValid
  · exact h.isValid

lemma Near.nonneg (h : Near objects player oid) : 0 ≤ oid := by
  obtain ⟨o, ho⟩ := isValid_iff.mp h.isValid
  exact (findObject_bounds ho).1

lemma Coherent.exists_aliases (hc : Coherent objects) {o : Object P}
    (ho : findObject objects oid = some o) : ∃ names, aliases objects oid = some names := by
  obtain ⟨ks, hks⟩ := hc.parents.exists_line ho
  have hoid := Along.cons_self ho hks
  unfold aliases
  split
  · next definer n hfind =>
    obtain ⟨v, hv, -⟩ := hc.fit.exists_valueOnLine hoid hoid.length_le (hc.slot_of_find ho hfind).1
    rw [hv]
    cases v <;> exact ⟨_, rfl⟩
  · exact ⟨_, rfl⟩

lemma Coherent.exists_matchNames (hc : Coherent objects) (hvalid : isValid objects oid) :
    ∃ names, matchNames objects oid = some names := by
  obtain ⟨o, ho⟩ := isValid_iff.mp hvalid
  obtain ⟨names, hnames⟩ := hc.exists_aliases ho
  exact ⟨_, by simp only [matchNames, ho, hnames, Option.bind_eq_bind, Option.bind_some]; rfl⟩

lemma Coherent.exists_contentsAre (hc : Coherent objects) (oid : Int) :
    ∃ ks, ContentsAre objects oid ks := by
  unfold ContentsAre
  cases ho : findObject objects oid with
  | none => exact ⟨[], rfl⟩
  | some o =>
    obtain ⟨ks, hks, -⟩ := hc.locations.down oid o ho
    exact ⟨ks, hks⟩

/-- What the player has and sees is the same with the same names, in whatever order. -/
structure SameNearby (objects objects' : Objects P) (player : Int) : Prop where
  near : ∀ x, Near objects' player x ↔ Near objects player x
  names : ∀ x, Near objects player x → matchNames objects' x = matchNames objects x

lemma SameNearby.means {objects' : Objects P} (hs : SameNearby objects objects' player) {r : Int}
    (h : Means objects' player word r) : Means objects player word r := by
  have hexactly (x : Int) : Near objects' player x ∧ MatchesExactly objects' word x ↔
      Near objects player x ∧ MatchesExactly objects word x := by
    rw [hs.near]
    exact and_congr_right fun hx => by rw [MatchesExactly, MatchesExactly, hs.names x hx]
  have hpartly (x : Int) : Near objects' player x ∧ MatchesPartly objects' word x ↔
      Near objects player x ∧ MatchesPartly objects word x := by
    rw [hs.near]
    exact and_congr_right fun hx => by rw [MatchesPartly, MatchesPartly, hs.names x hx]
  simpa only [Means, hexactly, hpartly] using h

lemma IsName.matchObject_eq (h : IsName word) : matchObject objects player word =
    if isValid objects player then matchContents objects player word else some failedMatch := by
  obtain ⟨hne, hhash, hme, hhere⟩ := h
  match word with
  | [] => exact absurd rfl hne
  | c :: word =>
    have hc : c ≠ 35 := fun hc => hhash (congrArg some hc)
    rw [matchObject, if_neg hc, if_neg fun h => hme (mystrcasecmpEq_iff.mp h),
      if_neg fun h => hhere (mystrcasecmpEq_iff.mp h)]

lemma Coherent.exists_means (hc : Coherent objects) (player : Int) (hname : IsName word) :
    ∃ r, matchObject objects player word = some r ∧ Means objects player word r := by
  rw [hname.matchObject_eq]
  cases ho : findObject objects player with
  | none =>
    have hno (x : Int) : ¬ Near objects player x := by
      rintro (⟨o, -, ho', -⟩ | ⟨o, ho', -⟩) <;> simp [ho] at ho'
    refine ⟨failedMatch, by simp [Db.isValid, ho], ?_⟩
    exact .inr ⟨fun x hx => hno x hx.1, .inr ⟨fun x hx => hno x hx.1, rfl⟩⟩
  | some o =>
    obtain ⟨ks, hks⟩ := hc.exists_contentsAre player
    obtain ⟨ks', hks'⟩ := hc.exists_contentsAre o.location
    rw [if_pos (isValid_of_findObject ho)]
    refine matchContents_means ho hks hks' ?_
    intro x hx
    apply hc.exists_matchNames
    obtain hx | hx := List.mem_append.mp hx
    · exact ((mem_iff_contains hks x).mp hx).isValid
    · exact ((mem_iff_contains hks' x).mp hx).isValid

/-- No word makes the server crash. -/
lemma Coherent.exists_matchObject (hc : Coherent objects) (player : Int) (word : List UInt8) :
    ∃ r, matchObject objects player word = some r := by
  by_cases hname : IsName word
  · obtain ⟨r, hr, -⟩ := hc.exists_means player hname
    exact ⟨r, hr⟩
  match word with
  | [] => exact ⟨nothing, rfl⟩
  | c :: word =>
    rw [matchObject]
    by_cases hhash : c = 35
    · rw [if_pos hhash]
      dsimp only
      split_ifs
      · exact ⟨failedMatch, rfl⟩
      · exact ⟨_, rfl⟩
    rw [if_neg hhash]
    split_ifs with hvalid hme hhere
    · exact ⟨player, rfl⟩
    · obtain ⟨o, ho⟩ := isValid_iff.mp hvalid
      exact ⟨o.location, by rw [ho]; rfl⟩
    · refine absurd ⟨List.cons_ne_nil _ _, ?_, ?_, ?_⟩ hname
      · exact fun h => hhash (Option.some_inj.mp h)
      · exact fun h => hme (mystrcasecmpEq_iff.mpr h)
      · exact fun h => hhere (mystrcasecmpEq_iff.mpr h)
    · exact ⟨failedMatch, rfl⟩

end

/-- A word that is looked up means the only object with this name, or the only one with a name
that begins so. This does not depend on the order of the contents. -/
theorem Reached.matchObject_means {db : Db P} (h : Reached db) (player : Int)
    (word : List UInt8) (hname : IsName word) :
    ∃ r, matchObject db.objects player word = some r ∧ Means db.objects player word r ∧
      ∀ db', Reached db' → SameNearby db.objects db'.objects player →
        matchObject db'.objects player word = some r := by
  obtain ⟨r, hr, hmeans⟩ := h.coherent.exists_means player hname
  refine ⟨r, hr, hmeans, ?_⟩
  intro db' h' hsame
  obtain ⟨r', hr', hmeans'⟩ := h'.coherent.exists_means player hname
  rw [hr', (hsame.means hmeans').unique (fun x hx => hx.nonneg) hmeans]

/-- A room with a player, a lamp and a fan in it. -/
def furnishedRoom : Objects Unit :=
  let thing (name : String) (location contents next : Int) : Object Unit :=
    { name := name, flags := 0, owner := 1, location := location, contents := contents,
      next := next, parent := nothing, child := nothing, sibling := nothing, verbdefs := [],
      propdefs := [], propval := [], waifPropdefs := none }
  [some (thing "Room" nothing 1 nothing), some (thing "Player" 0 nothing 2),
    some (thing "Lamp" 0 nothing 3), some (thing "#1 fan" 0 nothing nothing)]

def furnishedDb : Db Unit :=
  { objects := furnishedRoom, allUsers := [], waifs := [], waifPropdefs := [] }

lemma furnishedRoom_cases {k : Int} {o : Object Unit}
    (ho : findObject furnishedRoom k = some o) : k = 0 ∨ k = 1 ∨ k = 2 ∨ k = 3 := by
  obtain ⟨hnonneg, hlt⟩ := findObject_bounds ho
  have hlen : furnishedRoom.length = 4 := rfl
  omega

/-- Nothing here has a property. -/
lemma propsFit_furnishedRoom : PropsFit furnishedRoom := by
  refine ⟨fun k o ho => ?_, fun k o ho => ?_, fun k o ho pv hpv => ?_⟩ <;>
  obtain rfl | rfl | rfl | rfl := furnishedRoom_cases ho <;> cases ho
  all_goals first
    | rfl
    | exact List.Pairwise.nil
    | exact absurd hpv List.not_mem_nil

lemma reached_furnishedDb : Reached furnishedDb :=
  .load (show validateHierarchies furnishedRoom = some furnishedRoom from rfl)
    propsFit_furnishedRoom

theorem Reached.matchObject_means_lamp :
    matchObject furnishedRoom 1 (asciiBytes "lam") = some 2 ∧
      Means furnishedRoom 1 (asciiBytes "lam") 2 := by
  obtain ⟨r, hr, hmeans, -⟩ :=
    reached_furnishedDb.matchObject_means 1 (asciiBytes "lam") (by decide)
  have hlamp : matchObject furnishedRoom 1 (asciiBytes "lam") = some 2 := by decide +kernel
  obtain rfl : 2 = r := Option.some_inj.mp (hlamp.symm.trans hr)
  exact ⟨hr, hmeans⟩

/-- A name that begins with `#` is not found, even if it is no number. -/
theorem matchObject_hash : Reached furnishedDb ∧
    matchObject furnishedRoom 1 (asciiBytes "#1 fan") = some failedMatch ∧
    ¬ Means furnishedRoom 1 (asciiBytes "#1 fan") failedMatch := by
  refine ⟨reached_furnishedDb, by decide +kernel, ?_⟩
  have hfan : Near furnishedRoom 1 3 ∧ MatchesExactly furnishedRoom (asciiBytes "#1 fan") 3 := by
    refine ⟨.inr ⟨_, rfl, _, [1, 2, 3], rfl, ?_, by decide⟩, ?_⟩
    · exact ⟨rfl, by decide, _, rfl, rfl, by decide, _, rfl, rfl, by decide, _, rfl, rfl⟩
    · exact ⟨[asciiBytes "#1 fan"], by decide +kernel, asciiBytes "#1 fan", by simp, rfl⟩
  rintro ((⟨⟨hnear, -⟩, -⟩ | ⟨heq, -⟩) | ⟨hno, -⟩)
  · exact absurd hnear.nonneg (by decide)
  · exact absurd heq (by decide)
  · exact hno 3 hfan

end Db

end LambdaMOO
