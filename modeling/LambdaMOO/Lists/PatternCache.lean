import LambdaMOO.Lib.Chain
import Mathlib.Data.List.FinRange

/-!
# The cache of patterns

`get_pattern` keeps the compiled patterns of `match` and `rmatch` in a fixed number of entries,
linked in the order of their last use. What a pattern is compiled to is a parameter.
-/

namespace LambdaMOO

open PointerChain

/-- `struct pat_cache_entry` without its link. A null pointer is `none`. -/
structure PatCacheEntry (Pat : Type) where
  string : Option (List UInt8)
  caseMatters : Int
  pattern : Option Pat

/-- The entries with their links. `links none` is `pat_cache`, and `links (some i)` is the
pointer `next` of the entry `i`. -/
structure PatCache (size : Nat) (Pat : Type) where
  entries : Fin size → PatCacheEntry Pat
  links : Option (Fin size) → Option (Fin size)

section

variable {size : Nat} {Pat : Type} (newPattern : List UInt8 → Int → Option Pat)

/-- `setup_pattern_cache`. `PATTERN_CACHE_SIZE` is at least 1. -/
def setupPatternCache (size : Nat) : PatCache (size + 1) Pat where
  entries _ := ⟨none, 0, none⟩
  links
    | none => some 0
    | some i => if h : i.val + 1 < size + 1 then some ⟨i.val + 1, h⟩ else none

/-- The entry that `new_pattern` is assigned to. -/
def compileEntry (string : List UInt8) (caseMatters : Int) : PatCacheEntry Pat :=
  match newPattern string caseMatters with
  | none => ⟨none, caseMatters, none⟩
  | some p => ⟨some string, caseMatters, some p⟩

/-- The reuse of an entry after a miss. -/
def PatCache.reuse (c : PatCache size Pat) (entry : Fin size) (string : List UInt8)
    (caseMatters : Int) : PatCache size Pat :=
  { c with
    entries := Function.update c.entries entry (compileEntry newPattern string caseMatters) }

/-- The loop of `get_pattern`, cut off after `n` turns: the cache, `entry` and `entry_ptr` where
it is left. -/
def searchLoop (string : List UInt8) (caseMatters : Int) :
    Nat → PatCache size Pat → Fin size → Option (Fin size) →
      Option (PatCache size Pat × Fin size × Option (Fin size))
  | 0, _, _, _ => none
  | n + 1, c, entry, entryPtr =>
    if (c.entries entry).string = some string ∧ caseMatters = (c.entries entry).caseMatters then
      some (c, entry, entryPtr)
    else
      match c.links (some entry) with
      | none => some (c.reuse newPattern entry string caseMatters, entry, entryPtr)
      | some next => searchLoop string caseMatters n c next (some entry)

/-- The last three assignments: the entry behind `entry_ptr` goes to the front. -/
def PatCache.moveToFront (c : PatCache size Pat) (entry : Fin size) (entryPtr : Option (Fin size)) :
    PatCache size Pat :=
  let links := Function.update c.links entryPtr (c.links (some entry))
  let links := Function.update links (some entry) (links none)
  { c with links := Function.update links none (some entry) }

/-- `get_pattern`. No entry is visited twice. -/
def getPattern (c : PatCache size Pat) (string : List UInt8) (caseMatters : Int) :
    Option (PatCache size Pat × Option Pat) := do
  let entry ← c.links none
  let (c, entry, entryPtr) ← searchLoop newPattern string caseMatters size c entry none
  return (c.moveToFront entry entryPtr, (c.entries entry).pattern)

/-- A sequence of requests. -/
def getPatterns : PatCache size Pat → List (List UInt8 × Int) →
    Option (PatCache size Pat × List (Option Pat))
  | c, [] => some (c, [])
  | c, (string, caseMatters) :: requests => do
    let (c, p) ← getPattern newPattern c string caseMatters
    let (c, ps) ← getPatterns c requests
    return (c, p :: ps)

/-- The links lead through the entries in the order `es`, each of them once. -/
structure PatCache.Orders (c : PatCache size Pat) (es : List (Fin size)) : Prop where
  chain : Chain some c.links none es
  perm : es.Perm (List.finRange size)

/-- An entry with a text has the pattern that the text is compiled to. -/
def PatCache.Compiled (c : PatCache size Pat) : Prop :=
  ∀ ⦃i string⦄, (c.entries i).string = some string →
    (c.entries i).pattern = newPattern string (c.entries i).caseMatters

/-! ## The links -/

/-- Behind an entry the fresh cache has the entries with greater numbers. -/
lemma setupPatternCache_chain (n : Nat) (i : Fin (size + 1)) (hi : i.val + n = size) :
    Chain some (setupPatternCache size : PatCache (size + 1) Pat).links (some i)
      ((List.finRange (size + 1)).drop (i.val + 1)) := by
  induction n generalizing i with
  | zero =>
    have hlast : ¬ i.val + 1 < size + 1 := by omega
    rw [List.drop_eq_nil_of_le (by rw [List.length_finRange]; omega), chain_nil]
    exact dif_neg hlast
  | succ n ih =>
    have hnext : i.val + 1 < size + 1 := by omega
    rw [List.drop_eq_getElem_cons (by rwa [List.length_finRange]), List.getElem_finRange,
      chain_cons]
    exact ⟨dif_pos hnext, ih ⟨i.val + 1, hnext⟩ (by simp only; omega)⟩

lemma setupPatternCache_orders :
    (setupPatternCache size : PatCache (size + 1) Pat).Orders (List.finRange (size + 1)) := by
  refine ⟨?_, List.Perm.refl _⟩
  have hcons := List.drop_eq_getElem_cons (l := List.finRange (size + 1)) (i := 0) (by simp)
  rw [List.drop_zero, List.getElem_finRange] at hcons
  rw [hcons, chain_cons]
  exact ⟨rfl, setupPatternCache_chain size 0 (Nat.zero_add size)⟩

/-- The entry behind the pointer goes to the front, and the others stay as they are. -/
lemma PatCache.Orders.moveToFront {c : PatCache size Pat} {xs ys : List (Fin size)} {e : Fin size}
    (h : c.Orders (xs ++ e :: ys)) :
    (c.moveToFront e (lastSlot some none xs)).Orders (e :: (xs ++ ys)) := by
  have hperm : (e :: (xs ++ ys)).Perm (List.finRange size) := List.perm_middle.symm.trans h.perm
  have hnodup : (e :: (xs ++ ys)).Nodup := hperm.nodup_iff.mpr (List.nodup_finRange size)
  have he : e ∉ xs ++ ys := (List.nodup_cons.mp hnodup).1
  have hslots : (slots some none (xs ++ e :: ys)).Nodup :=
    nodup_slots (Option.some_injective _) (fun _ _ => Option.some_ne_none _)
      (h.perm.nodup_iff.mpr (List.nodup_finRange size))
  refine ⟨?_, hperm⟩
  have hout := h.chain.unlink hslots
  unfold PatCache.moveToFront
  dsimp only
  generalize Function.update c.links (lastSlot some none xs) (c.links (some e)) = links at hout ⊢
  rw [chain_cons]
  refine ⟨Function.update_self _ _ _, Chain.move ?_ ?_ hout⟩
  · intro p hp
    have hpe : some p ≠ some e := fun heq => he (Option.some.inj heq ▸ hp)
    rw [Function.update_of_ne (Option.some_ne_none p), Function.update_of_ne hpe]
  · rw [Function.update_of_ne (Option.some_ne_none e), Function.update_self]

/-! ## The patterns -/

lemma compileEntry_pattern (string : List UInt8) (caseMatters : Int) :
    (compileEntry newPattern string caseMatters).pattern = newPattern string caseMatters := by
  unfold compileEntry
  split <;> simp_all

lemma compileEntry_compiled {string s : List UInt8} {caseMatters : Int}
    (h : (compileEntry newPattern string caseMatters).string = some s) :
    (compileEntry newPattern string caseMatters).pattern =
      newPattern s (compileEntry newPattern string caseMatters).caseMatters := by
  rw [compileEntry_pattern]
  unfold compileEntry at h ⊢
  split at h
  · cases h
  · obtain rfl := Option.some.inj h
    rfl

/-- What a search leaves: the entry that is found has the pattern asked for, and the links are
as they were. -/
structure Found (c c' : PatCache size Pat) (string : List UInt8) (caseMatters : Int)
    (e : Fin size) : Prop where
  links : c'.links = c.links
  compiled : c'.Compiled newPattern
  pattern : (c'.entries e).pattern = newPattern string caseMatters

variable {newPattern}

lemma Found.of_hit {c : PatCache size Pat} (hc : c.Compiled newPattern) {e : Fin size}
    {string : List UInt8} (h : (c.entries e).string = some string) :
    Found newPattern c c string (c.entries e).caseMatters e :=
  ⟨rfl, hc, hc h⟩

lemma Found.of_miss {c : PatCache size Pat} (hc : c.Compiled newPattern) (e : Fin size)
    (string : List UInt8) (caseMatters : Int) :
    Found newPattern c (c.reuse newPattern e string caseMatters) string caseMatters e := by
  refine ⟨rfl, ?_, ?_⟩
  · intro i s hs
    unfold PatCache.reuse at hs ⊢
    dsimp only at hs ⊢
    by_cases hi : i = e
    · subst hi
      rw [Function.update_self] at hs ⊢
      exact compileEntry_compiled newPattern hs
    · rw [Function.update_of_ne hi] at hs ⊢
      exact hc hs
  · unfold PatCache.reuse
    dsimp only
    rw [Function.update_self, compileEntry_pattern]

/-- The search stops at an entry of the chain, with the pointer to it. -/
lemma searchLoop_spec {c : PatCache size Pat} (hc : c.Compiled newPattern) (string : List UInt8)
    (caseMatters : Int) {n : Nat} {xs ys : List (Fin size)} {e : Fin size}
    (h : Chain some c.links none (xs ++ e :: ys)) (hn : ys.length < n) :
    ∃ c' xs' e' ys', xs ++ e :: ys = xs' ++ e' :: ys' ∧
      searchLoop newPattern string caseMatters n c e (lastSlot some none xs)
        = some (c', e', lastSlot some none xs') ∧
      Found newPattern c c' string caseMatters e' := by
  induction n generalizing xs e ys with
  | zero => exact absurd hn (Nat.not_lt_zero _)
  | succ n ih =>
    rw [searchLoop]
    split_ifs with hhit
    · obtain ⟨hstring, rfl⟩ := hhit
      exact ⟨c, xs, e, ys, rfl, rfl, Found.of_hit hc hstring⟩
    have htail := (chain_cons.mp (chain_append.mp h).2).2
    rw [htail.get_eq_head?]
    cases ys with
    | nil => exact ⟨_, xs, e, [], rfl, rfl, Found.of_miss hc e string caseMatters⟩
    | cons e' ys =>
      have hmove : xs ++ e :: e' :: ys = xs ++ [e] ++ e' :: ys := by simp
      rw [hmove] at h ⊢
      have hih := ih h (Nat.lt_of_succ_lt_succ hn)
      rwa [lastSlot_concat] at hih

/-- One request: the pattern asked for is returned, and its entry is moved to the front. -/
lemma getPattern_spec {c : PatCache (size + 1) Pat} {es : List (Fin (size + 1))}
    (ho : c.Orders es) (hc : c.Compiled newPattern) (string : List UInt8) (caseMatters : Int) :
    ∃ c' xs e ys, getPattern newPattern c string caseMatters
        = some (c', newPattern string caseMatters) ∧
      es = xs ++ e :: ys ∧ c'.Orders (e :: (xs ++ ys)) ∧ c'.Compiled newPattern := by
  obtain ⟨e₀, es, rfl⟩ : ∃ e₀ es', es = e₀ :: es' := by
    apply List.exists_cons_of_ne_nil
    rintro rfl
    simpa using ho.perm.length_eq
  have hlen : es.length < size + 1 := by
    have hlen := ho.perm.length_eq
    rw [List.length_cons, List.length_finRange] at hlen
    omega
  obtain ⟨c', xs, e, ys, heq, hloop, hfound⟩ :=
    searchLoop_spec hc string caseMatters
      (show Chain some c.links none ([] ++ e₀ :: es) from ho.chain) hlen
  refine ⟨c'.moveToFront e (lastSlot some none xs), xs, e, ys, ?_, heq, ?_, ?_⟩
  · unfold getPattern
    rw [(chain_cons.mp ho.chain).1, Option.bind_eq_bind, Option.bind_some]
    change (searchLoop newPattern string caseMatters (size + 1) c e₀ none).bind _ = _
    rw [lastSlot] at hloop
    rw [hloop, Option.bind_some, ← hfound.pattern]
    rfl
  · apply PatCache.Orders.moveToFront
    exact ⟨hfound.links ▸ heq ▸ ho.chain, heq ▸ ho.perm⟩
  · exact hfound.compiled

lemma getPatterns_spec (requests : List (List UInt8 × Int)) {c : PatCache (size + 1) Pat}
    {es : List (Fin (size + 1))} (ho : c.Orders es) (hc : c.Compiled newPattern) :
    ∃ c' es', getPatterns newPattern c requests
        = some (c', requests.map fun r => newPattern r.1 r.2) ∧
      c'.Orders es' ∧ c'.Compiled newPattern := by
  induction requests generalizing c es with
  | nil => exact ⟨c, es, rfl, ho, hc⟩
  | cons r requests ih =>
    obtain ⟨c₁, xs, e, ys, hget, -, ho₁, hc₁⟩ := getPattern_spec ho hc r.1 r.2
    obtain ⟨c', es', hgets, ho', hc'⟩ := ih ho₁ hc₁
    refine ⟨c', es', ?_, ho', hc'⟩
    rw [getPatterns, hget, Option.bind_eq_bind, Option.bind_some]
    dsimp only
    rw [hgets]
    rfl

variable (newPattern)

/-- Any sequence of requests to the fresh cache gets the patterns that are asked for, and leaves
the links leading through each entry once. -/
theorem getPatterns_setup (size : Nat) (requests : List (List UInt8 × Int)) :
    ∃ c es, getPatterns newPattern (setupPatternCache size) requests
        = some (c, requests.map fun r => newPattern r.1 r.2) ∧
      Chain some c.links none es ∧ es.Perm (List.finRange (size + 1)) := by
  obtain ⟨c, es, hget, ho, -⟩ :=
    getPatterns_spec requests setupPatternCache_orders
      (show (setupPatternCache size).Compiled newPattern from fun _ _ h => nomatch h)
  exact ⟨c, es, hget, ho.chain, ho.perm⟩

end

end LambdaMOO
