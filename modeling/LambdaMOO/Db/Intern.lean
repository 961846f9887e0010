import LambdaMOO.Lib.Buckets
import LambdaMOO.Strings.Compare

/-!
# Interned strings

While a database is read, `str_intern.c` keeps a table of the strings that have been read, so that
equal strings share their storage.
-/

namespace LambdaMOO

/-! ## The table -/

/-- `str_hash`. The characters of `cmap` are signed. -/
def strHash (s : List UInt8) : UInt32 :=
  s.foldl (fun ans c => (ans <<< 3) + (ans >>> 28) +
    ((cmap c).toUInt32 - if cmap c < 128 then 0 else 256)) 0

/-- `struct intern_entry`. The string is an address. -/
structure InternEntry where
  s : Nat
  hash : UInt32
  deriving DecidableEq, Repr

/-- An entry is in the bucket that this gives. -/
def InternEntry.place (e : InternEntry) : Nat := e.hash.toNat

/-- The strings in memory and the static variables of `str_intern.c`. -/
structure InternState where
  /-- The strings by their addresses. The canonical empty string comes first. -/
  memory : List (List UInt8)
  /-- `intern_table`, and `intern_table_size` as its length. -/
  table : Option (List (List InternEntry))
  /-- `intern_table_count`, which is never set back. -/
  count : Nat
  deriving DecidableEq, Repr

namespace InternState

/-- `str_dup`. -/
def strDup (s : List UInt8) (state : InternState) : Nat × InternState :=
  if s = [] then (0, state)
  else (state.memory.length, { state with memory := state.memory ++ [s] })

/-- `str_intern_open`. -/
def strInternOpen (tableSize : Nat) (state : InternState) : InternState :=
  { state with table := some (List.replicate (if tableSize = 0 then 10007 else tableSize) []) }

/-- `str_intern_close`. The callers of `str_intern` still have the strings. -/
def strInternClose (state : InternState) : InternState := { state with table := none }

/-- `find_interned_string`. -/
def findInternedString (memory : List (List UInt8)) (table : List (List InternEntry))
    (s : List UInt8) (hash : UInt32) : Option InternEntry :=
  (Buckets.bucket table hash.toNat).find? fun p => hash == p.hash && memory[p.s]? == some s

/-- `add_interned_string`. -/
def addInternedString (s : Nat) (hash : UInt32) (table : List (List InternEntry)) :
    List (List InternEntry) :=
  Buckets.add InternEntry.place ⟨s, hash⟩ table

/-- `intern_rehash`. -/
def internRehash (newSize : Nat) (table : List (List InternEntry)) : List (List InternEntry) :=
  Buckets.rehash InternEntry.place newSize table

/-- `str_intern`. -/
def strIntern (s : List UInt8) (state : InternState) : Nat × InternState :=
  if s = [] then state.strDup s
  else
    match state.table with
    | none => state.strDup s
    | some table =>
      let hash := strHash s
      match findInternedString state.memory table s hash with
      | some e => (e.s, state)
      | none =>
        let table :=
          if table.length < state.count then internRehash (table.length * 2) table else table
        let (r, state) := state.strDup s
        (r, { state with table := some (addInternedString r hash table), count := state.count + 1 })

/-- The strings of a database, one after the other. -/
def strInternEach : List (List UInt8) → InternState → List Nat × InternState
  | [], state => ([], state)
  | s :: ss, state =>
    let (r, state) := state.strIntern s
    let (rs, state) := strInternEach ss state
    (r :: rs, state)

/-! ## One address for each string -/

/-- Since the table was opened, when `base` strings were in memory, the strings `new` have been
allocated, and they are what the table is for. -/
structure Shares (base : List (List UInt8)) (new : List (List UInt8)) (state : InternState)
    (table : List (List InternEntry)) : Prop where
  isOpen : state.table = some table
  memory : state.memory = base ++ new
  nodup : new.Nodup
  nonempty : [] ∉ new
  placed : Buckets.Placed InternEntry.place table
  entries : ∀ e, e ∈ table.flatten ↔ ∃ s ∈ new, e = ⟨base.length + new.idxOf s, strHash s⟩

/-- The address of a string. -/
def addressOf (base new : List (List UInt8)) (s : List UInt8) : Nat :=
  if s = [] then 0 else base.length + new.idxOf s

/-- The strings that are allocated, after another one is interned. -/
def allocated (new : List (List UInt8)) (s : List UInt8) : List (List UInt8) :=
  if s = [] ∨ s ∈ new then new else new ++ [s]

section

variable {base new : List (List UInt8)} {state : InternState} {table : List (List InternEntry)}
  {s : List UInt8}

namespace Shares

lemma getElem?_memory (h : Shares base new state table) (hs : s ∈ new) :
    state.memory[base.length + new.idxOf s]? = some s := by
  rw [h.memory, List.getElem?_append_right (Nat.le_add_right _ _), Nat.add_sub_cancel_left]
  exact List.getElem?_idxOf hs

lemma eq_of_findInternedString (h : Shares base new state table) {e : InternEntry}
    (hfind : findInternedString state.memory table s (strHash s) = some e) :
    s ∈ new ∧ e = ⟨base.length + new.idxOf s, strHash s⟩ := by
  have hmem := List.mem_of_find?_eq_some hfind
  have htest := List.find?_some hfind
  rw [Bool.and_eq_true, beq_iff_eq, beq_iff_eq] at htest
  obtain ⟨hhash, hstr⟩ := htest
  rw [hhash] at hmem
  obtain ⟨s', hs', rfl⟩ := (h.entries e).mp (h.placed.mem_flatten.mpr hmem)
  obtain rfl := Option.some.inj ((h.getElem?_memory hs').symm.trans hstr)
  exact ⟨hs', rfl⟩

lemma findInternedString_eq_none (h : Shares base new state table) :
    findInternedString state.memory table s (strHash s) = none ↔ s ∉ new := by
  constructor
  · intro hnone hs
    have hentry : (⟨base.length + new.idxOf s, strHash s⟩ : InternEntry) ∈ table.flatten :=
      (h.entries _).mpr ⟨s, hs, rfl⟩
    rw [h.placed.mem_flatten] at hentry
    rw [findInternedString, List.find?_eq_none] at hnone
    exact hnone _ hentry (by simp [h.getElem?_memory hs])
  · intro hs
    cases hfind : findInternedString state.memory table s (strHash s) with
    | none => rfl
    | some e => exact absurd (h.eq_of_findInternedString hfind).1 hs

/-- A string that is not in the table is allocated and put into it. -/
lemma add (h : Shares base new state table) (hs : s ≠ []) (hnew : s ∉ new)
    {table' : List (List InternEntry)} (hplaced : Buckets.Placed InternEntry.place table')
    (hperm : table'.flatten.Perm table.flatten) (count : Nat) :
    Shares base (new ++ [s])
      ⟨state.memory ++ [s],
        some (addInternedString state.memory.length (strHash s) table'), count⟩
      (addInternedString state.memory.length (strHash s) table') where
  isOpen := rfl
  memory := by rw [h.memory, List.append_assoc]
  nodup := List.nodup_append.mpr ⟨h.nodup, List.nodup_singleton s, fun a ha b hb heq =>
    hnew (List.mem_singleton.mp hb ▸ heq ▸ ha)⟩
  nonempty := by
    rw [List.mem_append, List.mem_singleton, not_or]
    exact ⟨h.nonempty, hs.symm⟩
  placed := hplaced.add _
  entries e := by
    have hlast : (new ++ [s]).idxOf s = new.length := by
      rw [List.idxOf_append_of_notMem hnew, List.idxOf_cons_self, Nat.add_zero]
    have hadd := (Buckets.perm_add InternEntry.place ⟨state.memory.length, strHash s⟩
      hplaced.pos).mem_iff (a := e)
    rw [addInternedString, hadd, List.mem_cons, hperm.mem_iff, h.entries, h.memory,
      List.length_append]
    constructor
    · rintro (rfl | ⟨s', hs', rfl⟩)
      · exact ⟨s, List.mem_append_right _ (List.mem_singleton_self s), by rw [hlast]⟩
      · exact ⟨s', List.mem_append_left _ hs', by rw [List.idxOf_append_of_mem hs']⟩
    · rintro ⟨s', hs', rfl⟩
      by_cases hold : s' ∈ new
      · exact .inr ⟨s', hold, by rw [List.idxOf_append_of_mem hold]⟩
      · obtain rfl := List.mem_singleton.mp ((List.mem_append.mp hs').resolve_left hold)
        exact .inl (by rw [hlast])

/-- What is interned has its address, and the table goes on to be for what has been allocated. -/
lemma strIntern (h : Shares base new state table) (s : List UInt8) :
    (state.strIntern s).1 = addressOf base (allocated new s) s ∧
      ∃ table', Shares base (allocated new s) (state.strIntern s).2 table' := by
  by_cases hs : s = []
  · rw [InternState.strIntern, if_pos hs, strDup, if_pos hs, addressOf, if_pos hs, allocated,
      if_pos (.inl hs)]
    exact ⟨rfl, table, h⟩
  rw [InternState.strIntern, if_neg hs, h.isOpen, addressOf, if_neg hs]
  dsimp only
  cases hfind : findInternedString state.memory table s (strHash s) with
  | some e =>
    obtain ⟨hnew, rfl⟩ := h.eq_of_findInternedString hfind
    have hallocated : allocated new s = new := if_pos (.inr hnew)
    rw [hallocated]
    exact ⟨rfl, table, h⟩
  | none =>
    have hnew := h.findInternedString_eq_none.mp hfind
    have hallocated : allocated new s = new ++ [s] := if_neg (not_or.mpr ⟨hs, hnew⟩)
    rw [hallocated, strDup, if_neg hs]
    dsimp only
    constructor
    · rw [List.idxOf_append_of_notMem hnew, List.idxOf_cons_self, Nat.add_zero, h.memory,
        List.length_append]
    · refine ⟨_, h.add hs hnew ?_ ?_ _⟩
      · split_ifs
        · exact (Buckets.rehash_spec (Nat.mul_pos h.placed.pos Nat.two_pos) _).1
        · exact h.placed
      · split_ifs
        · exact (Buckets.rehash_spec (Nat.mul_pos h.placed.pos Nat.two_pos) _).2
        · exact List.Perm.refl _

end Shares

lemma exists_foldl_allocated (new ss : List (List UInt8)) :
    ∃ more, ss.foldl allocated new = new ++ more := by
  induction ss generalizing new with
  | nil => exact ⟨[], (List.append_nil new).symm⟩
  | cons s ss ih =>
    obtain ⟨more, heq⟩ := ih (allocated new s)
    rw [List.foldl_cons, heq, allocated]
    split_ifs
    · exact ⟨more, rfl⟩
    · exact ⟨[s] ++ more, List.append_assoc _ _ _⟩

lemma mem_allocated {s' : List UInt8} : s' ∈ allocated new s ↔ s' ∈ new ∨ s' = s ∧ s' ≠ [] := by
  rw [allocated]
  split_ifs with h
  · refine ⟨.inl, fun h' => h'.elim id ?_⟩
    rintro ⟨rfl, hs⟩
    exact h.resolve_left hs
  · rw [List.mem_append, List.mem_singleton]
    refine or_congr_right ⟨?_, And.left⟩
    rintro rfl
    exact ⟨rfl, fun hs => h (.inl hs)⟩

lemma mem_foldl_allocated {ss : List (List UInt8)} :
    s ∈ ss.foldl allocated new ↔ s ∈ new ∨ s ∈ ss ∧ s ≠ [] := by
  induction ss generalizing new with
  | nil => simp
  | cons s' ss ih =>
    rw [List.foldl_cons, ih, mem_allocated, List.mem_cons, or_and_right, or_assoc]

/-- An address does not change when more strings are interned. -/
lemma addressOf_foldl (ss : List (List UInt8)) :
    addressOf base (ss.foldl allocated (allocated new s)) s
      = addressOf base (allocated new s) s := by
  by_cases hs : s = []
  · rw [addressOf, addressOf, if_pos hs, if_pos hs]
  · obtain ⟨more, heq⟩ := exists_foldl_allocated (allocated new s) ss
    rw [addressOf, addressOf, if_neg hs, if_neg hs, heq,
      List.idxOf_append_of_mem (mem_allocated.mpr (.inr ⟨rfl, hs⟩))]

lemma Shares.strInternEach (h : Shares base new state table) (ss : List (List UInt8)) :
    (state.strInternEach ss).1 = ss.map (addressOf base (ss.foldl allocated new)) ∧
      ∃ table', Shares base (ss.foldl allocated new) (state.strInternEach ss).2 table' := by
  induction ss generalizing new state table with
  | nil => exact ⟨rfl, table, h⟩
  | cons s ss ih =>
    obtain ⟨haddress, table₁, h₁⟩ := h.strIntern s
    obtain ⟨hrest, table₂, h₂⟩ := ih h₁
    refine ⟨?_, table₂, h₂⟩
    rw [List.map_cons, List.foldl_cons, addressOf_foldl, ← haddress, ← hrest]
    rfl

lemma shares_strInternOpen (tableSize : Nat) (state : InternState) :
    ∃ table, Shares state.memory [] (state.strInternOpen tableSize) table := by
  refine ⟨_, rfl, (List.append_nil _).symm, List.nodup_nil, List.not_mem_nil, ?_, fun e => ?_⟩
  · refine Buckets.placed_replicate ?_
    split_ifs with h
    · exact Nat.succ_pos _
    · exact Nat.pos_of_ne_zero h
  · rw [List.flatten_replicate_nil]
    simp

end

/-- While the table is open the address is a function of the string, at the address is the string,
and each string that is not empty is allocated once, the first time that it is interned. This does
not depend on what was in memory or on the count of earlier tables. -/
theorem strInternEach_shares (state : InternState) (hempty : state.memory[0]? = some [])
    (tableSize : Nat) (ss : List (List UInt8)) :
    ∃ (intern : List UInt8 → Nat) (new : List (List UInt8)),
      ((state.strInternOpen tableSize).strInternEach ss).1 = ss.map intern ∧
      ((state.strInternOpen tableSize).strInternEach ss).2.memory = state.memory ++ new ∧
      new.Nodup ∧ (∀ s, s ∈ new ↔ s ∈ ss ∧ s ≠ []) ∧
      ∀ s ∈ ss, (state.memory ++ new)[intern s]? = some s := by
  obtain ⟨table, h⟩ := shares_strInternOpen tableSize state
  obtain ⟨hmap, table', h'⟩ := h.strInternEach ss
  have hmem (s : List UInt8) : s ∈ ss.foldl allocated [] ↔ s ∈ ss ∧ s ≠ [] := by
    rw [mem_foldl_allocated]
    simp
  refine ⟨_, _, hmap, h'.memory, h'.nodup, hmem, fun s hs => ?_⟩
  rw [addressOf]
  split_ifs with hs'
  · subst hs'
    rw [List.getElem?_append_left (List.getElem?_eq_some_iff.mp hempty).1]
    exact hempty
  · rw [← h'.memory]
    exact h'.getElem?_memory ((hmem s).mpr ⟨hs, hs'⟩)

theorem strInternEach_shares_case :
    ∃ (intern : List UInt8 → Nat) (new : List (List UInt8)),
      ((InternState.strInternOpen 1 ⟨[[]], none, 7⟩).strInternEach [[97], [65], [97], []]).1
        = [[97], [65], [97], []].map intern ∧
      new.Nodup ∧ ∀ s ∈ [[97], [65], [97], []], ([[]] ++ new)[intern s]? = some s := by
  obtain ⟨intern, new, hmap, -, hnodup, -, hget⟩ :=
    strInternEach_shares ⟨[[]], none, 7⟩ rfl 1 [[97], [65], [97], []]
  exact ⟨intern, new, hmap, hnodup, hget⟩

example : ((InternState.strInternOpen 1 ⟨[[]], none, 7⟩).strInternEach
    [[97], [65], [97], []]).1 = [1, 2, 1, 0] := by decide

end InternState

end LambdaMOO
