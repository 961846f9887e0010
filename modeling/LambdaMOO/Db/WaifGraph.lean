import LambdaMOO.Db.DumpSpec
import LambdaMOO.Db.Storage
import LambdaMOO.Db.WaifAccess
import LambdaMOO.Lib.Acyclic

/-!
# No waif holds itself

A waif holds the waifs in its stored values, also in values that are out of date with its
class. Reconciling, creating and reallocating bring no new values, and an assignment brings
one that does not refer to the waif, so there is never a cycle.
-/

namespace LambdaMOO

open Relation

variable {P S : Type}

/-! ## Slots -/

section Slots

variable {map : BitVec nMappableProps}

lemma slotCount_max (map : BitVec nMappableProps) (length : Nat) :
    slotCount map 0 (max length nMappableProps) = countWaifPropvals length map := by
  obtain ⟨k, hk⟩ : ∃ k, max length nMappableProps = nMappableProps + k ∧
      length - nMappableProps = k :=
    ⟨length - nMappableProps, by omega, rfl⟩
  rw [hk.1, slotCount_add, slotCount_eq_countP (by omega), slotCount_of_le (by omega),
    ← List.range_eq_range', countWaifPropvals, countSetBits, hk.2, Nat.add_comm]

/-- The properties of the list have no more slots than there are. -/
lemma slotCount_le (map : BitVec nMappableProps) (length : Nat) :
    slotCount map 0 length ≤ countWaifPropvals length map := by
  obtain ⟨k, hk⟩ := Nat.exists_eq_add_of_le (Nat.le_max_left length nMappableProps)
  rw [← slotCount_max, hk, slotCount_add]
  exact Nat.le_add_right _ _

lemma exists_unpack {i n : Nat} {ov : List Var} (h : slotCount map i n ≤ ov.length) :
    ∃ us, unpack map i n ov = some us := by
  induction n generalizing i ov with
  | zero => exact ⟨[], rfl⟩
  | succ n ih =>
    rw [slotCount] at h
    by_cases hs : hasSlot map i
    · rw [if_pos hs] at h
      cases ov with
      | nil =>
        rw [List.length_nil] at h
        omega
      | cons v ov =>
        rw [List.length_cons] at h
        have hle : slotCount map (i + 1) n ≤ ov.length := by omega
        obtain ⟨us, hus⟩ := ih hle
        exact ⟨v :: us, by rw [unpack_of_hasSlot hs, hus, Option.map_some]⟩
    · rw [if_neg hs, Nat.zero_add] at h
      obtain ⟨us, hus⟩ := ih h
      exact ⟨.clear :: us, by rw [unpack_of_not_hasSlot hs, hus, Option.map_some]⟩

/-- Reconciling gives a storage of the length its map says. -/
lemma Waif.length_reconcile {w : Waif} {oldDefs : Option (List Propdef)} {defs : List Propdef}
    {map : BitVec nMappableProps} {vals : Option (List Var)}
    (h : w.reconcile oldDefs defs = some (map, vals)) :
    countWaifPropvals defs.length map = (vals.getD []).length := by
  unfold Waif.reconcile at h
  split at h
  · cases h
    rw [allocWaifPropvals, getD_allocated, List.length_replicate]
  · obtain ⟨old, -, h⟩ := Option.bind_eq_some_iff.mp h
    obtain ⟨us, -, h⟩ := Option.bind_eq_some_iff.mp h
    cases h
    rw [getD_allocated, length_pack, length_transfer, slotCount_eq_countWaifPropvals]
    intro i hi
    have hlt := lt_of_propMapped_mapOf hi
    rwa [length_transfer] at hlt

/-- It goes through where the storage is as long as the old list needs it. -/
lemma Waif.exists_reconcile {w : Waif} {oldDefs : Option (List Propdef)} (defs : List Propdef)
    (h : ∀ ov, w.propvals = some ov →
      ∃ old, oldDefs = some old ∧ countWaifPropvals old.length w.pmap = ov.length) :
    ∃ map vals, w.reconcile oldDefs defs = some (map, vals) ∧
      countWaifPropvals defs.length map = (vals.getD []).length := by
  obtain ⟨map, vals, hrec⟩ : ∃ map vals, w.reconcile oldDefs defs = some (map, vals) := by
    unfold Waif.reconcile
    cases hv : w.propvals with
    | none => exact ⟨_, _, rfl⟩
    | some ov =>
      obtain ⟨old, rfl, hlen⟩ := h ov hv
      obtain ⟨us, hus⟩ := exists_unpack (hlen ▸ slotCount_le w.pmap old.length)
      simp only [Option.bind_eq_bind, Option.bind_some, hus]
      exact ⟨_, _, rfl⟩
  exact ⟨map, vals, hrec, length_reconcile hrec⟩

lemma length_spread {idx i n : Nat} {old vals : List Var}
    (h : spread map idx i n old = some vals) : vals.length = slotCount map i n := by
  induction n generalizing i old vals with
  | zero =>
    obtain rfl : [] = vals := by simpa [spread] using h
    rfl
  | succ n ih =>
    unfold spread at h
    rw [slotCount]
    split_ifs at h with hs hi
    · obtain ⟨vals', hvals, rfl⟩ := Option.map_eq_some_iff.mp h
      rw [List.length_cons, ih hvals, if_pos hs, Nat.add_comm]
    · cases old with
      | nil => simp at h
      | cons v old =>
        obtain ⟨vals', hvals, rfl⟩ := Option.map_eq_some_iff.mp h
        rw [List.length_cons, ih hvals, if_pos hs, Nat.add_comm]
    · rw [ih h, if_neg hs, Nat.zero_add]

lemma mem_spread {idx i n : Nat} {old vals : List Var} (h : spread map idx i n old = some vals) :
    ∀ v ∈ vals, v = .clear ∨ v ∈ old := by
  induction n generalizing i old vals with
  | zero =>
    obtain rfl : [] = vals := by simpa [spread] using h
    simp
  | succ n ih =>
    unfold spread at h
    split_ifs at h with hs hi
    · obtain ⟨vals', hvals, rfl⟩ := Option.map_eq_some_iff.mp h
      intro v hv
      rcases List.mem_cons.mp hv with rfl | hv
      · exact Or.inl rfl
      · exact ih hvals v hv
    · cases old with
      | nil => simp at h
      | cons u old =>
        obtain ⟨vals', hvals, rfl⟩ := Option.map_eq_some_iff.mp h
        intro v hv
        rcases List.mem_cons.mp hv with rfl | hv
        · exact Or.inr List.mem_cons_self
        · rcases ih hvals v hv with hc | hm
          · exact Or.inl hc
          · exact Or.inr (List.mem_cons_of_mem _ hm)
    · exact ih h

/-- A slot is added to the storage, which holds no value that was not there. -/
lemma allocPropvalOffset_spec {length idx off : Nat} {w w' : Waif}
    (h : allocPropvalOffset length w idx = some (off, w')) :
    ∃ vals, w' = { w with pmap := w'.pmap, propvals := some vals } ∧
      countWaifPropvals length w'.pmap = vals.length ∧
      ∀ v ∈ vals, v = .clear ∨ v ∈ w.propvals.getD [] := by
  unfold allocPropvalOffset at h
  split_ifs at h with hm
  obtain ⟨vals, hvals, heq⟩ := Option.map_eq_some_iff.mp h
  obtain ⟨-, rfl⟩ := Prod.mk.inj heq
  exact ⟨vals, rfl, by rw [length_spread hvals, slotCount_max], mem_spread hvals⟩

end Slots

namespace Db

/-! ## What a waif holds -/

/-- The stored values of the waif at `r`. -/
def stored (db : Db P) (r : Nat) : List Var := ((db.waifs[r]?).bind Waif.propvals).getD []

/-- The waif at `a` holds the waif at `b`, directly or inside lists. -/
def Holds (db : Db P) (a b : Nat) : Prop := ∃ v ∈ db.stored a, b ∈ v.waifs

/-- Every property list that a class points to is there. -/
def CachesAllocated (db : Db P) : Prop :=
  ∀ oid a, cacheOf db.objects oid = some a → a < db.waifPropdefs.length

/-- The storage of each waif is as long as `count_waif_propvals` says, stored values refer to
waifs that there are, and no waif holds itself through any number of others. -/
structure WaifsSound (db : Db P) : Prop where
  caches : db.CachesAllocated
  counted : ∀ (r : Nat) (w : Waif), db.waifs[r]? = some w →
    db.countPropvals w = some (w.propvals.getD []).length
  bare : ∀ (r : Nat) (w : Waif), db.waifs[r]? = some w → w.propdefs = none → w.propvals = none
  closed : ∀ a b, db.Holds a b → b < db.waifs.length
  acyclic : Acyclic db.Holds

variable {db db' : Db P} {r : Nat}

lemma stored_eq {w : Waif} (hw : db.waifs[r]? = some w) :
    db.stored r = w.propvals.getD [] := by
  rw [stored, hw, Option.bind_some]

/-- The values of one waif change. -/
lemma stored_set {w w' : Waif} (hw : db.waifs[r]? = some w)
    (hset : db'.waifs = db.waifs.set r w') (x : Nat) :
    db'.stored x = if x = r then w'.propvals.getD [] else db.stored x := by
  unfold stored
  rw [hset]
  split_ifs with hx
  · rw [hx, List.getElem?_set_self (List.getElem?_eq_some_iff.mp hw).1, Option.bind_some]
  · rw [List.getElem?_set_ne (Ne.symm hx)]

lemma waifs_clear : Var.clear.waifs = [] := rfl

/-- A waif gets new values. -/
lemma Holds.of_set {w w' : Waif} {s : Nat → Prop} (hw : db.waifs[r]? = some w)
    (hset : db'.waifs = db.waifs.set r w')
    (hvals : ∀ v ∈ w'.propvals.getD [], (v = .clear ∨ v ∈ w.propvals.getD []) ∨
      ∀ b ∈ v.waifs, s b) {a b : Nat} (h : db'.Holds a b) :
    db.Holds a b ∨ a = r ∧ s b := by
  obtain ⟨v, hv, hb⟩ := h
  rw [stored_set hw hset] at hv
  split_ifs at hv with ha
  · subst ha
    rcases hvals v hv with (rfl | hold) | hnew
    · simp [waifs_clear] at hb
    · exact Or.inl ⟨v, stored_eq hw ▸ hold, hb⟩
    · exact Or.inr ⟨rfl, hnew b hb⟩
  · exact Or.inl ⟨v, hv, hb⟩

lemma countPropvals_mono (hlists : db.waifPropdefs <+: db'.waifPropdefs) {w : Waif} {n : Nat}
    (h : db.countPropvals w = some n) : db'.countPropvals w = some n := by
  unfold countPropvals at *
  split at h
  · exact h
  · rename_i pd hpd
    obtain ⟨defs, hdefs, hn⟩ := Option.map_eq_some_iff.mp h
    obtain ⟨rest, hrest⟩ := hlists
    rw [← hrest, List.getElem?_append_left (List.getElem?_eq_some_iff.mp hdefs).1, hdefs,
      Option.map_some, hn]

lemma WaifsSound.propvals_eq (h : WaifsSound db) (hr : r < db.waifs.length) :
    db.propvals r = some (db.stored r) := by
  have hw : db.waifs[r]? = some db.waifs[r] := List.getElem?_eq_getElem hr
  rw [propvals, hw, Option.bind_eq_bind, Option.bind_some, h.counted r _ hw, stored_eq hw]
  simp

/-! ## Updates -/

/-- Generating the property list of a class adds a list, and the class points to it. -/
structure Lists (db db' : Db P) (new : Nat) : Prop where
  waifs : db'.waifs = db.waifs
  lists : db.waifPropdefs <+: db'.waifPropdefs
  caches : db.CachesAllocated → db'.CachesAllocated ∧ new < db'.waifPropdefs.length

lemma lists_classPropdefs {cls : Int} {o : Object P} (ho : findObject db.objects cls = some o) :
    Lists db (db.classPropdefs cls o).2 (db.classPropdefs cls o).1 := by
  unfold classPropdefs
  cases hw : o.waifPropdefs with
  | some new =>
    refine ⟨rfl, List.prefix_rfl, fun hc => ⟨hc, hc cls new ?_⟩⟩
    rw [cacheOf, ho, Option.bind_some, hw]
  | none =>
    refine ⟨rfl, List.prefix_append _ _, fun hc => ⟨?_, by simp⟩⟩
    intro x a ha
    rw [List.length_append, List.length_singleton]
    unfold cacheOf at ha
    rw [findObject_set ho] at ha
    split_ifs at ha with hx
    · obtain rfl : db.waifPropdefs.length = a := by simpa using ha
      exact Nat.lt_succ_self _
    · exact Nat.lt_succ_of_lt (hc x a ha)

/-- An update of the waif at `r` changes that waif only and brings it no values. -/
structure Refreshes (db db' : Db P) (r : Nat) (w w' : Waif) : Prop where
  waif : db.waifs[r]? = some w
  waifs : db'.waifs = db.waifs.set r w'
  lists : db.waifPropdefs <+: db'.waifPropdefs
  values : ∀ v ∈ w'.propvals.getD [], v = .clear ∨ v ∈ w.propvals.getD []

lemma refreshes_updateWaifPropdefs (h : db.updateWaifPropdefs r = some db') :
    ∃ w w', Refreshes db db' r w w' := by
  unfold updateWaifPropdefs at h
  obtain ⟨w, hw, h⟩ := Option.bind_eq_some_iff.mp h
  split at h
  · cases h
    exact ⟨w, _, hw, rfl, List.prefix_rfl, by simp⟩
  · rename_i o ho
    split_ifs at h with hsync
    · cases h
      exact ⟨w, w, hw, (set_getElem?_self hw).symm, List.prefix_rfl, fun v hv => Or.inr hv⟩
    · have hlist := lists_classPropdefs ho
      generalize db.classPropdefs w.cls o = p at h hlist
      obtain ⟨new, db₁⟩ := p
      simp only [Option.bind_eq_bind, Option.bind_eq_some_iff] at h
      obtain ⟨defs, -, ⟨map, vals⟩, hrec, heq⟩ := h
      cases heq
      exact ⟨w, _, hw, congrArg (List.set · r _) hlist.waifs, hlist.lists, Waif.mem_reconcile hrec⟩

namespace Refreshes

variable {w w' : Waif}

lemma length (h : Refreshes db db' r w w') : db'.waifs.length = db.waifs.length := by
  rw [h.waifs, List.length_set]

lemma holds (h : Refreshes db db' r w w') : ∀ a b, db'.Holds a b → db.Holds a b := by
  intro a b hab
  rcases Holds.of_set (s := fun _ => False) h.waif h.waifs (fun v hv => Or.inl (h.values v hv))
    hab with hold | ⟨-, hf⟩
  · exact hold
  · exact hf.elim

lemma getElem?_ne (h : Refreshes db db' r w w') {x : Nat} (hx : x ≠ r) :
    db'.waifs[x]? = db.waifs[x]? := by
  rw [h.waifs, List.getElem?_set_ne (Ne.symm hx)]

end Refreshes

/-- Only one waif changes, and its storage fits. -/
lemma WaifsSound.of_set {w w' : Waif} (h : WaifsSound db) (hw : db.waifs[r]? = some w)
    (hset : db'.waifs = db.waifs.set r w') (hlists : db.waifPropdefs <+: db'.waifPropdefs)
    (hcaches : db'.CachesAllocated)
    (hcounted : db'.countPropvals w' = some (w'.propvals.getD []).length)
    (hbare : w'.propdefs = none → w'.propvals = none)
    (hclosed : ∀ a b, db'.Holds a b → b < db.waifs.length) (hacyclic : Acyclic db'.Holds) :
    WaifsSound db' where
  caches := hcaches
  counted := by
    intro x u hu
    by_cases hx : x = r
    · rw [hset, hx, List.getElem?_set_self (List.getElem?_eq_some_iff.mp hw).1] at hu
      cases hu
      exact hcounted
    · rw [hset, List.getElem?_set_ne (Ne.symm hx)] at hu
      exact countPropvals_mono hlists (h.counted x u hu)
  bare := by
    intro x u hu
    by_cases hx : x = r
    · rw [hset, hx, List.getElem?_set_self (List.getElem?_eq_some_iff.mp hw).1] at hu
      cases hu
      exact hbare
    · rw [hset, List.getElem?_set_ne (Ne.symm hx)] at hu
      exact h.bare x u hu
  closed := by
    intro a b hab
    rw [hset, List.length_set]
    exact hclosed a b hab
  acyclic := hacyclic

/-- An update of a waif goes through and leaves everything sound. -/
lemma WaifsSound.update (h : WaifsSound db) (hr : r < db.waifs.length) :
    ∃ db', db.updateWaifPropdefs r = some db' ∧ WaifsSound db' := by
  have hw : db.waifs[r]? = some db.waifs[r] := List.getElem?_eq_getElem hr
  suffices hs : ∃ db' w', db.updateWaifPropdefs r = some db' ∧ db'.waifs = db.waifs.set r w' ∧
      db'.CachesAllocated ∧ db'.countPropvals w' = some (w'.propvals.getD []).length ∧
      (w'.propdefs = none → w'.propvals = none) by
    obtain ⟨db', w', hupd, hset, hcaches, hcounted, hbare⟩ := hs
    obtain ⟨_, _, href⟩ := refreshes_updateWaifPropdefs hupd
    exact ⟨db', hupd, h.of_set hw hset href.lists hcaches hcounted hbare
      (fun a b hab => h.closed a b (href.holds a b hab)) (h.acyclic.mono href.holds)⟩
  unfold updateWaifPropdefs
  rw [hw, Option.bind_eq_bind, Option.bind_some]
  generalize db.waifs[r] = w at hw
  cases ho : findObject db.objects w.cls with
  | none => exact ⟨_, _, rfl, rfl, h.caches, rfl, fun _ => rfl⟩
  | some o =>
    by_cases hsync : w.propdefs = o.waifPropdefs
    · refine ⟨db, w, ?_, (set_getElem?_self hw).symm, h.caches, h.counted r w hw, h.bare r w hw⟩
      simp only [hsync, if_true]
    · have hlist := lists_classPropdefs ho
      simp only [hsync, if_false]
      generalize db.classPropdefs w.cls o = p at hlist
      obtain ⟨new, db₁⟩ := p
      obtain ⟨hcaches, hnew⟩ := hlist.caches h.caches
      have hdefs : db₁.waifPropdefs[new]? = some db₁.waifPropdefs[new] :=
        List.getElem?_eq_getElem hnew
      have hold : ∀ ov, w.propvals = some ov →
          ∃ old, (w.propdefs.bind fun old => db.waifPropdefs[old]?) = some old ∧
            countWaifPropvals old.length w.pmap = ov.length := by
        intro ov hov
        have hcount := h.counted r w hw
        unfold countPropvals at hcount
        cases hpd : w.propdefs with
        | none => simp [h.bare r w hw hpd] at hov
        | some pd =>
          rw [hpd] at hcount
          obtain ⟨old, hold, hlen⟩ := Option.map_eq_some_iff.mp hcount
          exact ⟨old, by rw [Option.bind_some, hold], by rw [hlen, hov, Option.getD_some]⟩
      obtain ⟨map, vals, hrec, hlen⟩ := Waif.exists_reconcile db₁.waifPropdefs[new] hold
      let w' : Waif := { w with propdefs := some new, pmap := map, propvals := vals }
      refine ⟨{ db₁ with waifs := db₁.waifs.set r w' }, w', ?_, ?_, hcaches, ?_, ?_⟩
      · simp only [Option.bind_eq_bind, hdefs, Option.bind_some, hrec]
        rfl
      · exact congrArg (List.set · r w') hlist.waifs
      · simp only [countPropvals, w']
        rw [hdefs, Option.map_some, hlen]
      · simp [w']

/-! ## Creation and class changes -/

lemma stored_append (w : Waif) (hset : db'.waifs = db.waifs ++ [w])
    (hclear : ∀ v ∈ w.propvals.getD [], v = .clear) (x : Nat) :
    ∀ v ∈ db'.stored x, v = .clear ∨ v ∈ db.stored x := by
  unfold stored
  rw [hset]
  rcases Nat.lt_trichotomy x db.waifs.length with hx | rfl | hx
  · rw [List.getElem?_append_left hx]
    exact fun v hv => Or.inr hv
  · rw [List.getElem?_concat_length, Option.bind_some]
    exact fun v hv => Or.inl (hclear v hv)
  · rw [List.getElem?_eq_none (by rw [List.length_append, List.length_singleton]; omega)]
    simp

lemma WaifsSound.newWaif (h : WaifsSound db) {cls owner : Int}
    (hnew : db.newWaif cls owner = some (r, db')) : WaifsSound db' := by
  unfold Db.newWaif at hnew
  obtain ⟨o, ho, hnew⟩ := Option.bind_eq_some_iff.mp hnew
  have hlist := lists_classPropdefs ho
  generalize db.classPropdefs cls o = p at hnew hlist
  obtain ⟨new, db₁⟩ := p
  obtain ⟨defs, hdefs, heq⟩ := Option.bind_eq_some_iff.mp hnew
  cases heq
  obtain ⟨hwaifs, hlists, hcaches⟩ := hlist
  dsimp only at hwaifs hlists hcaches hdefs
  have hvals : (freshWaif cls owner new defs.length).propvals.getD []
      = List.replicate (countWaifPropvals defs.length 0) .clear := by
    simp only [freshWaif, allocWaifPropvals, getD_allocated]
  have hclear : ∀ v ∈ (freshWaif cls owner new defs.length).propvals.getD [], v = .clear := by
    rw [hvals]
    exact fun v hv => List.eq_of_mem_replicate hv
  have hcount : countPropvals { db₁ with
      waifs := db₁.waifs ++ [freshWaif cls owner new defs.length] }
      (freshWaif cls owner new defs.length)
      = some ((freshWaif cls owner new defs.length).propvals.getD []).length := by
    rw [hvals, List.length_replicate]
    simp only [countPropvals, freshWaif, hdefs, Option.map_some]
  have hpd : (freshWaif cls owner new defs.length).propdefs = some new := rfl
  generalize freshWaif cls owner new defs.length = w at *
  have hholds : ∀ a b, Holds { db₁ with waifs := db₁.waifs ++ [w] } a b → db.Holds a b := by
    rintro a b ⟨v, hv, hb⟩
    have hset : db₁.waifs ++ [w] = db.waifs ++ [w] := by rw [hwaifs]
    rcases stored_append w hset hclear a v hv with rfl | hold
    · simp [waifs_clear] at hb
    · exact ⟨v, hold, hb⟩
  have hget : ∀ (x : Nat) (u : Waif), (db₁.waifs ++ [w])[x]? = some u →
      db.waifs[x]? = some u ∨ u = w := by
    intro x u hu
    rw [hwaifs] at hu
    rcases Nat.lt_or_ge x db.waifs.length with hx | hx
    · rw [List.getElem?_append_left hx] at hu
      exact Or.inl hu
    · rw [List.getElem?_append_right hx, List.getElem?_singleton] at hu
      split_ifs at hu
      exact Or.inr (Option.some.inj hu).symm
  refine ⟨(hcaches h.caches).1, ?_, ?_, ?_, h.acyclic.mono hholds⟩
  · intro x u hu
    rcases hget x u hu with hold | rfl
    · exact countPropvals_mono hlists (h.counted x u hold)
    · exact hcount
  · intro x u hu hnone
    rcases hget x u hu with hold | rfl
    · exact h.bare x u hold hnone
    · rw [hpd] at hnone
      cases hnone
  · intro a b hab
    have := h.closed a b (hholds a b hab)
    simp only [List.length_append, hwaifs]
    omega

/-- Whatever happens to the objects. A property list of waifs that is in use is only changed
by renaming a property in it. -/
structure ClassChange (db db' : Db P) : Prop where
  waifs : db'.waifs = db.waifs
  lists : ∀ (a : Nat) (defs : List Propdef), db.waifPropdefs[a]? = some defs →
    ∃ defs', db'.waifPropdefs[a]? = some defs' ∧ defs'.length = defs.length
  caches : db'.CachesAllocated

lemma WaifsSound.classChange (h : WaifsSound db) (hc : ClassChange db db') :
    WaifsSound db' := by
  have hstored : ∀ x, db'.stored x = db.stored x := by
    intro x
    rw [stored, hc.waifs, stored]
  have hholds : ∀ a b, db'.Holds a b → db.Holds a b := by
    rintro a b ⟨v, hv, hb⟩
    exact ⟨v, hstored a ▸ hv, hb⟩
  refine ⟨hc.caches, ?_, ?_, ?_, h.acyclic.mono hholds⟩
  · intro x w hw
    rw [hc.waifs] at hw
    have hcount := h.counted x w hw
    unfold countPropvals at *
    split at hcount
    · exact hcount
    · obtain ⟨defs, hdefs, hlen⟩ := Option.map_eq_some_iff.mp hcount
      obtain ⟨defs', hdefs', hlen'⟩ := hc.lists _ _ hdefs
      rw [hdefs', Option.map_some, hlen', hlen]
  · intro x w hw
    exact h.bare x w (hc.waifs ▸ hw)
  · intro a b hab
    rw [hc.waifs]
    exact h.closed a b (hholds a b hab)

/-! ## Assignment -/

end Db

mutual
/-- A value refers to what one of its waifs refers to. -/
lemma Var.refersTo_eq_false {f : Nat → Option Bool} :
    ∀ {v : Var}, v.refersTo f = some false → ∀ b ∈ v.waifs, f b = some false
  | .list _, h => Var.anyRefersTo_eq_false h
  | .waif w, h => by
    intro b hb
    obtain rfl := List.mem_singleton.mp hb
    exact h
  | .int _, _ | .obj _, _ | .str _, _ | .err _, _ | .clear, _ | .none, _ | .catchMark _, _
  | .finallyMark _, _ | .float _, _ => by simp [Var.waifs]

lemma Var.anyRefersTo_eq_false {f : Nat → Option Bool} :
    ∀ {vs : List Var}, Var.anyRefersTo f vs = some false → ∀ b ∈ Var.waifsOf vs, f b = some false
  | [], _ => by simp [Var.waifsOf]
  | v :: vs, h => by
    obtain ⟨found, hfound, h⟩ := Option.bind_eq_some_iff.mp h
    cases found with
    | true => simp at h
    | false =>
      intro b hb
      rcases List.mem_append.mp hb with hb | hb
      · exact Var.refersTo_eq_false hfound b hb
      · exact Var.anyRefersTo_eq_false h b hb
end

mutual
lemma Var.refersTo_isSome {f : Nat → Option Bool} :
    ∀ {v : Var}, (∀ b ∈ v.waifs, (f b).isSome) → (v.refersTo f).isSome
  | .list _, h => Var.anyRefersTo_isSome h
  | .waif _, h => h _ (List.mem_singleton.mpr rfl)
  | .int _, _ | .obj _, _ | .str _, _ | .err _, _ | .clear, _ | .none, _ | .catchMark _, _
  | .finallyMark _, _ | .float _, _ => rfl

lemma Var.anyRefersTo_isSome {f : Nat → Option Bool} :
    ∀ {vs : List Var}, (∀ b ∈ Var.waifsOf vs, (f b).isSome) → (Var.anyRefersTo f vs).isSome
  | [], _ => rfl
  | v :: vs, h => by
    have hv : (v.refersTo f).isSome :=
      Var.refersTo_isSome fun b hb => h b (List.mem_append_left _ hb)
    have hvs : (Var.anyRefersTo f vs).isSome :=
      Var.anyRefersTo_isSome fun b hb => h b (List.mem_append_right _ hb)
    obtain ⟨found, hfound⟩ := Option.isSome_iff_exists.mp hv
    rw [Var.anyRefersTo, hfound, Option.bind_eq_bind, Option.bind_some]
    split
    · rfl
    · exact hvs
end

namespace Db

variable {db db' : Db P} {r : Nat}

lemma mem_waifsOf_stored {a b : Nat} : b ∈ Var.waifsOf (db.stored a) ↔ db.Holds a b := by
  rw [Var.waifsOf_eq_flatMap, List.mem_flatMap]
  rfl

/-- The check follows all that is stored, so what it does not find is not reached. -/
lemma WaifsSound.not_reaches (h : WaifsSound db) {key depth w : Nat}
    (hf : db.waifRefersTo key depth w = some false) : ¬ ReflTransGen db.Holds w key := by
  induction depth generalizing w with
  | zero => cases hf
  | succ depth ih =>
    unfold waifRefersTo at hf
    have hkey : w ≠ key := by
      rintro rfl
      simp at hf
    rw [if_neg hkey] at hf
    obtain ⟨vals, hvals, hany⟩ := Option.bind_eq_some_iff.mp hf
    intro hreach
    rcases hreach.cases_head with heq | ⟨b, hwb, hb⟩
    · exact hkey heq
    · have hw : w < db.waifs.length := by
        obtain ⟨_, hget, -⟩ := Option.bind_eq_some_iff.mp hvals
        exact (List.getElem?_eq_some_iff.mp hget).1
      have hvals : db.propvals w = some vals := hvals
      obtain rfl : db.stored w = vals := by
        rw [h.propvals_eq hw] at hvals
        exact Option.some.inj hvals
      exact ih (Var.anyRefersTo_eq_false hany b (mem_waifsOf_stored.mpr hwb)) hb

/-- A value that does not refer to the waif is stored in it. -/
lemma WaifsSound.store (h : WaifsSound db) {w w' : Waif} {idx : Nat} {val : Var}
    (hw : db.waifs[r]? = some w)
    (hcounted : db.countPropvals w' = some (w'.propvals.getD []).length)
    (hpd : w'.propdefs ≠ none)
    (hvals : ∀ v ∈ w'.propvals.getD [], v = .clear ∨ v ∈ w.propvals.getD [])
    (hval : ∀ b ∈ val.waifs, b < db.waifs.length) (hrefers : db.refersTo val r = some false)
    (hst : db.storePropval r w' idx val = some db') : WaifsSound db' := by
  unfold storePropval at hst
  obtain ⟨vals, hv, hst⟩ := Option.bind_eq_some_iff.mp hst
  split_ifs at hst with hidx
  cases hst
  let w₁ : Waif := { w' with propvals := some (vals.set idx val) }
  have hnew : ∀ v ∈ w₁.propvals.getD [], (v = .clear ∨ v ∈ w.propvals.getD []) ∨
      ∀ b ∈ v.waifs, b ∈ val.waifs := by
    intro v hmem
    rw [Option.getD_some] at hmem
    rcases List.mem_or_eq_of_mem_set hmem with hold | rfl
    · exact Or.inl (hvals v (by rwa [hv, Option.getD_some]))
    · exact Or.inr fun b hb => hb
  have hholds : ∀ a b, Holds { db with waifs := db.waifs.set r w₁ } a b →
      db.Holds a b ∨ a = r ∧ b ∈ val.waifs :=
    fun a b hab => Holds.of_set (s := (· ∈ val.waifs)) hw rfl hnew hab
  refine h.of_set hw rfl List.prefix_rfl h.caches ?_ (fun hn => absurd hn hpd) ?_ ?_
  · rw [hv, Option.getD_some] at hcounted
    rw [Option.getD_some, List.length_set, ← hcounted]
    rfl
  · intro a b hab
    rcases hholds a b hab with hold | ⟨-, hb⟩
    · exact h.closed a b hold
    · exact hval b hb
  · exact h.acyclic.insert hholds fun b hb =>
      h.not_reaches (Var.refersTo_eq_false hrefers b hb)

lemma WaifsSound.waifPutProp (h : WaifsSound db) {name : String} {val : Var} {progr : Int}
    {e : Option ErrorCode} (hval : ∀ b ∈ val.waifs, b < db.waifs.length)
    (hput : db.waifPutProp r name val progr = some (e, db')) : WaifsSound db' := by
  unfold Db.waifPutProp at hput
  obtain ⟨db₁, hupd, hput⟩ := Option.bind_eq_some_iff.mp hput
  obtain ⟨_, _, href⟩ := refreshes_updateWaifPropdefs hupd
  obtain ⟨_, hupd', h₁⟩ := h.update (List.getElem?_eq_some_iff.mp href.waif).1
  obtain rfl : _ = db₁ := Option.some.inj (hupd'.symm.trans hupd)
  rw [← href.length] at hval
  obtain ⟨w, hw, hput⟩ := Option.bind_eq_some_iff.mp hput
  split_ifs at hput
  · cases hput
    exact h₁
  · cases hput
    exact h₁
  · cases hput
    exact h₁
  · obtain ⟨pd, hpd, hput⟩ := Option.bind_eq_some_iff.mp hput
    obtain ⟨defs, hdefs, hput⟩ := Option.bind_eq_some_iff.mp hput
    have hne : w.propdefs ≠ none := by simp [hpd]
    split at hput
    · cases hput
      exact h₁
    · obtain ⟨prop, -, hput⟩ := Option.bind_eq_some_iff.mp hput
      split_ifs at hput
      · cases hput
        exact h₁
      · obtain ⟨refers, hrefers, hput⟩ := Option.bind_eq_some_iff.mp hput
        cases refers with
        | true =>
          cases hput
          exact h₁
        | false =>
          simp only [Bool.false_eq_true, if_false] at hput
          split at hput
          · -- the property has a slot
            obtain ⟨db₂, hst, heq⟩ := Option.map_eq_some_iff.mp hput
            cases heq
            exact h₁.store hw (h₁.counted r w hw) hne (fun v hv => Or.inr hv) hval hrefers hst
          · -- it gets one
            obtain ⟨⟨off, w'⟩, halloc, hput⟩ := Option.bind_eq_some_iff.mp hput
            obtain ⟨db₂, hst, heq⟩ := Option.map_eq_some_iff.mp hput
            cases heq
            obtain ⟨vals, hw', hlen, hmem⟩ := allocPropvalOffset_spec halloc
            have hpd' : w'.propdefs = some pd := by rw [hw', hpd]
            have hvals : w'.propvals = some vals := by rw [hw']
            refine h₁.store hw ?_ (by simp [hpd']) (by rwa [hvals]) hval hrefers hst
            simp only [countPropvals, hpd', hdefs, hvals, Option.map_some, Option.getD_some, hlen]

end Db

end LambdaMOO
