import LambdaMOO.Db.Record

/-!
# A dump writes what its database says

A dump changes the database it writes: property lists are generated, waifs are reconciled,
and each waif that is written has its number stored over its map. The invariant says what
has changed after any part of a dump, whether it goes on or has failed.
-/

namespace LambdaMOO

variable {P : Type}

namespace Db

/-- What the dump relies on: property lists are up to date and allocated, a waif of a valid
class has one, and the waifs in stored values exist. -/
structure Base (db : Db P) : Prop where
  cacheOk : CacheOk db
  owned : ∀ (r : Nat) (w : Waif), db.waifs[r]? = some w → ∀ a ∈ w.propdefs, a < db.waifPropdefs.length
  listed : ∀ (r : Nat) (w : Waif), db.waifs[r]? = some w → isValid db.objects w.cls → w.propdefs.isSome
  closed : ∀ (r : Nat) (w : Waif), db.waifs[r]? = some w → ∀ v ∈ w.propvals.getD [], ∀ q ∈ v.waifs,
    q < db.waifs.length

/-- The waif with another property list, other values and another map. -/
def refit (w : Waif) (pd : Option Nat) (vals : Option (List Var))
    (map : BitVec nMappableProps) : Waif :=
  { w with propdefs := pd, propvals := vals, pmap := map }

/-- `pd` is the property list of the class and has `len` entries; without a class there is
none. -/
def InSync (db : Db P) (cls : Int) (pd : Option Nat) (len : Nat) : Prop :=
  if isValid db.objects cls then
    ∃ a defs, pd = some a ∧ cacheOf db.objects cls = some a ∧ db.waifPropdefs[a]? = some defs ∧
      defs.length = len
  else pd = none ∧ len = 0

/-- The waif at `r` has been reconciled and has the number `i`, which overlies its map. -/
def Written (base db : Db P) (i r : Nat) : Prop :=
  ∃ w map vals len pd, base.waifs[r]? = some w ∧ base.reconciled w = some (map, vals, len) ∧
    db.waifs[r]? = some (refit w pd vals (setSaveIndex map i)) ∧
    InSync db w.cls pd len

/-- The database after a part of the dump of `base` that has written the waifs `saved`. -/
structure DumpInv (base db : Db P) (saved : List Nat) : Prop where
  grown : Grown base db
  cacheOk : CacheOk db
  length : db.waifs.length = base.waifs.length
  unsaved : ∀ r, r ∉ saved → db.waifs[r]? = base.waifs[r]?
  written : ∀ i r, saved[i]? = some r → Written base db i r
  nodup : saved.Nodup
  bound : ∀ r ∈ saved, r < base.waifs.length

variable {base db db' : Db P} {saved : List Nat}

lemma Base.dumpInv (h : Base base) : DumpInv base base [] where
  grown := Grown.refl base
  cacheOk := h.cacheOk
  length := rfl
  unsaved := fun _ _ => rfl
  written := by simp
  nodup := List.nodup_nil
  bound := by simp

lemma InSync.grown {cls : Int} {pd : Option Nat} {len : Nat} (h : InSync db cls pd len)
    (hg : Grown db db') : InSync db' cls pd len := by
  unfold InSync at *
  rw [isValid_congr hg.objects]
  split_ifs at h ⊢
  · obtain ⟨a, defs, hpd, ha, hdefs, hlen⟩ := h
    exact ⟨a, defs, hpd, hg.kept _ _ ha, hg.getElem?_lists hdefs, hlen⟩
  · exact h

lemma set_getElem?_self {α : Type} {l : List α} {i : Nat} {a : α} (h : l[i]? = some a) :
    l.set i a = l := by
  obtain ⟨hi, rfl⟩ := List.getElem?_eq_some_iff.mp h
  exact List.set_getElem_self hi

/-- `update_waif_propdefs` computes what `reconciled` says, and otherwise only generates
property lists. -/
lemma updateWaifPropdefs_spec (hc : CacheOk db) {r : Nat} {w : Waif} (hw : db.waifs[r]? = some w)
    (howned : ∀ a ∈ w.propdefs, a < db.waifPropdefs.length)
    (hlisted : isValid db.objects w.cls → w.propdefs.isSome) :
    match db.reconciled w with
    | none => db.updateWaifPropdefs r = none
    | some (map, vals, len) => ∃ db' pd, db.updateWaifPropdefs r = some db' ∧
        db'.waifs = db.waifs.set r (refit w pd vals map) ∧ Grown db db' ∧
        CacheOk db' ∧ InSync db' w.cls pd len := by
  unfold reconciled updateWaifPropdefs isValid
  simp only [hw, Option.bind_some, Option.bind_eq_bind]
  cases ho : findObject db.objects w.cls with
  | none =>
    refine ⟨_, none, rfl, rfl, (Grown.refl db).setWaifs _, hc, ?_⟩
    simp [InSync, isValid, ho]
  | some o =>
    have hcache : cacheOf db.objects w.cls = o.waifPropdefs := by simp [cacheOf, ho]
    have hvalid : isValid db.objects w.cls = true := by simp [isValid, ho]
    obtain ⟨old, hold⟩ := Option.isSome_iff_exists.mp (hlisted hvalid)
    obtain ⟨defs, hdefs⟩ : ∃ defs, db.waifPropdefs[old]? = some defs :=
      ⟨_, List.getElem?_eq_getElem (howned old hold)⟩
    simp only [hcache, Option.isSome_some, if_true, hold, Option.bind_some, hdefs]
    by_cases hsync : some old = o.waifPropdefs
    · -- in step with the class already
      simp only [hsync, if_true, Option.map_some]
      refine ⟨db, some old, rfl, ?_, Grown.refl db, hc, ?_⟩
      · rw [← hold]
        exact (set_getElem?_self hw).symm
      · simp only [InSync, hvalid, if_true, hcache]
        exact ⟨old, defs, rfl, hsync.symm, hdefs, rfl⟩
    · simp only [hsync, if_false]
      have hlist := classPropdefs_spec hc ho
      generalize db.classPropdefs w.cls o = p at hlist
      obtain ⟨new, db'⟩ := p
      obtain ⟨hg, hc', hnew, hnewList, hwaifs⟩ := hlist
      dsimp only at hg hc' hnew hnewList hwaifs
      simp only [hnewList, Option.bind_some]
      cases hr : w.reconcile (some defs) (genWaifPropdefs db.objects w.cls) with
      | none => simp
      | some q =>
        obtain ⟨map, vals⟩ := q
        simp only [Option.map_some, Option.bind_some]
        refine ⟨_, some new, rfl, by rw [hwaifs]; rfl, hg.setWaifs _, hc', ?_⟩
        simp only [InSync, isValid_congr hg.objects, hvalid, if_true]
        exact ⟨new, _, rfl, hnew, hnewList, rfl⟩

lemma getLsbD_setSaveIndex (map : BitVec nMappableProps) (i k : Nat) :
    (setSaveIndex map i).getLsbD k
      = if k < 32 then i.testBit k else map.getLsbD k := by
  simp only [setSaveIndex, BitVec.getLsbD_or, BitVec.getLsbD_shiftLeft,
    BitVec.getLsbD_ushiftRight, BitVec.getLsbD_setWidth, BitVec.getLsbD_ofNat]
  by_cases hk : k < 32
  · have hn : k < nMappableProps := lt_trans hk (by decide)
    simp [hk, hn]
  · have hadd : 32 + (k - 32) = k := by omega
    by_cases hn : k < nMappableProps
    · simp [hk, hn, hadd]
    · simp [hk, hn, BitVec.getLsbD_of_ge map k (Nat.not_lt.mp hn)]

lemma saveIndex_setSaveIndex (map : BitVec nMappableProps) {i : Nat} (hi : i < 2 ^ 32) :
    saveIndex (setSaveIndex map i) = i := by
  have hbits : (setSaveIndex map i).extractLsb' 0 32 = BitVec.ofNat 32 i := by
    apply BitVec.eq_of_getLsbD_eq
    intro k hk
    rw [BitVec.getLsbD_extractLsb', Nat.zero_add, getLsbD_setSaveIndex, if_pos hk,
      BitVec.getLsbD_ofNat]
  rw [saveIndex, hbits, BitVec.toNat_ofNat, Nat.mod_eq_of_lt hi]

/-- The step that enters a waif in the table keeps the invariant. -/
lemma DumpInv.save (h : DumpInv base db saved) (hb : Base base) {r : Nat} {w : Waif}
    (hr : r ∉ saved) (hw : db.waifs[r]? = some w) :
    match base.reconciled w with
    | none => db.updateWaifPropdefs r = none
    | some (map, vals, len) => ∃ db' pd, db.updateWaifPropdefs r = some db' ∧
        db'.waifAt r = some (refit w pd vals map, len) ∧
        DumpInv base
          { db' with
            waifs := db'.waifs.set r (refit w pd vals (setSaveIndex map saved.length)) }
          (saved ++ [r]) := by
  have hbase : base.waifs[r]? = some w := (h.unsaved r hr).symm.trans hw
  have hlt := (List.getElem?_eq_some_iff.mp hw).1
  have hrec : db.reconciled w = base.reconciled w :=
    h.grown.reconciled_eq (hb.owned r w hbase) (hb.listed r w hbase)
  have hspec := updateWaifPropdefs_spec h.cacheOk hw
    (fun a ha => lt_of_lt_of_le (hb.owned r w hbase a ha) h.grown.lists.length_le)
    (fun hv => hb.listed r w hbase (by rwa [isValid_congr h.grown.objects] at hv))
  rw [hrec] at hspec
  cases hcase : base.reconciled w with
  | none => simpa only [hcase] using hspec
  | some q =>
    obtain ⟨map, vals, len⟩ := q
    simp only [hcase] at hspec ⊢
    obtain ⟨db', pd, hupd, hwaifs, hg, hc, hsync⟩ := hspec
    have hself : db'.waifs[r]? = some (refit w pd vals map) := by
      rw [hwaifs, List.getElem?_set_self hlt]
    refine ⟨db', pd, hupd, ?_, ?_⟩
    · unfold waifAt
      simp only [hself, Option.bind_some, Option.bind_eq_bind]
      unfold InSync at hsync
      split_ifs at hsync
      · obtain ⟨a, defs, rfl, _, hdefs, rfl⟩ := hsync
        show (db'.waifPropdefs[a]?).map _ = _
        rw [hdefs]
        rfl
      · obtain ⟨rfl, rfl⟩ := hsync
        rfl
    · have hset : ∀ q, q ≠ r → ∀ x, (db'.waifs.set r x)[q]? = db.waifs[q]? := by
        intro q hq x
        rw [List.getElem?_set_ne (Ne.symm hq), hwaifs, List.getElem?_set_ne (Ne.symm hq)]
      refine ⟨(h.grown.trans hg).setWaifs _, hc, ?_, ?_, ?_, ?_, ?_⟩
      · simp [hwaifs, h.length]
      · intro q hq
        rw [List.mem_append, List.mem_singleton, not_or] at hq
        rw [hset q hq.2, h.unsaved q hq.1]
      · intro i q hi
        rw [List.getElem?_append] at hi
        split_ifs at hi with hlen
        · -- written before
          have hne : q ≠ r := fun heq => hr (heq ▸ List.mem_of_getElem? hi)
          obtain ⟨w₀, m, vs, l, pd₀, h₁, h₂, h₃, h₄⟩ := h.written i q hi
          exact ⟨w₀, m, vs, l, pd₀, h₁, h₂, (hset q hne _).trans h₃,
            h₄.grown (hg.setWaifs _)⟩
        · rw [List.getElem?_singleton] at hi
          split_ifs at hi with hzero
          have hi' : i = saved.length := by omega
          obtain rfl : r = q := by simpa using hi
          refine ⟨w, map, vals, len, pd, hbase, hcase, ?_, hsync.grown ((Grown.refl db').setWaifs _)⟩
          rw [List.getElem?_set_self (by simp [hwaifs, hlt]), hi']
      · rw [List.nodup_append]
        exact ⟨h.nodup, List.nodup_singleton r, by rintro a ha b hb rfl; simp_all⟩
      · intro q hq
        rcases List.mem_append.mp hq with hq | hq
        · exact h.bound q hq
        · rw [List.mem_singleton.mp hq, ← h.length]
          exact hlt

end Db

open Db

variable {ft : FloatText} {base : Db P} {d : Dumper P} {w w' : Writer P Unit}

/-- A writer started in `d` keeps the invariant, also when it fails, and what it prints
stands in the relation `R` to the waifs written before and after. It is undefined only if
some waif has no record. -/
def Meets (base : Db P) (w : Writer P Unit) (R : List Nat → List Char → List Nat → Prop)
    (d : Dumper P) : Prop :=
  match w d with
  | .ok _ d' => DumpInv base d'.db d'.savedWaifs ∧ (d.room = none → d'.room = none) ∧
      d.savedWaifs <+: d'.savedWaifs ∧
      ∃ t, d'.output = d.output ++ t ∧ R d.savedWaifs t d'.savedWaifs
  | .error .dbioFailed d' => DumpInv base d'.db d'.savedWaifs ∧ d.room ≠ none
  | .error .undefined _ => ∃ r < base.waifs.length, base.record r = none

namespace Meets

variable {R R' R'' : List Nat → List Char → List Nat → Prop}

lemma mono (h : Meets base w R d) (hR : ∀ s t s', R s t s' → R' s t s') : Meets base w R' d := by
  unfold Meets at *
  split at h
  · obtain ⟨hi, hroom, hp, t, ht, hr⟩ := h
    exact ⟨hi, hroom, hp, t, ht, hR _ _ _ hr⟩
  · exact h
  · exact h

lemma pure (h : DumpInv base d.db d.savedWaifs) :
    Meets base (Pure.pure ()) (fun s t s' => t = [] ∧ s' = s) d :=
  ⟨h, id, List.prefix_rfl, [], by simp, rfl, rfl⟩

lemma print (h : DumpInv base d.db d.savedWaifs) (u : List Char) :
    Meets base (dbioPrintf u) (fun s t s' => t = u ∧ s' = s) d := by
  unfold Meets dbioPrintf
  cases hroom : d.room with
  | none => exact ⟨h, fun _ => rfl, List.prefix_rfl, u, rfl, rfl, rfl⟩
  | some n =>
    cases n with
    | zero => exact ⟨h, by simp⟩
    | succ n => exact ⟨h, by simp, List.prefix_rfl, u, rfl, rfl, rfl⟩

lemma bind (h : Meets base w R d)
    (h' : ∀ d', DumpInv base d'.db d'.savedWaifs → d.savedWaifs <+: d'.savedWaifs →
      Meets base w' R' d')
    (hR : ∀ s t s₁ t' s', R s t s₁ → R' s₁ t' s' → R'' s (t ++ t') s') :
    Meets base (w >>= fun _ => w') R'' d := by
  unfold Meets at h ⊢
  simp only [Bind.bind, EStateM.bind]
  cases hw : w d with
  | error e d' =>
    rw [hw] at h
    cases e with
    | dbioFailed => exact h
    | undefined => exact h
  | ok _ d' =>
    rw [hw] at h
    obtain ⟨hi, hroom, hp, t, ht, hr⟩ := h
    have h₂ := h' d' hi hp
    unfold Meets at h₂
    dsimp only
    cases hw' : w' d' with
    | error e d'' =>
      rw [hw'] at h₂
      cases e with
      | dbioFailed => exact ⟨h₂.1, fun hd => h₂.2 (hroom hd)⟩
      | undefined => exact h₂
    | ok _ d'' =>
      rw [hw'] at h₂
      obtain ⟨hi', hroom', hp', t', ht', hr'⟩ := h₂
      refine ⟨hi', hroom' ∘ hroom, hp.trans hp', t ++ t', ?_, hR _ _ _ _ _ hr hr'⟩
      rw [ht', ht, List.append_assoc]

/-- One line, and then the rest. -/
lemma print_bind (h : DumpInv base d.db d.savedWaifs) (u : List Char)
    (h' : ∀ d', DumpInv base d'.db d'.savedWaifs → d.savedWaifs <+: d'.savedWaifs →
      Meets base w' R d') :
    Meets base (dbioPrintf u >>= fun _ => w')
      (fun s t s' => ∃ t', t = u ++ t' ∧ R s t' s') d := by
  refine (print h u).bind h' ?_
  rintro s _ _ t' s' ⟨rfl, rfl⟩ hr
  exact ⟨t', rfl, hr⟩

end Meets

/-- The value writer behaves on every value whose waifs exist, once `k` waifs are written. -/
def WritesVars (ft : FloatText) (base : Db P) (k : Nat) (writeVar : Var → Writer P Unit) : Prop :=
  ∀ v (d : Dumper P), DumpInv base d.db d.savedWaifs → k ≤ d.savedWaifs.length →
    (∀ q ∈ v.waifs, q < base.waifs.length) →
    Meets base (writeVar v) (Emits ft base.record [.var v]) d

lemma writeProp_meets {k : Nat} {writeVar : Var → Writer P Unit}
    (hv : WritesVars ft base k writeVar) (i : Nat) (v : Var) (val : List Var)
    (h : DumpInv base d.db d.savedWaifs) (hk : k ≤ d.savedWaifs.length)
    (hq : ∀ q ∈ v.waifs, q < base.waifs.length) :
    Meets base (writeProp writeVar i (v :: val)) (Emits ft base.record (propPieces (i, v))) d := by
  refine (Meets.print_bind h _ fun d' h' hp => hv v d' h' (hk.trans hp.length_le) hq).mono ?_
  rintro s t s' ⟨t', rfl, he⟩
  exact .text he

/-- A property with a slot is written if it is not clear. -/
lemma writeWaifProp_meets {k : Nat} {writeVar : Var → Writer P Unit}
    (hv : WritesVars ft base k writeVar) (map : BitVec nMappableProps) (i : Nat) (v : Var)
    (val : List Var) (h : DumpInv base d.db d.savedWaifs) (hk : k ≤ d.savedWaifs.length)
    (hslot : hasSlot map i = true) (hq : ∀ q ∈ v.waifs, q < base.waifs.length) :
    Meets base (writeWaifProp writeVar map i (v :: val))
      (Emits ft base.record (if isWritten map i (v :: val) then propPieces (i, v) else [])) d := by
  unfold writeWaifProp isWritten
  by_cases hi : i < nMappableProps
  · have hm : propMapped map i = true := by
      simpa [hasSlot, Nat.not_le.mpr hi] using hslot
    simp only [hi, if_true, hm]
    exact writeProp_meets hv i v val h hk hq
  · simp only [hi, if_false, List.head?_cons, Option.any_some]
    by_cases hc : v.isClear = true
    · simp only [hc, if_true, Bool.not_true, Bool.false_eq_true, if_false]
      refine (Meets.pure h).mono ?_
      rintro s _ _ ⟨rfl, rfl⟩
      exact .nil
    · simp only [Bool.not_eq_true] at hc
      simp only [hc, Bool.not_false, if_true, Bool.false_eq_true, if_false]
      exact writeProp_meets hv i v val h hk hq

lemma writeWaifProp_of_not_hasSlot {writeVar : Var → Writer P Unit} {map : BitVec nMappableProps}
    {i : Nat} (hslot : hasSlot map i = false) (val : List Var) :
    writeWaifProp writeVar map i val = pure () := by
  have hi : i < nMappableProps ∧ propMapped map i = false := by
    simpa [hasSlot, Nat.not_le] using hslot
  simp [writeWaifProp, hi.1, hi.2]

lemma writeWaifProps_meets {k : Nat} {writeVar : Var → Writer P Unit}
    (hv : WritesVars ft base k writeVar) (map : BitVec nMappableProps) (n i : Nat)
    (val : List Var) (h : DumpInv base d.db d.savedWaifs) (hk : k ≤ d.savedWaifs.length)
    (hq : ∀ v ∈ val, ∀ q ∈ v.waifs, q < base.waifs.length)
    (hnone : writtenProps map i n val = none → ∃ r < base.waifs.length, base.record r = none) :
    Meets base (writeWaifProps writeVar map i n val)
      (fun s t s' => ∃ props, writtenProps map i n val = some props ∧
        Emits ft base.record (props.flatMap propPieces) s t s') d := by
  induction n generalizing i val d with
  | zero =>
    refine (Meets.pure h).mono ?_
    rintro s _ _ ⟨rfl, rfl⟩
    exact ⟨[], rfl, .nil⟩
  | succ n ih =>
    unfold writeWaifProps
    by_cases hslot : hasSlot map i = true
    · simp only [writtenProps, hslot, if_true] at hnone ⊢
      cases val with
      | nil =>
        -- the loop reads behind the values
        have : (writeWaifProp writeVar map i [] >>= fun _ =>
            writeWaifProps writeVar map (i + 1) n []) d = .error .undefined d := by
          have hw : writeWaifProp writeVar map i [] = throw .undefined := by
            unfold writeWaifProp
            by_cases hi : i < nMappableProps
            · have hm : propMapped map i = true := by
                simpa [hasSlot, Nat.not_le.mpr hi] using hslot
              simp [hi, hm, writeProp]
            · simp [hi]
          rw [hw]
          rfl
        unfold Meets
        simp only [List.tail_nil, this]
        exact hnone rfl
      | cons v val =>
        simp only [List.tail_cons]
        refine (writeWaifProp_meets hv map i v val h hk hslot (hq v (by simp))).bind
          (fun d' h' hp => ih (i + 1) val h' (hk.trans hp.length_le)
            (fun u hu => hq u (by simp [hu])) ?_) ?_
        · intro hrest
          exact hnone (by simp [hrest])
        · rintro s t s₁ t' s' he ⟨props, hprops, he'⟩
          refine ⟨_, by rw [hprops]; rfl, ?_⟩
          split
          · rw [if_pos ‹_›] at he
            rw [List.flatMap_cons]
            exact he.append he'
          · rw [if_neg ‹_›] at he
            have := he.append he'
            simpa using this
    · simp only [Bool.not_eq_true] at hslot
      simp only [writtenProps, hslot, Bool.false_eq_true, if_false] at hnone ⊢
      rw [writeWaifProp_of_not_hasSlot hslot, pure_bind]
      exact ih (i + 1) val h hk hq hnone

/-- The waif writer behaves on every waif there is, once `k` waifs are written. -/
def WritesWaifs (ft : FloatText) (base : Db P) (k : Nat) (writeWaif : Nat → Writer P Unit) : Prop :=
  ∀ r (d : Dumper P), DumpInv base d.db d.savedWaifs → k ≤ d.savedWaifs.length →
    r < base.waifs.length →
    Meets base (dbioPrintf (intmaxText 10) >>= fun _ => writeWaif r)
      (Emits ft base.record [.var (.waif r)]) d

/-- A scalar in one line. -/
lemma print_meets (h : DumpInv base d.db d.savedWaifs) {v : Var} {u : List Char}
    (hv : v.scalarText ft = some u) :
    Meets base (dbioPrintf u) (Emits ft base.record [.var v]) d := by
  refine (Meets.print h u).mono ?_
  rintro s t s' ⟨rfl, rfl⟩
  exact .scalar_one hv _

/-- A scalar in two lines. -/
lemma print_print_meets (h : DumpInv base d.db d.savedWaifs) {v : Var} {u u' : List Char}
    (hv : v.scalarText ft = some (u ++ u')) :
    Meets base (dbioPrintf u >>= fun _ => dbioPrintf u') (Emits ft base.record [.var v]) d := by
  refine (Meets.print_bind h u fun d' h' _ => Meets.print h' u').mono ?_
  rintro s t s' ⟨_, rfl, rfl, rfl⟩
  exact .scalar_one hv _

mutual
lemma dbioWriteVar_meets {k : Nat} {writeWaif : Nat → Writer P Unit}
    (hw : WritesWaifs ft base k writeWaif) :
    ∀ v (d : Dumper P), DumpInv base d.db d.savedWaifs → k ≤ d.savedWaifs.length →
      (∀ q ∈ v.waifs, q < base.waifs.length) →
      Meets base (dbioWriteVar ft writeWaif v) (Emits ft base.record [.var v]) d
  | .clear, _, h, _, _ => print_meets h rfl
  | .none, _, h, _, _ => print_meets h rfl
  | .str _, _, h, _, _ => print_print_meets h rfl
  | .err _, _, h, _, _ => print_print_meets h rfl
  | .obj _, _, h, _, _ => print_print_meets h rfl
  | .int _, _, h, _, _ => print_print_meets h rfl
  | .catchMark _, _, h, _, _ => print_print_meets h rfl
  | .finallyMark _, _, h, _, _ => print_print_meets h rfl
  | .float _, _, h, _, _ => print_print_meets h rfl
  | .list vs, d, h, hk, hq => by
    unfold dbioWriteVar
    refine (Meets.print_bind h _ fun d₁ h₁ hp₁ => Meets.print_bind h₁ _ fun d₂ h₂ hp₂ =>
      dbioWriteVars_meets hw vs d₂ h₂ (hk.trans (hp₁.trans hp₂).length_le) hq).mono ?_
    rintro s t s' ⟨_, rfl, t', rfl, he⟩
    apply Emits.list
    rw [List.append_nil]
    exact .text (.text he)
  | .waif r, d, h, hk, hq => hw r d h hk (hq r (by simp [Var.waifs]))

lemma dbioWriteVars_meets {k : Nat} {writeWaif : Nat → Writer P Unit}
    (hw : WritesWaifs ft base k writeWaif) :
    ∀ vs (d : Dumper P), DumpInv base d.db d.savedWaifs → k ≤ d.savedWaifs.length →
      (∀ q ∈ Var.waifsOf vs, q < base.waifs.length) →
      Meets base (dbioWriteVars ft writeWaif vs) (Emits ft base.record (vs.map .var)) d
  | [], _, h, _, _ => by
    refine (Meets.pure h).mono ?_
    rintro s _ _ ⟨rfl, rfl⟩
    exact .nil
  | v :: vs, d, h, hk, hq => by
    unfold dbioWriteVars
    refine (dbioWriteVar_meets hw v d h hk fun q hv => hq q (by simp [Var.waifsOf, hv])).bind
      (fun d' h' hp => dbioWriteVars_meets hw vs d' h' (hk.trans hp.length_le)
        fun q hv => hq q (by simp [Var.waifsOf, hv])) ?_
    intro s t s₁ t' s' he he'
    exact he.append he'
end

/-- A writer that first changes the state, but neither the output nor what may fail. -/
lemma Meets.start {R R' : List Nat → List Char → List Nat → Prop} {d' : Dumper P}
    (h : Meets base w' R' d') (hw : w d = w' d') (hroom : d'.room = d.room)
    (hout : d'.output = d.output) (hp : d.savedWaifs <+: d'.savedWaifs)
    (hR : ∀ t s', R' d'.savedWaifs t s' → R d.savedWaifs t s') : Meets base w R d := by
  unfold Meets at *
  rw [hw]
  split at h
  · obtain ⟨hi, hr, hp', t, ht, he⟩ := h
    exact ⟨hi, fun hd => hr (hroom.trans hd), hp.trans hp', t, hout ▸ ht, hR _ _ he⟩
  · exact ⟨h.1, hroom ▸ h.2⟩
  · exact h

lemma Db.DumpInv.length_le {db : Db P} {saved : List Nat} (h : DumpInv base db saved) :
    saved.length ≤ base.waifs.length := by
  have hsub : saved ⊆ List.range base.waifs.length := fun r hr => List.mem_range.mpr (h.bound r hr)
  simpa using (List.subperm_of_subset h.nodup hsub).length_le

/-- The index found in a waif leads to it in the table exactly if it has been written. -/
lemma Db.DumpInv.getElem?_saveIndex {db : Db P} {saved : List Nat} (h : DumpInv base db saved)
    (hcount : base.waifs.length < 2 ^ 32) {r : Nat} {w : Waif} (hw : db.waifs[r]? = some w) :
    saved[saveIndex w.pmap]? = some r ↔ r ∈ saved := by
  constructor
  · exact List.mem_of_getElem?
  · intro hr
    obtain ⟨i, hi⟩ := List.getElem?_of_mem hr
    obtain ⟨w₀, map, vals, len, pd, _, _, hw', _⟩ := h.written i r hi
    obtain rfl : refit w₀ pd vals (setSaveIndex map i) = w := by simpa [hw] using hw'.symm
    have hlt := (List.getElem?_eq_some_iff.mp hi).1
    have := h.length_le
    rw [refit, saveIndex_setSaveIndex map (by omega)]
    exact hi

lemma Db.DumpInv.saveIndex_eq {db : Db P} {saved : List Nat} (h : DumpInv base db saved)
    (hcount : base.waifs.length < 2 ^ 32) {r : Nat} {w : Waif} (hw : db.waifs[r]? = some w)
    (hr : r ∈ saved) : saveIndex w.pmap = saved.idxOf r := by
  have hi := (h.getElem?_saveIndex hcount hw).mpr hr
  obtain ⟨hlt, hget⟩ := List.getElem?_eq_some_iff.mp hi
  rw [← hget, h.nodup.idxOf_getElem]

/-- The lines of a waif behind the step that enters it in the table. -/
lemma writeWaifBody_meets {k : Nat} {writeVar : Var → Writer P Unit}
    (hv : WritesVars ft base k writeVar) (w : Waif) (len index : Nat)
    (h : DumpInv base d.db d.savedWaifs) (hk : k ≤ d.savedWaifs.length)
    (hq : ∀ v ∈ w.propvals.getD [], ∀ q ∈ v.waifs, q < base.waifs.length)
    (hnone : writtenProps w.pmap 0 len (w.propvals.getD []) = none →
      ∃ r < base.waifs.length, base.record r = none) :
    Meets base (do
        dbioPrintf (waifText 'c' index)
        dbioPrintf (intmaxText w.cls)
        dbioPrintf (intmaxText w.owner)
        dbioPrintf (intmaxText len)
        writeWaifProps writeVar w.pmap 0 len (w.propvals.getD [])
        dbioPrintf (intmaxText (-1))
        dbioPrintf ['.', '\n'])
      (fun s t s' => ∃ props, writtenProps w.pmap 0 len (w.propvals.getD []) = some props ∧
        Emits ft base.record
          (Record.pieces { cls := w.cls, owner := w.owner, length := len, props := props } index)
          s t s') d := by
  have htail : ∀ d' : Dumper P, DumpInv base d'.db d'.savedWaifs → k ≤ d'.savedWaifs.length →
      Meets base (do
          writeWaifProps writeVar w.pmap 0 len (w.propvals.getD [])
          dbioPrintf (intmaxText (-1))
          dbioPrintf ['.', '\n'])
        (fun s t s' => ∃ props, writtenProps w.pmap 0 len (w.propvals.getD []) = some props ∧
          Emits ft base.record (props.flatMap propPieces ++
            [.text (intmaxText (-1)), .text ['.', '\n']]) s t s') d' := by
    intro d' h' hk'
    refine (writeWaifProps_meets hv w.pmap len 0 _ h' hk' hq hnone).bind
      (fun d₁ h₁ _ => Meets.print_bind h₁ _ fun d₂ h₂ _ => Meets.print h₂ _) ?_
    rintro s t s₁ t' s' ⟨props, hprops, he⟩ ⟨_, rfl, rfl, rfl⟩
    exact ⟨props, hprops, he.append (.text (.text_one _ _))⟩
  refine (Meets.print_bind h _ fun d₁ h₁ p₁ => Meets.print_bind h₁ _ fun d₂ h₂ p₂ =>
    Meets.print_bind h₂ _ fun d₃ h₃ p₃ => Meets.print_bind h₃ _ fun d₄ h₄ p₄ =>
    htail d₄ h₄ (hk.trans (((p₁.trans p₂).trans p₃).trans p₄).length_le)).mono ?_
  rintro s t s' ⟨_, rfl, _, rfl, _, rfl, t', rfl, props, hprops, he⟩
  exact ⟨props, hprops, .text (.text (.text (.text he)))⟩

lemma dbioWriteWaif_meets (hb : Base base) (hcount : base.waifs.length < 2 ^ 32) (depth : Nat) :
    ∀ k, base.waifs.length < depth + k → WritesWaifs ft base k (dbioWriteWaif ft depth) := by
  induction depth with
  | zero =>
    intro k hk r d h hle _
    have := h.length_le
    omega
  | succ depth ih =>
    intro k hk r d h hle hr
    suffices hwaif : ∀ d : Dumper P, DumpInv base d.db d.savedWaifs → k ≤ d.savedWaifs.length →
        Meets base (dbioWriteWaif ft (depth + 1) r)
          (fun s t s' => Emits ft base.record [.var (.waif r)] s (intmaxText 10 ++ t) s') d by
      refine (Meets.print_bind h _ fun d' h' hp => hwaif d' h' (hle.trans hp.length_le)).mono ?_
      rintro s t s' ⟨t', rfl, he⟩
      exact he
    clear h hle d
    intro d h hle
    obtain ⟨w, hw⟩ : ∃ w, d.db.waifs[r]? = some w :=
      ⟨_, List.getElem?_eq_getElem (by rwa [h.length])⟩
    by_cases hmem : r ∈ d.savedWaifs
    · -- written before: a reference
      have hidx := h.saveIndex_eq hcount hw hmem
      refine (Meets.print h (waifText 'r' (d.savedWaifs.idxOf r) ++ ['.', '\n'])).start ?_ rfl rfl
        List.prefix_rfl ?_
      · have hget := (h.getElem?_saveIndex hcount hw).mpr hmem
        rw [hidx] at hget
        simp only [dbioWriteWaif, hw, hidx, hget, if_true]
      · rintro t s' ⟨rfl, rfl⟩
        exact .ref hmem (.text (.text_one _ _))
    · have hget : d.savedWaifs[saveIndex w.pmap]? ≠ some r :=
        fun heq => hmem ((h.getElem?_saveIndex hcount hw).mp heq)
      have hbase : base.waifs[r]? = some w := (h.unsaved r hmem).symm.trans hw
      have hsave := h.save hb hmem hw
      cases hrec : base.reconciled w with
      | none =>
        simp only [hrec] at hsave
        have herr : dbioWriteWaif ft (depth + 1) r d = .error .undefined d := by
          simp [dbioWriteWaif, hw, hget, hsave]
        unfold Meets
        rw [herr]
        exact ⟨r, hr, by simp [record, hbase, hrec]⟩
      | some q =>
        obtain ⟨map, vals, len⟩ := q
        simp only [hrec] at hsave
        obtain ⟨db', pd, hupd, hat, hinv⟩ := hsave
        have hvals : ∀ v ∈ vals.getD [], ∀ q ∈ v.waifs, q < base.waifs.length := by
          intro v hv q hq
          rcases mem_reconciled hrec v hv with rfl | hv
          · simp [Var.waifs] at hq
          · exact hb.closed r w hbase v hv q hq
        have hnone : writtenProps map 0 len (vals.getD []) = none →
            ∃ r < base.waifs.length, base.record r = none :=
          fun hn => ⟨r, hr, by simp [record, hbase, hrec, hn]⟩
        have hvars : WritesVars ft base (d.savedWaifs.length + 1)
            (dbioWriteVar ft (dbioWriteWaif ft depth)) :=
          dbioWriteVar_meets (ih _ (by omega))
        refine (writeWaifBody_meets hvars (refit w pd vals map) len d.savedWaifs.length
          (d := Dumper.save { d with db := db' } r (refit w pd vals map)) hinv ?_ hvals
          hnone).start ?_ rfl rfl (List.prefix_append _ _) ?_
        · simp [Dumper.save]
        · simp only [dbioWriteWaif, hw, hget, if_false, hupd, Option.bind_some, hat,
            Option.map_some]
        · rintro t s' ⟨props, hprops, he⟩
          refine .new hmem (R := { cls := w.cls, owner := w.owner, length := len, props := props })
            ?_ ?_
          · simp only [record, hbase, Option.bind_eq_bind, Option.bind_some, hrec]
            simp only [refit] at hprops
            simp [hprops]
          · rw [List.append_nil]
            exact .text he

lemma writePieces_meets {k : Nat} {writeVar : Var → Writer P Unit}
    (hv : WritesVars ft base k writeVar) (ps : List Piece) (h : DumpInv base d.db d.savedWaifs)
    (hk : k ≤ d.savedWaifs.length)
    (hq : ∀ v, .var v ∈ ps → ∀ q ∈ v.waifs, q < base.waifs.length) :
    Meets base (writePieces writeVar ps) (Emits ft base.record ps) d := by
  induction ps generalizing d with
  | nil =>
    refine (Meets.pure h).mono ?_
    rintro s t s' ⟨rfl, rfl⟩
    exact .nil
  | cons p ps ih =>
    cases p with
    | text u =>
      refine (Meets.print_bind h u fun d' h' hp => ih h' (hk.trans hp.length_le)
        fun v hv => hq v (by simp [hv])).mono ?_
      rintro s t s' ⟨t', rfl, he⟩
      exact .text he
    | var v =>
      refine (hv v d h hk (hq v (by simp))).bind (fun d' h' hp => ih h' (hk.trans hp.length_le)
        fun v hv => hq v (by simp [hv])) ?_
      intro s t s₁ t' s' he he'
      exact he.append he'

end LambdaMOO
