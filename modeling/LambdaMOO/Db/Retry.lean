import LambdaMOO.Db.Diverge
import LambdaMOO.Db.RoundTrip

/-!
# Dumping again after a failure

`dump_database` dumps again when a dump fails. The failed dump has stored the numbers of the
waifs it had begun over their maps, so that these waifs come out with other properties,
unless the numbers happen to have the bits of the maps.
-/

namespace LambdaMOO

variable {P : Type} {ft : FloatText}

/-! ## What depends on the map -/

section Maps

variable {map map' : BitVec nMappableProps}

lemma le_of_mem_writtenProps {i n : Nat} {val : List Var} {props : List (Nat × Var)}
    (h : writtenProps map i n val = some props) : ∀ p ∈ props, i ≤ p.1 := by
  induction n generalizing i val props with
  | zero =>
    obtain rfl : [] = props := by simpa [writtenProps] using h
    simp
  | succ n ih =>
    unfold writtenProps at h
    by_cases hs : hasSlot map i
    · rw [if_pos hs] at h
      cases val with
      | nil => simp at h
      | cons v val =>
        obtain ⟨ps, hps, rfl⟩ := Option.map_eq_some_iff.mp h
        have hrest : ∀ p ∈ ps, i ≤ p.1 := fun p hp => Nat.le_of_succ_le (ih hps p hp)
        split
        · intro p hp
          rcases List.mem_cons.mp hp with rfl | hp
          · exact Nat.le_refl _
          · exact hrest p hp
        · exact hrest
    · rw [if_neg hs] at h
      exact fun p hp => Nat.le_of_succ_le (ih h p hp)

/-- A mappable property is written if it is mapped. -/
lemma propMapped_iff_mem {i n : Nat} {val : List Var} {props : List (Nat × Var)}
    (h : writtenProps map i n val = some props) {j : Nat} (hij : i ≤ j) (hj : j < i + n)
    (hlt : j < nMappableProps) : propMapped map j ↔ ∃ v, (j, v) ∈ props := by
  induction n generalizing i val props with
  | zero => omega
  | succ n ih =>
    have hslot : i < nMappableProps → (hasSlot map i ↔ propMapped map i) := by
      intro hi
      simp [hasSlot, Nat.not_le.mpr hi]
    unfold writtenProps at h
    by_cases hji : j = i
    · subst hji
      rw [← hslot hlt]
      by_cases hs : hasSlot map j
      · rw [if_pos hs] at h
        cases val with
        | nil => simp at h
        | cons v val =>
          obtain ⟨ps, hps, rfl⟩ := Option.map_eq_some_iff.mp h
          have hw : isWritten map j (v :: val) := by
            rw [isWritten, if_pos hlt]
            exact (hslot hlt).mp hs
          simp only [hs, hw, if_true, true_iff]
          exact ⟨v, by simp⟩
      · rw [if_neg hs] at h
        simp only [hs, Bool.false_eq_true, false_iff, not_exists]
        intro v hv
        have := le_of_mem_writtenProps h _ hv
        simp at this
    · by_cases hs : hasSlot map i
      · rw [if_pos hs] at h
        cases val with
        | nil => simp at h
        | cons v val =>
          obtain ⟨ps, hps, rfl⟩ := Option.map_eq_some_iff.mp h
          rw [ih hps (by omega) (by omega)]
          split
          · simp [hji]
          · exact Iff.rfl
      · rw [if_neg hs] at h
        exact ih h (by omega) (by omega)

lemma aligned_cons (p : Nat × Var) {l₁ l₂ : List (Nat × Var)} (h : Aligned l₁ l₂) :
    Aligned (p :: l₁) (p :: l₂) := by
  intro pre c v₁ v₂ q₁ q₂ h₁ h₂
  cases pre with
  | nil =>
    rw [List.nil_append] at h₁ h₂
    have := (List.cons.inj h₁).1.symm.trans (List.cons.inj h₂).1
    exact (Prod.mk.inj this).2
  | cons p' pre =>
    rw [List.cons_append] at h₁ h₂
    exact h pre c v₁ v₂ q₁ q₂ (List.cons.inj h₁).2 (List.cons.inj h₂).2

/-- A list whose first index the other has passed. -/
lemma aligned_of_lt {i : Nat} {v : Var} {l₁ l₂ : List (Nat × Var)} (h : ∀ p ∈ l₂, i + 1 ≤ p.1) :
    Aligned ((i, v) :: l₁) l₂ := by
  intro pre c v₁ v₂ q₁ q₂ h₁ h₂
  exfalso
  cases pre with
  | nil =>
    obtain rfl : i = c := by
      have := (List.cons.inj (h₁.trans (List.nil_append _))).1
      exact (Prod.mk.inj this).1
    have := h (i, v₂) (by simp [h₂])
    simp at this
  | cons p pre =>
    obtain rfl : (i, v) = p := (List.cons.inj h₁).1
    have := h (i, v) (by simp [h₂])
    simp at this

lemma Aligned.symm {l₁ l₂ : List (Nat × Var)} (h : Aligned l₁ l₂) : Aligned l₂ l₁ :=
  fun pre c v₁ v₂ q₁ q₂ h₁ h₂ => (h pre c v₂ v₁ q₂ q₁ h₂ h₁).symm

/-- Two maps over the same values. -/
lemma aligned_writtenProps {i n : Nat} {val : List Var} {l₁ l₂ : List (Nat × Var)}
    (h₁ : writtenProps map i n val = some l₁) (h₂ : writtenProps map' i n val = some l₂) :
    Aligned l₁ l₂ := by
  induction n generalizing i val l₁ l₂ with
  | zero =>
    obtain rfl : [] = l₁ := by simpa [writtenProps] using h₁
    intro pre c v₁ v₂ q₁ q₂ h
    simp at h
  | succ n ih =>
    -- a slot that only one of the two maps has is below `nMappableProps`, so it is written
    have hone : ∀ {m : BitVec nMappableProps} {l : List (Nat × Var)}, hasSlot m i →
        (hasSlot map i = false ∨ hasSlot map' i = false) →
        writtenProps m i (n + 1) val = some l → ∃ v l', l = (i, v) :: l' := by
      intro m l hs hnone hl
      have hi : i < nMappableProps := by
        by_contra hge
        simp [hasSlot, Nat.not_lt.mp hge] at hnone
      unfold writtenProps at hl
      rw [if_pos hs] at hl
      cases val with
      | nil => simp at hl
      | cons v val =>
        obtain ⟨ps, _, rfl⟩ := Option.map_eq_some_iff.mp hl
        have hw : isWritten m i (v :: val) := by
          simpa [isWritten, hi, hasSlot, Nat.not_le.mpr hi] using hs
        exact ⟨v, ps, by rw [if_pos hw]⟩
    have hnone : ∀ {m : BitVec nMappableProps} {l : List (Nat × Var)}, ¬ hasSlot m i →
        writtenProps m i (n + 1) val = some l → ∀ p ∈ l, i + 1 ≤ p.1 := by
      intro m l hs hl
      unfold writtenProps at hl
      rw [if_neg hs] at hl
      exact le_of_mem_writtenProps hl
    by_cases hs : hasSlot map i <;> by_cases hs' : hasSlot map' i
    · unfold writtenProps at h₁ h₂
      rw [if_pos hs] at h₁
      rw [if_pos hs'] at h₂
      cases val with
      | nil => simp at h₁
      | cons v val =>
        obtain ⟨ps₁, hps₁, rfl⟩ := Option.map_eq_some_iff.mp h₁
        obtain ⟨ps₂, hps₂, rfl⟩ := Option.map_eq_some_iff.mp h₂
        have hw : isWritten map i (v :: val) = isWritten map' i (v :: val) := by
          unfold isWritten
          split
          · rename_i hi
            simp only [hasSlot, Nat.not_le.mpr hi, decide_false, Bool.false_or] at hs hs'
            rw [hs, hs']
          · rfl
        rw [hw]
        split
        · exact aligned_cons _ (ih hps₁ hps₂)
        · exact ih hps₁ hps₂
    · obtain ⟨v, l', rfl⟩ := hone hs (Or.inr (by simpa using hs')) h₁
      exact aligned_of_lt (hnone hs' h₂)
    · obtain ⟨v, l', rfl⟩ := hone hs' (Or.inl (by simpa using hs)) h₂
      exact (aligned_of_lt (hnone hs h₁)).symm
    · unfold writtenProps at h₁ h₂
      rw [if_neg hs] at h₁
      rw [if_neg hs'] at h₂
      exact ih h₁ h₂

/-- Only the bits of mappable properties matter. -/
lemma writtenProps_congr {i n : Nat} {val : List Var}
    (h : ∀ j, i ≤ j → j < i + n → j < nMappableProps → propMapped map j = propMapped map' j) :
    writtenProps map i n val = writtenProps map' i n val := by
  induction n generalizing i val with
  | zero => rfl
  | succ n ih =>
    have hslot : hasSlot map i = hasSlot map' i := by
      unfold hasSlot
      by_cases hi : i < nMappableProps
      · rw [h i (Nat.le_refl i) (by omega) hi]
      · simp [Nat.not_lt.mp hi]
    have hw : isWritten map i val = isWritten map' i val := by
      unfold isWritten
      split
      · rename_i hi
        exact h i (Nat.le_refl i) (by omega) hi
      · rfl
    have hrest : ∀ val, writtenProps map (i + 1) n val = writtenProps map' (i + 1) n val :=
      fun val => ih fun j hij hj => h j (by omega) (by omega)
    unfold writtenProps
    simp only [hslot, hw, hrest]

/-- The properties written are the same if and only if the bits of the index are those of
the map. -/
lemma writtenProps_setSaveIndex_iff {i n : Nat} {val : List Var} {props : List (Nat × Var)}
    (h : writtenProps map 0 n val = some props) :
    writtenProps (setSaveIndex map i) 0 n val = some props ↔
      ∀ k < min 32 n, i.testBit k = propMapped map k := by
  have hbit : ∀ k, propMapped (setSaveIndex map i) k
      = if k < 32 then i.testBit k else propMapped map k := Db.getLsbD_setSaveIndex map i
  have h32 : 32 ≤ nMappableProps := by decide
  constructor
  · intro h' k hk
    have hkn : k < nMappableProps := by omega
    have h₁ := propMapped_iff_mem h (Nat.zero_le k) (by omega) hkn
    have h₂ := propMapped_iff_mem h' (Nat.zero_le k) (by omega) hkn
    have hk32 : k < 32 := by omega
    rw [hbit, if_pos hk32, ← h₁] at h₂
    exact Bool.eq_iff_iff.mpr h₂
  · intro hall
    rw [← h]
    apply writtenProps_congr
    intro j _ hj hlt
    rw [hbit]
    split
    · exact hall j (by omega)
    · rfl

end Maps

/-! ## A dump that is cut off -/

/-- The dumper when `n` more calls of `dbio_printf` succeed. -/
def Dumper.cutAt (d : Dumper P) (n : Nat) : Dumper P := { d with room := some n }

/-- Cut off anywhere, a writer that would have succeeded either does so all the same or
fails with no waif begun that it would not have begun. -/
def Halts (w : Writer P Unit) : Prop :=
  ∀ d d' : Dumper P, d.room = none → w d = .ok () d' →
    d'.room = none ∧ d.savedWaifs <+: d'.savedWaifs ∧
    ∀ n, (∃ m, w (d.cutAt n) = .ok () (d'.cutAt m)) ∨
      ∃ e, w (d.cutAt n) = .error .dbioFailed e ∧ e.savedWaifs <+: d'.savedWaifs

namespace Halts

variable {w w' : Writer P Unit}

lemma pure : Halts (Pure.pure () : Writer P Unit) := by
  intro d d' hd h
  obtain rfl : d = d' := (EStateM.Result.ok.inj h).2
  exact ⟨hd, List.prefix_rfl, fun n => Or.inl ⟨n, rfl⟩⟩

lemma print (t : List Char) : Halts (dbioPrintf t : Writer P Unit) := by
  intro d d' hd h
  unfold dbioPrintf at h
  simp only [hd, EStateM.Result.ok.injEq, true_and] at h
  subst h
  refine ⟨rfl, List.prefix_rfl, fun n => ?_⟩
  cases n with
  | zero => exact Or.inr ⟨_, rfl, List.prefix_rfl⟩
  | succ n => exact Or.inl ⟨n, rfl⟩

lemma bind (h : Halts w) (h' : Halts w') : Halts (w >>= fun _ => w') := by
  intro d d'' hd hok
  simp only [Bind.bind, EStateM.bind] at hok
  cases hw : w d with
  | error e d' =>
    rw [hw] at hok
    cases hok
  | ok u d' =>
    rw [hw] at hok
    obtain ⟨hd', hp, hcut⟩ := h d d' hd hw
    obtain ⟨hd'', hp', hcut'⟩ := h' d' d'' hd' hok
    refine ⟨hd'', hp.trans hp', fun n => ?_⟩
    simp only [Bind.bind, EStateM.bind]
    rcases hcut n with ⟨m, hm⟩ | ⟨e, he, hpe⟩
    · rw [hm]
      exact hcut' m
    · rw [he]
      exact Or.inr ⟨e, rfl, hpe.trans hp'⟩

lemma throw (e : DumpError) : Halts (throw e : Writer P Unit) := by
  intro d d' _ h
  cases h

end Halts

mutual
lemma halts_dbioWriteVar {writeWaif : Nat → Writer P Unit} (hw : ∀ r, Halts (writeWaif r)) :
    ∀ v, Halts (dbioWriteVar ft writeWaif v)
  | .clear | .none => .print _
  | .str _ | .err _ | .obj _ | .int _ | .catchMark _ | .finallyMark _ | .float _ =>
    (Halts.print _).bind (.print _)
  | .list vs => (Halts.print _).bind ((Halts.print _).bind (halts_dbioWriteVars hw vs))
  | .waif r => (Halts.print _).bind (hw r)

lemma halts_dbioWriteVars {writeWaif : Nat → Writer P Unit} (hw : ∀ r, Halts (writeWaif r)) :
    ∀ vs, Halts (dbioWriteVars ft writeWaif vs)
  | [] => .pure
  | v :: vs => (halts_dbioWriteVar hw v).bind (halts_dbioWriteVars hw vs)
end

lemma halts_writeProp {writeVar : Var → Writer P Unit} (hv : ∀ v, Halts (writeVar v)) (i : Nat)
    (val : List Var) : Halts (writeProp writeVar i val) := by
  cases val with
  | nil => exact Halts.throw _
  | cons v val => exact (Halts.print _).bind (hv v)

lemma halts_writeWaifProps {writeVar : Var → Writer P Unit} (hv : ∀ v, Halts (writeVar v))
    (map : BitVec nMappableProps) (n i : Nat) (val : List Var) :
    Halts (writeWaifProps writeVar map i n val) := by
  induction n generalizing i val with
  | zero => exact Halts.pure
  | succ n ih =>
    unfold writeWaifProps
    refine Halts.bind ?_ (ih _ _)
    unfold writeWaifProp
    split
    · split
      · exact halts_writeProp hv i val
      · exact Halts.pure
    · split
      · exact Halts.throw _
      · split
        · exact Halts.pure
        · exact halts_writeProp hv i _

lemma halts_dbioWriteWaif (depth r : Nat) :
    Halts (dbioWriteWaif ft depth r : Writer P Unit) := by
  induction depth generalizing r with
  | zero => exact Halts.throw _
  | succ depth ih =>
    intro d d' hd h
    unfold dbioWriteWaif at h ⊢
    simp only [Dumper.cutAt]
    cases hw : d.db.waifs[r]? with
    | none =>
      rw [hw] at h
      cases h
    | some w =>
      simp only [hw] at h
      by_cases hget : d.savedWaifs[saveIndex w.pmap]? = some r
      · simp only [hget, if_true] at h ⊢
        exact Halts.print _ d d' hd h
      · simp only [hget, if_false] at h ⊢
        cases hupd : (d.db.updateWaifPropdefs r).bind fun db => (db.waifAt r).map fun w => (db, w) with
        | none =>
          rw [hupd] at h
          cases h
        | some q =>
          obtain ⟨db, w', len⟩ := q
          simp only [hupd] at h
          have hbody : Halts (do
              dbioPrintf (waifText 'c' d.savedWaifs.length)
              dbioPrintf (intmaxText w'.cls)
              dbioPrintf (intmaxText w'.owner)
              dbioPrintf (intmaxText len)
              writeWaifProps (dbioWriteVar ft (dbioWriteWaif ft depth)) w'.pmap 0 len
                (w'.propvals.getD [])
              dbioPrintf (intmaxText (-1))
              dbioPrintf ['.', '\n'] : Writer P Unit) :=
            (Halts.print _).bind ((Halts.print _).bind ((Halts.print _).bind ((Halts.print _).bind
              ((halts_writeWaifProps (halts_dbioWriteVar ih) _ _ _ _).bind
                ((Halts.print _).bind (Halts.print _))))))
          obtain ⟨hd', hp, hcut⟩ := hbody (Dumper.save { d with db := db } r w') d' hd h
          exact ⟨hd', (List.prefix_append _ _).trans hp, hcut⟩

lemma halts_writePieces {writeVar : Var → Writer P Unit} (hv : ∀ v, Halts (writeVar v))
    (ps : List Piece) : Halts (writePieces writeVar ps) := by
  induction ps with
  | nil => exact Halts.pure
  | cons p ps ih =>
    cases p with
    | text t => exact (Halts.print t).bind ih
    | var v => exact (hv v).bind ih

namespace Db

variable {db db' : Db P} {unparse : P → List Char} {tasks : List Piece} {saved : List Nat}

/-- A dump that fails has begun only waifs that the whole dump would have begun. -/
lemma savedWaifs_isPrefix {n : Nat} {d d₁ : Dumper P}
    (hd : db.dump ft unparse tasks none = .ok () d)
    (hfail : db.dump ft unparse tasks (some n) = .error .dbioFailed d₁) :
    d₁.savedWaifs <+: d.savedWaifs := by
  have hhalts : Halts (writePieces (db.writeVar ft) (writeDbFile unparse tasks db)) :=
    halts_writePieces (halts_dbioWriteVar (halts_dbioWriteWaif _)) _
  obtain ⟨_, _, hcut⟩ := hhalts _ d rfl hd
  rcases hcut n with ⟨m, hm⟩ | ⟨e, he, hp⟩
  · have := hm.symm.trans hfail
    cases this
  · have := he.symm.trans hfail
    cases this
    exact hp

/-! ## The database between the two dumps -/

lemma writeDbFile_bare (unparse : P → List Char) (tasks : List Piece) (db : Db P) :
    writeDbFile unparse tasks { db with objects := bareObjects db.objects }
      = writeDbFile unparse tasks db := by
  have hobj : ∀ oid n (o : Option (Object P)),
      writeObject oid n (o.map Object.bare) = writeObject oid n o := by
    intro oid n o
    cases o <;> rfl
  have hprog : ∀ oid (o : Option (Object P)),
      ((o.map Object.bare).map (writePrograms unparse oid)).getD []
        = (o.map (writePrograms unparse oid)).getD [] := by
    intro oid o
    cases o <;> rfl
  have hcount : ∀ o : Option (Object P), ((o.map Object.bare).map Object.nprogs).getD 0
      = (o.map Object.nprogs).getD 0 := by
    intro o
    cases o <;> rfl
  unfold writeDbFile
  simp only [countProperties_bareObjects, length_bareObjects]
  simp only [bareObjects, List.map_map, ← List.map_zipIdx, List.flatMap_map, Prod.map, id_eq,
    Function.comp_def, hobj, hprog, hcount]

/-- A dump in progress has not changed what will be printed apart from waifs. -/
lemma Grown.writeDbFile_eq (h : Grown db db') (unparse : P → List Char) (tasks : List Piece) :
    writeDbFile unparse tasks db' = writeDbFile unparse tasks db := by
  rw [← writeDbFile_bare, ← writeDbFile_bare _ _ db, h.objects]
  unfold writeDbFile
  simp only [h.allUsers]

/-- What a dump leaves behind can be dumped again. -/
lemma DumpInv.base (h : DumpInv db db' saved) (hb : Base db) : Base db' := by
  have hcases : ∀ (r : Nat) (w : Waif), db'.waifs[r]? = some w →
      db.waifs[r]? = some w ∨ ∃ i, Written db db' i r := by
    intro r w hw
    by_cases hr : r ∈ saved
    · obtain ⟨i, hi⟩ := List.getElem?_of_mem hr
      exact Or.inr ⟨i, h.written i r hi⟩
    · exact Or.inl ((h.unsaved r hr).symm.trans hw)
  refine ⟨h.cacheOk, ?_, ?_, ?_⟩
  · intro r w hw a ha
    rcases hcases r w hw with hold | ⟨i, w₀, map, vals, len, pd, _, _, hw', hsync⟩
    · exact lt_of_lt_of_le (hb.owned r w hold a ha) h.grown.lists.length_le
    · obtain rfl : refit w₀ pd vals (setSaveIndex map i) = w := by simpa [hw] using hw'.symm
      unfold InSync at hsync
      split_ifs at hsync
      · obtain ⟨a', defs, rfl, _, hdefs, _⟩ := hsync
        obtain rfl : a' = a := by simpa [refit] using ha
        exact (List.getElem?_eq_some_iff.mp hdefs).1
      · rw [refit, hsync.1] at ha
        cases ha
  · intro r w hw hv
    rcases hcases r w hw with hold | ⟨i, w₀, map, vals, len, pd, _, _, hw', hsync⟩
    · exact hb.listed r w hold (by rwa [isValid_congr h.grown.objects] at hv)
    · obtain rfl : refit w₀ pd vals (setSaveIndex map i) = w := by simpa [hw] using hw'.symm
      have hv' : isValid db'.objects w₀.cls := hv
      unfold InSync at hsync
      rw [if_pos hv'] at hsync
      obtain ⟨a', defs, rfl, _⟩ := hsync
      rfl
  · intro r w hw v hv q hq
    rw [h.length]
    rcases hcases r w hw with hold | ⟨i, w₀, map, vals, len, pd, hw₀, hrec, hw', _⟩
    · exact hb.closed r w hold v hv q hq
    · obtain rfl : refit w₀ pd vals (setSaveIndex map i) = w := by simpa [hw] using hw'.symm
      rcases mem_reconciled hrec v hv with rfl | hv
      · simp [Var.waifs] at hq
      · exact hb.closed r w₀ hw₀ v hv q hq

/-- A waif that has not been begun is recorded as before. -/
lemma DumpInv.record_unsaved (h : DumpInv db db' saved) (hb : Base db) {r : Nat} (hr : r ∉ saved) :
    db'.record r = db.record r := by
  unfold record
  rw [h.unsaved r hr]
  cases hw : db.waifs[r]? with
  | none => rfl
  | some w =>
    simp only [Option.bind_eq_bind, Option.bind_some,
      h.grown.reconciled_eq (hb.owned r w hw) (hb.listed r w hw)]

/-- A waif that has been begun keeps its properties but not its map. -/
lemma DumpInv.record_saved (h : DumpInv db db' saved) {i r : Nat} (hi : saved[i]? = some r) :
    ∃ w map vals len, db.waifs[r]? = some w ∧ db.reconciled w = some (map, vals, len) ∧
      db'.record r = (writtenProps (setSaveIndex map i) 0 len (vals.getD [])).map fun props =>
        { cls := w.cls, owner := w.owner, length := len, props := props } := by
  obtain ⟨w, map, vals, len, pd, hw, hrec, hw', hsync⟩ := h.written i r hi
  refine ⟨w, map, vals, len, hw, hrec, ?_⟩
  have hagain : ∃ vals', db'.reconciled (refit w pd vals (setSaveIndex map i))
      = some (setSaveIndex map i, vals', len) ∧
      (len ≠ 0 → vals' = vals) := by
    unfold reconciled InSync at *
    split_ifs at hsync with hv
    · obtain ⟨a, defs, rfl, hcache, hdefs, rfl⟩ := hsync
      refine ⟨vals, ?_, fun _ => rfl⟩
      simp only [refit, hv, if_true, hcache, hdefs, Option.map_some]
    · obtain ⟨rfl, rfl⟩ := hsync
      exact ⟨none, by simp [refit, hv], by simp⟩
  obtain ⟨vals', hagain, hvals⟩ := hagain
  unfold record
  simp only [hw', Option.bind_eq_bind, Option.bind_some, hagain]
  by_cases hlen : len = 0
  · subst hlen
    rfl
  · rw [hvals hlen]
    cases writtenProps (setSaveIndex map i) 0 len (vals.getD []) <;> rfl

/-- The file that an attempt to dump writes if nothing interrupts it. -/
def dumpText (db : Db P) (ft : FloatText) (unparse : P → List Char) (tasks : List Piece) :
    Option (List Char) :=
  match db.dump ft unparse tasks none with
  | .ok _ d => some d.output
  | .error _ _ => none

/-- The index `i` has the bits of the map of the waif at `r`, as the dump reconciles it, at
all positions that the index overlies and the waif has properties for. -/
def Unharmed (db : Db P) (i r : Nat) : Prop :=
  ∀ w map vals len, db.waifs[r]? = some w → db.reconciled w = some (map, vals, len) →
    ∀ k < min 32 len, i.testBit k = propMapped map k

/-- Storing the number of a waif harms it if and only if it is recorded differently. -/
lemma DumpInv.record_saved_iff (h : DumpInv db db' saved) (hdb : db.Intact) {i r : Nat}
    (hi : saved[i]? = some r) : db'.record r = db.record r ↔ db.Unharmed i r := by
  obtain ⟨w, map, vals, len, hw, hrec, hnew⟩ := h.record_saved hi
  obtain ⟨map', vals', len', props, hrec', hprops⟩ := hdb.exists_props hw
  obtain ⟨rfl, rfl, rfl⟩ : map = map' ∧ vals = vals' ∧ len = len' := by
    rw [hrec, Option.some.injEq, Prod.mk.injEq, Prod.mk.injEq] at hrec'
    exact hrec'
  have hold : db.record r = some { cls := w.cls, owner := w.owner, length := len,
                                   props := props } := by
    simp [record, hw, hrec, hprops]
  have hiff := writtenProps_setSaveIndex_iff (i := i) hprops
  rw [hnew, hold, Option.map_eq_some_iff]
  constructor
  · rintro ⟨props', hprops', hsame⟩ w₁ map₁ vals₁ len₁ hw₁ hrec₁
    rw [hw, Option.some.injEq] at hw₁
    subst hw₁
    rw [hrec, Option.some.injEq, Prod.mk.injEq, Prod.mk.injEq] at hrec₁
    obtain ⟨rfl, rfl, rfl⟩ := hrec₁
    obtain rfl : props' = props := congrArg Record.props hsame
    exact hiff.mp hprops'
  · intro hun
    exact ⟨props, hiff.mpr (hun w map vals len hw hrec), rfl⟩

/-- A waif is recorded with the same class, owner and length, and with values from the same
slots. -/
lemma DumpInv.similar (h : DumpInv db db' saved) (hdb : db.Intact) {r : Nat} {R₁ R₂ : Record}
    (h₁ : db.record r = some R₁) (h₂ : db'.record r = some R₂) : R₁.Similar R₂ := by
  by_cases hr : r ∈ saved
  · obtain ⟨i, hi⟩ := List.getElem?_of_mem hr
    obtain ⟨w, map, vals, len, hw, hrec, hnew⟩ := h.record_saved hi
    rw [h₂] at hnew
    obtain ⟨props₂, hprops₂, rfl⟩ := Option.map_eq_some_iff.mp hnew.symm
    simp only [record, hw, hrec, Option.bind_eq_bind, Option.bind_some] at h₁
    obtain ⟨props₁, hprops₁, hR₁⟩ := Option.bind_eq_some_iff.mp h₁
    obtain rfl := Option.some.inj hR₁
    exact ⟨rfl, rfl, rfl, aligned_writtenProps hprops₁ hprops₂⟩
  · rw [h.record_unsaved hdb.base hr, h₁, Option.some.injEq] at h₂
    subst h₂
    refine ⟨rfl, rfl, rfl, fun pre c v₁ v₂ q₁ q₂ e₁ e₂ => ?_⟩
    have := (List.append_cancel_left (e₁.symm.trans e₂))
    exact (Prod.mk.inj (List.cons.inj this).1).2

/-- A second attempt on what the first has left behind writes the same pieces, with the
waifs as they are recorded now. -/
lemma DumpInv.retry (h : DumpInv db db' saved) (hdb : db.Intact) (ft : FloatText)
    (unparse : P → List Char)
    (htasks : ∀ v, .var v ∈ tasks → ∀ q ∈ v.waifs, q < db.waifs.length) :
    (∃ t, db'.dumpText ft unparse tasks = some t ∧
      ∃ s, Emits ft db'.record (writeDbFile unparse tasks db) [] t s) ∨
    (db'.dumpText ft unparse tasks = none ∧ ∃ r < db.waifs.length, db'.record r = none) := by
  have hb := h.base hdb.base
  have hcount : db'.waifs.length < 2 ^ 32 := by
    rw [h.length]
    exact hdb.waifCount
  have hmeets := writePieces_meets (writeVar_writesVars ft hb hcount) (writeDbFile unparse tasks db)
    (d := { db := db', output := [], room := none, savedWaifs := [] }) hb.dumpInv (Nat.zero_le _)
    (by rw [h.length]; exact hdb.dump_refs htasks)
  unfold dumpText dump
  rw [h.grown.writeDbFile_eq]
  unfold Meets at hmeets
  split at hmeets
  · rename_i u d heq
    obtain ⟨_, _, _, t, ht, he⟩ := hmeets
    obtain rfl : d.output = t := ht
    exact Or.inl ⟨_, by rw [heq], _, he⟩
  · exact absurd rfl hmeets.2
  · rename_i heq
    rw [h.length] at hmeets
    exact Or.inr ⟨by rw [heq], hmeets⟩

/-- The dump that is repeated after a failure writes the file that the first attempt would
have written, if and only if each waif that the first attempt had begun is unharmed by its
number. -/
theorem dumpText_retry_iff (h : db.Intact)
    (htasks : ∀ v, .var v ∈ tasks → ∀ q ∈ v.waifs, q < db.waifs.length) {n : Nat}
    {d₁ : Dumper P} (hfail : db.dump ft unparse tasks (some n) = .error .dbioFailed d₁) :
    ∃ t, db.dumpText ft unparse tasks = some t ∧
      (d₁.db.dumpText ft unparse tasks = some t ↔
        ∀ i r, d₁.savedWaifs[i]? = some r → db.Unharmed i r) := by
  obtain ⟨d, hd, hinv, he⟩ := h.dump_ok ft unparse htasks
  have htext : db.dumpText ft unparse tasks = some d.output := by simp only [dumpText, hd]
  have hinv₁ : DumpInv db d₁.db d₁.savedWaifs := by
    have hmeets := writePieces_meets (writeVar_writesVars ft h.base h.waifCount)
      (writeDbFile unparse tasks db)
      (d := { db := db, output := [], room := some n, savedWaifs := [] }) h.base.dumpInv
      (Nat.zero_le _) (h.dump_refs htasks)
    unfold dump at hfail
    unfold Meets at hmeets
    rw [hfail] at hmeets
    exact hmeets.1
  refine ⟨d.output, htext, ?_⟩
  have hretry := hinv₁.retry h ft unparse htasks
  constructor
  · intro hsame i r hi
    rcases hretry with ⟨t, ht, s, he₁⟩ | ⟨hnone, _⟩
    · obtain rfl : t = d.output := by rwa [ht, Option.some.injEq] at hsame
      have hend : d.output ++ [] = d.output ++ ([] : List Char) := rfl
      obtain ⟨_, _, _, hrec⟩ := Emits.agree (fun r R₁ R₂ => hinv₁.similar h) _ (Nat.lt_succ_self _)
        he he₁ hend
      have hmem : r ∈ d.savedWaifs :=
        (savedWaifs_isPrefix hd hfail).subset (List.mem_of_getElem? hi)
      exact (hinv₁.record_saved_iff h hi).mp (hrec r hmem (by simp)).symm
    · rw [hnone] at hsame
      cases hsame
  · intro hall
    have hrec : d₁.db.record = db.record := by
      funext r
      by_cases hr : r ∈ d₁.savedWaifs
      · obtain ⟨i, hi⟩ := List.getElem?_of_mem hr
        exact (hinv₁.record_saved_iff h hi).mpr (hall i r hi)
      · exact hinv₁.record_unsaved h.base hr
    rw [hrec] at hretry
    rcases hretry with ⟨t, ht, s, he₁⟩ | ⟨_, r, hr, hnone⟩
    · rw [ht, (Emits.unique he he₁).1]
    · have := h.record_isSome hr
      rw [hnone] at this
      cases this

/-! ## The small database again -/

/-- What an attempt that fails leaves behind. -/
def dumpFailure (db : Db P) (ft : FloatText) (unparse : P → List Char) (tasks : List Piece)
    (n : Nat) : Option (Dumper P) :=
  match db.dump ft unparse tasks (some n) with
  | .error .dbioFailed d => some d
  | _ => none

lemma dump_eq_of_dumpFailure {n : Nat} {d : Dumper P}
    (h : db.dumpFailure ft unparse tasks n = some d) :
    db.dump ft unparse tasks (some n) = .error .dbioFailed d := by
  unfold dumpFailure at h
  split at h
  · rename_i heq
    rw [heq, Option.some.inj h]
  · cases h

/-- The attempt fails behind the first line of the waif. Its map had the bit of its only
property, and its number is 0. -/
lemma exists_dumpFailure_sample : ∃ d₁,
    sampleDb.dumpFailure sampleFloats sampleUnparse sampleTasks 30 = some d₁ ∧
    d₁.db.dumpText sampleFloats sampleUnparse sampleTasks
      ≠ sampleDb.dumpText sampleFloats sampleUnparse sampleTasks := by
  have h : (sampleDb.dumpFailure sampleFloats sampleUnparse sampleTasks 30).any (fun d =>
      decide (d.db.dumpText sampleFloats sampleUnparse sampleTasks
        ≠ sampleDb.dumpText sampleFloats sampleUnparse sampleTasks)) = true := by
    decide +kernel
  obtain ⟨d₁, hd₁, hne⟩ := (Option.any_eq_true _ _).mp h
  exact ⟨d₁, hd₁, of_decide_eq_true hne⟩

theorem dumpText_retry_loses_property : sampleDb.Intact ∧ ∃ d₁,
    sampleDb.dump sampleFloats sampleUnparse sampleTasks (some 30) = .error .dbioFailed d₁ ∧
    d₁.db.dumpText sampleFloats sampleUnparse sampleTasks
      ≠ sampleDb.dumpText sampleFloats sampleUnparse sampleTasks := by
  obtain ⟨d₁, hd₁, hne⟩ := exists_dumpFailure_sample
  exact ⟨wellFormed_sample.intact, d₁, dump_eq_of_dumpFailure hd₁, hne⟩

theorem dumpText_retry_iff_sample : ∃ d₁ t,
    sampleDb.dump sampleFloats sampleUnparse sampleTasks (some 30) = .error .dbioFailed d₁ ∧
    sampleDb.dumpText sampleFloats sampleUnparse sampleTasks = some t ∧
    (d₁.db.dumpText sampleFloats sampleUnparse sampleTasks = some t ↔
      ∀ i r, d₁.savedWaifs[i]? = some r → sampleDb.Unharmed i r) := by
  obtain ⟨d₁, hd₁, _⟩ := exists_dumpFailure_sample
  have hfail := dump_eq_of_dumpFailure hd₁
  obtain ⟨t, ht, hiff⟩ := dumpText_retry_iff wellFormed_sample.intact (by simp [sampleTasks]) hfail
  exact ⟨d₁, t, hfail, ht, hiff⟩

end Db

end LambdaMOO
