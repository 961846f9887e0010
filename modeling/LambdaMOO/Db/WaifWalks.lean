import LambdaMOO.Db.WaifGraph

/-!
# Walks through waifs end

Whatever waifs are created, assigned to and updated, in whatever order, no waif holds itself.
The number of waifs then bounds the depth of every recursion along what waifs hold:
`refers_to`, `free_waif`, `waif_bytes` and `dbio_write_waif` come to an end.
-/

namespace LambdaMOO

open Relation

variable {P S : Type}

namespace Db

variable {db db' : Db P} {r : Nat}

/-! ## Runs -/

/-- What happens to waifs between two accesses: classes change, and waifs are created,
updated and assigned to. A value that is assigned refers to waifs that there are. -/
inductive WaifStep : Db P → Db P → Prop
  | classChange {db db' : Db P} (h : ClassChange db db') : WaifStep db db'
  | newWaif {db db' : Db P} {cls owner : Int} {r : Nat} (h : db.newWaif cls owner = some (r, db')) :
    WaifStep db db'
  | update {db db' : Db P} {r : Nat} (h : db.updateWaifPropdefs r = some db') : WaifStep db db'
  | putProp {db db' : Db P} {r : Nat} {name : String} {val : Var} {progr : Int}
    {e : Option ErrorCode} (hval : ∀ b ∈ val.waifs, b < db.waifs.length)
    (h : db.waifPutProp r name val progr = some (e, db')) : WaifStep db db'

lemma WaifsSound.step (h : WaifsSound db) (hstep : WaifStep db db') : WaifsSound db' := by
  cases hstep with
  | classChange hc => exact h.classChange hc
  | newWaif hnew => exact h.newWaif hnew
  | update hupd =>
    obtain ⟨_, _, href⟩ := refreshes_updateWaifPropdefs hupd
    obtain ⟨_, hupd', h'⟩ := h.update (List.getElem?_eq_some_iff.mp href.waif).1
    exact Option.some.inj (hupd'.symm.trans hupd) ▸ h'
  | putProp hval hput => exact h.waifPutProp hval hput

lemma WaifsSound.run (h : WaifsSound db) (hrun : ReflTransGen WaifStep db db') :
    WaifsSound db' := by
  induction hrun with
  | refl => exact h
  | tail _ hstep ih => exact ih.step hstep

/-- Without waifs there is nothing to hold. -/
lemma waifsSound_nil (hcaches : db.CachesAllocated) (hwaifs : db.waifs = []) : WaifsSound db := by
  have hholds : ∀ a b, ¬ db.Holds a b := by
    rintro a b ⟨v, hv, -⟩
    simp [stored, hwaifs] at hv
  refine ⟨hcaches, ?_, ?_, ?_, ?_⟩
  · intro r w hw
    simp [hwaifs] at hw
  · intro r w hw
    simp [hwaifs] at hw
  · intro a b hab
    exact absurd hab (hholds a b)
  · intro a ha
    obtain ⟨b, hab, -⟩ := TransGen.head'_iff.mp ha
    exact hholds a b hab

/-- Each waif has a rank above those of the waifs it holds. -/
lemma WaifsSound.exists_rank (h : WaifsSound db) :
    ∃ rank : Nat → Nat, (∀ a b, db.Holds a b → rank b < rank a) ∧
      ∀ a < db.waifs.length, rank a < db.waifs.length := by
  obtain ⟨rank, hlt, hbound⟩ := h.acyclic.exists_rank (Finset.range db.waifs.length)
    fun a b hab => Finset.mem_range.mpr (h.closed a b hab)
  rw [Finset.card_range] at hbound
  exact ⟨rank, hlt, fun a ha => hbound a (Finset.mem_range.mpr ha)⟩

/-! ## `refers_to` and `free_waif` -/

section Walks

variable {rank : Nat → Nat}

lemma WaifsSound.waifRefersTo_isSome (h : WaifsSound db)
    (hrank : ∀ a b, db.Holds a b → rank b < rank a) (key : Nat) {depth w : Nat}
    (hw : w < db.waifs.length) (hdepth : rank w < depth) :
    (db.waifRefersTo key depth w).isSome := by
  induction depth generalizing w with
  | zero => exact absurd hdepth (Nat.not_lt_zero _)
  | succ depth ih =>
    unfold waifRefersTo
    split
    · rfl
    · rw [h.propvals_eq hw, Option.bind_some]
      apply Var.anyRefersTo_isSome
      intro b hb
      have hwb := mem_waifsOf_stored.mp hb
      exact ih (h.closed w b hwb) (Nat.lt_of_lt_of_le (hrank w b hwb) (Nat.le_of_lt_succ hdepth))

lemma WaifsSound.refersTo_isSome (h : WaifsSound db) {val : Var}
    (hval : ∀ b ∈ val.waifs, b < db.waifs.length) (key : Nat) :
    (db.refersTo val key).isSome := by
  obtain ⟨rank, hrank, hbound⟩ := h.exists_rank
  apply Var.refersTo_isSome
  intro b hb
  exact h.waifRefersTo_isSome hrank key (hval b hb) (hbound b (hval b hb))

end Walks

end Db

mutual
lemma Var.free_isSome {delref : Var → S → Bool × S} {freeWaif : Nat → S → Option S} :
    ∀ {v : Var} {c : S}, (∀ b ∈ v.waifs, ∀ c, (freeWaif b c).isSome) →
      (v.free delref freeWaif c).isSome
  | .list vs, c, h => by
    rw [Var.free]
    dsimp only
    split
    · exact Var.freeAll_isSome h
    · rfl
  | .waif w, c, h => by
    rw [Var.free]
    dsimp only
    split
    · exact h w (List.mem_singleton.mpr rfl) _
    · rfl
  | .int _, _, _ | .obj _, _, _ | .str _, _, _ | .err _, _, _ | .clear, _, _ | .none, _, _
  | .catchMark _, _, _ | .finallyMark _, _, _ | .float _, _, _ => rfl

lemma Var.freeAll_isSome {delref : Var → S → Bool × S} {freeWaif : Nat → S → Option S} :
    ∀ {vs : List Var} {c : S}, (∀ b ∈ Var.waifsOf vs, ∀ c, (freeWaif b c).isSome) →
      (Var.freeAll delref freeWaif vs c).isSome
  | [], _, _ => rfl
  | v :: vs, c, h => by
    have hv : (v.free delref freeWaif c).isSome :=
      Var.free_isSome fun b hb => h b (List.mem_append_left _ hb)
    obtain ⟨c', hc'⟩ := Option.isSome_iff_exists.mp hv
    rw [Var.freeAll, hc', Option.bind_eq_bind, Option.bind_some]
    exact Var.freeAll_isSome fun b hb => h b (List.mem_append_right _ hb)
end

namespace Db

variable {db db' : Db P} {r : Nat} {rank : Nat → Nat}

lemma WaifsSound.freeWaif_isSome (h : WaifsSound db)
    (hrank : ∀ a b, db.Holds a b → rank b < rank a) (delref : Var → S → Bool × S) {depth : Nat}
    (hr : r < db.waifs.length) (hdepth : rank r < depth) (c : S) :
    (db.freeWaif delref depth r c).isSome := by
  induction depth generalizing r c with
  | zero => exact absurd hdepth (Nat.not_lt_zero _)
  | succ depth ih =>
    rw [freeWaif, h.propvals_eq hr, Option.bind_some]
    apply Var.freeAll_isSome
    intro b hb c
    have hrb := mem_waifsOf_stored.mp hb
    exact ih (h.closed r b hrb) (Nat.lt_of_lt_of_le (hrank r b hrb) (Nat.le_of_lt_succ hdepth)) c

/-! ## `waif_bytes` -/

/-- The database after updates of waifs of a rank below `n`. -/
structure Settled (rank : Nat → Nat) (n : Nat) (db db' : Db P) : Prop where
  sound : WaifsSound db'
  length : db'.waifs.length = db.waifs.length
  holds : ∀ a b, db'.Holds a b → db.Holds a b
  kept : ∀ x, n ≤ rank x → db'.waifs[x]? = db.waifs[x]?

lemma Settled.refl (h : WaifsSound db) (n : Nat) : Settled rank n db db :=
  ⟨h, rfl, fun _ _ hab => hab, fun _ _ => rfl⟩

lemma Settled.trans {n : Nat} {db₁ : Db P} (h : Settled rank n db db₁)
    (h' : Settled rank n db₁ db') : Settled rank n db db' where
  sound := h'.sound
  length := h'.length.trans h.length
  holds := fun a b hab => h.holds a b (h'.holds a b hab)
  kept := fun x hx => (h'.kept x hx).trans (h.kept x hx)

lemma Settled.mono {m n : Nat} (h : Settled rank m db db') (hmn : m ≤ n) :
    Settled rank n db db' where
  sound := h.sound
  length := h.length
  holds := h.holds
  kept := fun x hx => h.kept x (Nat.le_trans hmn hx)

/-- The computation returns from every database that came about by such updates. -/
def Returns (rank : Nat → Nat) (n : Nat) (base : Db P) (f : Db P → Option (Nat × Db P)) : Prop :=
  ∀ db, Settled rank n base db → ∃ size db', f db = some (size, db') ∧ Settled rank n db db'

end Db

section Bytes

open Db

variable {rank : Nat → Nat} {n : Nat} {base : Db P} {sz : BqmSizes}

lemma returns_const (size : Nat) : Returns rank n base fun db => some (size, db) :=
  fun db h => ⟨size, db, rfl, Settled.refl h.sound n⟩

mutual
lemma Var.returns_bytes {waifBytes : Nat → Db P → Option (Nat × Db P)} :
    ∀ {v : Var}, (∀ b ∈ v.waifs, Returns rank n base (waifBytes b)) →
      Returns rank n base (v.bytes sz waifBytes)
  | .list vs, h => by
    intro db hdb
    obtain ⟨size, db', heq, h'⟩ := Var.returns_bytesAll h db hdb
    exact ⟨_, db', by rw [Var.bytes, heq]; rfl, h'⟩
  | .waif w, h => by
    intro db hdb
    obtain ⟨size, db', heq, h'⟩ := h w (List.mem_singleton.mpr rfl) db hdb
    exact ⟨_, db', by rw [Var.bytes, heq]; rfl, h'⟩
  | .int _, _ | .obj _, _ | .str _, _ | .err _, _ | .clear, _ | .none, _ | .catchMark _, _
  | .finallyMark _, _ | .float _, _ => returns_const _

lemma Var.returns_bytesAll {waifBytes : Nat → Db P → Option (Nat × Db P)} :
    ∀ {vs : List Var}, (∀ b ∈ Var.waifsOf vs, Returns rank n base (waifBytes b)) →
      Returns rank n base (Var.bytesAll sz waifBytes vs)
  | [], _ => returns_const 0
  | v :: vs, h => by
    intro db hdb
    have hv : Returns rank n base (v.bytes sz waifBytes) :=
      Var.returns_bytes fun b hb => h b (List.mem_append_left _ hb)
    have hvs : Returns rank n base (Var.bytesAll sz waifBytes vs) :=
      Var.returns_bytesAll fun b hb => h b (List.mem_append_right _ hb)
    obtain ⟨size, db₁, heq, h₁⟩ := hv db hdb
    obtain ⟨rest, db₂, heq', h₂⟩ := hvs db₁ (hdb.trans h₁)
    refine ⟨size + rest, db₂, ?_, h₁.trans h₂⟩
    simp only [Var.bytesAll, heq, heq', Option.bind_eq_bind, Option.bind_some]
end

end Bytes

namespace Db

variable {db db' base : Db P} {r n : Nat} {rank : Nat → Nat}

/-- The waif whose values are counted is not updated meanwhile. -/
lemma returns_propvalBytes {valueBytes : Var → Db P → Option (Nat × Db P)} {w : Waif}
    (hw : base.waifs[r]? = some w) (hr : n ≤ rank r)
    (hvals : ∀ v ∈ w.propvals.getD [], Returns rank n base (valueBytes v)) {cnt : Nat}
    (hcnt : cnt ≤ (w.propvals.getD []).length) :
    Returns rank n base (propvalBytes valueBytes r cnt) := by
  induction cnt with
  | zero => exact returns_const 0
  | succ cnt ih =>
    intro db hdb
    have hget : (w.propvals.getD [])[cnt]? = some (w.propvals.getD [])[cnt] :=
      List.getElem?_eq_getElem hcnt
    obtain ⟨size, db₁, heq, h₁⟩ := hvals _ (List.getElem_mem hcnt) db hdb
    obtain ⟨rest, db₂, heq', h₂⟩ := ih (Nat.le_of_succ_le hcnt) db₁ (hdb.trans h₁)
    refine ⟨size + rest, db₂, ?_, h₁.trans h₂⟩
    simp only [propvalBytes, hdb.kept r hr, hw, hget, heq, heq', Option.bind_eq_bind,
      Option.bind_some]

lemma WaifsSound.waifBytes_returns (sz : BqmSizes) {depth : Nat} :
    ∀ {r : Nat} {db : Db P}, WaifsSound db → (∀ a b, db.Holds a b → rank b < rank a) →
      r < db.waifs.length → rank r < depth →
      ∃ size db', waifBytes sz depth r db = some (size, db') ∧
        Settled rank (rank r + 1) db db' := by
  induction depth with
  | zero => exact fun _ _ _ hdepth => absurd hdepth (Nat.not_lt_zero _)
  | succ depth ih =>
    intro r db h hrank hr hdepth
    obtain ⟨db₁, hupd, h₁⟩ := h.update hr
    obtain ⟨_, w, href⟩ := refreshes_updateWaifPropdefs hupd
    have hw : db₁.waifs[r]? = some w := by rw [href.waifs, List.getElem?_set_self hr]
    have hloop : Returns rank (rank r) db₁
        (propvalBytes (Var.bytes sz (waifBytes sz depth)) r (w.propvals.getD []).length) := by
      refine returns_propvalBytes hw (Nat.le_refl _) ?_ (Nat.le_refl _)
      intro v hv
      apply Var.returns_bytes
      intro b hb db₂ h₂
      have hrb : db₁.Holds r b := ⟨v, stored_eq hw ▸ hv, hb⟩
      have hlt := hrank r b (href.holds r b hrb)
      obtain ⟨size, db₃, heq, h₃⟩ := ih h₂.sound
        (fun a c hac => hrank a c (href.holds a c (h₂.holds a c hac)))
        (h₂.length ▸ h₁.closed r b hrb) (Nat.lt_of_lt_of_le hlt (Nat.le_of_lt_succ hdepth))
      exact ⟨size, db₃, heq, h₃.mono hlt⟩
    obtain ⟨size, db₂, heq, h₂⟩ := hloop db₁ (Settled.refl h₁ _)
    refine ⟨sz.waif + size, db₂, ?_, h₂.sound, h₂.length.trans href.length,
      fun a b hab => href.holds a b (h₂.holds a b hab), ?_⟩
    · simp only [waifBytes, hupd, hw, h₁.counted r w hw, heq, Option.bind_eq_bind,
        Option.bind_some]
    · intro x hx
      have hne : x ≠ r := by
        rintro rfl
        omega
      rw [h₂.kept x (Nat.le_of_succ_le hx), href.getElem?_ne hne]

/-! ## `dbio_write_waif` -/

/-- `dbio_write_waif`, given how the waifs in its values are written. -/
def dumpWaif (ft : FloatText) (writeWaif : Nat → Writer P Unit) (r : Nat) : Writer P Unit :=
  fun d =>
    match d.db.waifs[r]? with
    | none => .error .undefined d
    | some w =>
      let index := saveIndex w.pmap
      if d.savedWaifs[index]? = some r then dbioPrintf (waifText 'r' index ++ ['.', '\n']) d
      else
        match (d.db.updateWaifPropdefs r).bind fun db => (db.waifAt r).map fun w => (db, w) with
        | none => .error .undefined d
        | some (db, w, len) =>
          let write : Writer P Unit := do
            dbioPrintf (waifText 'c' d.savedWaifs.length)
            dbioPrintf (intmaxText w.cls)
            dbioPrintf (intmaxText w.owner)
            dbioPrintf (intmaxText len)
            writeWaifProps (dbioWriteVar ft writeWaif) w.pmap 0 len (w.propvals.getD [])
            dbioPrintf (intmaxText (-1))
            dbioPrintf ['.', '\n']
          write ({ d with db := db }.save r w)

lemma dbioWriteWaif_succ (ft : FloatText) (depth r : Nat) :
    (dbioWriteWaif ft (depth + 1) r : Writer P Unit) = dumpWaif ft (dbioWriteWaif ft depth) r :=
  rfl

lemma dbioWriteWaif_eq_iterate (ft : FloatText) (depth : Nat) :
    (dbioWriteWaif ft depth : Nat → Writer P Unit)
      = (dumpWaif ft)^[depth] fun _ => throw .undefined := by
  induction depth with
  | zero => rfl
  | succ depth ih =>
    funext r
    rw [dbioWriteWaif_succ, ih, Function.iterate_succ_apply']

/-- Two writers do the same where waifs hold no more than `R` says, and keep it so. -/
def Coincide (R : Nat → Nat → Prop) (w w' : Writer P Unit) : Prop :=
  ∀ d : Dumper P, (∀ a b, d.db.Holds a b → R a b) →
    w d = w' d ∧ ∀ d', w d = .ok () d' → ∀ a b, d'.db.Holds a b → R a b

namespace Coincide

variable {R : Nat → Nat → Prop} {w w' u u' : Writer P Unit} {ft : FloatText}

lemma pure : Coincide R (Pure.pure () : Writer P Unit) (Pure.pure ()) := by
  intro d hd
  refine ⟨rfl, fun d' h => ?_⟩
  obtain rfl : d = d' := (EStateM.Result.ok.inj h).2
  exact hd

lemma throw (e : DumpError) : Coincide R (throw e : Writer P Unit) (throw e) := by
  intro d _
  exact ⟨rfl, fun d' h => by cases h⟩

lemma print (t : List Char) : Coincide R (dbioPrintf t : Writer P Unit) (dbioPrintf t) := by
  intro d hd
  refine ⟨rfl, fun d' h => ?_⟩
  unfold dbioPrintf at h
  split at h
  · cases h
    exact hd
  · cases h
  · cases h
    exact hd

lemma bind (h : Coincide R w w') (h' : Coincide R u u') :
    Coincide R (w >>= fun _ => u) (w' >>= fun _ => u') := by
  intro d hd
  obtain ⟨heq, hok⟩ := h d hd
  simp only [Bind.bind, EStateM.bind]
  rw [← heq]
  cases hw : w d with
  | error e d₁ => exact ⟨rfl, fun d' hd' => by cases hd'⟩
  | ok _ d₁ => exact h' d₁ (hok d₁ hw)

lemma print_bind (t : List Char) (h : Coincide R w w') :
    Coincide R (dbioPrintf t >>= fun _ => w) (dbioPrintf t >>= fun _ => w') :=
  (print t).bind h

end Coincide

end Db

section Dump

open Db

variable {R : Nat → Nat → Prop} {ft : FloatText} {f g : Nat → Writer P Unit}

mutual
lemma Var.coincide_write : ∀ {v : Var}, (∀ b ∈ v.waifs, Coincide R (f b) (g b)) →
    Coincide R (dbioWriteVar ft f v) (dbioWriteVar ft g v)
  | .clear, _ | .none, _ => .print _
  | .str _, _ | .err _, _ | .obj _, _ | .int _, _ | .catchMark _, _ | .finallyMark _, _
  | .float _, _ => .print_bind _ (.print _)
  | .list _, h => .print_bind _ (.print_bind _ (Var.coincide_writeAll h))
  | .waif w, h => .print_bind _ (h w (List.mem_singleton.mpr rfl))

lemma Var.coincide_writeAll : ∀ {vs : List Var},
    (∀ b ∈ Var.waifsOf vs, Coincide R (f b) (g b)) →
      Coincide R (dbioWriteVars ft f vs) (dbioWriteVars ft g vs)
  | [], _ => .pure
  | _ :: _, h => (Var.coincide_write fun b hb => h b (List.mem_append_left _ hb)).bind
    (Var.coincide_writeAll fun b hb => h b (List.mem_append_right _ hb))
end

lemma coincide_writeProp {writeVar writeVar' : Var → Writer P Unit} {vals : List Var}
    (h : ∀ v ∈ vals, Coincide R (writeVar v) (writeVar' v)) (i : Nat) :
    Coincide R (writeProp writeVar i vals) (writeProp writeVar' i vals) := by
  cases vals with
  | nil => exact .throw _
  | cons v vals => exact .print_bind _ (h v List.mem_cons_self)

lemma coincide_writeWaifProps {writeVar writeVar' : Var → Writer P Unit}
    (map : BitVec nMappableProps) {i n : Nat} {vals : List Var}
    (h : ∀ v ∈ vals, Coincide R (writeVar v) (writeVar' v)) :
    Coincide R (writeWaifProps writeVar map i n vals) (writeWaifProps writeVar' map i n vals) := by
  induction n generalizing i vals with
  | zero => exact .pure
  | succ n ih =>
    refine Coincide.bind ?_ (ih ?_)
    · unfold writeWaifProp
      split
      · split
        · exact coincide_writeProp h i
        · exact .pure
      · split
        · exact .throw _
        · split
          · exact .pure
          · exact coincide_writeProp h i
    · split
      · exact fun v hv => h v (List.mem_of_mem_tail hv)
      · exact h

end Dump

namespace Db

variable {db db' : Db P} {r : Nat} {rank : Nat → Nat} {ft : FloatText}

/-- The number of a waif lies over its map and leaves the values. -/
lemma stored_save {d : Dumper P} {w : Waif} (hw : d.db.waifs[r]? = some w) (x : Nat) :
    (d.save r w).db.stored x = d.db.stored x := by
  let w₁ : Waif := { w with pmap := setSaveIndex w.pmap d.savedWaifs.length }
  have hset : (d.save r w).db.waifs = d.db.waifs.set r w₁ := rfl
  rw [stored_set hw hset]
  split_ifs with hx
  · rw [hx, stored_eq hw]
  · rfl

/-- A waif is written alike if the waifs it holds are. -/
lemma coincide_dumpWaif {f g : Nat → Writer P Unit} {R : Nat → Nat → Prop}
    (h : ∀ b, R r b → Coincide R (f b) (g b)) :
    Coincide R (dumpWaif ft f r) (dumpWaif ft g r) := by
  intro d hd
  unfold dumpWaif
  cases hw : d.db.waifs[r]? with
  | none => exact ⟨rfl, fun d' h => by cases h⟩
  | some w =>
    dsimp only
    split
    · exact Coincide.print _ d hd
    · cases hupd : (d.db.updateWaifPropdefs r).bind fun db =>
          (db.waifAt r).map fun w => (db, w) with
      | none => exact ⟨rfl, fun d' h => by cases h⟩
      | some p =>
        obtain ⟨db₁, w₁, len⟩ := p
        obtain ⟨_, hupd', hat⟩ := Option.bind_eq_some_iff.mp hupd
        obtain ⟨_, hat, heq⟩ := Option.map_eq_some_iff.mp hat
        cases heq
        obtain ⟨_, _, href⟩ := refreshes_updateWaifPropdefs hupd'
        have hw₁ : db₁.waifs[r]? = some w₁ := by
          obtain ⟨w₂, hw₂, hlen⟩ := Option.bind_eq_some_iff.mp hat
          split at hlen
          · cases hlen
            exact hw₂
          · obtain ⟨_, -, heq⟩ := Option.map_eq_some_iff.mp hlen
            cases heq
            exact hw₂
        have hR : ∀ a b, db₁.Holds a b → R a b := fun a b hab => hd a b (href.holds a b hab)
        dsimp only
        refine Coincide.print_bind _ (.print_bind _ (.print_bind _ (.print_bind _
          (.bind (coincide_writeWaifProps _ ?_) (.print_bind _ (.print _)))))) _ ?_
        · intro v hv
          apply Var.coincide_write
          intro b hb
          exact h b (hR r b ⟨v, stored_eq hw₁ ▸ hv, hb⟩)
        · rintro a b ⟨v, hv, hb⟩
          refine hR a b ⟨v, ?_, hb⟩
          rwa [stored_save hw₁] at hv

/-- A walk as deep as there are waifs does not get to what would be done further down. -/
lemma coincide_iterate {R : Nat → Nat → Prop} (hrank : ∀ a b, R a b → rank b < rank a)
    (f g : Nat → Writer P Unit) {depth : Nat} :
    ∀ {r : Nat}, rank r < depth →
      Coincide R ((dumpWaif ft)^[depth] f r) ((dumpWaif ft)^[depth] g r) := by
  induction depth with
  | zero => exact fun h => absurd h (Nat.not_lt_zero _)
  | succ depth ih =>
    intro r hr
    rw [Function.iterate_succ_apply', Function.iterate_succ_apply']
    exact coincide_dumpWaif fun b hb =>
      ih (Nat.lt_of_lt_of_le (hrank r b hb) (Nat.le_of_lt_succ hr))

lemma WaifsSound.dumpWaif_iterate (h : WaifsSound db) (ft : FloatText)
    (below : Nat → Writer P Unit) (hr : r < db.waifs.length) {d : Dumper P} (hd : d.db = db) :
    (dumpWaif ft)^[db.waifs.length] below r d = dbioWriteWaif ft db.waifs.length r d := by
  obtain ⟨rank, hrank, hbound⟩ := h.exists_rank
  rw [dbioWriteWaif_eq_iterate]
  exact (coincide_iterate hrank below _ (hbound r hr) d fun a b hab => hd ▸ hab).1

/-! ## The claim about runs -/

/-- After any run no waif holds itself, and every walk that is started at a waif or a value
ends at a depth of at most the number of waifs. A dump does the same whatever stands for the
calls of `dbio_write_waif` below that depth. -/
theorem waifs_acyclic {db₀ : Db P} (hwaifs : db₀.waifs = []) (hcaches : db₀.CachesAllocated)
    (hrun : ReflTransGen WaifStep db₀ db) :
    Acyclic db.Holds ∧
    (∀ (val : Var) (key : Nat), (∀ b ∈ val.waifs, b < db.waifs.length) →
      (db.refersTo val key).isSome) ∧
    ∀ r < db.waifs.length,
      (∀ (S : Type) (delref : Var → S → Bool × S) (c : S),
        (db.freeWaif delref db.waifs.length r c).isSome) ∧
      (∀ sz : BqmSizes, (waifBytes sz db.waifs.length r db).isSome) ∧
      ∀ (ft : FloatText) (below : Nat → Writer P Unit) (d : Dumper P), d.db = db →
        (dumpWaif ft)^[db.waifs.length] below r d = dbioWriteWaif ft db.waifs.length r d := by
  have h : WaifsSound db := (waifsSound_nil hcaches hwaifs).run hrun
  obtain ⟨rank, hrank, hbound⟩ := h.exists_rank
  refine ⟨h.acyclic, fun val key hval => h.refersTo_isSome hval key, fun r hr => ⟨?_, ?_, ?_⟩⟩
  · intro S delref c
    exact h.freeWaif_isSome hrank delref hr (hbound r hr) c
  · intro sz
    obtain ⟨size, db', heq, -⟩ := h.waifBytes_returns sz hrank hr (hbound r hr)
    exact heq ▸ rfl
  · intro ft below d hd
    exact h.dumpWaif_iterate ft below hr hd

/-- A class with one waif property. -/
def pairClass : Object Unit :=
  { name := "class", flags := 0, owner := 0, location := -1, contents := -1, next := -1
    parent := -1, child := -1, sibling := -1, verbdefs := []
    propdefs := [⟨0, ":p"⟩], propval := [⟨.clear, 0, 0⟩], waifPropdefs := some 0 }

/-- Some waifs of the class. -/
def pairDb (waifs : List Waif) : Db Unit :=
  { objects := [some pairClass], allUsers := [], waifs := waifs, waifPropdefs := [[⟨0, ":p"⟩]] }

/-- A waif of the class that holds the waif 1 in a list. -/
def pairHolder : Waif :=
  { freshWaif 0 0 0 1 with pmap := 1, propvals := some [.list [.waif 1]] }

lemma put_pair : (pairDb [freshWaif 0 0 0 1, freshWaif 0 0 0 1]).waifPutProp 0 "p"
    (.list [.waif 1]) 0 = some (none, pairDb [pairHolder, freshWaif 0 0 0 1]) := rfl

/-- The other one is refused. -/
lemma put_back_pair : (pairDb [pairHolder, freshWaif 0 0 0 1]).waifPutProp 1 "p" (.waif 0) 0
    = some (some .eRecmove, pairDb [pairHolder, freshWaif 0 0 0 1]) := rfl

/-- Two waifs are created and the first gets the second in a list. -/
theorem waifs_acyclic_pair : ∃ db : Db Unit, db.waifs.length = 2 ∧ db.Holds 0 1 ∧
    db.waifPutProp 1 "p" (.waif 0) 0 = some (some .eRecmove, db) ∧
    Acyclic db.Holds ∧
    (∀ (val : Var) (key : Nat), (∀ b ∈ val.waifs, b < db.waifs.length) →
      (db.refersTo val key).isSome) := by
  have hcaches : (pairDb []).CachesAllocated := by
    intro oid a ha
    unfold cacheOf at ha
    obtain ⟨o, ho, hoa⟩ := Option.bind_eq_some_iff.mp ha
    obtain ⟨-, hget⟩ := findObject_eq_some ho
    have hlt := (List.getElem?_eq_some_iff.mp hget).1
    have hzero : oid.toNat = 0 := Nat.lt_one_iff.mp hlt
    rw [hzero] at hget
    cases hget
    cases hoa
    exact Nat.one_pos
  have h₁ : WaifStep (pairDb []) (pairDb [freshWaif 0 0 0 1]) := @WaifStep.newWaif _ _ _ 0 0 0 rfl
  have h₂ : WaifStep (pairDb [freshWaif 0 0 0 1]) (pairDb [freshWaif 0 0 0 1, freshWaif 0 0 0 1]) :=
    @WaifStep.newWaif _ _ _ 0 0 1 rfl
  have h₃ : WaifStep (pairDb [freshWaif 0 0 0 1, freshWaif 0 0 0 1])
      (pairDb [pairHolder, freshWaif 0 0 0 1]) := by
    refine @WaifStep.putProp _ _ _ 0 "p" (.list [.waif 1]) 0 none ?_ put_pair
    simp [Var.waifs, Var.waifsOf, pairDb]
  obtain ⟨hacyclic, hrefers, -⟩ :=
    waifs_acyclic rfl hcaches (((ReflTransGen.single h₁).tail h₂).tail h₃)
  refine ⟨_, rfl, ?_, put_back_pair, hacyclic, hrefers⟩
  exact ⟨.list [.waif 1], List.mem_cons_self, by simp [Var.waifs, Var.waifsOf]⟩

end Db

end LambdaMOO
