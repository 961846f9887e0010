import LambdaMOO.Db.Events
import LambdaMOO.Db.RoundTrip

/-!
# Waifs without a list

A waif that is read while its class is gone loses its property list. When its class's number has
been given to a new object, which has no list either, `update_waif_propdefs` finds two null
pointers and takes the waif for one that is up to date.
-/

namespace LambdaMOO

namespace Db

variable {P : Type} {db db' : Db P} {r : Nat} {w : Waif}

/-! ## Updates -/

/-- The waif at `r` is left with the property list of its class as it is now. -/
def Updates (db : Db P) (r : Nat) (w : Waif) : Prop :=
  ∃ db' w' n, db.updateWaifPropdefs r = some db' ∧ db'.waifs[r]? = some w' ∧
    w'.propdefs = some n ∧ db'.waifPropdefs[n]? = some (genWaifPropdefs db'.objects w.cls)

/-- Where a waif has a property list its storage is as long as that list needs it. -/
def Stocked (db : Db P) : Prop :=
  ∀ (r : Nat) (w : Waif), db.waifs[r]? = some w → w.propdefs.isSome →
    db.countPropvals w = some (w.propvals.getD []).length

/-- What `update_waif_propdefs` does: the waif loses everything, or nothing happens, or it gets the
list of its class. -/
lemma updateWaifPropdefs_cases (h : db.updateWaifPropdefs r = some db') :
    ∃ w, db.waifs[r]? = some w ∧ ((findObject db.objects w.cls = none ∧
      db' = { db with waifs := db.waifs.set r { w with propdefs := none, propvals := none } }) ∨
      ∃ o, findObject db.objects w.cls = some o ∧ (w.propdefs = o.waifPropdefs ∧ db' = db ∨
        ∃ new db₁ defs map vals, w.propdefs ≠ o.waifPropdefs ∧
          db.classPropdefs w.cls o = (new, db₁) ∧ db₁.waifPropdefs[new]? = some defs ∧
          w.reconcile (w.propdefs.bind fun old => db.waifPropdefs[old]?) defs = some (map, vals) ∧
          db' = { db₁ with
            waifs := db.waifs.set r
              { w with propdefs := some new, pmap := map, propvals := vals } })) := by
  obtain ⟨w, hw, h⟩ := Option.bind_eq_some_iff.mp h
  refine ⟨w, hw, ?_⟩
  split at h
  · rename_i ho
    cases h
    exact .inl ⟨ho, rfl⟩
  · rename_i o ho
    refine .inr ⟨o, ho, ?_⟩
    split_ifs at h with hsync
    · cases h
      exact .inl ⟨hsync, rfl⟩
    · have hlists := lists_classPropdefs ho
      generalize db.classPropdefs w.cls o = p at h hlists
      obtain ⟨new, db₁⟩ := p
      obtain ⟨defs, hdefs, h⟩ := Option.bind_eq_some_iff.mp h
      obtain ⟨⟨map, vals⟩, hrec, h⟩ := Option.bind_eq_some_iff.mp h
      cases h
      exact .inr ⟨new, db₁, defs, map, vals, hsync, rfl, hdefs, hrec, by rw [hlists.waifs]⟩

/-- The storage of one waif changes. -/
lemma Stocked.set (h : Stocked db) {w' : Waif} (hw : db.waifs[r]? = some w)
    (hset : db'.waifs = db.waifs.set r w') (hlists : db.waifPropdefs <+: db'.waifPropdefs)
    (hcount : w'.propdefs.isSome → db'.countPropvals w' = some (w'.propvals.getD []).length) :
    Stocked db' := by
  intro x u hu hsome
  by_cases hx : x = r
  · rw [hset, hx, List.getElem?_set_self (List.getElem?_eq_some_iff.mp hw).1] at hu
    cases hu
    exact hcount hsome
  · rw [hset, List.getElem?_set_ne (Ne.symm hx)] at hu
    exact countPropvals_mono hlists (h x u hu hsome)

lemma Stocked.sameWaifs (h : Stocked db) (hs : SameWaifs db db') : Stocked db' := by
  intro x u hu hsome
  have hcount := h x u (hs.waifs ▸ hu) hsome
  obtain ⟨pd, hpd⟩ := Option.isSome_iff_exists.mp hsome
  simp only [countPropvals, hpd] at hcount ⊢
  obtain ⟨defs, hdefs, hlen⟩ := Option.map_eq_some_iff.mp hcount
  have hlength := hs.lengths pd
  rw [hdefs, Option.map_some] at hlength
  obtain ⟨defs', hdefs', hlen'⟩ := Option.map_eq_some_iff.mp hlength
  rw [hdefs', Option.map_some, hlen', hlen]

lemma Stocked.updateWaifPropdefs (h : Stocked db) (heq : db.updateWaifPropdefs r = some db') :
    Stocked db' := by
  obtain ⟨w, hw, ⟨-, rfl⟩ | ⟨o, ho, ⟨-, rfl⟩ | ⟨new, db₁, defs, map, vals, -, hp, hdefs, hrec,
    rfl⟩⟩⟩ :=
    updateWaifPropdefs_cases heq
  · exact h.set hw rfl List.prefix_rfl (by rintro ⟨⟩)
  · exact h
  · have hlists := lists_classPropdefs ho
    rw [hp] at hlists
    refine h.set hw rfl hlists.lists fun _ => ?_
    simp only [countPropvals, hdefs, Option.map_some, Waif.length_reconcile hrec]

lemma Stocked.waifPutProp (h : Stocked db) {name : String} {val : Var} {progr : Int}
    {e : Option ErrorCode} (heq : db.waifPutProp r name val progr = some (e, db')) :
    Stocked db' := by
  obtain ⟨db₁, hupdate, hdb'⟩ := exists_of_waifPutProp heq
  have h₁ := h.updateWaifPropdefs hupdate
  rcases hdb' with rfl | ⟨w, pd, defs, map, vals, hw, hpd, hdefs, hfits, rfl⟩
  · exact h₁
  · refine h₁.set hw rfl List.prefix_rfl fun _ => ?_
    simp only [countPropvals, hpd, hdefs, Option.map_some, Option.getD_some]
    rcases hfits with ⟨rfl, hlen⟩ | hlen
    · have hcount := h₁ r w hw (by rw [hpd]; rfl)
      simp only [countPropvals, hpd, hdefs, Option.map_some] at hcount
      rw [hcount, hlen]
    · rw [hlen]

lemma Stocked.newWaif (h : Stocked db) {cls owner : Int}
    (heq : db.newWaif cls owner = some (r, db')) : Stocked db' := by
  obtain ⟨o, ho, heq⟩ := Option.bind_eq_some_iff.mp heq
  have hlists := lists_classPropdefs ho
  generalize db.classPropdefs cls o = p at heq hlists
  obtain ⟨new, db₁⟩ := p
  obtain ⟨defs, hdefs, heq⟩ := Option.bind_eq_some_iff.mp heq
  cases heq
  intro x u hu hsome
  rcases List.mem_append.mp (List.mem_of_getElem? hu) with hmem | hmem
  · obtain ⟨y, hy⟩ := List.mem_iff_getElem?.mp hmem
    rw [hlists.waifs] at hy
    exact countPropvals_mono hlists.lists (h y u hy hsome)
  · rw [List.mem_singleton.mp hmem]
    simp only [countPropvals, freshWaif, hdefs, Option.map_some, allocWaifPropvals, getD_allocated,
      List.length_replicate]

/-- A waif without a list is left without one where its class has none cached, and its values cannot
be read where it has any. -/
def Lost (w : Waif) (o : Object P) : Prop :=
  w.propdefs = none ∧ (o.waifPropdefs = none ∨ w.propvals ≠ none)

lemma Updates.not_lost {o : Object P} (hw : db.waifs[r]? = some w)
    (ho : findObject db.objects w.cls = some o) (h : Updates db r w) : ¬ Lost w o := by
  rintro ⟨hnone, hlost⟩
  obtain ⟨db', w', n, heq, hw', hpd, -⟩ := h
  obtain ⟨w₀, hw₀, hcases⟩ := updateWaifPropdefs_cases heq
  rw [hw] at hw₀
  cases hw₀
  rcases hcases with ⟨hgone, -⟩ | ⟨o₀, ho₀, ⟨-, rfl⟩ | ⟨_, _, _, _, _, hsync, -, -, hrec, -⟩⟩
  · rw [ho] at hgone
    cases hgone
  · rw [hw] at hw'
    cases hw'
    rw [hnone] at hpd
    cases hpd
  · rw [ho] at ho₀
    cases ho₀
    rcases hlost with hcache | hvals
    · exact hsync (hnone.trans hcache.symm)
    · obtain ⟨ov, hov⟩ := Option.ne_none_iff_exists'.mp hvals
      rw [Waif.reconcile, hov, hnone] at hrec
      cases hrec

lemma Current.updates (h : Current db) (hs : Stocked db) {o : Object P}
    (hw : db.waifs[r]? = some w) (ho : findObject db.objects w.cls = some o)
    (hkept : ¬ Lost w o) : Updates db r w := by
  by_cases hsync : w.propdefs = o.waifPropdefs
  · -- the class has the list of the waif
    obtain ⟨n, hn⟩ := Option.ne_none_iff_exists'.mp fun hnone : w.propdefs = none =>
      hkept ⟨hnone, .inl (hsync.symm.trans hnone)⟩
    refine ⟨db, w, n, ?_, hw, hn, h.cacheOk w.cls n ?_⟩
    · simp only [Db.updateWaifPropdefs, hw, ho, hsync, Option.bind_eq_bind, Option.bind_some,
        if_true]
    · rw [cacheOf_eq ho, ← hsync, hn]
  · have hlist := classPropdefs_spec h.cacheOk ho
    generalize hp : db.classPropdefs w.cls o = p at hlist
    obtain ⟨new, db₁⟩ := p
    have hold : ∀ ov, w.propvals = some ov →
        ∃ old, (w.propdefs.bind fun old => db.waifPropdefs[old]?) = some old ∧
          countWaifPropvals old.length w.pmap = ov.length := by
      intro ov hov
      obtain ⟨pd, hpd⟩ := Option.ne_none_iff_exists'.mp fun hnone : w.propdefs = none =>
        hkept ⟨hnone, .inr (by rw [hov]; rintro ⟨⟩)⟩
      have hcount := hs r w hw (by rw [hpd]; rfl)
      simp only [countPropvals, hpd] at hcount
      obtain ⟨old, hold, hlen⟩ := Option.map_eq_some_iff.mp hcount
      exact ⟨old, by rw [hpd, Option.bind_some, hold], by rw [hlen, hov, Option.getD_some]⟩
    obtain ⟨map, vals, hrec, -⟩ := Waif.exists_reconcile (genWaifPropdefs db.objects w.cls) hold
    let w' : Waif := { w with propdefs := some new, pmap := map, propvals := vals }
    refine ⟨{ db₁ with waifs := db₁.waifs.set r w' }, w', new, ?_, ?_, rfl, ?_⟩
    · simp only [Db.updateWaifPropdefs, hw, ho, hsync, Option.bind_eq_bind, Option.bind_some,
        if_false, hp, hlist.list, hrec]
      rfl
    · dsimp only
      rw [hlist.waifs, List.getElem?_set_self (List.getElem?_eq_some_iff.mp hw).1]
    · rw [genWaifPropdefs_congr hlist.grown.objects]
      exact hlist.list

/-! ## Runs -/

/-- What an event does to waifs. -/
lemma Event.waifs (h : Event db db') (hs : Current db) : SameWaifs db db' ∨
    (∃ cls owner r, db.newWaif cls owner = some (r, db')) ∨
    (∃ r, db.updateWaifPropdefs r = some db') ∨
    ∃ r name val progr e, db.waifPutProp r name val progr = some (e, db') := by
  have hc := hs.coherent
  cases h with
  | create h => exact .inl (hc.kept_bfCreate h).sameWaifs
  | chparent h => exact .inl (hc.kept_bfChparent h).sameWaifs
  | move h => exact .inl (hc.kept_doMove h).sameWaifs
  | recycling h => exact .inl (Kept.sameWaifs (hc.kept_movingContents h))
  | recycle h hdestroy =>
    obtain ⟨hk, hc₁⟩ := hc.kept_movingContents h
    exact .inl (hk.trans (hc₁.kept_destroy hdestroy)).sameWaifs
  | renumber h => exact .inl (hc.kept_bfRenumber h).sameWaifs
  | resetMaxObject h => exact .inl (hc.kept_bfResetMaxObject h).sameWaifs
  | addProp hvalue hname h => exact .inl (hc.kept_bfAddProp h).sameWaifs
  | deleteProp h => exact .inl (hc.kept_bfDeleteProp h).sameWaifs
  | clearProp h => exact .inl (hc.kept_bfClearProp h).sameWaifs
  | setPropInfo hname h => exact .inl (hs.setPropInfo hname h).2
  | putProp hvalue h => exact .inl (hc.kept_putProp h).sameWaifs
  | newWaif h => exact .inr (.inl ⟨_, _, _, h⟩)
  | readWaif h => exact .inr (.inr (.inl ⟨_, h⟩))
  | writeWaif h => exact .inr (.inr (.inr ⟨_, _, _, _, _, h⟩))
  | other h hwaifs hlists => exact .inl ⟨hwaifs, fun a => by rw [hlists]⟩

/-- Every waif of a valid class has a property list. -/
def Provided (db : Db P) : Prop := ∀ w ∈ db.waifs, isValid db.objects w.cls → w.propdefs.isSome

/-- What the hooks after loading leave of a waif. -/
lemma Loaded.waif (h : Loaded db) (hw : (waifAfterLoading db).waifs[r]? = some w) :
    (isValid (waifAfterLoading db).objects w.cls → w.propdefs.isSome) ∧
    (w.propdefs.isSome → (waifAfterLoading db).countPropvals w
      = some (w.propvals.getD []).length) := by
  have hback := backfilled_waifAfterLoading h.current.cacheOk fun w hw => by
    obtain ⟨r, hr⟩ := List.mem_iff_getElem?.mp hw
    exact h.listless r w hr
  have hlt := (List.getElem?_eq_some_iff.mp hw).1
  rw [hback.length] at hlt
  have hw₀ : db.waifs[r]? = some db.waifs[r] := List.getElem?_eq_getElem hlt
  obtain ⟨pd, hpd, hsync⟩ := hback.waifs r _ hw₀
  rw [if_pos hlt] at hsync
  rw [hw] at hpd
  cases hpd
  have hvalid := isValid_congr hback.grown.objects db.waifs[r].cls
  unfold InSync at hsync
  split_ifs at hsync with hv
  · obtain ⟨new, defs, rfl, -, hdefs, hlen⟩ := hsync
    refine ⟨fun _ => rfl, fun _ => ?_⟩
    simp only [countPropvals, hdefs, Option.map_some, hlen]
    rw [h.packed r _ hw₀ (hvalid.symm.trans hv)]
  · obtain ⟨rfl, -⟩ := hsync
    exact ⟨fun hv' => absurd hv' hv, by rintro ⟨⟩⟩

lemma Event.stocked (h : Event db db') (hs : Current db) (hst : Stocked db) : Stocked db' := by
  obtain hsame | ⟨_, _, _, h⟩ | ⟨_, h⟩ | ⟨_, _, _, _, _, h⟩ := h.waifs hs
  · exact hst.sameWaifs hsame
  · exact hst.newWaif h
  · exact hst.updateWaifPropdefs h
  · exact hst.waifPutProp h

lemma Evolved.stocked (h : Evolved db) : Stocked db := by
  induction h with
  | load h => exact fun r w hw => (h.waif hw).2
  | event hdb h ih => exact h.stocked hdb.current ih

/-- Runs in which no object gets the number of the class of a waif that has no list. -/
inductive Careful : Db P → Prop
  | load {db : Db P} (h : Loaded db) : Careful (waifAfterLoading db)
  | event {db db' : Db P} (hdb : Careful db) (h : Event db db')
      (hnumber : ∀ w ∈ db.waifs, w.propdefs = none → isValid db'.objects w.cls →
        isValid db.objects w.cls) : Careful db'

lemma Careful.evolved (h : Careful db) : Evolved db := by
  induction h with
  | load h => exact .load h
  | event _ h _ ih => exact ih.event h

/-- One waif changes. -/
lemma Provided.set (h : Provided db) {w' : Waif}
    (hvalid : ∀ k, isValid db'.objects k = isValid db.objects k)
    (hset : db'.waifs = db.waifs.set r w')
    (hlist : isValid db.objects w'.cls → w'.propdefs.isSome) : Provided db' := by
  intro u hu hv
  rw [hvalid] at hv
  rw [hset] at hu
  rcases List.mem_or_eq_of_mem_set hu with hu | rfl
  · exact h u hu hv
  · exact hlist hv

lemma Provided.updateWaifPropdefs (h : Provided db) (hc : CacheOk db)
    (heq : db.updateWaifPropdefs r = some db') : Provided db' := by
  obtain ⟨w, hw, ⟨ho, rfl⟩ | ⟨o, ho, ⟨-, rfl⟩ | ⟨new, db₁, defs, map, vals, -, hp, -, -, rfl⟩⟩⟩ :=
    updateWaifPropdefs_cases heq
  · refine h.set (fun _ => rfl) rfl fun hv => ?_
    rw [isValid, ho] at hv
    cases hv
  · exact h
  · have hlist := classPropdefs_spec hc ho
    rw [hp] at hlist
    exact h.set (isValid_congr hlist.grown.objects) rfl fun _ => rfl

lemma Provided.newWaif (h : Provided db) (hc : CacheOk db) {cls owner : Int}
    (heq : db.newWaif cls owner = some (r, db')) : Provided db' := by
  obtain ⟨o, ho, heq⟩ := Option.bind_eq_some_iff.mp heq
  have hlist := classPropdefs_spec hc ho
  generalize db.classPropdefs cls o = p at heq hlist
  obtain ⟨new, db₁⟩ := p
  obtain ⟨defs, -, heq⟩ := Option.bind_eq_some_iff.mp heq
  cases heq
  intro u hu hv
  rcases List.mem_append.mp hu with hu | hu
  · rw [hlist.waifs] at hu
    rw [isValid_congr hlist.grown.objects] at hv
    exact h u hu hv
  · rw [List.mem_singleton.mp hu]
    rfl

lemma Event.provided (h : Event db db') (hs : Current db) (hp : Provided db)
    (hnumber : ∀ w ∈ db.waifs, w.propdefs = none → isValid db'.objects w.cls →
      isValid db.objects w.cls) : Provided db' := by
  obtain hsame | ⟨_, _, _, h⟩ | ⟨_, h⟩ | ⟨_, _, _, _, _, h⟩ := h.waifs hs
  · intro w hw hv
    rw [hsame.waifs] at hw
    cases hpd : w.propdefs with
    | none =>
      have hsome := hp w hw (hnumber w hw hpd hv)
      rw [hpd] at hsome
      cases hsome
    | some pd => rfl
  · exact hp.newWaif hs.cacheOk h
  · exact hp.updateWaifPropdefs hs.cacheOk h
  · obtain ⟨db₁, hupdate, hdb'⟩ := exists_of_waifPutProp h
    have hp₁ := hp.updateWaifPropdefs hs.cacheOk hupdate
    rcases hdb' with rfl | ⟨w, pd, defs, map, vals, -, hpd, -, -, rfl⟩
    · exact hp₁
    · refine hp₁.set (fun _ => rfl) rfl fun _ => ?_
      dsimp only
      rw [hpd]
      rfl

lemma Careful.provided (h : Careful db) : Provided db := by
  induction h with
  | load h =>
    intro w hw
    obtain ⟨r, hr⟩ := List.mem_iff_getElem?.mp hw
    exact (h.waif hr).1
  | event hdb h hnumber ih => exact h.provided hdb.evolved.current ih hnumber

/-- In every run `update_waif_propdefs` leaves a waif of a valid class with the list of its class,
unless the waif is lost. No waif of a valid class is lost in a run in which no object gets the
number of the class of a waif without a list. -/
theorem Evolved.updates_iff (h : Evolved db) :
    (∀ r w o, db.waifs[r]? = some w → findObject db.objects w.cls = some o →
      (Updates db r w ↔ ¬ Lost w o)) ∧
    (Careful db → ∀ r w, db.waifs[r]? = some w → isValid db.objects w.cls → Updates db r w) := by
  refine ⟨fun r w o hw ho => ⟨Updates.not_lost hw ho, h.current.updates h.stocked hw ho⟩, ?_⟩
  intro hcareful r w hw hv
  obtain ⟨o, ho⟩ := isValid_iff.mp hv
  refine h.current.updates h.stocked hw ho fun hlost => ?_
  have hsome := hcareful.provided w (List.mem_of_getElem? hw) hv
  rw [hlost.1] at hsome
  cases hsome

theorem Evolved.updates_iff_waifVolume :
    Updates (waifDb [some { genericWaif nothing waifVolume (some 0) with
      propval := [⟨.int 5, 0, 1⟩] }] [waifOf 0 (some 0)] [[waifVolume]]) 0 (waifOf 0 (some 0)) :=
  (evolved_waifVolume.updates_iff.1 0 _ _ rfl rfl).mpr (by rintro ⟨⟨⟩, -⟩)

/-! ## A number that is used again -/

/-- A child of the generic object. -/
def childWaif (cache : Option Nat) : Object Unit :=
  { name := "", flags := 0, owner := 0, location := nothing, contents := nothing, next := nothing,
    parent := 0, child := nothing, sibling := nothing, verbdefs := [], propdefs := [],
    propval := [⟨.clear, 0, 0⟩], waifPropdefs := cache }

/-- The child is created and recycled while it has a waif, the waif is read, and another child gets
the number. -/
lemma evolved_reused : Evolved (waifDb [some (genericWaif 1 waifSize none), some (childWaif none)]
    [waifOf 1 none] [[waifSize]]) := by
  have hload : Evolved (waifDb [some (genericWaif nothing waifSize none)] [] []) :=
    .load (loaded_waifDb fun w (hw : w ∈ []) => absurd hw List.not_mem_nil)
  have hcreate : Evolved (waifDb [some (genericWaif 1 waifSize none), some (childWaif none)]
      [] []) :=
    hload.event (@Event.create _ _ _ 0 0 0 (.ok 1) rfl)
  have hnew : Evolved (waifDb [some (genericWaif 1 waifSize none), some (childWaif (some 0))]
      [freshWaif 1 0 0 1] [[waifSize]]) :=
    hcreate.event (@Event.newWaif _ _ _ 1 0 0 rfl)
  have hrecycle : Evolved (waifDb [some (genericWaif nothing waifSize none), none]
      [freshWaif 1 0 0 1] [[waifSize]]) :=
    hnew.event (@Event.recycle _ _ _ _ (fun _ _ _ => false) 1 rfl rfl)
  have hread : Evolved (waifDb [some (genericWaif nothing waifSize none), none]
      [waifOf 1 none] [[waifSize]]) :=
    hrecycle.event (@Event.readWaif _ _ _ 0 rfl)
  have hreset : Evolved (waifDb [some (genericWaif nothing waifSize none)]
      [waifOf 1 none] [[waifSize]]) :=
    hread.event (@Event.resetMaxObject _ _ _ 0 rfl)
  exact hreset.event (@Event.create _ _ _ 0 0 0 (.ok 1) rfl)

/-- The waif of the old child is not given the list of the new one. -/
theorem not_updates_reused : ¬ ∀ db : Db Unit, Evolved db → ∀ r w, db.waifs[r]? = some w →
    isValid db.objects w.cls → Updates db r w := by
  intro h
  have hupdates := h _ evolved_reused 0 (waifOf 1 none) rfl rfl
  exact hupdates.not_lost rfl rfl ⟨rfl, .inl rfl⟩

end Db

end LambdaMOO
