import LambdaMOO.Db.Coherent

/-!
# Renumbering

An object takes a lower number that is free. Every link to it that counts is changed, and every
owner.
-/

namespace LambdaMOO

namespace Db

variable {P : Type} {objects objects' cur : Objects P}

/-- A number after the object `old` has become `new`. -/
def renamed (old new k : Int) : Int := if k = old then new else k

section

variable {old new : Int}

@[simp]
lemma renamed_self : renamed old new old = new := if_pos rfl

lemma renamed_of_ne {k : Int} (h : k ≠ old) : renamed old new k = k := if_neg h

/-- Numbers other than the new one stay apart. -/
lemma renamed_inj {j k : Int} (hj : j ≠ new) (hk : k ≠ new)
    (h : renamed old new j = renamed old new k) : j = k := by
  unfold renamed at h
  split_ifs at h with hjo hko hko
  · rw [hjo, hko]
  · exact absurd h.symm hk
  · exact absurd h hj
  · exact h

/-- The links of a hierarchy after the object `old` has become `new`. Links across count only for
what is on a list. -/
structure Renamed (links : Links P) (objects objects' : Objects P) (old new : Int) : Prop where
  find : ∀ k o, findObject objects k = some o →
    ∃ o', findObject objects' (renamed old new k) = some o' ∧
    links.up o' = renamed old new (links.up o) ∧
    links.down o' = renamed old new (links.down o) ∧
    (links.up o ≠ nothing → links.across o' = renamed old new (links.across o))
  only : ∀ k, isValid objects' k → ∃ k₀, isValid objects k₀ ∧ k = renamed old new k₀

lemma Along.rename {field : Object P → Int} {start : Int} {ks : List Int}
    (ha : Along objects field start ks) (hold : old ≠ nothing) (hnew : new ≠ nothing)
    (h : ∀ k ∈ ks, ∀ o, findObject objects k = some o →
      ∃ o', findObject objects' (renamed old new k) = some o' ∧
        field o' = renamed old new (field o)) :
    Along objects' field (renamed old new start) (ks.map (renamed old new)) := by
  induction ks generalizing start with
  | nil =>
    have hend : start = nothing := ha
    rw [hend, renamed_of_ne hold.symm]
    rfl
  | cons k ks ih =>
    obtain ⟨rfl, hne, o, ho, hrest⟩ := ha
    obtain ⟨o', ho', hfield⟩ := h start List.mem_cons_self o ho
    refine ⟨rfl, ?_, o', ho', ?_⟩
    · unfold renamed
      split_ifs
      · exact hnew
      · exact hne
    · rw [hfield]
      exact ih hrest fun k hk => h k (List.mem_cons_of_mem _ hk)

lemma Renamed.consistent {links : Links P} (hr : Renamed links objects objects' old new)
    (hc : Consistent objects links) (hold : old ≠ nothing) (hnew : new ≠ nothing)
    (hfree : ¬ isValid objects new) : Consistent objects' links := by
  have hback : ∀ {k o'}, findObject objects' k = some o' → ∃ k₀ o,
      findObject objects k₀ = some o ∧ k = renamed old new k₀ ∧
      links.up o' = renamed old new (links.up o) ∧
      links.down o' = renamed old new (links.down o) := by
    intro k o' ho'
    obtain ⟨k₀, hv, rfl⟩ := hr.only k (isValid_of_findObject ho')
    obtain ⟨o, ho⟩ := isValid_iff.mp hv
    obtain ⟨o₂, ho₂, hup, hdown, -⟩ := hr.find k₀ o ho
    rw [ho'] at ho₂
    cases ho₂
    exact ⟨k₀, o, ho, rfl, hup, hdown⟩
  have hne : ∀ {k}, (k = nothing ∨ isValid objects k) → k ≠ new := by
    rintro k hk rfl
    exact hk.elim hnew hfree
  constructor
  case up =>
    intro k o' ho'
    obtain ⟨k₀, o, ho, -, hup, -⟩ := hback ho'
    obtain ⟨ks, hks⟩ := hc.up k₀ o ho
    rw [hup]
    refine ⟨_, hks.rename hold hnew fun x _ ox hox => ?_⟩
    obtain ⟨ox', hox', hupx, -⟩ := hr.find x ox hox
    exact ⟨ox', hox', hupx⟩
  case down =>
    intro p w' hw'
    obtain ⟨p₀, w, hw, rfl, -, hdown⟩ := hback hw'
    obtain ⟨ks, hks, hnodup, hiff⟩ := hc.down p₀ w hw
    have hp := isValid_of_findObject hw
    refine ⟨ks.map (renamed old new), ?_, ?_, ?_⟩
    · rw [hdown]
      refine hks.rename hold hnew fun x hx ox hox => ?_
      obtain ⟨ox', hox', -, -, hacross⟩ := hr.find x ox hox
      refine ⟨ox', hox', hacross ?_⟩
      rw [(hiff x ox hox).mp hx]
      exact ne_nothing_of_isValid hp
    · refine hnodup.map_on fun x hx y hy heq => renamed_inj ?_ ?_ heq
      · exact hks.ne_of_not_isValid hfree hx
      · exact hks.ne_of_not_isValid hfree hy
    · intro k o' ho'
      obtain ⟨k₀, o, ho, rfl, hup, -⟩ := hback ho'
      have hk₀ := isValid_of_findObject ho
      have hvup : links.up o = nothing ∨ isValid objects (links.up o) := by
        obtain ⟨js, hjs⟩ := hc.up k₀ o ho
        exact hjs.isValid
      rw [hup]
      constructor
      · intro hmem
        obtain ⟨x, hx, heq⟩ := List.mem_map.mp hmem
        obtain rfl := renamed_inj (hks.ne_of_not_isValid hfree hx) (hne (.inr hk₀)) heq
        rw [(hiff x o ho).mp hx]
      · intro heq
        have hup₀ := renamed_inj (hne hvup) (hne (.inr hp)) heq
        exact List.mem_map_of_mem ((hiff k₀ o ho).mpr hup₀)

lemma isValid_put {oid : Int} {o : Object P} (ho : findObject objects oid = some o)
    (o' : Object P) (k : Int) : isValid (put objects oid o') k = isValid objects k := by
  rw [isValid, findObject_put ho]
  split_ifs with hk
  · rw [hk, isValid_of_findObject ho]
    rfl
  · rfl

/-! ## The links of one hierarchy -/

variable {h : Hierarchy P}

/-- The object has its new number already, with the links it had. -/
structure Moved (h : Hierarchy P) (objects cur : Objects P) (old new : Int) (o : Object P) :
    Prop where
  self : (findObject cur new).map h.fields = some (h.fields o)
  gone : findObject cur old = none
  other : ∀ k, k ≠ old → k ≠ new →
    (findObject cur k).map h.fields = (findObject objects k).map h.fields

lemma replaceLink_spec (new : Int) {lid : Int} {xs ys : List Int} {x : Int} {n : Nat}
    (ha : Along objects h.across lid (xs ++ x :: old :: ys))
    (hcur : ∀ k ∈ xs ++ [x], (findObject cur k).map h.across
      = (findObject objects k).map h.across) (hnot : old ∉ xs) (hn : xs.length < n) :
    ∃ ox, findObject cur x = some ox ∧ h.across ox = old ∧
      replaceLink h cur old new n lid = some (put cur x (h.setAcross new ox)) := by
  induction xs generalizing lid n with
  | nil =>
    obtain ⟨n, rfl⟩ : ∃ m, n = m + 1 := ⟨n - 1, by omega⟩
    obtain ⟨rfl, hne, o, ho, hrest⟩ := ha
    have heq := hcur lid (by simp)
    rw [ho, Option.map_some] at heq
    obtain ⟨ox, hox, hacross⟩ := Option.map_eq_some_iff.mp heq
    have hold : h.across ox = old := hacross.trans hrest.1
    refine ⟨ox, hox, hold, ?_⟩
    simp only [replaceLink, if_neg hne, hox, Option.bind_eq_bind, Option.bind_some, if_pos hold]
  | cons k xs ih =>
    obtain ⟨n, rfl⟩ : ∃ m, n = m + 1 := ⟨n - 1, by omega⟩
    obtain ⟨rfl, hne, o, ho, hrest⟩ := ha
    have heq := hcur lid (by simp)
    rw [ho, Option.map_some] at heq
    obtain ⟨ok, hok, hacross⟩ := Option.map_eq_some_iff.mp heq
    have hgo : h.across ok ≠ old := by
      rw [hacross]
      intro heq
      cases xs with
      | nil =>
        have hx : x = old := hrest.1.symm.trans heq
        have hnodup := hrest.nodup
        simp [hx] at hnodup
      | cons y xs =>
        have hy : y = old := hrest.1.symm.trans heq
        exact hnot (by simp [hy])
    obtain ⟨ox, hox, hold, hreplace⟩ := ih hrest (fun k hk => hcur k (by simp_all))
      (fun hmem => hnot (List.mem_cons_of_mem _ hmem)) (n := n) (by simpa using hn)
    refine ⟨ox, hox, hold, ?_⟩
    simp only [replaceLink, if_neg hne, hok, Option.bind_eq_bind, Option.bind_some, if_neg hgo]
    rw [hacross]
    exact hreplace

/-- The loop over the objects below only changes their links up. -/
lemma replaceUps_spec (new : Int) {start : Int} {ks : List Int} {n : Nat}
    (ha : Along cur h.across start ks) (hn : ks.length < n) :
    ∃ cur', replaceUps h new n start cur = some cur' ∧ cur'.length = cur.length ∧
      ∀ k, findObject cur' k
        = (findObject cur k).map fun o => if k ∈ ks then h.setUp new o else o := by
  induction ks generalizing start n cur with
  | nil =>
    obtain ⟨n, rfl⟩ : ∃ m, n = m + 1 := ⟨n - 1, by omega⟩
    have hend : start = nothing := ha
    refine ⟨cur, by rw [replaceUps, if_pos hend], rfl, fun k => by simp⟩
  | cons k ks ih =>
    obtain ⟨n, rfl⟩ : ∃ m, n = m + 1 := ⟨n - 1, by omega⟩
    have hnodup := ha.nodup
    obtain ⟨rfl, hne, o, ho, hrest⟩ := ha
    have hput := findObject_put ho (h.setUp new o)
    have hrest' : Along (put cur start (h.setUp new o)) h.across (h.across o) ks :=
      hrest.congr fun k _ => by
        rw [hput]
        split_ifs with hk
        · rw [hk, ho, Option.map_some, Option.map_some, h.across_setUp]
        · rfl
    obtain ⟨cur', heq, hlen, hfind⟩ := ih hrest' (n := n) (by simpa using hn)
    refine ⟨cur', ?_, hlen.trans (length_put _ _), fun k => ?_⟩
    · simpa only [replaceUps, if_neg hne, ho, Option.bind_eq_bind, Option.bind_some] using heq
    · rw [hfind, hput]
      by_cases hk : k = start
      · subst hk
        rw [if_pos rfl, ho, Option.map_some, Option.map_some,
          if_neg (List.nodup_cons.mp hnodup).1, if_pos List.mem_cons_self]
      · simp [hk]

lemma Moved.back (hm : Moved h objects cur old new o) (ho : findObject objects old = some o)
    {k : Int} {ok : Object P} (hok : findObject cur k = some ok) :
    ∃ k₀ o₀, findObject objects k₀ = some o₀ ∧ k = renamed old new k₀ ∧
      h.fields ok = h.fields o₀ := by
  by_cases hnew : k = new
  · have hself := hm.self
    rw [← hnew, hok, Option.map_some] at hself
    exact ⟨old, o, ho, by rw [renamed_self, hnew], Option.some.inj hself⟩
  · have hold : k ≠ old := by
      rintro rfl
      rw [hm.gone] at hok
      cases hok
    have heq := hm.other k hold hnew
    rw [hok, Option.map_some] at heq
    obtain ⟨o₀, ho₀, hfields⟩ := Option.map_eq_some_iff.mp heq.symm
    exact ⟨k, o₀, ho₀, (renamed_of_ne hold).symm, hfields.symm⟩

section

variable {links : Links P} {o o₀ : Object P} {k₀ : Int}

lemma Consistent.up_ne (hc : Consistent objects links) (ho : findObject objects old = some o) :
    links.up o ≠ old := by
  intro heq
  obtain ⟨ks, hks⟩ := hc.up old o ho
  have hline := hks.cons_self ho
  rw [heq] at hks
  have hlen := congrArg List.length (hks.unique hline)
  simp at hlen

/-- A list that starts with the object is that of the one above it. -/
lemma Consistent.up_of_down (hc : Consistent objects links) (ho : findObject objects old = some o)
    (ho₀ : findObject objects k₀ = some o₀) (hdown : links.down o₀ = old) : links.up o = k₀ := by
  obtain ⟨ks, hks, -, hiff⟩ := hc.down k₀ o₀ ho₀
  rw [hdown] at hks
  refine (hiff old o ho).mp ?_
  cases ks with
  | nil =>
    have hend : old = nothing := hks
    exact absurd hend (ne_nothing_of_isValid (isValid_of_findObject ho))
  | cons k ks =>
    rw [hks.1]
    exact List.mem_cons_self

/-- Whoever is before the object on a list is before it on the list it is on. -/
lemma Consistent.before (hc : Consistent objects links) (ho : findObject objects old = some o)
    (ho₀ : findObject objects k₀ = some o₀) (hup : links.up o₀ ≠ nothing)
    (hacross : links.across o₀ = old) :
    links.up o₀ = links.up o ∧ ∃ q us vs, findObject objects (links.up o) = some q ∧
      Along objects links.across (links.down q) (us ++ k₀ :: old :: vs) := by
  obtain ⟨js, hjs⟩ := hc.up k₀ o₀ ho₀
  obtain ⟨q, hq⟩ := isValid_iff.mp (hjs.isValid.resolve_left hup)
  obtain ⟨ks, hks, -, hiff⟩ := hc.down _ q hq
  obtain ⟨us, vs, rfl⟩ := List.append_of_mem ((hiff k₀ o₀ ho₀).mpr rfl)
  obtain ⟨-, -, o₁, ho₁, hrest⟩ := hks.suffix
  rw [ho₀] at ho₁
  cases ho₁
  rw [hacross] at hrest
  cases vs with
  | nil =>
    have hend : old = nothing := hrest
    exact absurd hend (ne_nothing_of_isValid (isValid_of_findObject ho))
  | cons v vs =>
    obtain rfl : old = v := hrest.1
    have hsame : links.up o = links.up o₀ := (hiff old o ho).mp (by simp)
    exact ⟨hsame.symm, q, us, vs, hsame ▸ hq, hks⟩

lemma Consistent.before_unique {p : Object P} {us vs xs ys : List Int}
    (h : Along objects links.across (links.down p) (us ++ k₀ :: old :: vs))
    (h' : Along objects links.across (links.down p) (xs ++ old :: ys)) : xs = us ++ [k₀] := by
  have hsplit : us ++ k₀ :: old :: vs = (us ++ [k₀]) ++ old :: vs := by simp
  rw [hsplit] at h
  have hwhole := h.unique h'
  rw [h.suffix.unique h'.suffix] at hwhole
  exact (List.append_cancel_right hwhole).symm

end

/-- The link to the object on the list it is on has been changed. -/
lemma renumberOnList_spec (hc : Consistent objects h.toLinks) {o : Object P}
    (ho : findObject objects old = some o) (hfree : ¬ isValid objects new)
    (hlen : cur.length = objects.length) (hm : Moved h objects cur old new o) :
    ∃ cur', renumberOnList h cur old new (h.up o) = some cur' ∧ cur'.length = cur.length ∧
      (∀ k, isValid cur' k = isValid cur k) ∧
      ∀ k ok, findObject cur k = some ok → ∃ ok', findObject cur' k = some ok' ∧
        h.rest ok' = h.rest ok ∧ h.up ok' = h.up ok ∧
        h.down ok' = renamed old new (h.down ok) ∧
        (h.up ok ≠ nothing → h.across ok' = renamed old new (h.across ok)) := by
  by_cases hnone : h.up o = nothing
  · refine ⟨cur, by rw [renumberOnList, if_pos hnone], rfl, fun _ => rfl, fun k ok hok => ?_⟩
    obtain ⟨k₀, o₀, ho₀, -, hfields⟩ := hm.back ho hok
    obtain ⟨hup, hdown, hacross⟩ : h.up ok = h.up o₀ ∧ h.down ok = h.down o₀ ∧
        h.across ok = h.across o₀ := by simpa [Links.fields] using hfields
    refine ⟨ok, hok, rfl, rfl, (renamed_of_ne fun heq => ?_).symm, fun hne =>
      (renamed_of_ne fun heq => ?_).symm⟩
    · have hk₀ := hc.up_of_down ho ho₀ (hdown.symm.trans heq)
      exact ne_nothing_of_isValid (isValid_of_findObject ho₀) (hk₀.symm.trans hnone)
    · have hsame := (hc.before ho ho₀ (hup ▸ hne) (hacross.symm.trans heq)).1
      exact hne (hup.trans (hsame.trans hnone))
  · obtain ⟨js, hjs⟩ := hc.up old o ho
    have hv := hjs.isValid.resolve_left hnone
    obtain ⟨p, hp⟩ := isValid_iff.mp hv
    have hpold : h.up o ≠ old := hc.up_ne ho
    have hpnew : h.up o ≠ new := fun heq => hfree (heq ▸ hv)
    obtain ⟨pc, hpc, hpfields⟩ : ∃ pc, findObject cur (h.up o) = some pc ∧
        h.fields pc = h.fields p := by
      have heq := hm.other _ hpold hpnew
      rw [hp, Option.map_some] at heq
      exact Option.map_eq_some_iff.mp heq
    obtain ⟨ks, hks, hnodup, hiff⟩ := hc.down _ p hp
    obtain ⟨xs, ys, rfl⟩ := List.append_of_mem ((hiff old o ho).mpr rfl)
    have hpdown : h.down pc = h.down p := congrArg (fun f => f.2.1) hpfields
    -- what still leads to the old number
    have hdownEq : ∀ {k ok}, findObject cur k = some ok → h.down ok = old → k = h.up o := by
      intro k ok hok heq
      obtain ⟨k₀, o₀, ho₀, rfl, hfields⟩ := hm.back ho hok
      have hdown : h.down ok = h.down o₀ := congrArg (fun f => f.2.1) hfields
      have hk₀ := hc.up_of_down ho ho₀ (hdown.symm.trans heq)
      rw [← hk₀]
      exact renamed_of_ne hpold
    have hacrossEq : ∀ {k ok}, findObject cur k = some ok → h.up ok ≠ nothing →
        h.across ok = old → ∃ us, xs = us ++ [k] := by
      intro k ok hok hne heq
      obtain ⟨k₀, o₀, ho₀, rfl, hfields⟩ := hm.back ho hok
      obtain ⟨hup, -, hacross⟩ : h.up ok = h.up o₀ ∧ h.down ok = h.down o₀ ∧
          h.across ok = h.across o₀ := by simpa [Links.fields] using hfields
      obtain ⟨-, q, us, vs, hq, hbefore⟩ :=
        hc.before ho ho₀ (hup ▸ hne) (hacross.symm.trans heq)
      rw [hp] at hq
      cases hq
      have hxs := Consistent.before_unique hbefore hks
      refine ⟨us, ?_⟩
      rw [renamed_of_ne, hxs]
      rintro rfl
      rw [hxs, List.nodup_append] at hnodup
      exact hnodup.2.2 k₀ (by simp) k₀ (by simp) rfl
    by_cases hfirst : h.down pc = old
    · -- the object is the first of the list
      have hxs : xs = [] := by
        cases xs with
        | nil => rfl
        | cons x xs =>
          have hx : h.down p = x := hks.1
          simp [← hx, ← hpdown, hfirst] at hnodup
      refine ⟨put cur (h.up o) (h.setDown new pc), ?_, length_put _ _, isValid_put hpc _,
        fun k ok hok => ?_⟩
      · simp only [renumberOnList, if_neg hnone, hpc, Option.bind_eq_bind, Option.bind_some,
          if_pos hfirst]
        rfl
      · have hacross : h.up ok ≠ nothing → h.across ok = renamed old new (h.across ok) :=
          fun hne => (renamed_of_ne fun heq => by
            obtain ⟨us, hus⟩ := hacrossEq hok hne heq
            simp [hxs] at hus).symm
        rw [findObject_put hpc]
        split_ifs with hk
        · subst hk
          rw [hpc] at hok
          cases hok
          refine ⟨_, rfl, h.rest_setDown _ _, h.up_setDown _ _, ?_, ?_⟩
          · rw [h.down_setDown, hfirst, renamed_self]
          · rwa [h.across_setDown]
        · exact ⟨ok, hok, rfl, rfl, (renamed_of_ne fun heq => hk (hdownEq hok heq)).symm, hacross⟩
    · -- another one is before it
      obtain ⟨xs, x, rfl⟩ : ∃ us x, xs = us ++ [x] := by
        rcases List.eq_nil_or_concat xs with rfl | ⟨us, x, rfl⟩
        · exact absurd (hpdown.trans hks.1) hfirst
        · exact ⟨us, x, List.concat_eq_append⟩
      have hnot : old ∉ xs ++ [x] := fun hmem => by
        rw [List.nodup_append] at hnodup
        exact hnodup.2.2 old hmem old List.mem_cons_self rfl
      rw [List.append_assoc, List.singleton_append] at hks
      obtain ⟨ox, hox, hold, hreplace⟩ := replaceLink_spec new hks (fun k hk => by
          have hvk : isValid objects k := by
            obtain ⟨_, ok, -, hok, -⟩ := hks.exists_of_mem (k := k) (by
              rw [List.mem_append, List.mem_singleton] at hk
              rw [List.mem_append, List.mem_cons]
              exact hk.imp_right .inl)
            exact isValid_of_findObject hok
          have heq := hm.other k (fun h => hnot (h ▸ hk)) fun h => hfree (h ▸ hvk)
          simpa [Function.comp_def, Links.fields] using
            congrArg (Option.map fun f : Int × Int × Int => f.2.2) heq)
        (fun hmem => hnot (List.mem_append_left _ hmem)) (n := cur.length + 1)
        (by
          have := hks.length_le
          simp only [List.length_append, List.length_cons] at this
          omega)
      refine ⟨put cur x (h.setAcross new ox), ?_, length_put _ _, isValid_put hox _,
        fun k ok hok => ?_⟩
      · simp only [renumberOnList, if_neg hnone, hpc, Option.bind_eq_bind, Option.bind_some,
          if_neg hfirst]
        rw [hpdown]
        exact hreplace
      · have hdown : h.down ok = renamed old new (h.down ok) :=
          (renamed_of_ne fun heq => hfirst (by
            rw [hdownEq hok heq, hpc] at hok
            cases hok
            exact heq)).symm
        rw [findObject_put hox]
        split_ifs with hk
        · subst hk
          rw [hox] at hok
          cases hok
          refine ⟨_, rfl, h.rest_setAcross _ _, h.up_setAcross _ _, ?_, fun _ => ?_⟩
          · rwa [h.down_setAcross]
          · rw [h.across_setAcross, hold, renamed_self]
        · refine ⟨ok, hok, rfl, rfl, hdown, fun hne => (renamed_of_ne fun heq => hk ?_).symm⟩
          obtain ⟨us, hus⟩ := hacrossEq hok hne heq
          exact (List.append_singleton_inj.mp hus).2.symm

lemma Moved.find {o : Object P} (hm : Moved h objects cur old new o)
    (ho : findObject objects old = some o) (hfree : ¬ isValid objects new) {k : Int}
    {ok : Object P} (hok : findObject objects k = some ok) :
    ∃ ok', findObject cur (renamed old new k) = some ok' ∧ h.fields ok' = h.fields ok := by
  by_cases hk : k = old
  · subst hk
    rw [ho] at hok
    cases hok
    rw [renamed_self]
    exact Option.map_eq_some_iff.mp hm.self
  · have heq := hm.other k hk fun h => hfree (h ▸ isValid_of_findObject hok)
    rw [hok, Option.map_some] at heq
    rw [renamed_of_ne hk]
    exact Option.map_eq_some_iff.mp heq

/-- "Fix up the hierarchy" does what it is for. -/
lemma renumberLinks_spec (hc : Consistent objects h.toLinks) {o : Object P}
    (ho : findObject objects old = some o) (hfree : ¬ isValid objects new)
    (hlen : cur.length = objects.length) (hm : Moved h objects cur old new o) :
    ∃ cur', renumberLinks h cur old new = some cur' ∧ cur'.length = cur.length ∧
      (∀ k, (findObject cur' k).map h.rest = (findObject cur k).map h.rest) ∧
      Renamed h.toLinks objects cur' old new := by
  obtain ⟨on, hon, honfields⟩ := Option.map_eq_some_iff.mp hm.self
  have honup : h.up on = h.up o := congrArg Prod.fst honfields
  have hondown : h.down on = h.down o := congrArg (fun f => f.2.1) honfields
  obtain ⟨cur₁, heq₁, hlen₁, hvalid₁, hfind₁⟩ := renumberOnList_spec hc ho hfree hlen hm
  obtain ⟨on₁, hon₁, -, -, hdown₁, -⟩ := hfind₁ new on hon
  have hdownEq : h.down on₁ = h.down o := by
    rw [hdown₁, hondown]
    exact renamed_of_ne fun heq => hc.up_ne ho (hc.up_of_down ho ho heq)
  obtain ⟨cs, hcs, -, hiff⟩ := hc.down old o ho
  have hcold : old ∉ cs := fun hmem => hc.up_ne ho ((hiff old o ho).mp hmem)
  have hcnew : new ∉ cs := fun hmem => hcs.ne_of_not_isValid hfree hmem rfl
  -- the list of those below is as it was
  have hcs₁ : Along cur₁ h.across (h.down on₁) cs := by
    rw [hdownEq]
    refine hcs.congr fun k hk => ?_
    obtain ⟨_, ok, -, hok, -⟩ := hcs.exists_of_mem hk
    have hupk := (hiff k ok hok).mp hk
    obtain ⟨ok', hok', hfields⟩ := hm.find ho hfree hok
    rw [renamed_of_ne fun h : k = old => hcold (h ▸ hk)] at hok'
    obtain ⟨ok₁, hok₁, -, -, -, hacross⟩ := hfind₁ k ok' hok'
    have hup' : h.up ok' = old := (congrArg Prod.fst hfields).trans hupk
    have hacross' : h.across ok' = h.across ok := congrArg (fun f => f.2.2) hfields
    have hne : old ≠ nothing := ne_nothing_of_isValid (isValid_of_findObject ho)
    rw [hok₁, hok, Option.map_some, Option.map_some, hacross (hup' ▸ hne), hacross']
    refine congrArg some (renamed_of_ne fun heq => ?_)
    have hsame := (hc.before ho hok (hupk ▸ hne) heq).1
    exact hc.up_ne ho (hsame.symm.trans hupk)
  obtain ⟨cur₂, heq₂, hlen₂, hfind₂⟩ := replaceUps_spec new hcs₁ (n := cur₁.length + 1) (by
    have := hcs₁.length_le
    omega)
  refine ⟨cur₂, ?_, hlen₂.trans hlen₁, fun k => ?_, ?_, fun k hk => ?_⟩
  · simp only [renumberLinks, hon, Option.bind_eq_bind, Option.bind_some, honup, heq₁, hon₁]
    exact heq₂
  · have hmap : (findObject cur₂ k).map h.rest = (findObject cur₁ k).map h.rest := by
      rw [hfind₂, Option.map_map]
      congr 1
      funext o
      simp only [Function.comp]
      split_ifs
      · exact h.rest_setUp _ _
      · rfl
    rw [hmap]
    cases hok : findObject cur k with
    | none =>
      have hnone := hvalid₁ k
      rw [isValid, isValid, hok, Option.isSome_none, Option.isSome_eq_false_iff,
        Option.isNone_iff_eq_none] at hnone
      rw [hnone]
    | some ok =>
      obtain ⟨ok₁, hok₁, hrest, -⟩ := hfind₁ k ok hok
      rw [hok₁, Option.map_some, Option.map_some, hrest]
  · intro k ok hok
    obtain ⟨ok', hok', hfields⟩ := hm.find ho hfree hok
    obtain ⟨hup', hdown', hacross'⟩ : h.up ok' = h.up ok ∧ h.down ok' = h.down ok ∧
        h.across ok' = h.across ok := by simpa [Links.fields] using hfields
    obtain ⟨ok₁, hok₁, -, hup₁, hdown₁, hacross₁⟩ := hfind₁ _ ok' hok'
    have hfind := hfind₂ (renamed old new k)
    rw [hok₁, Option.map_some] at hfind
    have hmem : renamed old new k ∈ cs ↔ h.up ok = old := by
      by_cases hk : k = old
      · rw [hk, renamed_self]
        rw [hk, ho] at hok
        cases hok
        exact iff_of_false hcnew (hc.up_ne ho)
      · rw [renamed_of_ne hk]
        exact hiff k ok hok
    refine ⟨_, hfind, ?_, ?_, fun hne => ?_⟩
    · split_ifs with hin
      · rw [h.up_setUp, hmem.mp hin, renamed_self]
      · rw [hup₁, hup', renamed_of_ne fun heq => hin (hmem.mpr heq)]
    · rw [← hdown', ← hdown₁]
      split_ifs
      · exact h.down_setUp _ _
      · rfl
    · rw [← hacross', ← hacross₁ (hup' ▸ hne)]
      split_ifs
      · exact h.across_setUp _ _
      · rfl
  · have hk₁ : isValid cur₁ k := by
      rw [isValid, hfind₂, Option.isSome_map] at hk
      exact hk
    rw [hvalid₁] at hk₁
    obtain ⟨ok, hok⟩ := isValid_iff.mp hk₁
    obtain ⟨k₀, o₀, ho₀, heq, -⟩ := hm.back ho hok
    exact ⟨k₀, isValid_of_findObject ho₀, heq⟩

end

/-! ## Owners -/

lemma renumberOwners_eq {old new oid : Int} {o o' : Object P}
    (heq : renumberOwners objects old new oid o = some o') :
    parentLinks.fields o' = parentLinks.fields o ∧
      locationLinks.fields o' = locationLinks.fields o ∧ o'.shape = o.shape := by
  simp only [renumberOwners, Option.ite_none_left_eq_some, Option.some.injEq] at heq
  obtain ⟨-, rfl⟩ := heq
  refine ⟨rfl, rfl, ?_⟩
  have hvars : ∀ n, ((o.propval.take n).map
      (fun p : Pval => { p with owner := newOwner old new p.owner }) ++ o.propval.drop n).map
        Pval.var = o.propval.map Pval.var := by
    intro n
    have hcomp : Pval.var ∘ (fun p : Pval => { p with owner := newOwner old new p.owner })
        = Pval.var := rfl
    rw [List.map_append, List.map_map, hcomp, ← List.map_append, List.take_append_drop]
  simp only [Object.shape, hvars]

lemma Coherent.renumberAllOwners (hc : Coherent objects) {old new : Int} {oids : List Nat}
    (heq : renumberAllOwners old new oids objects = some objects') : Coherent objects' := by
  induction oids generalizing objects with
  | nil =>
    cases heq
    exact hc
  | cons oid oids ih =>
    rw [Db.renumberAllOwners] at heq
    cases ho : findObject objects oid with
    | none =>
      rw [ho] at heq
      exact ih hc heq
    | some o =>
      rw [ho] at heq
      obtain ⟨o', ho', heq⟩ := Option.bind_eq_some_iff.mp heq
      obtain ⟨hparent, hlocation, hshape⟩ := renumberOwners_eq ho'
      refine ih (hc.congr (.put ho hparent) (.put ho hlocation) fun k => ?_) heq
      rw [findObject_put ho]
      split_ifs with hk
      · rw [hk, ho, Option.map_some, Option.map_some, hshape]
      · rfl

/-! ## The object -/

lemma findObject_set_some {i : Nat} (hi : i < objects.length) (o : Object P) (k : Int) :
    findObject (objects.set i (some o)) k = if k = i then some o else findObject objects k := by
  unfold findObject
  by_cases hk : k < 0
  · rw [if_pos hk, if_pos hk, if_neg (by omega)]
  · rw [if_neg hk, if_neg hk]
    by_cases heq : k = i
    · rw [if_pos heq, heq, Int.toNat_natCast, List.getElem?_set_self hi]
      rfl
    · rw [if_neg heq, List.getElem?_set_ne (by omega)]

/-- The slots have moved with the object. -/
lemma PropsFit.rename {old new : Int} (hc : Consistent objects parentLinks)
    (hfit : PropsFit objects) (hold : old ≠ nothing) (hnew : new ≠ nothing)
    (hr : Renamed parentLinks objects cur old new)
    (hshape : ∀ k o, findObject objects k = some o → ∃ o',
      findObject cur (renamed old new k) = some o' ∧ o'.propdefs = o.propdefs ∧
        o'.propval = o.propval) : PropsFit cur := by
  have hall : ∀ k o', findObject cur k = some o' →
      o'.propval.length = countProperties cur k ∧ (lineProps cur k).Pairwise Differ ∧
        ∀ pv ∈ o'.propval.take o'.propdefs.length, pv.var.isClear = false := by
    intro k o' ho'
    obtain ⟨k₀, hv, rfl⟩ := hr.only k (isValid_of_findObject ho')
    obtain ⟨o, ho⟩ := isValid_iff.mp hv
    obtain ⟨o₂, ho₂, hdefs, hval⟩ := hshape k₀ o ho
    rw [ho'] at ho₂
    cases ho₂
    obtain ⟨ks, hks⟩ := hc.up k₀ o ho
    have hline := hks.cons_self ho
    have hline' := hline.rename hold hnew fun x _ ox hox => by
      obtain ⟨ox', hox', hup, -⟩ := hr.find x ox hox
      exact ⟨ox', hox', hup⟩
    refine fit_of_shape hfit ho ?_ hdefs (by rw [hval])
    rw [lineProps_eq hline, lineProps_eq hline', List.flatMap_map]
    refine List.flatMap_congr fun x hx => ?_
    obtain ⟨_, ox, -, hox, -⟩ := hline.exists_of_mem hx
    obtain ⟨ox', hox', hdefs, -⟩ := hshape x ox hox
    rw [defs_eq hox, defs_eq hox', hdefs]
  exact ⟨fun oid o ho => (hall oid o ho).1, fun oid o ho => (hall oid o ho).2.1,
    fun oid o ho => (hall oid o ho).2.2⟩

/-- Objects with their definitions after `old` has become `new`. -/
structure Renumbered (objects objects' : Objects P) (old new : Int) : Prop where
  coherent : Coherent objects'
  free : ¬ isValid objects new
  find : ∀ k o, findObject objects k = some o → ∃ o',
    findObject objects' (renamed old new k) = some o' ∧ o'.parent = renamed old new o.parent ∧
      o'.propdefs = o.propdefs ∧ o'.waifPropdefs = o.waifPropdefs
  only : ∀ k, isValid objects' k → ∃ k₀, isValid objects k₀ ∧ k = renamed old new k₀

/-- What `db_renumber_object` does before it goes through the owners. -/
lemma Coherent.renumber_spec {db db' : Db P} (hc : Coherent db.objects) {old n : Int}
    (heq : db.dbRenumberObject old = some (n, db')) :
    isValid db.objects old ∧ (db' = db ∨ ∃ objects₂ oids, n ≠ nothing ∧
      Renumbered db.objects objects₂ old n ∧
      Db.renumberAllOwners old n oids objects₂ = some db'.objects ∧
      db'.waifs = db.waifs ∧ db'.waifPropdefs = db.waifPropdefs) := by
  obtain ⟨o, ho, heq⟩ := Option.bind_eq_some_iff.mp heq
  cases hfind : (List.range old.toNat).find? fun i : Nat => !isValid db.objects i with
  | none =>
    rw [hfind] at heq
    cases heq
    exact ⟨isValid_of_findObject ho, .inl rfl⟩
  | some new =>
    refine ⟨isValid_of_findObject ho, .inr ?_⟩
    rw [hfind] at heq
    obtain ⟨cur₁, hcur₁, heq⟩ := Option.bind_eq_some_iff.mp heq
    obtain ⟨cur₂, hcur₂, heq⟩ := Option.bind_eq_some_iff.mp heq
    obtain ⟨cur₃, heq₃, heq⟩ := Option.bind_eq_some_iff.mp heq
    cases heq
    obtain ⟨hpos, hget⟩ := findObject_eq_some ho
    have hlt := (List.getElem?_eq_some_iff.mp hget).1
    have hnewlt : new < old.toNat := List.mem_range.mp (List.mem_of_find?_eq_some hfind)
    have hfree : ¬ isValid db.objects new := by simpa using List.find?_some hfind
    have hold : old ≠ nothing := ne_nothing_of_isValid (isValid_of_findObject ho)
    have hnew : (new : Int) ≠ nothing := by
      simp only [nothing]
      omega
    have hmoved : ∀ k, findObject ((db.objects.set new (some o)).set old.toNat none) k
        = if k = old then none else if k = new then some o else findObject db.objects k := by
      intro k
      rw [findObject_set_none _ hpos, findObject_set_some (by omega)]
    have hlen : ((db.objects.set new (some o)).set old.toNat none).length = db.objects.length := by
      simp
    generalize (db.objects.set new (some o)).set old.toNat none = objects₀ at hcur₁ hmoved hlen
    have hm : ∀ {h : Hierarchy P} {cur : Objects P},
        (∀ k, (findObject cur k).map h.fields = (findObject objects₀ k).map h.fields) →
        Moved h db.objects cur old new o := by
      intro h cur hcur
      refine ⟨?_, ?_, fun k hko hkn => ?_⟩
      · rw [hcur, hmoved, if_neg (by omega), if_pos rfl, Option.map_some]
      · have hnone := hcur old
        rw [hmoved, if_pos rfl] at hnone
        exact Option.map_eq_none_iff.mp hnone
      · rw [hcur, hmoved, if_neg hko, if_neg hkn]
    obtain ⟨objects₁, heq₁, hlen₁, hrest₁, hr₁⟩ :=
      renumberLinks_spec (h := inheritance) hc.parents ho hfree hlen (hm fun _ => rfl)
    have hrest₁' : ∀ {α : Type} (f : Object P → α), (∀ o, f (inheritance.rest o) = f o) → ∀ k,
        (findObject objects₁ k).map f = (findObject objects₀ k).map f := by
      intro α f hf k
      simpa [Function.comp_def, hf] using congrArg (Option.map f) (hrest₁ k)
    obtain ⟨objects₂, heq₂, hlen₂, hrest₂, hr₂⟩ :=
      renumberLinks_spec (h := containment) hc.locations ho hfree (hlen₁.trans hlen)
        (hm (hrest₁' containment.fields fun _ => rfl))
    have hrest₂' : ∀ {α : Type} (f : Object P → α), (∀ o, f (containment.rest o) = f o) → ∀ k,
        (findObject objects₂ k).map f = (findObject objects₁ k).map f := by
      intro α f hf k
      simpa [Function.comp_def, hf] using congrArg (Option.map f) (hrest₂ k)
    obtain rfl : objects₁ = cur₁ := Option.some.inj (heq₁.symm.trans hcur₁)
    obtain rfl : objects₂ = cur₂ := Option.some.inj (heq₂.symm.trans hcur₂)
    have hparents₁ : Consistent objects₁ parentLinks := hr₁.consistent hc.parents hold hnew hfree
    have hsame : SameLinks parentLinks objects₁ objects₂ := hrest₂' parentLinks.fields fun _ => rfl
    -- the objects with all but their links
    have hshape : ∀ k ok, findObject db.objects k = some ok → ∃ ok',
        findObject objects₁ (renamed old new k) = some ok' ∧ ok'.propdefs = ok.propdefs ∧
          ok'.propval = ok.propval ∧ ok'.waifPropdefs = ok.waifPropdefs := by
      intro k ok hok
      have hok₀ : findObject objects₀ (renamed old new k) = some ok := by
        by_cases hk : k = old
        · subst hk
          rw [ho] at hok
          rw [renamed_self, hmoved, if_neg (by omega), if_pos rfl, hok]
        · rw [renamed_of_ne hk, hmoved, if_neg hk,
            if_neg fun (h : k = new) => hfree (h ▸ isValid_of_findObject hok), hok]
      have hmap := hrest₁' (fun o => (o.propdefs, o.propval, o.waifPropdefs)) (fun _ => rfl)
        (renamed old new k)
      rw [hok₀, Option.map_some] at hmap
      obtain ⟨ok', hok', htriple⟩ := Option.map_eq_some_iff.mp hmap
      exact ⟨ok', hok', congrArg Prod.fst htriple, congrArg (fun t => t.2.1) htriple,
        congrArg (fun t => t.2.2) htriple⟩
    have hfit₁ : PropsFit objects₁ := by
      refine hc.fit.rename hc.parents hold hnew hr₁ fun k ok hok => ?_
      obtain ⟨ok', hok', hdefs, hval, -⟩ := hshape k ok hok
      exact ⟨ok', hok', hdefs, hval⟩
    have hcoherent : Coherent objects₂ := ⟨hsame.consistent hparents₁,
      hr₂.consistent hc.locations hold hnew hfree,
      hfit₁.congr hparents₁.up (hrest₂' Object.shape fun _ => rfl)⟩
    refine ⟨objects₂, _, hnew, ⟨hcoherent, hfree, fun k ok hok => ?_, fun k hk => ?_⟩, heq₃, rfl,
      rfl⟩
    · obtain ⟨ok₁, hok₁, hdefs, -, hcache⟩ := hshape k ok hok
      obtain ⟨ok₂, hok₂, hup, -⟩ := hr₁.find k ok hok
      rw [hok₁] at hok₂
      cases hok₂
      have hmap := hrest₂' Object.lineage (fun _ => rfl) (renamed old new k)
      rw [hok₁, Option.map_some] at hmap
      obtain ⟨ok', hok', htriple⟩ := Option.map_eq_some_iff.mp hmap
      refine ⟨ok', hok', ?_, ?_, ?_⟩
      · exact (congrArg Prod.fst htriple).trans hup
      · exact (congrArg (fun t => t.2.1) htriple).trans hdefs
      · exact (congrArg (fun t => t.2.2) htriple).trans hcache
    · rw [hsame.isValid] at hk
      exact hr₁.only k hk

/-- `db_renumber_object` keeps coherence. -/
lemma Coherent.renumber {db db' : Db P} (hc : Coherent db.objects) {old n : Int}
    (heq : db.dbRenumberObject old = some (n, db')) : Coherent db'.objects := by
  obtain ⟨-, rfl | ⟨objects₂, oids, -, hr, howners, -⟩⟩ := hc.renumber_spec heq
  · exact hc
  · exact hr.coherent.renumberAllOwners howners

end Db

end LambdaMOO
