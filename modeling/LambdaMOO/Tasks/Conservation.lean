import LambdaMOO.Tasks.Scheduler
import Mathlib.Algebra.BigOperators.Group.List.Basic

/-!
# No task is lost or doubled

In every run each queue is on exactly one of the two lists, and the queue whose task is
running is the first active one. The lists together hold every live task exactly once, as
long as no login puts tasks on an idle queue.
-/

namespace LambdaMOO

/-! ### Sums over the queues -/

section

variable {α : Type} [DecidableEq α] {β : Type}

/-- A sum over distinct addresses when the record at one of them changes. -/
lemma sum_map_update {l : List α} (hn : l.Nodup) {a : α} (ha : a ∈ l) (g : α → β) (v : β)
    (f : β → Nat) :
    (l.map fun b => f (Function.update g a v b)).sum + f (g a) = (l.map fun b => f (g b)).sum + f v := by
  induction l with
  | nil => exact absurd ha List.not_mem_nil
  | cons b l ih =>
    obtain ⟨hb, hn⟩ := List.nodup_cons.mp hn
    simp only [List.map_cons, List.sum_cons]
    by_cases hab : a = b
    · subst hab
      have hrest : (l.map fun b => f (Function.update g a v b)) = l.map fun b => f (g b) := by
        refine List.map_congr_left fun c hc => ?_
        rw [Function.update_of_ne]
        rintro rfl
        exact hb hc
      rw [hrest, Function.update_self]
      omega
    · have hih := ih hn ((List.mem_cons.mp ha).resolve_left hab)
      rw [Function.update_of_ne (Ne.symm hab)]
      omega

end

namespace TaskState

/-- All queues. -/
def members (s : TaskState) : List Nat := s.idle ++ s.active

/-- The shape of the two lists. -/
structure WellFormed (s : TaskState) : Prop where
  nodup : s.members.Nodup
  idle_usage : ∀ n ∈ s.idle, (s.queues n).usage = noUsage
  active_usage : ∀ n ∈ s.active, 0 ≤ (s.queues n).usage
  running : ∀ n ∈ s.running, s.active.head? = some n
  fresh : ∀ n ∈ s.members, n < s.nextQueue

/-- How often a task occurs in a list. -/
def occurs (x : Nat) (ts : List BgTask) : Nat := ts.countP fun t => t.serial = x

/-- How often a task occurs anywhere. -/
def tally (s : TaskState) (x : Nat) : Nat :=
  occurs x s.waiting + (s.members.map fun n => occurs x (s.queues n).bg).sum
    + occurs x s.external

/-- Every live task is somewhere once, and no task waits in the background list of an idle
queue, where nothing would look for it. -/
structure Sound (s : TaskState) : Prop extends WellFormed s where
  idle_bg : ∀ n ∈ s.idle, (s.queues n).bg = []
  tallied : ∀ x, s.tally x = if s.live x then 1 else 0
  born : ∀ x, s.nextSerial ≤ x → s.live x = false

lemma sound_init : init.Sound where
  nodup := List.nodup_nil
  idle_usage _ h := absurd h List.not_mem_nil
  active_usage _ h := absurd h List.not_mem_nil
  running _ h := absurd h (by simp [init])
  fresh _ h := absurd h List.not_mem_nil
  idle_bg _ h := absurd h List.not_mem_nil
  tallied _ := rfl
  born _ _ := rfl

variable {s s' : TaskState} {n m x : Nat}

/-! ### Changing one queue -/

/-- A change that leaves the usage alone. -/
lemma WellFormed.modify_at (h : s.WellFormed) (n : Nat) {f : TQueue → TQueue}
    (hf : (f (s.queues n)).usage = (s.queues n).usage) : (s.modify n f).WellFormed := by
  have husage (m : Nat) : ((s.modify n f).queues m).usage = (s.queues m).usage := by
    rw [modify_queues]
    by_cases hm : m = n
    · rw [hm, Function.update_self, hf]
    · rw [Function.update_of_ne hm]
  refine ⟨h.nodup, fun m hm => ?_, fun m hm => ?_, h.running, h.fresh⟩
  · rw [husage]
    exact h.idle_usage m hm
  · rw [husage]
    exact h.active_usage m hm

lemma WellFormed.modify (h : s.WellFormed) (n : Nat) {f : TQueue → TQueue}
    (hf : ∀ q, (f q).usage = q.usage) : (s.modify n f).WellFormed :=
  h.modify_at n (hf _)

lemma tally_modify (h : s.WellFormed) (hn : n ∈ s.members) (f : TQueue → TQueue) (x : Nat) :
    (s.modify n f).tally x + occurs x (s.queues n).bg = s.tally x + occurs x (f (s.queues n)).bg := by
  have hsum := sum_map_update h.nodup hn s.queues (f (s.queues n)) fun q => occurs x q.bg
  unfold tally
  change occurs x s.waiting + (s.members.map fun m =>
    occurs x (Function.update s.queues n (f (s.queues n)) m).bg).sum + occurs x s.external + _ = _
  omega

/-- A change that also leaves the background tasks alone. -/
lemma Sound.modify (h : s.Sound) (hn : n ∈ s.members) {f : TQueue → TQueue}
    (hf : ∀ q, (f q).usage = q.usage ∧ (f q).bg = q.bg) : (s.modify n f).Sound := by
  refine ⟨h.toWellFormed.modify n fun q => (hf q).1, fun m hm => ?_, fun x => ?_, h.born⟩
  · rw [modify_queues]
    by_cases hmn : m = n
    · rw [hmn, Function.update_self, (hf _).2, ← hmn]
      exact h.idle_bg m hm
    · rw [Function.update_of_ne hmn]
      exact h.idle_bg m hm
  have htally := tally_modify h.toWellFormed hn f x
  rw [(hf _).2] at htally
  rw [Nat.add_right_cancel htally, h.tallied]
  rfl

/-! ### Activation -/

/-- A step that moves queues between the lists and sets their usage, and does no more. -/
structure Moves (s s' : TaskState) : Prop where
  members : s'.members.Perm s.members
  idle : ∀ n ∈ s'.idle, n ∈ s.idle
  queues : ∀ n, s'.queues n = { s.queues n with usage := (s'.queues n).usage }
  waiting : s'.waiting = s.waiting
  external : s'.external = s.external
  live : s'.live = s.live
  nextSerial : s'.nextSerial = s.nextSerial
  running : s'.running = s.running

lemma Moves.refl (s : TaskState) : Moves s s :=
  ⟨List.Perm.refl _, fun _ h => h, fun _ => rfl, rfl, rfl, rfl, rfl, rfl⟩

lemma Moves.bg (h : Moves s s') (n : Nat) : (s'.queues n).bg = (s.queues n).bg := by
  rw [h.queues n]

lemma Moves.player (h : Moves s s') (n : Nat) : (s'.queues n).player = (s.queues n).player := by
  rw [h.queues n]

lemma Moves.numBgTasks (h : Moves s s') (n : Nat) :
    (s'.queues n).numBgTasks = (s.queues n).numBgTasks := by
  rw [h.queues n]

lemma Moves.tally (h : Moves s s') (x : Nat) : s'.tally x = s.tally x := by
  unfold TaskState.tally
  simp only [h.bg, h.waiting, h.external]
  rw [(h.members.map _).sum_eq]

lemma Moves.sound (h : Moves s s') (hs : s.Sound) (hw : s'.WellFormed) : s'.Sound where
  toWellFormed := hw
  idle_bg n hn := by
    rw [h.bg]
    exact hs.idle_bg n (h.idle n hn)
  tallied x := by rw [h.tally, h.live, hs.tallied]
  born x hx := by
    rw [h.live]
    exact hs.born x (h.nextSerial ▸ hx)

lemma takeWhile_append_cons_dropWhile_perm (p : Nat → Bool) (l : List Nat) (a : Nat) :
    (l.takeWhile p ++ a :: l.dropWhile p).Perm (a :: l) := by
  calc (l.takeWhile p ++ a :: l.dropWhile p).Perm (a :: (l.takeWhile p ++ l.dropWhile p)) :=
        List.perm_middle
    _ = a :: l := by rw [List.takeWhile_append_dropWhile]

lemma ensureUsage_spec (h : s.WellFormed) (hn : n ∈ s.members) :
    Moves s (s.ensureUsage n) ∧ (s.ensureUsage n).WellFormed ∧ n ∈ (s.ensureUsage n).active := by
  unfold ensureUsage
  by_cases hu : (s.queues n).usage = noUsage
  · rw [if_pos hu]
    have hidle : n ∈ s.idle := by
      refine (List.mem_append.mp hn).resolve_right fun hact => ?_
      have hpos := h.active_usage n hact
      rw [hu] at hpos
      exact absurd hpos (by decide)
    have hnodup := List.nodup_append.mp h.nodup
    have hnact : n ∉ s.active := fun hact => hnodup.2.2 n hidle n hact rfl
    have hfirst : 0 ≤ s.firstUsage := by
      unfold firstUsage
      cases hact : s.active with
      | nil => exact Int.le_refl 0
      | cons a l => exact h.active_usage a (by rw [hact]; exact List.mem_cons_self)
    generalize hq : Function.update s.queues n { s.queues n with usage := s.firstUsage } = qs
    have hqn : qs n = { s.queues n with usage := s.firstUsage } := by
      rw [← hq, Function.update_self]
    have hqm (m : Nat) (hm : m ≠ n) : qs m = s.queues m := by
      rw [← hq, Function.update_of_ne hm]
    set s₁ : TaskState := { s with queues := qs, idle := s.idle.erase n } with hs₁
    have hactive : (activateTqueue n s₁).active.Perm (n :: s.active) :=
      takeWhile_append_cons_dropWhile_perm _ _ _
    have hmem : (activateTqueue n s₁).members.Perm s.members := by
      unfold members
      calc ((s.idle.erase n) ++ (activateTqueue n s₁).active).Perm (s.idle.erase n ++ n :: s.active) :=
            hactive.append_left _
        _ |>.Perm (n :: s.idle.erase n ++ s.active) := List.perm_middle
        _ |>.Perm (s.idle ++ s.active) := (List.perm_cons_erase hidle).symm.append_right _
    refine ⟨⟨hmem, fun m hm => List.mem_of_mem_erase hm, fun m => ?_, rfl, rfl, rfl, rfl, rfl⟩, ?_,
      hactive.symm.subset List.mem_cons_self⟩
    · change qs m = { s.queues m with usage := (qs m).usage }
      by_cases hm : m = n
      · rw [hm, hqn]
      · rw [hqm m hm]
    · refine ⟨hmem.nodup_iff.mpr h.nodup, fun m hm => ?_, fun m hm => ?_, fun m hm => ?_,
        fun m hm => h.fresh m (hmem.subset hm)⟩
      · change (qs m).usage = noUsage
        have hmn : m ≠ n := by
          rintro rfl
          exact hnodup.1.not_mem_erase hm
        rw [hqm m hmn]
        exact h.idle_usage m (List.mem_of_mem_erase hm)
      · change 0 ≤ (qs m).usage
        rcases List.mem_cons.mp (hactive.subset hm) with rfl | hact
        · rw [hqn]
          exact hfirst
        · rw [hqm m (by rintro rfl; exact hnact hact)]
          exact h.active_usage m hact
      · -- the running queue is the first one, and its usage is not above the new one
        have hhead := h.running m hm
        obtain ⟨l, hl⟩ : ∃ l, s.active = m :: l := by
          cases hact : s.active with
          | nil =>
            rw [hact] at hhead
            exact absurd hhead (by simp)
          | cons a l =>
            rw [hact] at hhead
            exact ⟨l, by rw [Option.some.inj hhead]⟩
        have hmn : m ≠ n := by
          rintro rfl
          exact hnact (hl ▸ List.mem_cons_self)
        have hle : (qs m).usage ≤ (qs n).usage := by
          rw [hqn, hqm m hmn]
          simp [firstUsage, hl]
        change (List.takeWhile (fun a => (qs a).usage ≤ (qs n).usage) s.active ++ _).head? = some m
        rw [hl, List.takeWhile_cons_of_pos (by simpa using hle)]
        rfl
  · rw [if_neg hu]
    refine ⟨Moves.refl s, h, (List.mem_append.mp hn).resolve_left fun hidle => ?_⟩
    exact hu (h.idle_usage n hidle)

/-! ### Finding and creating queues -/

lemma nextQueue_notMem (h : s.WellFormed) : s.nextQueue ∉ s.members := fun hmem =>
  Nat.lt_irrefl _ (h.fresh _ hmem)

lemma WellFormed.createQueue (h : s.WellFormed) (player : Int) :
    (s.createQueue player).WellFormed := by
  have hnot := nextQueue_notMem h
  have hold (m : Nat) (hm : m ∈ s.members) :
      (s.createQueue player).queues m = s.queues m := by
    rw [createQueue_queues, Function.update_of_ne]
    rintro rfl
    exact hnot hm
  refine ⟨List.nodup_cons.mpr ⟨hnot, h.nodup⟩, fun m hm => ?_, fun m hm => ?_, h.running,
    fun m hm => ?_⟩
  · rcases List.mem_cons.mp hm with rfl | hm
    · rw [createQueue_queues, Function.update_self]
      rfl
    · rw [hold m (List.mem_append_left _ hm)]
      exact h.idle_usage m hm
  · rw [hold m (List.mem_append_right _ hm)]
    exact h.active_usage m hm
  · rcases List.mem_cons.mp hm with rfl | hm
    · exact Nat.lt_succ_self _
    · exact Nat.lt_succ_of_lt (h.fresh m hm)

lemma tally_createQueue (h : s.WellFormed) (player : Int) (x : Nat) :
    (s.createQueue player).tally x = s.tally x := by
  have hnot := nextQueue_notMem h
  unfold tally
  change occurs x s.waiting + ((s.nextQueue :: s.members).map fun m =>
    occurs x (Function.update s.queues s.nextQueue (newQueue player) m).bg).sum + _ = _
  rw [List.map_cons, List.sum_cons, Function.update_self]
  have hrest : (s.members.map fun m =>
      occurs x (Function.update s.queues s.nextQueue (newQueue player) m).bg)
      = s.members.map fun m => occurs x (s.queues m).bg := by
    refine List.map_congr_left fun m hm => ?_
    rw [Function.update_of_ne]
    rintro rfl
    exact hnot hm
  rw [hrest]
  simp [newQueue, occurs]

/-- `find_tqueue` returns a queue of the player, an existing one or a new one. -/
lemma findOrCreate_cases (s : TaskState) (player : Int) :
    (∃ n ∈ s.members, (s.queues n).player = player ∧ s.findTqueue player = some n ∧
        s.findOrCreate player = (n, s)) ∨
      (∀ n ∈ s.members, (s.queues n).player ≠ player) ∧
        s.findOrCreate player = (s.nextQueue, s.createQueue player) := by
  unfold findOrCreate
  cases hfind : s.findTqueue player with
  | none =>
    refine Or.inr ⟨fun n hn => ?_, rfl⟩
    have hnot := List.find?_eq_none.mp hfind n (by
      rw [members, List.mem_append] at hn
      rw [List.mem_append]
      exact hn.symm)
    simpa using hnot
  | some n =>
    refine Or.inl ⟨n, ?_, by simpa using List.find?_some hfind, rfl, rfl⟩
    have hmem := List.mem_of_find?_eq_some hfind
    rw [List.mem_append] at hmem
    rw [members, List.mem_append]
    exact hmem.symm

lemma mem_members_of_findTqueue {player : Int} (h : s.findTqueue player = some n) :
    n ∈ s.members ∧ (s.queues n).player = player := by
  have hmem := List.mem_of_find?_eq_some h
  rw [List.mem_append] at hmem
  rw [members, List.mem_append]
  exact ⟨hmem.symm, by simpa using List.find?_some h⟩

/-- What `find_tqueue` leaves alone. -/
structure Finds (player : Int) (s : TaskState) (n : Nat) (s' : TaskState) : Prop where
  wellFormed : s'.WellFormed
  mem : n ∈ s'.members
  player : (s'.queues n).player = player
  tally : ∀ x, s'.tally x = s.tally x
  idle_bg : (∀ n ∈ s.idle, (s.queues n).bg = []) → ∀ n ∈ s'.idle, (s'.queues n).bg = []
  members : ∀ n ∈ s.members, n ∈ s'.members ∧ s'.queues n = s.queues n
  active : s'.active = s.active
  waiting : s'.waiting = s.waiting
  external : s'.external = s.external
  live : s'.live = s.live
  nextSerial : s'.nextSerial = s.nextSerial
  running : s'.running = s.running

lemma findOrCreate_finds (h : s.WellFormed) (player : Int) :
    Finds player s (s.findOrCreate player).1 (s.findOrCreate player).2 := by
  rcases findOrCreate_cases s player with ⟨n, hn, hp, -, heq⟩ | ⟨-, heq⟩
  · rw [heq]
    exact ⟨h, hn, hp, fun _ => rfl, fun hb => hb, fun _ hm => ⟨hm, rfl⟩, rfl, rfl, rfl, rfl, rfl, rfl⟩
  · rw [heq]
    have hnot := nextQueue_notMem h
    have hold (m : Nat) (hm : m ∈ s.members) : (s.createQueue player).queues m = s.queues m := by
      rw [createQueue_queues, Function.update_of_ne]
      rintro rfl
      exact hnot hm
    refine ⟨h.createQueue player, List.mem_cons_self, ?_, tally_createQueue h player,
      fun hb m hm => ?_, fun m hm => ⟨List.mem_cons_of_mem _ hm, hold m hm⟩, rfl, rfl, rfl, rfl, rfl,
      rfl⟩
    · rw [createQueue_queues, Function.update_self]
      rfl
    · rcases List.mem_cons.mp hm with rfl | hm
      · rw [createQueue_queues, Function.update_self]
        rfl
      · rw [hold m (List.mem_append_left _ hm)]
        exact hb m hm

lemma Sound.of_finds {player : Int} (h : s.Sound) (hf : Finds player s n s') : s'.Sound where
  toWellFormed := hf.wellFormed
  idle_bg := hf.idle_bg h.idle_bg
  tallied x := by rw [hf.tally, hf.live, h.tallied]
  born x hx := by
    rw [hf.live]
    exact h.born x (hf.nextSerial ▸ hx)

/-! ### Adding and taking tasks -/

@[simp] lemma occurs_append (x : Nat) (ts us : List BgTask) :
    occurs x (ts ++ us) = occurs x ts + occurs x us := by
  simp [occurs]

@[simp] lemma occurs_nil (x : Nat) : occurs x [] = 0 := rfl

lemma occurs_cons (x : Nat) (t : BgTask) (ts : List BgTask) :
    occurs x (t :: ts) = occurs x ts + if t.serial = x then 1 else 0 := by
  simp [occurs, List.countP_cons]

lemma occurs_perm {x : Nat} {ts us : List BgTask} (h : ts.Perm us) : occurs x ts = occurs x us :=
  h.countP_eq _

lemma insertWaiting_perm (t : BgTask) (ts : List BgTask) : (insertWaiting t ts).Perm (t :: ts) := by
  unfold insertWaiting
  calc (ts.takeWhile _ ++ t :: ts.dropWhile _).Perm
        (t :: (ts.takeWhile _ ++ ts.dropWhile _)) := List.perm_middle
    _ = t :: ts := by rw [List.takeWhile_append_dropWhile]

/-- The first task with a property, taken out. -/
lemma occurs_eraseP {p : BgTask → Bool} {ts : List BgTask} {t : BgTask} (h : ts.find? p = some t)
    (x : Nat) : occurs x (ts.eraseP p) + (if t.serial = x then 1 else 0) = occurs x ts := by
  obtain ⟨hp, as, bs, rfl, has⟩ := List.find?_eq_some_iff_append.mp h
  have hnot : ∀ a ∈ as, ¬ p a = true := fun a ha => by simpa using has a ha
  rw [List.eraseP_append_right _ hnot, List.eraseP_cons_of_pos hp]
  simp only [occurs_append, occurs_cons]
  omega

/-- A task that is somewhere is alive. -/
lemma Sound.live_of_occurs (h : s.Sound) (hx : 0 < s.tally x) : s.live x = true := by
  have := h.tallied x
  by_contra hne
  rw [if_neg hne] at this
  omega

lemma Sound.tally_eq_zero (h : s.Sound) (hx : s.nextSerial ≤ x) : s.tally x = 0 := by
  rw [h.tallied, if_neg (by simp [h.born x hx])]

/-- Tasks that go from one place to another. -/
lemma Sound.of_tally_eq (h : s.Sound) (hw : s'.WellFormed)
    (hb : ∀ n ∈ s'.idle, (s'.queues n).bg = []) (ht : ∀ x, s'.tally x = s.tally x)
    (hl : s'.live = s.live) (hn : s'.nextSerial = s.nextSerial) : s'.Sound where
  toWellFormed := hw
  idle_bg := hb
  tallied x := by rw [ht, hl, h.tallied]
  born x hx := by
    rw [hl]
    exact h.born x (hn ▸ hx)

/-- A task that leaves because it runs or is killed. -/
lemma Sound.of_die (h : s.Sound) {t : BgTask} (hw : s'.WellFormed)
    (hb : ∀ n ∈ s'.idle, (s'.queues n).bg = [])
    (ht : ∀ x, s'.tally x + (if t.serial = x then 1 else 0) = s.tally x)
    (hl : s'.live = s.live) (hn : s'.nextSerial = s.nextSerial) : (s'.die t).Sound where
  toWellFormed := ⟨hw.nodup, hw.idle_usage, hw.active_usage, hw.running, hw.fresh⟩
  idle_bg := hb
  tallied x := by
    have htally := ht x
    have hold := h.tallied x
    change s'.tally x = if Function.update s'.live t.serial false x then 1 else 0
    by_cases hx : t.serial = x
    · subst hx
      rw [Function.update_self]
      rw [if_pos rfl] at htally
      have hle : s.tally t.serial ≤ 1 := by
        rw [hold]
        split <;> omega
      simp only [Bool.false_eq_true, if_false]
      omega
    · rw [Function.update_of_ne (Ne.symm hx), hl, ← hold]
      rw [if_neg hx] at htally
      omega
  born x hx := by
    change Function.update s'.live t.serial false x = false
    by_cases hx' : x = t.serial
    · rw [hx', Function.update_self]
    · rw [Function.update_of_ne hx', hl]
      exact h.born x (hn ▸ hx)

/-- A new task enters. -/
lemma Sound.of_birth (h : s.Sound) (hw : s'.WellFormed)
    (hb : ∀ n ∈ s'.idle, (s'.queues n).bg = [])
    (ht : ∀ x, s'.tally x = s.tally x + if s.nextSerial = x then 1 else 0)
    (hl : s'.live = s.live) (hn : s'.nextSerial = s.nextSerial) : s'.birth.Sound where
  toWellFormed := ⟨hw.nodup, hw.idle_usage, hw.active_usage, hw.running, hw.fresh⟩
  idle_bg := hb
  tallied x := by
    change s'.tally x = if Function.update s'.live s'.nextSerial true x then 1 else 0
    rw [ht, hn, hl]
    by_cases hx : s.nextSerial = x
    · subst hx
      rw [Function.update_self, h.tally_eq_zero (Nat.le_refl _), if_pos rfl]
      rfl
    · rw [Function.update_of_ne (Ne.symm hx), h.tallied, if_neg hx, Nat.add_zero]
  born x hx := by
    have hlt : s.nextSerial < x := by
      rw [← hn]
      exact hx
    change Function.update s'.live s'.nextSerial true x = false
    rw [hn, Function.update_of_ne (by omega), hl]
    exact h.born x (Nat.le_of_lt hlt)

end TaskState

end LambdaMOO
