import LambdaMOO.Tasks.Conservation
import Mathlib.Data.List.Perm.Basic

/-!
# Every live task is where the scheduler looks

The events one by one. The only one that can hide a task is a login: the tasks in the
background list of a connection that logs in are moved to a queue for its old number, and
that queue is not activated.
-/

namespace LambdaMOO

namespace TaskState

variable {s s' : TaskState} {n m x : Nat}

/-! ### Parts of the state -/

lemma WellFormed.setTasks (h : s.WellFormed) (ws es : List BgTask) :
    { s with waiting := ws, external := es }.WellFormed :=
  ⟨h.nodup, h.idle_usage, h.active_usage, h.running, h.fresh⟩

lemma tally_setTasks (s : TaskState) (ws es : List BgTask) (x : Nat) :
    { s with waiting := ws, external := es }.tally x + occurs x s.waiting + occurs x s.external
      = s.tally x + occurs x ws + occurs x es := by
  have hlists : { s with waiting := ws, external := es }.tally x
      = occurs x ws + (s.members.map fun n => occurs x (s.queues n).bg).sum + occurs x es := rfl
  have hold : s.tally x = occurs x s.waiting
    + (s.members.map fun n => occurs x (s.queues n).bg).sum + occurs x s.external := rfl
  omega

lemma mem_members_of_active (h : n ∈ s.active) : n ∈ s.members := List.mem_append_right _ h

lemma mem_members_of_idle (h : n ∈ s.idle) : n ∈ s.members := List.mem_append_left _ h

lemma WellFormed.notMem_idle (h : s.WellFormed) (hn : n ∈ s.active) : n ∉ s.idle := fun hi =>
  (List.nodup_append.mp h.nodup).2.2 n hi n hn rfl

/-- Background tasks on the idle queues after a change of an active queue. -/
lemma idle_bg_modify (h : s.WellFormed) (hb : ∀ m ∈ s.idle, (s.queues m).bg = [])
    (hn : n ∈ s.active) (f : TQueue → TQueue) :
    ∀ m ∈ (s.modify n f).idle, ((s.modify n f).queues m).bg = [] := by
  intro m hm
  rw [modify_queues, Function.update_of_ne]
  · exact hb m hm
  · rintro rfl
    exact h.notMem_idle hn hm

/-- A task handed to an active queue. -/
lemma tally_enqueueBgTask (h : s.WellFormed) (hn : n ∈ s.members) (t : BgTask) (x : Nat) :
    (s.enqueueBgTask n t).tally x = s.tally x + if t.serial = x then 1 else 0 := by
  have htally := tally_modify h hn (fun q => { q with bg := q.bg ++ [t] }) x
  simp only [occurs_append, occurs_cons, occurs_nil] at htally
  unfold enqueueBgTask
  omega

/-- Activation of a queue of a sound state. -/
lemma Sound.ensureUsage (h : s.Sound) (hn : n ∈ s.members) : (s.ensureUsage n).Sound := by
  obtain ⟨hmoves, hwf, -⟩ := ensureUsage_spec h.toWellFormed hn
  exact hmoves.sound h hwf

/-! ### Forking, suspending and resuming -/

/-- The state behind `enqueue_waiting`: one more task waits, and nothing else moves. -/
lemma enqueueWaiting_spec (h : s.WellFormed) (t : BgTask) :
    (s.enqueueWaiting t).WellFormed ∧
      ((∀ n ∈ s.idle, (s.queues n).bg = []) →
        ∀ n ∈ (s.enqueueWaiting t).idle, ((s.enqueueWaiting t).queues n).bg = []) ∧
      (∀ x, (s.enqueueWaiting t).tally x = s.tally x + if t.serial = x then 1 else 0) ∧
      (s.enqueueWaiting t).live = s.live ∧ (s.enqueueWaiting t).nextSerial = s.nextSerial := by
  have hf := findOrCreate_finds h t.progr
  unfold enqueueWaiting
  generalize s.findOrCreate t.progr = r at *
  obtain ⟨n, s₁⟩ := r
  dsimp only at hf ⊢
  have hw : (s₁.modify n fun q => { q with numBgTasks := q.numBgTasks + 1 }).WellFormed :=
    hf.wellFormed.modify n fun _ => rfl
  have hbg (m : Nat) : ((s₁.modify n fun q => { q with numBgTasks := q.numBgTasks + 1 }).queues m).bg
      = (s₁.queues m).bg := by
    rw [modify_queues]
    by_cases hm : m = n
    · rw [hm, Function.update_self]
    · rw [Function.update_of_ne hm]
  refine ⟨hw.setTasks _ _, fun hb m hm => ?_, fun x => ?_, hf.live, hf.nextSerial⟩
  · rw [hbg]
    exact hf.idle_bg hb m hm
  · have hmod := Nat.add_right_cancel
      (tally_modify hf.wellFormed hf.mem (fun q => { q with numBgTasks := q.numBgTasks + 1 }) x)
    rw [hf.tally] at hmod
    generalize (s₁.modify n fun q => { q with numBgTasks := q.numBgTasks + 1 }) = s₂ at *
    have hset := tally_setTasks s₂ (insertWaiting t s₂.waiting) s₂.external x
    have hperm := occurs_perm (x := x) (insertWaiting_perm t s₂.waiting)
    rw [occurs_cons] at hperm
    change ({ s₂ with waiting := insertWaiting t s₂.waiting, external := s₂.external }
      : TaskState).tally x = _
    omega

lemma Sound.addTask (h : s.Sound) (kind : BgKind) (id : Nat) (progr startTime limit : Int) :
    (s.addTask kind id progr startTime limit).Sound := by
  unfold TaskState.addTask
  split
  · obtain ⟨hw, hb, htally, hlive, hserial⟩ :=
      enqueueWaiting_spec h.toWellFormed (s.newTask kind id progr startTime)
    exact h.of_birth hw (hb h.idle_bg) htally hlive hserial
  · exact h

lemma Sound.addExternal (h : s.Sound) (id : Nat) (progr : Int) : (s.addExternal id progr).Sound := by
  refine h.of_birth (h.toWellFormed.setTasks s.waiting _) h.idle_bg (fun x => ?_) rfl rfl
  have hset := tally_setTasks s s.waiting (s.newTask .suspended id progr 0 :: s.external) x
  rw [occurs_cons] at hset
  have hserial : (s.newTask .suspended id progr 0).serial = s.nextSerial := rfl
  rw [hserial] at hset
  change ({ s with waiting := s.waiting, external := s.newTask .suspended id progr 0 :: s.external }
    : TaskState).tally x = _
  omega

/-- A task that was taken from `waiting_tasks` or a registered queue and goes to the
background list of its programmer. -/
lemma Sound.handOver (h : s.Sound) (ws es : List BgTask) (t : BgTask)
    (ht : ∀ x, occurs x ws + occurs x es + (if t.serial = x then 1 else 0)
      = occurs x s.waiting + occurs x s.external) (progr : Int) {s₁ : TaskState}
    (hs₁ : s₁ = { s with waiting := ws, external := es }) (st : Int) :
    (((s₁.findOrCreate progr).2.ensureUsage (s₁.findOrCreate progr).1).enqueueBgTask
      (s₁.findOrCreate progr).1 { t with startTime := st }).Sound ∧
    (((s₁.findOrCreate progr).2.enqueueBgTask (s₁.findOrCreate progr).1
      { t with startTime := st }).ensureUsage (s₁.findOrCreate progr).1).Sound := by
  have hw₁ : s₁.WellFormed := hs₁ ▸ h.toWellFormed.setTasks ws es
  have hf := findOrCreate_finds hw₁ progr
  have hb : ∀ m ∈ (s₁.findOrCreate progr).2.idle, ((s₁.findOrCreate progr).2.queues m).bg = [] :=
    hf.idle_bg (hs₁ ▸ h.idle_bg)
  have htally (x : Nat) : (s₁.findOrCreate progr).2.tally x + (if t.serial = x then 1 else 0)
      = s.tally x := by
    have hset := tally_setTasks s ws es x
    rw [← hs₁] at hset
    have := ht x
    rw [hf.tally]
    omega
  have hlive : (s₁.findOrCreate progr).2.live = s.live := by rw [hf.live, hs₁]
  have hserial : (s₁.findOrCreate progr).2.nextSerial = s.nextSerial := by rw [hf.nextSerial, hs₁]
  generalize (s₁.findOrCreate progr).2 = s₂ at *
  generalize (s₁.findOrCreate progr).1 = n at *
  have hw₂ := hf.wellFormed
  have hmem := hf.mem
  constructor
  · obtain ⟨hmoves, hw₃, hact⟩ := ensureUsage_spec hw₂ hmem
    have hb₃ : ∀ m ∈ (s₂.ensureUsage n).idle, ((s₂.ensureUsage n).queues m).bg = [] :=
      fun m hm => (hmoves.bg m).trans (hb m (hmoves.idle m hm))
    refine h.of_tally_eq (hw₃.modify n fun _ => rfl) (idle_bg_modify hw₃ hb₃ hact _) (fun x => ?_)
      (hmoves.live.trans hlive) (hmoves.nextSerial.trans hserial)
    have := htally x
    rw [tally_enqueueBgTask hw₃ (mem_members_of_active hact), hmoves.tally]
    exact this
  · have hw₃ : (s₂.enqueueBgTask n { t with startTime := st }).WellFormed :=
      hw₂.modify n fun _ => rfl
    obtain ⟨hmoves, hw₄, hact⟩ := ensureUsage_spec hw₃ hmem
    refine h.of_tally_eq hw₄ (fun m hm => ?_) (fun x => ?_) (hmoves.live.trans hlive)
      (hmoves.nextSerial.trans hserial)
    · have hmn : m ≠ n := by
        rintro rfl
        exact hw₄.notMem_idle hact hm
      rw [hmoves.bg, enqueueBgTask, modify_queues, Function.update_of_ne hmn]
      exact hb m (hmoves.idle m hm)
    · have := htally x
      rw [hmoves.tally, tally_enqueueBgTask hw₂ hmem]
      exact this

lemma occurs_eraseIdx {ts : List BgTask} {i : Nat} {t : BgTask} (h : ts[i]? = some t) (x : Nat) :
    occurs x (ts.eraseIdx i) + (if t.serial = x then 1 else 0) = occurs x ts := by
  obtain ⟨hi, ht⟩ := List.getElem?_eq_some_iff.mp h
  have hperm := occurs_perm (x := x) (List.getElem_cons_eraseIdx_perm hi)
  rw [occurs_cons, ht] at hperm
  exact hperm

lemma Sound.resumeTask (h : s.Sound) (i : Nat) : (s.resumeTask i).Sound := by
  unfold TaskState.resumeTask
  cases ht : s.external[i]? with
  | none => exact h
  | some t =>
    refine (h.handOver s.waiting (s.external.eraseIdx i) t (fun x => ?_) t.progr rfl 0).2
    have := occurs_eraseIdx ht x
    omega

lemma Sound.doResume (h : s.Sound) (id : Nat) (now progr : Int) (wizard : Bool) :
    (s.doResume id now progr wizard).Sound := by
  unfold TaskState.doResume
  cases ht : s.waiting.find? (isSuspended id) with
  | none => exact h
  | some t =>
    dsimp only
    split
    · refine (h.handOver (s.waiting.eraseP (isSuspended id)) s.external t (fun x => ?_) t.progr rfl
        now).1
      have := occurs_eraseP ht x
      omega
    · exact h

lemma Sound.releaseTasks (now : Int) (ts : List BgTask) (h : s.Sound) (hts : s.waiting = ts) :
    (s.releaseTasks now ts).Sound := by
  induction ts generalizing s with
  | nil =>
    unfold TaskState.releaseTasks
    rw [← hts]
    exact h
  | cons t ts ih =>
    unfold TaskState.releaseTasks
    split
    · refine ih (h.handOver ts s.external t (fun x => ?_) t.progr rfl t.startTime).1 ?_
      · rw [hts, occurs_cons]
        omega
      · have hf := findOrCreate_finds (h.toWellFormed.setTasks ts s.external) t.progr
        obtain ⟨hmoves, -⟩ := ensureUsage_spec hf.wellFormed hf.mem
        exact hmoves.waiting.trans hf.waiting
    · rw [← hts]
      exact h

/-! ### Killing -/

lemma Sound.killWaiting (h : s.Sound) {t : BgTask} (ht : s.waiting.find? (fun w => w.id = t.id) = some t) :
    (s.killWaiting t).Sound := by
  unfold TaskState.killWaiting
  have hocc := occurs_eraseP ht
  generalize hws : s.waiting.eraseP (fun w => decide (w.id = t.id)) = ws at *
  have hw : ({ s with waiting := ws } : TaskState).WellFormed :=
    h.toWellFormed.setTasks ws s.external
  have htally (x : Nat) : ({ s with waiting := ws } : TaskState).tally x
      + (if t.serial = x then 1 else 0) = s.tally x := by
    have hset := tally_setTasks s ws s.external x
    have := hocc x
    change ({ s with waiting := ws, external := s.external } : TaskState).tally x + _ = _
    omega
  cases hfind : s.findTqueue t.progr with
  | none => exact h.of_die hw h.idle_bg htally rfl rfl
  | some n =>
    have hmem := (mem_members_of_findTqueue hfind).1
    refine h.of_die (hw.modify n fun _ => rfl) (fun m hm => ?_) (fun x => ?_) rfl rfl
    · rw [modify_queues]
      by_cases hmn : m = n
      · rw [hmn, Function.update_self]
        exact h.idle_bg n (hmn ▸ hm)
      · rw [Function.update_of_ne hmn]
        exact h.idle_bg m hm
    · have hmod := tally_modify hw hmem (fun q => { q with numBgTasks := q.numBgTasks - 1 }) x
      have := htally x
      dsimp only at hmod
      omega

lemma Sound.killBg (h : s.Sound) (hn : n ∈ s.active) {t : BgTask}
    (ht : (s.queues n).bg.find? (fun w => w.id = t.id) = some t) : (s.killBg n t).Sound := by
  have hocc := occurs_eraseP ht
  refine h.of_die (h.toWellFormed.modify n fun _ => rfl)
    (idle_bg_modify h.toWellFormed h.idle_bg hn _) (fun x => ?_) rfl rfl
  have hmod := tally_modify h.toWellFormed (mem_members_of_active hn) (fun q =>
    { q with bg := q.bg.eraseP (fun w => w.id = t.id), numBgTasks := q.numBgTasks - 1 }) x
  have := hocc x
  dsimp only at hmod
  omega

lemma Sound.killExternal (h : s.Sound) {t : BgTask}
    (ht : s.external.find? (fun w => w.id = t.id) = some t) : (s.killExternal t).Sound := by
  have hocc := occurs_eraseP ht
  unfold TaskState.killExternal
  generalize s.external.eraseP (fun w => decide (w.id = t.id)) = es at *
  refine h.of_die (h.toWellFormed.setTasks s.waiting es) h.idle_bg (fun x => ?_) rfl rfl
  have hset := tally_setTasks s s.waiting es x
  have := hocc x
  change ({ s with waiting := s.waiting, external := es } : TaskState).tally x + _ = _
  omega

/-- A task found by its number has that number. -/
lemma find_id {ts : List BgTask} {id : Nat} {t : BgTask}
    (h : ts.find? (fun w => w.id = id) = some t) : ts.find? (fun w => w.id = t.id) = some t := by
  have hid : t.id = id := by simpa using List.find?_some h
  rw [hid]
  exact h

lemma Sound.killTask (h : s.Sound) (id : Nat) (owner : Int) (wizard : Bool) :
    (s.killTask id owner wizard).Sound := by
  unfold TaskState.killTask
  split
  · rename_i t ht
    split
    · exact h.killWaiting (find_id ht)
    · exact h
  · split
    · rename_i n hn
      have hmem : n ∈ s.members := mem_members_of_idle (List.mem_of_find?_eq_some hn)
      split
      · exact h.modify hmem fun _ => ⟨rfl, rfl⟩
      · exact h
    · rename_i n _ hn
      have hact : n ∈ s.active := List.mem_of_find?_eq_some hn
      split
      · exact h
      · split
        · exact h.modify (mem_members_of_active hact) fun _ => ⟨rfl, rfl⟩
        · split
          · rename_i t ht
            exact h.killBg hact (find_id ht)
          · exact h
    · split
      · rename_i t ht
        split
        · exact h.killExternal (find_id ht)
        · exact h
      · exact h

/-! ### Connections and input -/

/-- A queue that is activated if there is work for it. -/
lemma Sound.ite_ensureUsage (h : s.Sound) (hn : n ∈ s.members) {c : Prop} {_ : Decidable c} :
    (if c then s.ensureUsage n else s).Sound := by
  by_cases hc : c
  · rw [if_pos hc]
    exact h.ensureUsage hn
  · rw [if_neg hc]
    exact h

lemma Sound.enqueueInput (h : s.Sound) (hn : n ∈ s.members) (c : InputTask) (atFront : Bool) :
    (s.enqueueInput n c atFront).Sound := by
  unfold TaskState.enqueueInput
  dsimp only
  apply Sound.ite_ensureUsage
  · exact h.modify hn fun _ => ⟨rfl, rfl⟩
  · exact hn

lemma Sound.freeTaskQueue (h : s.Sound) (hn : n ∈ s.members) : (s.freeTaskQueue n).Sound := by
  unfold TaskState.freeTaskQueue
  dsimp only
  apply Sound.ite_ensureUsage
  · exact h.modify hn fun _ => ⟨rfl, rfl⟩
  · exact hn

lemma Sound.setHoldInput (h : s.Sound) (hn : n ∈ s.members) (value : Bool) :
    (s.setHoldInput n value).Sound := by
  unfold TaskState.setHoldInput
  dsimp only
  apply Sound.ite_ensureUsage
  · exact h.modify hn fun _ => ⟨rfl, rfl⟩
  · exact hn

lemma Sound.setDisableOob (h : s.Sound) (hn : n ∈ s.members) (value : Bool) :
    (s.setDisableOob n value).Sound := by
  unfold TaskState.setDisableOob
  dsimp only
  apply Sound.ite_ensureUsage
  · exact h.modify hn fun _ => ⟨rfl, rfl⟩
  · exact hn

lemma Sound.makeReadingTask (h : s.Sound) (player : Int) (id : Nat) :
    (s.makeReadingTask player id).Sound := by
  unfold TaskState.makeReadingTask
  cases hfind : s.findTqueue player with
  | none => exact h
  | some n =>
    have hn := (mem_members_of_findTqueue hfind).1
    dsimp only
    split
    · exact h
    · apply Sound.ite_ensureUsage
      · exact h.modify hn fun _ => ⟨rfl, rfl⟩
      · exact hn

lemma Sound.readInputNow (h : s.Sound) (player : Int) : (s.readInputNow player).Sound := by
  unfold TaskState.readInputNow
  cases hfind : s.findTqueue player with
  | none => exact h
  | some n => exact h.modify (mem_members_of_findTqueue hfind).1 fun _ => ⟨rfl, rfl⟩

/-- An event on the player's queue, which is created if there is none. -/
lemma Sound.on_findOrCreate (h : s.Sound) (player : Int) :
    (s.findOrCreate player).2.Sound ∧ (s.findOrCreate player).1 ∈ (s.findOrCreate player).2.members :=
  ⟨h.of_finds (findOrCreate_finds h.toWellFormed player),
    (findOrCreate_finds h.toWellFormed player).mem⟩

lemma Sound.newTaskQueue (h : s.Sound) (player : Int) : (s.newTaskQueue player).Sound := by
  obtain ⟨h₁, hn⟩ := h.on_findOrCreate player
  unfold TaskState.newTaskQueue
  apply h₁.modify hn
  exact fun _ => ⟨rfl, rfl⟩

lemma Sound.forceInput (h : s.Sound) (player : Int) (c : InputTask) (atFront : Bool) :
    (s.forceInput player c atFront).Sound := by
  obtain ⟨h₁, hn⟩ := h.on_findOrCreate player
  exact h₁.enqueueInput hn c atFront

lemma Sound.flushPlayer (h : s.Sound) (player : Int) : (s.flushPlayer player).Sound := by
  obtain ⟨h₁, hn⟩ := h.on_findOrCreate player
  unfold TaskState.flushPlayer
  apply h₁.modify hn
  exact fun _ => ⟨rfl, rfl⟩

/-! ### Scheduling rounds -/

lemma tail_dropWhile_ne {a : Nat} {l : List Nat} : ((a :: l).dropWhile (· ≠ a)).tail = l := by
  simp

lemma WellFormed.retireQueue (h : s.WellFormed) {l : List Nat} (hl : s.active = n :: l)
    (hr : s.running = none) : (s.retireQueue n).WellFormed ∧
      (s.retireQueue n).members.Perm s.members ∧ (s.retireQueue n).idle = n :: s.idle := by
  have hactive : (s.retireQueue n).active = l := by
    unfold TaskState.retireQueue
    rw [deactivateTqueue_active, hl]
    exact tail_dropWhile_ne
  have hmem : (s.retireQueue n).members.Perm s.members := by
    unfold members
    rw [hactive, hl]
    exact List.perm_middle.symm
  have hnodup := List.nodup_append.mp h.nodup
  have hnl : n ∉ l := by
    rw [hl] at hnodup
    exact (List.nodup_cons.mp hnodup.2.1).1
  have hold (m : Nat) (hm : m ≠ n) : (s.retireQueue n).queues m = s.queues m :=
    Function.update_of_ne hm _ _
  refine ⟨⟨hmem.nodup_iff.mpr h.nodup, fun m hm => ?_, fun m hm => ?_, fun m hm => ?_,
    fun m hm => h.fresh m (hmem.subset hm)⟩, hmem, rfl⟩
  · rcases List.mem_cons.mp hm with rfl | hm
    · unfold TaskState.retireQueue
      rw [deactivateTqueue_queues, Function.update_self]
    · rw [hold m]
      · exact h.idle_usage m hm
      · rintro rfl
        exact hnodup.2.2 m hm m (hl ▸ List.mem_cons_self) rfl
  · rw [hactive] at hm
    rw [hold m (by rintro rfl; exact hnl hm)]
    exact h.active_usage m (hl ▸ List.mem_cons_of_mem _ hm)
  · have hm : m ∈ s.running := hm
    rw [hr] at hm
    exact absurd hm (by simp)

/-- The first active queue starts to run a task. -/
lemma WellFormed.setRunning (h : s.WellFormed) (hn : s.active.head? = some n) :
    { s with running := some n }.WellFormed :=
  ⟨h.nodup, h.idle_usage, h.active_usage, fun m hm => by
    obtain rfl := Option.some.inj hm
    exact hn, h.fresh⟩

lemma Sound.setRunning (h : s.Sound) (hn : s.active.head? = some n) :
    { s with running := some n }.Sound :=
  ⟨h.toWellFormed.setRunning hn, h.idle_bg, h.tallied, h.born⟩

lemma Sound.dropBgTask (h : s.Sound) (hn : n ∈ s.active) {t : BgTask} {ts : List BgTask}
    (hbg : (s.queues n).bg = t :: ts) : ((s.dropBgTask n).die t).Sound := by
  refine h.of_die (h.toWellFormed.modify n fun _ => rfl)
    (idle_bg_modify h.toWellFormed h.idle_bg hn _) (fun x => ?_) rfl rfl
  have hmod := tally_modify h.toWellFormed (mem_members_of_active hn)
    (fun q => { q with bg := q.bg.tail, numBgTasks := q.numBgTasks - 1 }) x
  dsimp only at hmod
  rw [hbg, List.tail_cons, occurs_cons] at hmod
  unfold TaskState.dropBgTask
  omega

lemma Sound.pickTask (h : s.Sound) (hr : s.running = none) (did : Bool) : (s.pickTask did).Sound := by
  unfold TaskState.pickTask
  split
  · exact h
  · rename_i n l hl
    have hhead : s.active.head? = some n := by rw [hl]; rfl
    have hact : n ∈ s.active := hl ▸ List.mem_cons_self
    have hmem := mem_members_of_active hact
    dsimp only
    split
    · exact Sound.setRunning (h.modify hmem fun _ => ⟨rfl, rfl⟩) hhead
    · split
      · rename_i c _
        have h₁ : (s.modify n fun q => { q with
            lines := q.lines.eraseP (InputQueue.selects (selector q) q.disableOob) }).Sound :=
          h.modify hmem fun _ => ⟨rfl, rfl⟩
        split
        · exact h₁.setRunning hhead
        · split
          · exact Sound.setRunning (h₁.modify hmem fun _ => ⟨rfl, rfl⟩) hhead
          · split
            · exact h₁.setRunning hhead
            · exact h₁
      · split
        · rename_i t ts hbg
          exact (h.dropBgTask hact hbg).setRunning hhead
        · rename_i hbg
          obtain ⟨hw, hperm, hidle⟩ := h.toWellFormed.retireQueue hl hr
          have hbg' (m : Nat) : ((s.retireQueue n).queues m).bg = (s.queues m).bg := by
            unfold TaskState.retireQueue
            rw [deactivateTqueue_queues]
            by_cases hm : m = n
            · rw [hm, Function.update_self]
            · rw [Function.update_of_ne hm]
          refine h.of_tally_eq hw (fun m hm => ?_) (fun x => ?_) rfl rfl
          · rw [hbg']
            rw [hidle] at hm
            rcases List.mem_cons.mp hm with rfl | hm
            · exact hbg
            · exact h.idle_bg m hm
          · unfold tally
            simp only [hbg']
            rw [(hperm.map _).sum_eq]
            rfl

lemma finishTask_moves (h : s.WellFormed) (elapsed : Nat) :
    (s.finishTask elapsed).WellFormed ∧ (s.finishTask elapsed).members.Perm s.members ∧
      (s.finishTask elapsed).idle = s.idle ∧
      (∀ m, (s.finishTask elapsed).queues m
        = { s.queues m with usage := ((s.finishTask elapsed).queues m).usage }) ∧
      (s.finishTask elapsed).waiting = s.waiting ∧ (s.finishTask elapsed).external = s.external ∧
      (s.finishTask elapsed).live = s.live ∧ (s.finishTask elapsed).nextSerial = s.nextSerial := by
  unfold finishTask
  cases hr : s.running with
  | none => exact ⟨h, List.Perm.refl _, rfl, fun _ => rfl, rfl, rfl, rfl, rfl⟩
  | some n =>
    have hhead := h.running n hr
    obtain ⟨l, hl⟩ : ∃ l, s.active = n :: l := by
      cases hact : s.active with
      | nil =>
        rw [hact] at hhead
        exact absurd hhead (by simp)
      | cons a l =>
        rw [hact] at hhead
        exact ⟨l, by rw [Option.some.inj hhead]⟩
    dsimp only
    rw [hl, tail_dropWhile_ne]
    have hnodup := List.nodup_append.mp h.nodup
    have hnl : n ∉ l := by
      rw [hl] at hnodup
      exact (List.nodup_cons.mp hnodup.2.1).1
    generalize hq : Function.update s.queues n
      { s.queues n with usage := (s.queues n).usage + elapsed } = qs
    have hqn : qs n = { s.queues n with usage := (s.queues n).usage + elapsed } := by
      rw [← hq, Function.update_self]
    have hqm (m : Nat) (hm : m ≠ n) : qs m = s.queues m := by
      rw [← hq, Function.update_of_ne hm]
    generalize hs₁ : ({ s with queues := qs, active := l, running := none } : TaskState) = s₁
    have hactive : (activateTqueue n s₁).active.Perm (n :: l) := by
      rw [← hs₁]
      exact takeWhile_append_cons_dropWhile_perm _ _ _
    have hidle : (activateTqueue n s₁).idle = s.idle := by
      rw [← hs₁]
      rfl
    have hqueues : (activateTqueue n s₁).queues = qs := by
      rw [← hs₁]
      rfl
    have hmem : (activateTqueue n s₁).members.Perm s.members := by
      unfold members
      rw [hidle, hl]
      exact hactive.append_left _
    refine ⟨⟨hmem.nodup_iff.mpr h.nodup, fun m hm => ?_, fun m hm => ?_, fun m hm => ?_,
      fun m hm => ?_⟩, hmem, hidle, fun m => ?_, ?_, ?_, ?_, ?_⟩
    · rw [hqueues]
      rw [hidle] at hm
      rw [hqm m]
      · exact h.idle_usage m hm
      · rintro rfl
        exact hnodup.2.2 m hm m (hl ▸ List.mem_cons_self) rfl
    · rw [hqueues]
      rcases List.mem_cons.mp (hactive.subset hm) with rfl | hml
      · rw [hqn]
        have := h.active_usage m (hl ▸ List.mem_cons_self)
        change 0 ≤ (s.queues m).usage + elapsed
        omega
      · rw [hqm m (by rintro rfl; exact hnl hml)]
        exact h.active_usage m (hl ▸ List.mem_cons_of_mem _ hml)
    · rw [← hs₁] at hm
      exact absurd hm (by simp [activateTqueue])
    · have hlt := h.fresh m (hmem.subset hm)
      rw [← hs₁]
      exact hlt
    · rw [hqueues]
      by_cases hm : m = n
      · rw [hm, hqn]
      · rw [hqm m hm]
    all_goals
      rw [← hs₁]
      rfl

lemma Sound.finishTask (h : s.Sound) (elapsed : Nat) : (s.finishTask elapsed).Sound := by
  obtain ⟨hw, hperm, hidle, hqueues, hwait, hext, hlive, hserial⟩ :=
    finishTask_moves h.toWellFormed elapsed
  have hbg (m : Nat) : ((s.finishTask elapsed).queues m).bg = (s.queues m).bg := by
    rw [hqueues]
  refine h.of_tally_eq hw (fun m hm => ?_) (fun x => ?_) hlive hserial
  · rw [hbg]
    exact h.idle_bg m (hidle ▸ hm)
  · unfold tally
    simp only [hbg, hwait, hext]
    rw [(hperm.map _).sum_eq]

lemma WellFormed.freeQueues (h : s.WellFormed) : s.freeQueues.WellFormed := by
  have hsub : s.freeQueues.members.Sublist s.members :=
    List.filter_sublist.append_right _
  refine ⟨hsub.nodup h.nodup, fun m hm => ?_, h.active_usage, h.running,
    fun m hm => h.fresh m (hsub.subset hm)⟩
  exact h.idle_usage m (List.mem_of_mem_filter hm)

/-- A sum over a part of a list that leaves out zeros only. -/
lemma sum_map_filter {l : List Nat} {f : Nat → Nat} (p : Nat → Bool) (h : ∀ a ∈ l, f a = 0) :
    ((l.filter p).map f).sum = (l.map f).sum := by
  have hzero (l' : List Nat) (hl' : ∀ a ∈ l', f a = 0) : (l'.map f).sum = 0 := by
    rw [List.sum_eq_zero]
    intro x hx
    obtain ⟨a, ha, rfl⟩ := List.mem_map.mp hx
    exact hl' a ha
  rw [hzero l h, hzero _ fun a ha => h a (List.mem_of_mem_filter ha)]

lemma Sound.freeQueues (h : s.Sound) : s.freeQueues.Sound := by
  refine h.of_tally_eq h.toWellFormed.freeQueues
    (fun m hm => h.idle_bg m (List.mem_of_mem_filter hm)) (fun x => ?_) rfl rfl
  have hzero (m : Nat) (hm : m ∈ s.idle) : occurs x (s.queues m).bg = 0 := by
    rw [h.idle_bg m hm]
    rfl
  unfold tally members
  simp only [List.map_append, List.sum_append]
  have hfilter := sum_map_filter (fun n => (s.queues n).connected || !(s.queues n).lines.isEmpty
    || decide ((s.queues n).numBgTasks ≠ 0)) hzero
  change occurs x s.waiting + ((List.map (fun n => occurs x (s.queues n).bg)
    (s.idle.filter _)).sum + _) + _ = _
  rw [hfilter]
  rfl

/-! ### Logging in -/

lemma WellFormed.moveBg (h : s.WellFormed) (n m : Nat) : (s.moveBg n m).WellFormed := by
  unfold TaskState.moveBg
  apply WellFormed.modify
  · exact h.modify n fun _ => rfl
  · exact fun _ => rfl

lemma tally_moveBg (h : s.WellFormed) (hn : n ∈ s.members) (hm : m ∈ s.members) (x : Nat) :
    (s.moveBg n m).tally x = s.tally x := by
  have hfrom := tally_modify h hn (fun q => { q with bg := [], numBgTasks := 0 }) x
  have hw : (s.modify n fun q => { q with bg := [], numBgTasks := 0 }).WellFormed :=
    h.modify n fun _ => rfl
  have hto := tally_modify hw hm (fun q => { q with bg := q.bg ++ (s.queues n).bg }) x
  simp only [occurs_append, occurs_nil] at hfrom hto
  unfold moveBg
  dsimp only
  omega

lemma Sound.moveBg (h : s.Sound) (hn : n ∈ s.members) (hm : m ∈ s.members) (hnm : n ≠ m)
    (hb : (s.queues n).bg = [] ∨ m ∈ s.active) : (s.moveBg n m).Sound := by
  refine h.of_tally_eq (h.toWellFormed.moveBg n m) (fun k hk => ?_)
    (tally_moveBg h.toWellFormed hn hm) rfl rfl
  have hidle : (s.queues k).bg = [] := h.idle_bg k hk
  unfold TaskState.moveBg
  simp only [modify_queues]
  by_cases hkm : k = m
  · subst hkm
    rw [Function.update_self, Function.update_of_ne hnm.symm]
    rcases hb with hb | hact
    · rw [hidle, hb]
      rfl
    · exact absurd hk (h.toWellFormed.notMem_idle hact)
  · rw [Function.update_of_ne hkm, modify_queues]
    by_cases hkn : k = n
    · rw [hkn, Function.update_self]
    · rw [Function.update_of_ne hkn]
      exact hidle

/-- What `keepOldTasks` leaves alone. -/
lemma keepOldTasks_spec (h : s.Sound) (hn : n ∈ s.members) (oldPlayer : Int)
    (hne : (s.queues n).player ≠ oldPlayer)
    (hb : (s.queues n).numBgTasks ≠ 0 → (s.queues n).bg = []) :
    (s.keepOldTasks n oldPlayer).Sound ∧ (s.keepOldTasks n oldPlayer).active = s.active ∧
      ∀ m ∈ s.members, m ∈ (s.keepOldTasks n oldPlayer).members := by
  unfold keepOldTasks
  split
  · rename_i hnum
    have hf := findOrCreate_finds h.toWellFormed oldPlayer
    have h₁ := h.of_finds hf
    generalize s.findOrCreate oldPlayer = r at *
    obtain ⟨m, s₁⟩ := r
    dsimp only at hf h₁ ⊢
    obtain ⟨hn₁, hqn⟩ := hf.members n hn
    have hnm : n ≠ m := by
      rintro rfl
      exact hne (hqn ▸ hf.player)
    have h₂ : (s₁.modify m fun q => { q with numBgTasks := (s.queues n).numBgTasks }).Sound :=
      h₁.modify hf.mem fun _ => ⟨rfl, rfl⟩
    have hbg : ((s₁.modify m fun q => { q with numBgTasks := (s.queues n).numBgTasks }).queues n).bg
        = [] := by
      rw [modify_queues, Function.update_of_ne hnm, hqn]
      exact hb hnum
    exact ⟨h₂.moveBg hn₁ hf.mem hnm (Or.inl hbg), hf.active, fun k hk => (hf.members k hk).1⟩
  · exact ⟨h, rfl, fun _ hk => hk⟩

lemma Sound.takeOver (h : s.Sound) (hn : n ∈ s.active) (hm : m ∈ s.members) (hnm : m ≠ n) :
    (s.takeOver n m).Sound := by
  have hn' := mem_members_of_active hn
  have h₁ : (s.modify n fun q => { q with numBgTasks := (s.queues m).numBgTasks }).Sound :=
    h.modify hn' fun _ => ⟨rfl, rfl⟩
  have h₂ := h₁.moveBg hm hn' hnm (Or.inr hn)
  unfold TaskState.takeOver
  apply h₂.modify
  · exact hm
  · exact fun _ => ⟨rfl, rfl⟩

lemma mem_members_takeOver (hm : m ∈ s.members) : m ∈ (s.takeOver n m).members := hm

lemma Sound.redirect (h : s.Sound) (hn : n ∈ s.members) : (s.redirect n).Sound := by
  unfold TaskState.redirect
  split
  · exact h.freeTaskQueue hn
  · exact h

/-- A login that leaves no task behind: the connection has no background task that is ready
to run. -/
def LeavesNone (s : TaskState) (n : Nat) : Prop :=
  (s.queues n).numBgTasks ≠ 0 → (s.queues n).bg = []

lemma Sound.login (h : s.Sound) {newPlayer : Int} (hlog : s.canLogin n newPlayer)
    (hb : s.LeavesNone n) : (s.login n newPlayer).Sound := by
  obtain ⟨hrun, hold, -, hnew⟩ := hlog
  have hact : n ∈ s.active := List.mem_of_mem_head? (h.running n hrun)
  have hmem := mem_members_of_active hact
  have h₁ : (s.modify n fun q => { q with player := newPlayer }).Sound :=
    h.modify hmem fun _ => ⟨rfl, rfl⟩
  have hqn : (s.modify n fun q => { q with player := newPlayer }).queues n
      = { s.queues n with player := newPlayer } := Function.update_self _ _ _
  have hspec := keepOldTasks_spec h₁ hmem (s.queues n).player
    (by rw [hqn]; change newPlayer ≠ _; omega) (by rw [hqn]; exact hb)
  unfold TaskState.login
  dsimp only
  generalize TaskState.keepOldTasks n (s.queues n).player _ = s₂ at *
  obtain ⟨h₂, hact₂, hmem₂⟩ := hspec
  cases hdead : s.findTqueue newPlayer with
  | none => exact h₂
  | some d =>
    obtain ⟨hd, hpd⟩ := mem_members_of_findTqueue hdead
    have hdn : d ≠ n := by
      rintro rfl
      omega
    exact (h₂.takeOver (hact₂ ▸ hact) (hmem₂ d hd) hdn).redirect (mem_members_takeOver (hmem₂ d hd))

/-! ### Runs -/

/-- The event, in a state, does not make the scheduler lose sight of a task. -/
def Keeps (s : TaskState) : TaskEvent → Prop
  | .login n newPlayer => s.canLogin n newPlayer → s.LeavesNone n
  | _ => True

instance (s : TaskState) (n : Nat) : Decidable (s.LeavesNone n) :=
  inferInstanceAs (Decidable (_ → _))

instance (s : TaskState) : ∀ e : TaskEvent, Decidable (s.Keeps e)
  | .login n newPlayer => inferInstanceAs (Decidable (s.canLogin n newPlayer → s.LeavesNone n))
  | .addTask .. | .addExternal .. | .resumeTask .. | .doResume .. | .killTask .. | .newTaskQueue ..
  | .freeTaskQueue .. | .enqueueInput .. | .forceInput .. | .flushPlayer .. | .makeReadingTask ..
  | .readInputNow .. | .setHoldInput .. | .setDisableOob .. | .releaseTasks .. | .pickTask ..
  | .finishTask .. | .freeQueues => inferInstanceAs (Decidable True)

lemma Sound.step (h : s.Sound) {e : TaskEvent} (hk : s.Keeps e) : (s.step e).Sound := by
  cases e with
  | addTask kind id progr startTime limit => exact h.addTask kind id progr startTime limit
  | addExternal id progr => exact h.addExternal id progr
  | resumeTask i => exact h.resumeTask i
  | doResume id now progr wizard => exact h.doResume id now progr wizard
  | killTask id owner wizard => exact h.killTask id owner wizard
  | newTaskQueue player =>
    unfold TaskState.step
    dsimp only
    split
    · exact h.newTaskQueue player
    · exact h
  | freeTaskQueue n =>
    unfold TaskState.step
    dsimp only
    split
    · exact h.freeTaskQueue ‹_›
    · exact h
  | enqueueInput n c atFront =>
    unfold TaskState.step
    dsimp only
    split
    · exact h.enqueueInput ‹_› c atFront
    · exact h
  | forceInput player c atFront => exact h.forceInput player c atFront
  | flushPlayer player => exact h.flushPlayer player
  | makeReadingTask player id => exact h.makeReadingTask player id
  | readInputNow player => exact h.readInputNow player
  | setHoldInput n value =>
    unfold TaskState.step
    dsimp only
    split
    · exact h.setHoldInput ‹_› value
    · exact h
  | setDisableOob n value =>
    unfold TaskState.step
    dsimp only
    split
    · exact h.setDisableOob ‹_› value
    · exact h
  | releaseTasks now =>
    unfold TaskState.step
    dsimp only
    split
    · exact h.releaseTasks now _ rfl
    · exact h
  | pickTask did =>
    unfold TaskState.step
    dsimp only
    split
    · exact h.pickTask ‹_› did
    · exact h
  | login n newPlayer =>
    unfold TaskState.step
    dsimp only
    split
    · rename_i hlog
      exact h.login hlog (hk hlog)
    · exact h
  | finishTask elapsed => exact h.finishTask elapsed
  | freeQueues => exact h.freeQueues

/-- How often a task occurs where `run_ready_tasks`, `kill_task`, `queued_tasks` and
`write_task_queue` look: among the waiting tasks, in the background lists of the active
queues and in the registered queues. -/
def places (s : TaskState) (x : Nat) : Nat :=
  occurs x s.waiting + (s.active.map fun n => occurs x (s.queues n).bg).sum + occurs x s.external

lemma Sound.places_eq (h : s.Sound) (x : Nat) : s.places x = s.tally x := by
  have hidle : (s.idle.map fun n => occurs x (s.queues n).bg).sum = 0 := by
    rw [List.sum_eq_zero]
    intro k hk
    obtain ⟨n, hn, rfl⟩ := List.mem_map.mp hk
    rw [h.idle_bg n hn]
    rfl
  unfold places tally members
  rw [List.map_append, List.sum_append, hidle, Nat.zero_add]

/-- In a run in which no connection logs in while tasks of its own are ready to run, every
forked or suspended task that has neither run nor been killed is in exactly one place. -/
theorem live_task_placed (es : List TaskEvent) (h : AllSteps Keeps init es) (x : Nat) :
    (run es).places x = if (run es).live x then 1 else 0 := by
  have hs : (run es).Sound := run_induction sound_init (fun _ _ hs hk => hs.step hk) h
  rw [hs.places_eq, hs.tallied]

/-- A fork, a round that runs it, and a login in between on another connection. -/
theorem live_task_placed_login :
    (run [.newTaskQueue (-2), .addTask .forked 7 3 0 (-1), .enqueueInput 0 ⟨.inband, [99, 111], 2⟩ false,
      .releaseTasks 0, .pickTask true, .login 0 5]).places 0 = 1 := by
  refine (live_task_placed _ ?_ 0).trans ?_
  · decide
  · decide

/-- A connection that logs in while a task of its own is ready: the task is alive and
nowhere to be found. -/
theorem login_hides_task :
    ¬ ∀ (es : List TaskEvent) (x : Nat), (run es).places x = if (run es).live x then 1 else 0 := by
  intro h
  have hrun := h [.newTaskQueue (-2), .addTask .forked 7 (-2) 0 (-1),
    .enqueueInput 0 ⟨.inband, [99, 111], 2⟩ false, .releaseTasks 0, .pickTask true, .login 0 5] 0
  exact absurd hrun (by decide)

end TaskState

end LambdaMOO
