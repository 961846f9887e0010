import LambdaMOO.Tasks.Queues

/-!
# The waiting tasks

The list of waiting tasks is sorted by the times at which they start, and tasks with the same
time are in the order in which they came. A round of the scheduler takes exactly those that are due
off its front and appends them, in this order, to the background lists of their players.
-/

namespace LambdaMOO

/-- `t` starts before `u`, or at the same time and came before it. -/
def BgTask.Before (t u : BgTask) : Prop :=
  t.startTime < u.startTime ∨ t.startTime = u.startTime ∧ t.serial < u.serial

namespace TaskState

variable {s s' : TaskState} {n : Nat}

/-! ### Insertion -/

/-- The loop of `enqueue_waiting` behind a task that starts no later. -/
def insertBehind (t : BgTask) : List BgTask → List BgTask
  | [] => [t]
  | w :: ws => if t.startTime < w.startTime then t :: w :: ws else w :: insertBehind t ws

/-- How `enqueue_waiting` puts a task on the list: in front, or behind a task. -/
def spliceWaiting (t : BgTask) : List BgTask → List BgTask
  | [] => [t]
  | w :: ws => if t.startTime < w.startTime then t :: w :: ws else w :: insertBehind t ws

lemma insertBehind_eq (t : BgTask) (ts : List BgTask) : insertBehind t ts = insertWaiting t ts := by
  induction ts with
  | nil => rfl
  | cons w ws ih =>
    rw [insertBehind, insertWaiting, List.takeWhile_cons, List.dropWhile_cons]
    by_cases hlt : t.startTime < w.startTime
    · rw [if_pos hlt, if_neg (by simpa using hlt), if_neg (by simpa using hlt)]
      rfl
    · rw [if_neg hlt, if_pos (by simpa using hlt), if_pos (by simpa using hlt), ih]
      rfl

lemma spliceWaiting_eq (t : BgTask) (ts : List BgTask) :
    spliceWaiting t ts = insertWaiting t ts := by
  rw [← insertBehind_eq]
  cases ts <;> rfl

/-- The tasks are in order, and the next one comes after all of them. -/
structure WaitsInOrder (s : TaskState) : Prop where
  sorted : s.waiting.Pairwise BgTask.Before
  fresh : ∀ t ∈ s.waiting, t.serial < s.nextSerial

lemma le_of_mem_takeWhile {t u : BgTask} {ts : List BgTask}
    (hu : u ∈ ts.takeWhile fun w => w.startTime ≤ t.startTime) : u.startTime ≤ t.startTime := by
  simpa using List.mem_takeWhile_imp hu

lemma lt_of_mem_dropWhile_waiting {t u : BgTask} {ts : List BgTask}
    (hts : ts.Pairwise BgTask.Before) (hu : u ∈ ts.dropWhile fun w => w.startTime ≤ t.startTime) :
    t.startTime < u.startTime := by
  induction ts with
  | nil => exact absurd hu List.not_mem_nil
  | cons w ws ih =>
    obtain ⟨hw, hws⟩ := List.pairwise_cons.mp hts
    rw [List.dropWhile_cons] at hu
    split at hu
    · exact ih hws hu
    · rename_i hlt
      have hlt : t.startTime < w.startTime := by simpa using hlt
      rcases List.mem_cons.mp hu with rfl | hu
      · exact hlt
      · rcases hw u hu with h | h <;> omega

lemma insertWaiting_sorted {t : BgTask} {ts : List BgTask} (hts : ts.Pairwise BgTask.Before)
    (hfresh : ∀ u ∈ ts, u.serial < t.serial) : (insertWaiting t ts).Pairwise BgTask.Before := by
  have hsplit : ts.takeWhile (fun w => w.startTime ≤ t.startTime)
      ++ ts.dropWhile (fun w => w.startTime ≤ t.startTime) = ts := List.takeWhile_append_dropWhile
  have hpair := hts
  rw [← hsplit, List.pairwise_append] at hpair
  obtain ⟨htake, hdrop, hcross⟩ := hpair
  rw [insertWaiting, List.pairwise_append]
  refine ⟨htake, List.pairwise_cons.mpr ⟨fun u hu => ?_, hdrop⟩, fun u hu v hv => ?_⟩
  · exact .inl (lt_of_mem_dropWhile_waiting hts hu)
  · rcases List.mem_cons.mp hv with rfl | hv
    · have hle := le_of_mem_takeWhile hu
      have hmem := (List.takeWhile_prefix _).subset hu
      by_cases heq : u.startTime = v.startTime
      · exact .inr ⟨heq, hfresh u hmem⟩
      · exact .inl (by omega)
    · exact hcross u hu v hv

/-! ### Events that put nothing on the list -/

/-- Tasks have left the list, at most. -/
def Leaves (s s' : TaskState) : Prop :=
  s'.waiting.Sublist s.waiting ∧ s.nextSerial ≤ s'.nextSerial

lemma Leaves.refl (s : TaskState) : Leaves s s := ⟨List.Sublist.refl _, Nat.le_refl _⟩

lemma Leaves.trans {s'' : TaskState} (h : Leaves s s') (h' : Leaves s' s'') : Leaves s s'' :=
  ⟨h'.1.trans h.1, h.2.trans h'.2⟩

lemma Leaves.of_eq (hw : s'.waiting = s.waiting) (hn : s'.nextSerial = s.nextSerial) :
    Leaves s s' :=
  ⟨hw ▸ List.Sublist.refl _, hn.ge⟩

lemma Leaves.waitsInOrder (h : Leaves s s') (hs : s.WaitsInOrder) : s'.WaitsInOrder :=
  ⟨hs.sorted.sublist h.1, fun t ht => (hs.fresh t (h.1.subset ht)).trans_le h.2⟩

lemma leaves_findOrCreate (player : Int) (s : TaskState) :
    Leaves s (s.findOrCreate player).2 := by
  unfold findOrCreate
  split
  · exact .refl s
  · exact .of_eq rfl rfl

lemma leaves_ensureUsage (n : Nat) (s : TaskState) : Leaves s (s.ensureUsage n) := by
  unfold ensureUsage
  split
  · exact .of_eq rfl rfl
  · exact .refl s

lemma leaves_ite {c : Prop} {_ : Decidable c} (h : Leaves s s') :
    Leaves s (if c then s' else s) := by
  split
  · exact h
  · exact .refl s

lemma leaves_activated (n : Nat) {c : Prop} {_ : Decidable c} (h : Leaves s s') :
    Leaves s (if c then s'.ensureUsage n else s') :=
  h.trans (leaves_ite (leaves_ensureUsage n s'))

lemma leaves_resumeTask (i : Nat) (s : TaskState) : Leaves s (s.resumeTask i) := by
  unfold resumeTask
  split
  · exact .refl s
  · rename_i t _
    have hfind := leaves_findOrCreate t.progr { s with external := s.external.eraseIdx i }
    exact (hfind.trans (.of_eq rfl rfl)).trans (leaves_ensureUsage _ _)

lemma leaves_doResume (id : Nat) (now progr : Int) (wizard : Bool) (s : TaskState) :
    Leaves s (s.doResume id now progr wizard) := by
  unfold doResume
  split
  · exact .refl s
  · rename_i t _
    refine leaves_ite ?_
    have herase : Leaves s { s with waiting := s.waiting.eraseP (isSuspended id) } :=
      ⟨List.eraseP_sublist, Nat.le_refl _⟩
    exact ((herase.trans (leaves_findOrCreate t.progr _)).trans (leaves_ensureUsage _ _)).trans
      (.of_eq rfl rfl)

lemma leaves_killWaiting (t : BgTask) (s : TaskState) : Leaves s (s.killWaiting t) := by
  unfold killWaiting
  have herase : Leaves s { s with waiting := s.waiting.eraseP fun w => w.id = t.id } :=
    ⟨List.eraseP_sublist, Nat.le_refl _⟩
  split
  · exact herase.trans (.of_eq rfl rfl)
  · exact herase.trans (.of_eq rfl rfl)

lemma leaves_killTask (id : Nat) (owner : Int) (wizard : Bool) (s : TaskState) :
    Leaves s (s.killTask id owner wizard) := by
  unfold killTask
  split
  · exact leaves_ite (leaves_killWaiting _ s)
  · split
    · exact leaves_ite (.of_eq rfl rfl)
    · split
      · exact .refl s
      · split
        · exact .of_eq rfl rfl
        · split
          · exact .of_eq rfl rfl
          · exact .refl s
    · split
      · exact leaves_ite (.of_eq rfl rfl)
      · exact .refl s

/-- What the first loop of `run_ready_tasks` does with a task that is due. -/
def releaseTask (t : BgTask) (s : TaskState) : TaskState :=
  ((s.findOrCreate t.progr).2.ensureUsage (s.findOrCreate t.progr).1).enqueueBgTask
    (s.findOrCreate t.progr).1 t

lemma releaseTasks_cons (now : Int) (t : BgTask) (ts : List BgTask) (s : TaskState) :
    releaseTasks now (t :: ts) s = if t.startTime ≤ now
      then releaseTasks now ts (releaseTask t { s with waiting := ts })
      else { s with waiting := t :: ts } := rfl

lemma nextSerial_releaseTask (t : BgTask) (s : TaskState) :
    s.nextSerial ≤ (s.releaseTask t).nextSerial :=
  ((leaves_findOrCreate t.progr s).trans (leaves_ensureUsage (s.findOrCreate t.progr).1 _)).2

/-- The first loop of `run_ready_tasks` leaves the rest of the list from the first task that is not
due. -/
lemma waiting_releaseTasks (now : Int) (ts : List BgTask) (s : TaskState) :
    (s.releaseTasks now ts).waiting = ts.dropWhile (fun t => t.startTime ≤ now) ∧
      s.nextSerial ≤ (s.releaseTasks now ts).nextSerial := by
  induction ts generalizing s with
  | nil => exact ⟨rfl, Nat.le_refl _⟩
  | cons t ts ih =>
    rw [releaseTasks_cons, List.dropWhile_cons]
    by_cases hdue : t.startTime ≤ now
    · rw [if_pos hdue, if_pos (by simpa using hdue)]
      obtain ⟨hwait, hserial⟩ := ih (releaseTask t { s with waiting := ts })
      exact ⟨hwait, (nextSerial_releaseTask t { s with waiting := ts }).trans hserial⟩
    · rw [if_neg hdue, if_neg (by simpa using hdue)]
      exact ⟨rfl, Nat.le_refl _⟩

lemma leaves_releaseTasks (now : Int) (s : TaskState) :
    Leaves s (s.releaseTasks now s.waiting) := by
  obtain ⟨hwait, hserial⟩ := waiting_releaseTasks now s.waiting s
  exact ⟨hwait ▸ List.dropWhile_sublist _, hserial⟩

lemma leaves_pickTask (did : Bool) (s : TaskState) : Leaves s (s.pickTask did) := by
  unfold pickTask
  split
  · exact .refl s
  · dsimp only
    split
    · exact .of_eq rfl rfl
    · split
      · split_ifs <;> exact .of_eq rfl rfl
      · split <;> exact .of_eq rfl rfl

lemma leaves_login (n : Nat) (newPlayer : Int) (s : TaskState) :
    Leaves s (s.login n newPlayer) := by
  have hkeep : ∀ (s : TaskState) oldPlayer, Leaves s (s.keepOldTasks n oldPlayer) := by
    intro s oldPlayer
    unfold keepOldTasks
    exact leaves_ite ((leaves_findOrCreate oldPlayer s).trans (.of_eq rfl rfl))
  have hfirst : Leaves s ((s.modify n fun q => { q with player := newPlayer }).keepOldTasks n
      (s.queues n).player) :=
    (Leaves.of_eq rfl rfl).trans (hkeep _ _)
  unfold login
  dsimp only
  split
  · refine (hfirst.trans (.of_eq rfl rfl)).trans (?_ : Leaves (takeOver n _ _) _)
    unfold redirect freeTaskQueue
    exact leaves_ite ((Leaves.of_eq rfl rfl).trans (leaves_ite (leaves_ensureUsage _ _)))
  · exact hfirst

lemma leaves_finishTask (elapsed : Nat) (s : TaskState) : Leaves s (s.finishTask elapsed) := by
  unfold finishTask
  split
  · exact .refl s
  · exact .of_eq rfl rfl

lemma leaves_makeReadingTask (player : Int) (id : Nat) (s : TaskState) :
    Leaves s (s.makeReadingTask player id) := by
  unfold makeReadingTask
  split
  · exact .refl s
  · split
    · exact .refl s
    · exact leaves_activated _ (.of_eq rfl rfl)

lemma leaves_readInputNow (player : Int) (s : TaskState) :
    Leaves s (s.readInputNow player) := by
  unfold readInputNow
  split
  · exact .refl s
  · exact .of_eq rfl rfl

/-- Only a fork or a suspension puts a task on the list. -/
lemma leaves_step (s : TaskState) {e : TaskEvent}
    (he : ∀ kind id progr startTime limit, e ≠ .addTask kind id progr startTime limit) :
    Leaves s (s.step e) := by
  cases e with
  | addTask kind id progr startTime limit => exact absurd rfl (he _ _ _ _ _)
  | addExternal id progr => exact ⟨List.Sublist.refl _, Nat.le_succ _⟩
  | resumeTask i => exact leaves_resumeTask i s
  | doResume id now progr wizard => exact leaves_doResume id now progr wizard s
  | killTask id owner wizard => exact leaves_killTask id owner wizard s
  | newTaskQueue player =>
    exact leaves_ite ((leaves_findOrCreate player s).trans (.of_eq rfl rfl))
  | freeTaskQueue n => exact leaves_ite (leaves_activated n (.of_eq rfl rfl))
  | enqueueInput n c atFront => exact leaves_ite (leaves_activated n (.of_eq rfl rfl))
  | forceInput player c atFront =>
    exact (leaves_findOrCreate player s).trans (leaves_activated _ (.of_eq rfl rfl))
  | flushPlayer player => exact (leaves_findOrCreate player s).trans (.of_eq rfl rfl)
  | makeReadingTask player id => exact leaves_makeReadingTask player id s
  | readInputNow player => exact leaves_readInputNow player s
  | setHoldInput n value => exact leaves_ite (leaves_activated n (.of_eq rfl rfl))
  | setDisableOob n value => exact leaves_ite (leaves_activated n (.of_eq rfl rfl))
  | releaseTasks now => exact leaves_ite (leaves_releaseTasks now s)
  | pickTask did => exact leaves_ite (leaves_pickTask did s)
  | login n newPlayer => exact leaves_ite (leaves_login n newPlayer s)
  | finishTask elapsed => exact leaves_finishTask elapsed s
  | freeQueues => exact .of_eq rfl rfl

/-! ### Runs -/

lemma enqueueWaiting_waiting (t : BgTask) (s : TaskState) :
    (s.enqueueWaiting t).waiting = insertWaiting t s.waiting ∧
      (s.enqueueWaiting t).nextSerial = s.nextSerial := by
  have hfind : (s.findOrCreate t.progr).2.waiting = s.waiting ∧
      (s.findOrCreate t.progr).2.nextSerial = s.nextSerial := by
    rcases findOrCreate_cases s t.progr with ⟨n, -, -, -, heq⟩ | ⟨-, heq⟩
    · rw [heq]
      exact ⟨rfl, rfl⟩
    · rw [heq]
      exact ⟨rfl, rfl⟩
  rw [← hfind.1]
  exact ⟨rfl, hfind.2⟩

lemma WaitsInOrder.addTask (h : s.WaitsInOrder) (kind : BgKind) (id : Nat)
    (progr startTime limit : Int) :
    (s.addTask kind id progr startTime limit).WaitsInOrder := by
  unfold TaskState.addTask
  split
  · obtain ⟨hwait, hserial⟩ := enqueueWaiting_waiting (s.newTask kind id progr startTime) s
    refine ⟨?_, fun t ht => ?_⟩
    · change (s.enqueueWaiting (s.newTask kind id progr startTime)).waiting.Pairwise _
      rw [hwait]
      exact insertWaiting_sorted h.sorted h.fresh
    · change t ∈ (s.enqueueWaiting (s.newTask kind id progr startTime)).waiting at ht
      change t.serial < (s.enqueueWaiting (s.newTask kind id progr startTime)).nextSerial + 1
      rw [hserial]
      rw [hwait, (insertWaiting_perm _ s.waiting).mem_iff] at ht
      rcases List.mem_cons.mp ht with rfl | ht
      · exact Nat.lt_succ_self _
      · exact Nat.lt_succ_of_lt (h.fresh t ht)
  · exact h

lemma WaitsInOrder.step (h : s.WaitsInOrder) (e : TaskEvent) : (s.step e).WaitsInOrder := by
  by_cases he : ∃ kind id progr startTime limit, e = .addTask kind id progr startTime limit
  · obtain ⟨kind, id, progr, startTime, limit, rfl⟩ := he
    exact h.addTask kind id progr startTime limit
  · exact (leaves_step s fun kind id progr startTime limit heq =>
      he ⟨kind, id, progr, startTime, limit, heq⟩).waitsInOrder h

lemma waitsInOrder_run (es : List TaskEvent) : (run es).WaitsInOrder := by
  induction es using List.reverseRecOn with
  | nil => exact ⟨List.Pairwise.nil, by rintro _ ⟨⟩⟩
  | append_singleton es e ih =>
    rw [run_concat]
    exact ih.step e

/-- On a list in order the tasks that are due are those up to the first that is not. -/
lemma dropWhile_due (now : Int) {ts : List BgTask} (hts : ts.Pairwise BgTask.Before) :
    ts.dropWhile (fun t => t.startTime ≤ now) = ts.filter (fun t => now < t.startTime) ∧
      ts.takeWhile (fun t => t.startTime ≤ now) = ts.filter (fun t => t.startTime ≤ now) := by
  induction ts with
  | nil => exact ⟨rfl, rfl⟩
  | cons t ts ih =>
    obtain ⟨ht, hts⟩ := List.pairwise_cons.mp hts
    obtain ⟨hdrop, htake⟩ := ih hts
    rw [List.dropWhile_cons, List.takeWhile_cons, List.filter_cons, List.filter_cons]
    by_cases hdue : t.startTime ≤ now
    · have hnot : ¬ now < t.startTime := by omega
      simp [hdue, hnot, hdrop, htake]
    · have hlate : now < t.startTime := by omega
      have hrest : ∀ u ∈ ts, now < u.startTime := fun u hu => by
        rcases ht u hu with h | h <;> omega
      have hall : ts.filter (fun u => now < u.startTime) = ts :=
        List.filter_eq_self.mpr fun u hu => by simpa using hrest u hu
      have hnone : ts.filter (fun u => u.startTime ≤ now) = [] :=
        List.filter_eq_nil_iff.mpr fun u hu => by simpa using hrest u hu
      simp [hdue, hlate, hall, hnone]

/-! ### The background lists of the players -/

/-- The background list of the queue `find_tqueue` finds for the player. -/
def bgOf (p : Int) (s : TaskState) : List BgTask :=
  (s.findTqueue p).elim [] fun n => (s.queues n).bg

lemma wellFormed_of_ordered (h : s.lists.Ordered) : s.WellFormed :=
  ⟨h.nodup, h.idle_usage, h.active_usage, h.running, h.fresh⟩

lemma find?_erase_of_not {q : Nat → Bool} {l : List Nat} (hn : q n = false) :
    (l.erase n).find? q = l.find? q := by
  induction l with
  | nil => rfl
  | cons m l ih =>
    rw [List.erase_cons]
    split
    · rename_i heq
      rw [List.find?_cons_of_neg (by simpa [beq_iff_eq.mp heq] using hn)]
    · rw [List.find?_cons, List.find?_cons, ih]

lemma find?_insert {q r : Nat → Bool} {l : List Nat} (hn : q n = false) :
    (l.takeWhile r ++ n :: l.dropWhile r).find? q = l.find? q := by
  rw [List.find?_append, List.find?_cons_of_neg (by simpa using hn), ← List.find?_append,
    List.takeWhile_append_dropWhile]

lemma find?_congr_mem {q r : Nat → Bool} {l : List Nat} (h : ∀ m ∈ l, q m = r m) :
    l.find? q = l.find? r := by
  induction l with
  | nil => rfl
  | cons m l ih =>
    rw [List.find?_cons, List.find?_cons, h m List.mem_cons_self,
      ih fun k hk => h k (List.mem_cons_of_mem m hk)]

lemma findTqueue_congr (hp : ∀ n, (s'.queues n).player = (s.queues n).player) (p : Int)
    (hfind : (s'.active ++ s'.idle).find? (fun n => (s.queues n).player = p)
      = (s.active ++ s.idle).find? (fun n => (s.queues n).player = p)) :
    s'.findTqueue p = s.findTqueue p := by
  unfold findTqueue
  simp only [hp]
  exact hfind

/-- Activating the queue that is found for a player does not change which queue is found for
anybody. -/
lemma findTqueue_ensureUsage (h : s.lists.Ordered) {player : Int}
    (hn : s.findTqueue player = some n) (p : Int) :
    (s.ensureUsage n).findTqueue p = s.findTqueue p := by
  obtain ⟨hmem, hplayer⟩ := mem_members_of_findTqueue hn
  obtain ⟨hmoves, -⟩ := ensureUsage_spec (wellFormed_of_ordered h) hmem
  refine findTqueue_congr hmoves.player p ?_
  unfold ensureUsage
  split
  · rename_i husage
    have hidle : n ∈ s.idle := by
      refine (List.mem_append.mp hmem).resolve_right fun hact => ?_
      have hpos : 0 ≤ (s.queues n).usage := h.active_usage n hact
      rw [husage] at hpos
      exact absurd hpos (by decide)
    change ((s.active.takeWhile _ ++ n :: s.active.dropWhile _) ++ s.idle.erase n).find? _ = _
    by_cases hp : player = p
    · subst hp
      -- it was the first idle one, and no active one is the player's
      have hnone : s.active.find? (fun m => (s.queues m).player = player) = none := by
        cases hact : s.active.find? (fun m => (s.queues m).player = player) with
        | none => rfl
        | some m =>
          have heq : s.findTqueue player = some m := by
            rw [findTqueue, List.find?_append, hact]
            rfl
          rw [hn] at heq
          cases heq
          exact absurd (List.mem_of_find?_eq_some hact) (h.notMem_active hidle)
      have hall := List.find?_eq_none.mp hnone
      have hfirst : ∀ m ∈ s.active.takeWhile fun m =>
          (Function.update s.queues n { s.queues n with usage := s.firstUsage } m).usage
            ≤ (Function.update s.queues n { s.queues n with usage := s.firstUsage } n).usage,
          ¬ (decide ((s.queues m).player = player)) = true :=
        fun m hm => hall m ((List.takeWhile_prefix _).subset hm)
      rw [List.append_assoc, List.find?_append, List.find?_eq_none.mpr hfirst, Option.none_or,
        List.cons_append, List.find?_cons_of_pos (by simpa using hplayer)]
      exact hn.symm
    · have hnot : (fun m => decide ((s.queues m).player = p)) n = false :=
        decide_eq_false fun heq => hp (hplayer.symm.trans heq)
      rw [List.find?_append, find?_insert hnot, find?_erase_of_not hnot, ← List.find?_append]
  · rfl

/-- A queue that is created is found for its player and has no tasks. -/
lemma findOrCreate_bgOf (h : s.lists.Ordered) (player : Int) :
    (s.findOrCreate player).2.findTqueue player = some (s.findOrCreate player).1 ∧
      ∀ p, (s.findOrCreate player).2.bgOf p = s.bgOf p := by
  rcases findOrCreate_cases s player with ⟨n, -, -, hfind, heq⟩ | ⟨hnot, heq⟩
  · rw [heq]
    exact ⟨hfind, fun _ => rfl⟩
  · rw [heq]
    have hold : ∀ m ∈ s.members, (s.createQueue player).queues m = s.queues m := by
      intro m hm
      rw [createQueue_queues, Function.update_of_ne]
      rintro rfl
      exact absurd (h.fresh _ hm) (Nat.lt_irrefl _)
    have hnew : (s.createQueue player).queues s.nextQueue = newQueue player := by
      rw [createQueue_queues, Function.update_self]
    have hnone : s.findTqueue player = none := by
      refine List.find?_eq_none.mpr fun m hm => ?_
      have hm : m ∈ s.members := List.mem_append.mpr (List.mem_append.mp hm).symm
      simpa using hnot m hm
    -- the queue is the first of the idle ones
    have hsplit : ∀ p, (s.createQueue player).findTqueue p
        = if player = p then some s.nextQueue else s.findTqueue p := by
      intro p
      have hactive : s.active.find? (fun m => ((s.createQueue player).queues m).player = p)
          = s.active.find? (fun m => (s.queues m).player = p) :=
        find?_congr_mem fun m hm => by rw [hold m (List.mem_append_right _ hm)]
      have hidle : s.idle.find? (fun m => ((s.createQueue player).queues m).player = p)
          = s.idle.find? (fun m => (s.queues m).player = p) :=
        find?_congr_mem fun m hm => by rw [hold m (List.mem_append_left _ hm)]
      change (s.active ++ s.nextQueue :: s.idle).find? _ = _
      rw [List.find?_append, hactive]
      by_cases hp : player = p
      · subst hp
        rw [findTqueue, List.find?_append, Option.or_eq_none_iff] at hnone
        rw [hnone.1, Option.none_or, if_pos rfl, List.find?_cons_of_pos]
        rw [hnew]
        exact decide_eq_true rfl
      · rw [if_neg hp, List.find?_cons_of_neg, hidle, findTqueue, List.find?_append]
        rw [hnew]
        exact fun heq => hp (of_decide_eq_true heq)
    refine ⟨by rw [hsplit, if_pos rfl], fun p => ?_⟩
    rw [bgOf, hsplit]
    by_cases hp : player = p
    · subst hp
      rw [if_pos rfl, bgOf, hnone, Option.elim_some, hnew]
      rfl
    · rw [if_neg hp, bgOf]
      cases hfind : s.findTqueue p with
      | none => rfl
      | some m => simp only [Option.elim_some, hold m (mem_members_of_findTqueue hfind).1]

/-- A task that is released goes to the end of the list of its player. -/
lemma bgOf_releaseTask (h : s.lists.Ordered) (t : BgTask) (p : Int) :
    (s.releaseTask t).bgOf p = s.bgOf p ++ if t.progr = p then [t] else [] := by
  obtain ⟨hshifts, hmem⟩ := shifts_findOrCreate t.progr s
  obtain ⟨hfind, hbg⟩ := findOrCreate_bgOf h t.progr
  have hord := hshifts.ordered h
  obtain ⟨hmoves, -⟩ := ensureUsage_spec (wellFormed_of_ordered hord) hmem
  have hplayer := (mem_members_of_findTqueue hfind).2
  rw [← hbg p]
  unfold releaseTask
  generalize s.findOrCreate t.progr = r at *
  obtain ⟨n, s₁⟩ := r
  simp only at *
  have hqueues : ∀ m, ((s₁.ensureUsage n).enqueueBgTask n t).queues m
      = if m = n then { (s₁.ensureUsage n).queues n with
          bg := ((s₁.ensureUsage n).queues n).bg ++ [t] } else (s₁.ensureUsage n).queues m := by
    intro m
    rw [enqueueBgTask, modify_queues, Function.update_apply]
  have hfind' : ∀ p, ((s₁.ensureUsage n).enqueueBgTask n t).findTqueue p = s₁.findTqueue p := by
    intro p
    rw [← findTqueue_ensureUsage hord hfind p]
    refine findTqueue_congr (fun m => ?_) p rfl
    rw [hqueues]
    split_ifs with hm
    · rw [hm]
    · rfl
  rw [bgOf, bgOf, hfind']
  by_cases hp : t.progr = p
  · subst hp
    rw [hfind, if_pos rfl, Option.elim_some, Option.elim_some, hqueues, if_pos rfl, hmoves.bg]
  · rw [if_neg hp, List.append_nil]
    cases hother : s₁.findTqueue p with
    | none => rfl
    | some m =>
      have hm : m ≠ n := by
        rintro rfl
        exact hp (hplayer.symm.trans (mem_members_of_findTqueue hother).2)
      rw [Option.elim_some, Option.elim_some, hqueues, if_neg hm, hmoves.bg]

lemma ordered_releaseTask (h : s.lists.Ordered) (t : BgTask) : (s.releaseTask t).lists.Ordered :=
  (shifts_handOver h t.progr t).1.ordered h

lemma bgOf_releaseTasks (now : Int) (ts : List BgTask) (h : s.lists.Ordered) (p : Int) :
    (s.releaseTasks now ts).bgOf p
      = s.bgOf p ++ (ts.takeWhile (fun t => t.startTime ≤ now)).filter (fun t => t.progr = p) := by
  induction ts generalizing s with
  | nil => exact (List.append_nil _).symm
  | cons t ts ih =>
    rw [releaseTasks_cons, List.takeWhile_cons]
    by_cases hdue : t.startTime ≤ now
    · have h₁ : ({ s with waiting := ts } : TaskState).lists.Ordered := h
      rw [if_pos hdue, if_pos (by simpa using hdue), ih (ordered_releaseTask h₁ t),
        bgOf_releaseTask h₁ t p, List.append_assoc, List.filter_cons]
      congr 1
      by_cases hp : t.progr = p
      · rw [if_pos hp, if_pos (by simpa using hp)]
        rfl
      · rw [if_neg hp, if_neg (by simpa using hp)]
        rfl
    · rw [if_neg hdue, if_neg (by simpa using hdue)]
      exact (List.append_nil _).symm

/-- After every run the waiting tasks are sorted by the times at which they start, those of the same
time in the order in which they came; and a round at a time takes those that are due off the list,
which go in their order to the ends of their players' background lists. -/
theorem waiting_in_order (es : List TaskEvent) :
    (∀ t ts, spliceWaiting t ts = insertWaiting t ts) ∧
    (run es).waiting.Pairwise BgTask.Before ∧
    ((run es).running = none → ∀ now,
      ((run es).step (.releaseTasks now)).waiting
        = (run es).waiting.filter (fun t => now < t.startTime) ∧
      ∀ p, ((run es).step (.releaseTasks now)).bgOf p = (run es).bgOf p
        ++ (run es).waiting.filter fun t => t.startTime ≤ now ∧ t.progr = p) := by
  have hwaits := waitsInOrder_run es
  refine ⟨spliceWaiting_eq, hwaits.sorted, fun hrun now => ?_⟩
  obtain ⟨hdrop, htake⟩ := dropWhile_due now hwaits.sorted
  simp only [step, if_pos hrun]
  refine ⟨?_, fun p => ?_⟩
  · rw [(waiting_releaseTasks now _ _).1, hdrop]
  · rw [bgOf_releaseTasks now _ (ordered_run es) p, htake, List.filter_filter]
    congr 1
    exact List.filter_congr fun t _ => by simp [and_comm]

end TaskState

end LambdaMOO
