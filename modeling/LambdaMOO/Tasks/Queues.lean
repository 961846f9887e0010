import LambdaMOO.Tasks.Placement
import Mathlib.Algebra.Order.Ring.Int
import Mathlib.Data.List.Induction
import Mathlib.Data.List.TakeWhile
import Mathlib.Logic.Relation

/-!
# The idle and the active queues

What an event may do to the two lists of queues: create a queue, activate one behind the
first active queue and all that have used as much, start the first active queue, put it
back with more used, retire it, or free idle ones. The active list stays sorted by usage,
and no queue is lost or doubled.
-/

namespace LambdaMOO

/-- The two lists with the usage of each queue. -/
@[ext]
structure QueueLists where
  usage : Nat → Int
  idle : List Nat
  active : List Nat
  running : Option Nat
  nextQueue : Nat

namespace QueueLists

variable {q q' q'' : QueueLists} {n : Nat}

def members (q : QueueLists) : List Nat := q.idle ++ q.active

/-- Put a queue in front of the first active one with a greater usage. -/
def insert (n : Nat) (q : QueueLists) : QueueLists :=
  { q with
    active := q.active.takeWhile (fun m => q.usage m ≤ q.usage n)
      ++ n :: q.active.dropWhile (fun m => q.usage m ≤ q.usage n) }

def setUsage (n : Nat) (u : Int) (q : QueueLists) : QueueLists :=
  { q with usage := Function.update q.usage n u }

/-- The usage of the first active queue. -/
def firstUsage (q : QueueLists) : Int :=
  match q.active with
  | [] => 0
  | m :: _ => q.usage m

/-- One change of the lists, the freeing of queues apart. -/
inductive Shift : QueueLists → QueueLists → Prop
  | create (q : QueueLists) :
    Shift q { q.setUsage q.nextQueue noUsage with
      idle := q.nextQueue :: q.idle, nextQueue := q.nextQueue + 1 }
  | activate {q : QueueLists} {n : Nat} (hn : n ∈ q.idle) :
    Shift q (insert n { q.setUsage n q.firstUsage with idle := q.idle.erase n })
  | start {q : QueueLists} {n : Nat} (hn : q.active.head? = some n) :
    Shift q { q with running := some n }
  | retire {q : QueueLists} {n : Nat} {ns : List Nat} (hn : q.active = n :: ns)
      (hr : q.running = none) :
    Shift q { q.setUsage n noUsage with idle := n :: q.idle, active := ns }
  | finish {q : QueueLists} {n : Nat} {ns : List Nat} (hn : q.active = n :: ns) (elapsed : Nat) :
    Shift q (insert n { q.setUsage n (q.usage n + elapsed) with active := ns, running := none })

/-- Any number of changes. -/
abbrev Shifts : QueueLists → QueueLists → Prop := Relation.ReflTransGen Shift

/-- Each queue is on one of the lists, the active ones are sorted by their usage, and the
queue that is running is the first of them. -/
structure Ordered (q : QueueLists) : Prop where
  nodup : q.members.Nodup
  idle_usage : ∀ n ∈ q.idle, q.usage n = noUsage
  active_usage : ∀ n ∈ q.active, 0 ≤ q.usage n
  sorted : q.active.Pairwise fun n m => q.usage n ≤ q.usage m
  running : ∀ n ∈ q.running, q.active.head? = some n
  fresh : ∀ n ∈ q.members, n < q.nextQueue

/-- What the lists hold afterwards: what they held, and the queues created. -/
structure Grows (q q' : QueueLists) : Prop where
  le : q.nextQueue ≤ q'.nextQueue
  mem_iff : ∀ n, n ∈ q'.members ↔ n ∈ q.members ∨ (q.nextQueue ≤ n ∧ n < q'.nextQueue)

lemma Grows.refl (q : QueueLists) : q.Grows q :=
  ⟨Nat.le_refl _, fun n => ⟨Or.inl, fun h => h.resolve_right (by omega)⟩⟩

lemma Grows.trans (h : q.Grows q') (h' : q'.Grows q'') : q.Grows q'' := by
  refine ⟨Nat.le_trans h.le h'.le, fun n => ?_⟩
  have hle := h.le
  have hle' := h'.le
  rw [h'.mem_iff, h.mem_iff]
  constructor
  · rintro ((hn | hn) | hn)
    · exact .inl hn
    · exact .inr (by omega)
    · exact .inr (by omega)
  · rintro (hn | hn)
    · exact .inl (.inl hn)
    · by_cases hlt : n < q'.nextQueue
      · exact .inl (.inr ⟨hn.1, hlt⟩)
      · exact .inr (by omega)

lemma Grows.of_perm (h : q'.members.Perm q.members) (hq : q'.nextQueue = q.nextQueue) :
    q.Grows q' := by
  refine ⟨hq.ge, fun n => ?_⟩
  rw [h.mem_iff, hq]
  exact ⟨Or.inl, fun h => h.resolve_right (by omega)⟩

/-! ### Inserting into the active list -/

lemma insert_perm (n : Nat) (q : QueueLists) : (q.insert n).active.Perm (n :: q.active) :=
  TaskState.takeWhile_append_cons_dropWhile_perm _ _ _

/-- Behind the queues with at most a given usage, the usage is greater. -/
lemma lt_of_mem_dropWhile {usage : Nat → Int} {u : Int} {l : List Nat}
    (hl : l.Pairwise fun n m => usage n ≤ usage m) {m : Nat}
    (hm : m ∈ l.dropWhile fun k => usage k ≤ u) : u ≤ usage m := by
  induction l with
  | nil => exact absurd hm List.not_mem_nil
  | cons k l ih =>
    obtain ⟨hk, hl⟩ := List.pairwise_cons.mp hl
    rw [List.dropWhile_cons] at hm
    split at hm
    · exact ih hl hm
    · rename_i hu
      have hu : u < usage k := by simpa using hu
      rcases List.mem_cons.mp hm with rfl | hm
      · exact hu.le
      · exact hu.le.trans (hk m hm)

lemma insert_sorted (hl : q.active.Pairwise fun n m => q.usage n ≤ q.usage m) (n : Nat) :
    (q.insert n).active.Pairwise fun n m => q.usage n ≤ q.usage m := by
  have hle (m : Nat) (hm : m ∈ q.active.takeWhile fun m => q.usage m ≤ q.usage n) :
      q.usage m ≤ q.usage n := by
    simpa using List.mem_takeWhile_imp hm
  have hge (m : Nat) (hm : m ∈ q.active.dropWhile fun m => q.usage m ≤ q.usage n) :
      q.usage n ≤ q.usage m := lt_of_mem_dropWhile hl hm
  rw [insert, List.pairwise_append, List.pairwise_cons]
  refine ⟨hl.sublist (List.takeWhile_sublist _), ⟨hge, hl.sublist (List.dropWhile_sublist _)⟩, ?_⟩
  intro k hk m hm
  rcases List.mem_cons.mp hm with rfl | hm
  · exact hle k hk
  · exact (hle k hk).trans (hge m hm)

/-- A first queue that has used no more stays the first. -/
lemma head?_insert {m : Nat} (hm : q.active.head? = some m) (hle : q.usage m ≤ q.usage n) :
    (q.insert n).active.head? = some m := by
  cases hact : q.active with
  | nil =>
    rw [hact] at hm
    exact absurd hm (by simp)
  | cons k l =>
    rw [hact, List.head?_cons, Option.some.injEq] at hm
    subst hm
    rw [insert, hact, List.takeWhile_cons_of_pos (by simpa using hle)]
    rfl

/-! ### What a change keeps -/

lemma usage_setUsage {u : Int} {m : Nat} (hm : m ≠ n) : (q.setUsage n u).usage m = q.usage m :=
  Function.update_of_ne hm _ _

@[simp] lemma usage_setUsage_self (n : Nat) (u : Int) : (q.setUsage n u).usage n = u :=
  Function.update_self _ _ _

lemma Ordered.firstUsage_nonneg (h : q.Ordered) : 0 ≤ q.firstUsage := by
  unfold firstUsage
  cases hact : q.active with
  | nil => exact Int.le_refl 0
  | cons m l => exact h.active_usage m (by rw [hact]; exact List.mem_cons_self)

lemma Ordered.notMem_active (h : q.Ordered) (hn : n ∈ q.idle) : n ∉ q.active := fun ha =>
  (List.nodup_append.mp h.nodup).2.2 n hn n ha rfl

/-- A sorted list stays sorted when the usage of another queue changes. -/
lemma Ordered.sorted_setUsage (h : q.Ordered) {u : Int} {l : List Nat} (hl : l.Sublist q.active)
    (hn : n ∉ l) : l.Pairwise fun k m => (q.setUsage n u).usage k ≤ (q.setUsage n u).usage m := by
  refine (h.sorted.sublist hl).imp_of_mem fun hk hm hle => ?_
  rw [usage_setUsage (by rintro rfl; exact hn hk), usage_setUsage (by rintro rfl; exact hn hm)]
  exact hle

lemma Ordered.create (h : q.Ordered) :
    Ordered { q.setUsage q.nextQueue noUsage with
      idle := q.nextQueue :: q.idle, nextQueue := q.nextQueue + 1 } := by
  have hnot : q.nextQueue ∉ q.members := fun hmem => Nat.lt_irrefl _ (h.fresh _ hmem)
  have hold (m : Nat) (hm : m ∈ q.members) : (q.setUsage q.nextQueue noUsage).usage m = q.usage m :=
    usage_setUsage (by rintro rfl; exact hnot hm)
  refine ⟨List.nodup_cons.mpr ⟨hnot, h.nodup⟩, fun m hm => ?_, fun m hm => ?_, ?_, h.running,
    fun m hm => ?_⟩
  · rcases List.mem_cons.mp hm with rfl | hm
    · exact usage_setUsage_self _ _
    · exact (hold m (List.mem_append_left _ hm)).trans (h.idle_usage m hm)
  · exact (h.active_usage m hm).trans_eq (hold m (List.mem_append_right _ hm)).symm
  · exact h.sorted_setUsage (List.Sublist.refl _) fun hm => hnot (List.mem_append_right _ hm)
  · rcases List.mem_cons.mp hm with rfl | hm
    · exact Nat.lt_succ_self _
    · exact Nat.lt_succ_of_lt (h.fresh m hm)

lemma activate_perm (hn : n ∈ q.idle) :
    (insert n { q.setUsage n q.firstUsage with idle := q.idle.erase n }).members.Perm
      q.members := by
  set q₁ : QueueLists := { q.setUsage n q.firstUsage with idle := q.idle.erase n }
  have hperm : (insert n q₁).active.Perm (n :: q.active) := insert_perm n q₁
  calc (q.idle.erase n ++ (insert n q₁).active).Perm (q.idle.erase n ++ n :: q.active) :=
        hperm.append_left _
    _ |>.Perm (n :: q.idle.erase n ++ q.active) := List.perm_middle
    _ |>.Perm (q.idle ++ q.active) := (List.perm_cons_erase hn).symm.append_right _

lemma retire_perm {ns : List Nat} (hn : q.active = n :: ns) :
    (n :: q.idle ++ ns).Perm q.members := by
  rw [members, hn]
  exact List.perm_middle.symm

lemma finish_perm {ns : List Nat} (hn : q.active = n :: ns) (elapsed : Nat) :
    (insert n { q.setUsage n (q.usage n + elapsed) with
      active := ns, running := none }).active.Perm q.active :=
  hn ▸ insert_perm n _

lemma Ordered.activate (h : q.Ordered) (hn : n ∈ q.idle) :
    Ordered (insert n { q.setUsage n q.firstUsage with idle := q.idle.erase n }) := by
  have hnot := h.notMem_active hn
  set q₁ : QueueLists := { q.setUsage n q.firstUsage with idle := q.idle.erase n } with hq₁
  have hsorted : q₁.active.Pairwise fun k m => q₁.usage k ≤ q₁.usage m :=
    h.sorted_setUsage (List.Sublist.refl _) hnot
  have hperm : (insert n q₁).active.Perm (n :: q.active) := insert_perm n q₁
  have hmem : (insert n q₁).members.Perm q.members := activate_perm hn
  refine ⟨hmem.nodup_iff.mpr h.nodup, fun m hm => ?_, fun m hm => ?_, insert_sorted hsorted n,
    fun m hm => ?_, fun m hm => h.fresh m (hmem.subset hm)⟩
  · have hmn : m ≠ n := by
      rintro rfl
      exact (List.nodup_append.mp h.nodup).1.not_mem_erase hm
    exact (usage_setUsage hmn).trans (h.idle_usage m (List.mem_of_mem_erase hm))
  · rcases List.mem_cons.mp (hperm.subset hm) with rfl | hact
    · exact h.firstUsage_nonneg.trans_eq (usage_setUsage_self _ _).symm
    · have hmn : m ≠ n := by
        rintro rfl
        exact hnot hact
      exact (h.active_usage m hact).trans_eq (usage_setUsage hmn).symm
  · -- the running queue has used as much as the new one is given
    have hhead := h.running m hm
    have hmn : m ≠ n := by
      rintro rfl
      exact hnot (List.mem_of_mem_head? hhead)
    refine head?_insert hhead ?_
    rw [hq₁]
    simp only [usage_setUsage hmn, usage_setUsage_self]
    unfold firstUsage
    cases hact : q.active with
    | nil =>
      rw [hact] at hhead
      exact absurd hhead (by simp)
    | cons k l =>
      rw [hact, List.head?_cons, Option.some.injEq] at hhead
      exact (congrArg q.usage hhead.symm).le

lemma Ordered.retire (h : q.Ordered) {ns : List Nat} (hn : q.active = n :: ns)
    (hr : q.running = none) :
    Ordered { q.setUsage n noUsage with idle := n :: q.idle, active := ns } := by
  have hmem := retire_perm hn
  have hnodup := hmem.nodup_iff.mpr h.nodup
  have hnot : n ∉ q.idle ++ ns := (List.nodup_cons.mp hnodup).1
  have hold (m : Nat) (hm : m ∈ q.idle ++ ns) : (q.setUsage n noUsage).usage m = q.usage m :=
    usage_setUsage (by rintro rfl; exact hnot hm)
  refine ⟨hnodup, fun m hm => ?_, fun m hm => ?_, ?_, fun m hm => ?_,
    fun m hm => h.fresh m (hmem.subset hm)⟩
  · rcases List.mem_cons.mp hm with rfl | hm
    · exact usage_setUsage_self _ _
    · exact (hold m (List.mem_append_left _ hm)).trans (h.idle_usage m hm)
  · have hm' : m ∈ q.active := hn ▸ List.mem_cons_of_mem _ hm
    exact (h.active_usage m hm').trans_eq (hold m (List.mem_append_right _ hm)).symm
  · exact h.sorted_setUsage (hn ▸ List.sublist_cons_self n ns)
      fun hm => hnot (List.mem_append_right _ hm)
  · exact absurd (hr ▸ hm) (by simp)

lemma Ordered.finish (h : q.Ordered) {ns : List Nat} (hn : q.active = n :: ns) (elapsed : Nat) :
    Ordered (insert n { q.setUsage n (q.usage n + elapsed) with active := ns, running := none }) := by
  have hactive := h.active_usage n (hn ▸ List.mem_cons_self)
  have hnodup := List.nodup_append.mp h.nodup
  have hnot : n ∉ ns := by
    rw [hn] at hnodup
    exact (List.nodup_cons.mp hnodup.2.1).1
  set q₁ : QueueLists :=
    { q.setUsage n (q.usage n + elapsed) with active := ns, running := none } with hq₁
  have hsorted : q₁.active.Pairwise fun k m => q₁.usage k ≤ q₁.usage m :=
    h.sorted_setUsage (hn ▸ List.sublist_cons_self n ns) hnot
  have hperm : (insert n q₁).active.Perm q.active := finish_perm hn elapsed
  have hmem : (insert n q₁).members.Perm q.members := hperm.append_left _
  refine ⟨hmem.nodup_iff.mpr h.nodup, fun m hm => ?_, fun m hm => ?_, insert_sorted hsorted n,
    fun m hm => absurd hm (by simp [insert, hq₁]), fun m hm => h.fresh m (hmem.subset hm)⟩
  · have hmn : m ≠ n := by
      rintro rfl
      exact h.notMem_active hm (hn ▸ List.mem_cons_self)
    exact (usage_setUsage hmn).trans (h.idle_usage m hm)
  · by_cases hmn : m = n
    · subst hmn
      change 0 ≤ (q.setUsage m _).usage m
      rw [usage_setUsage_self]
      omega
    · exact (h.active_usage m (hperm.subset hm)).trans_eq (usage_setUsage hmn).symm

lemma Shift.ordered (h : Shift q q') (hq : q.Ordered) : q'.Ordered := by
  cases h with
  | create => exact hq.create
  | activate hn => exact hq.activate hn
  | start hn =>
    refine ⟨hq.nodup, hq.idle_usage, hq.active_usage, hq.sorted, fun m hm => ?_, hq.fresh⟩
    obtain rfl := Option.some.inj hm
    exact hn
  | retire hn hr => exact hq.retire hn hr
  | finish hn elapsed => exact hq.finish hn elapsed

lemma Shift.grows (h : Shift q q') : q.Grows q' := by
  cases h with
  | create =>
    refine ⟨Nat.le_succ _, fun n => List.mem_cons.trans (or_comm.trans (or_congr_right ?_))⟩
    change n = q.nextQueue ↔ q.nextQueue ≤ n ∧ n < q.nextQueue + 1
    omega
  | activate hn => exact Grows.of_perm (activate_perm hn) rfl
  | start hn => exact Grows.of_perm (List.Perm.refl _) rfl
  | retire hn hr => exact Grows.of_perm (retire_perm hn) rfl
  | finish hn elapsed => exact Grows.of_perm ((finish_perm hn elapsed).append_left _) rfl

lemma Shifts.ordered (h : Shifts q q') (hq : q.Ordered) : q'.Ordered := by
  induction h with
  | refl => exact hq
  | tail _ hshift ih => exact hshift.ordered ih

lemma Shifts.grows (h : Shifts q q') : q.Grows q' := by
  induction h with
  | refl => exact Grows.refl q
  | tail _ hshift ih => exact ih.trans hshift.grows

/-- Freeing idle queues. -/
lemma Ordered.free (h : q.Ordered) (p : Nat → Bool) :
    Ordered { q with idle := q.idle.filter p } := by
  have hsub : (q.idle.filter p ++ q.active).Sublist q.members :=
    List.filter_sublist.append_right _
  exact ⟨h.nodup.sublist hsub, fun m hm => h.idle_usage m (List.mem_of_mem_filter hm),
    h.active_usage, h.sorted, h.running, fun m hm => h.fresh m (hsub.subset hm)⟩

end QueueLists

namespace TaskState

open QueueLists (Shifts Shift)

variable {s s' : TaskState} {n : Nat}

/-- The lists of a state. -/
@[simps]
def lists (s : TaskState) : QueueLists :=
  ⟨fun n => (s.queues n).usage, s.idle, s.active, s.running, s.nextQueue⟩

/-! ### The parts of an event -/

lemma usage_update (s : TaskState) (n : Nat) (q : TQueue) :
    (fun m => (Function.update s.queues n q m).usage)
      = Function.update (fun m => (s.queues m).usage) n q.usage := by
  funext m
  by_cases hm : m = n
  · subst hm
    rw [Function.update_self, Function.update_self]
  · rw [Function.update_of_ne hm, Function.update_of_ne hm]

/-- A change that leaves the usage alone. -/
lemma lists_modify (s : TaskState) (n : Nat) {f : TQueue → TQueue}
    (hf : ∀ q, (f q).usage = q.usage) : (s.modify n f).lists = s.lists := by
  ext1
  · change (fun m => (Function.update s.queues n (f (s.queues n)) m).usage) = _
    rw [usage_update, hf]
    exact Function.update_eq_self n fun m => (s.queues m).usage
  all_goals rfl

lemma shift_createQueue (player : Int) (s : TaskState) :
    Shift s.lists (s.createQueue player).lists := by
  have hlists : (s.createQueue player).lists = { s.lists.setUsage s.nextQueue noUsage with
      idle := s.nextQueue :: s.idle, nextQueue := s.nextQueue + 1 } := by
    ext1
    · exact usage_update s s.nextQueue (newQueue player)
    all_goals rfl
  rw [hlists]
  exact Shift.create s.lists

/-- `find_tqueue` returns a queue on one of the lists. -/
lemma shifts_findOrCreate (player : Int) (s : TaskState) :
    Shifts s.lists (s.findOrCreate player).2.lists ∧
      (s.findOrCreate player).1 ∈ (s.findOrCreate player).2.members := by
  rcases findOrCreate_cases s player with ⟨n, hn, -, -, hs⟩ | ⟨-, hs⟩
  · rw [hs]
    exact ⟨.refl, hn⟩
  · rw [hs]
    exact ⟨.single (shift_createQueue player s), List.mem_cons_self⟩

lemma shifts_ensureUsage (h : s.lists.Ordered) (hn : n ∈ s.members) :
    Shifts s.lists (s.ensureUsage n).lists := by
  unfold ensureUsage
  split
  · rename_i husage
    have hidle : n ∈ s.idle := by
      refine (List.mem_append.mp hn).resolve_right fun hact => ?_
      have hpos : 0 ≤ (s.queues n).usage := h.active_usage n hact
      rw [husage] at hpos
      exact absurd hpos (by decide)
    have hlists : (activateTqueue n { s with
        queues := Function.update s.queues n { s.queues n with usage := s.firstUsage }
        idle := s.idle.erase n }).lists
          = QueueLists.insert n { s.lists.setUsage n s.lists.firstUsage with
              idle := s.idle.erase n } := by
      have husage := usage_update s n { s.queues n with usage := s.firstUsage }
      change QueueLists.insert n ⟨fun m => (Function.update s.queues n _ m).usage,
        s.idle.erase n, s.active, s.running, s.nextQueue⟩ = _
      rw [husage]
      rfl
    rw [hlists]
    exact .single (Shift.activate hidle)
  · exact .refl

lemma mem_of_shifts (h : Shifts s.lists s'.lists) (hn : n ∈ s.members) : n ∈ s'.members :=
  (h.grows.mem_iff n).mpr (.inl hn)

/-- A queue that may be activated. -/
lemma shifts_ite (h : s.lists.Ordered) (hn : n ∈ s.members) {c : Prop} {_ : Decidable c} :
    Shifts s.lists (if c then s.ensureUsage n else s).lists := by
  split
  · exact shifts_ensureUsage h hn
  · exact .refl

/-- A task that goes to the background list of its programmer, whose queue is activated. -/
lemma shifts_handOver (h : s.lists.Ordered) (player : Int) (t : BgTask) :
    Shifts s.lists (((s.findOrCreate player).2.ensureUsage (s.findOrCreate player).1).enqueueBgTask
      (s.findOrCreate player).1 t).lists ∧
    Shifts s.lists (((s.findOrCreate player).2.enqueueBgTask
      (s.findOrCreate player).1 t).ensureUsage (s.findOrCreate player).1).lists := by
  obtain ⟨hfind, hmem⟩ := shifts_findOrCreate player s
  have hord := hfind.ordered h
  constructor
  · have hlists := lists_modify ((s.findOrCreate player).2.ensureUsage (s.findOrCreate player).1)
      (s.findOrCreate player).1 (f := fun q => { q with bg := q.bg ++ [t] }) fun _ => rfl
    rw [enqueueBgTask, hlists]
    exact hfind.trans (shifts_ensureUsage hord hmem)
  · have hlists := lists_modify (s.findOrCreate player).2
      (s.findOrCreate player).1 (f := fun q => { q with bg := q.bg ++ [t] }) fun _ => rfl
    refine hfind.trans ?_
    rw [← hlists] at hord ⊢
    exact shifts_ensureUsage hord hmem

/-! ### The events -/

lemma lists_enqueueBgTask (s : TaskState) (n : Nat) (t : BgTask) :
    (s.enqueueBgTask n t).lists = s.lists := lists_modify s n fun _ => by rfl

lemma shifts_enqueueWaiting (t : BgTask) (s : TaskState) :
    Shifts s.lists (s.enqueueWaiting t).lists := by
  have hlists : (s.enqueueWaiting t).lists = (s.findOrCreate t.progr).2.lists :=
    lists_modify (s.findOrCreate t.progr).2 (s.findOrCreate t.progr).1
      (f := fun q => { q with numBgTasks := q.numBgTasks + 1 }) fun _ => by rfl
  rw [hlists]
  exact (shifts_findOrCreate t.progr s).1

lemma shifts_addTask (kind : BgKind) (id : Nat) (progr startTime limit : Int) (s : TaskState) :
    Shifts s.lists (s.addTask kind id progr startTime limit).lists := by
  unfold addTask
  split
  · exact shifts_enqueueWaiting (s.newTask kind id progr startTime) s
  · exact .refl

lemma shifts_resumeTask (h : s.lists.Ordered) (i : Nat) :
    Shifts s.lists (s.resumeTask i).lists := by
  unfold resumeTask
  cases s.external[i]? with
  | none => exact .refl
  | some t =>
    have h₁ : ({ s with external := s.external.eraseIdx i } : TaskState).lists.Ordered := h
    exact (shifts_handOver h₁ t.progr { t with startTime := 0 }).2

lemma shifts_doResume (h : s.lists.Ordered) (id : Nat) (now progr : Int) (wizard : Bool) :
    Shifts s.lists (s.doResume id now progr wizard).lists := by
  unfold doResume
  cases s.waiting.find? (isSuspended id) with
  | none => exact .refl
  | some t =>
    dsimp only
    split
    · have h₁ : ({ s with waiting := s.waiting.eraseP (isSuspended id) } : TaskState).lists.Ordered :=
        h
      exact (shifts_handOver h₁ t.progr { t with startTime := now }).1
    · exact .refl

lemma lists_die (t : BgTask) (s : TaskState) : (s.die t).lists = s.lists := rfl

lemma lists_killBg (n : Nat) (t : BgTask) (s : TaskState) : (s.killBg n t).lists = s.lists := by
  rw [killBg, lists_die]
  exact lists_modify s n fun _ => by rfl

lemma lists_dropBgTask (n : Nat) (s : TaskState) : (s.dropBgTask n).lists = s.lists :=
  lists_modify s n fun _ => by rfl

lemma lists_killTask (id : Nat) (owner : Int) (wizard : Bool) (s : TaskState) :
    (s.killTask id owner wizard).lists = s.lists := by
  unfold killTask
  split
  · rename_i t ht
    split
    · unfold killWaiting
      dsimp only
      split
      · exact (lists_die t _).trans (lists_modify _ _ fun _ => by rfl)
      · rfl
    · rfl
  · split
    · split
      · exact lists_modify _ _ fun _ => by rfl
      · rfl
    · split
      · rfl
      · split
        · exact lists_modify _ _ fun _ => by rfl
        · split
          · exact lists_killBg _ _ s
          · rfl
    · split
      · split
        · rfl
        · rfl
      · rfl

/-- A change of a queue that leaves the usage alone, after which the queue may be activated. -/
lemma shifts_modify_ite (h : s.lists.Ordered) (hn : n ∈ s.members) {f : TQueue → TQueue}
    (hf : ∀ q, (f q).usage = q.usage) {c : Prop} {_ : Decidable c} :
    Shifts s.lists (if c then (s.modify n f).ensureUsage n else s.modify n f).lists := by
  have hlists := lists_modify s n hf
  rw [← hlists] at h ⊢
  exact shifts_ite h hn

lemma shifts_freeTaskQueue (h : s.lists.Ordered) (hn : n ∈ s.members) :
    Shifts s.lists (s.freeTaskQueue n).lists := shifts_modify_ite h hn fun _ => by rfl

lemma shifts_enqueueInput (h : s.lists.Ordered) (hn : n ∈ s.members) (c : InputTask)
    (atFront : Bool) : Shifts s.lists (s.enqueueInput n c atFront).lists :=
  shifts_modify_ite h hn fun _ => by rfl

lemma shifts_setHoldInput (h : s.lists.Ordered) (hn : n ∈ s.members) (value : Bool) :
    Shifts s.lists (s.setHoldInput n value).lists := shifts_modify_ite h hn fun _ => by rfl

lemma shifts_setDisableOob (h : s.lists.Ordered) (hn : n ∈ s.members) (value : Bool) :
    Shifts s.lists (s.setDisableOob n value).lists := shifts_modify_ite h hn fun _ => by rfl

lemma shifts_newTaskQueue (player : Int) (s : TaskState) :
    Shifts s.lists (s.newTaskQueue player).lists := by
  have hlists : (s.newTaskQueue player).lists = (s.findOrCreate player).2.lists := by
    unfold newTaskQueue
    exact lists_modify _ _ fun _ => by rfl
  rw [hlists]
  exact (shifts_findOrCreate player s).1

lemma shifts_forceInput (h : s.lists.Ordered) (player : Int) (c : InputTask) (atFront : Bool) :
    Shifts s.lists (s.forceInput player c atFront).lists := by
  obtain ⟨hfind, hmem⟩ := shifts_findOrCreate player s
  exact hfind.trans (shifts_enqueueInput (hfind.ordered h) hmem c atFront)

lemma shifts_flushPlayer (player : Int) (s : TaskState) :
    Shifts s.lists (s.flushPlayer player).lists := by
  have hlists : (s.flushPlayer player).lists = (s.findOrCreate player).2.lists := by
    unfold flushPlayer
    exact lists_modify _ _ fun _ => by rfl
  rw [hlists]
  exact (shifts_findOrCreate player s).1

lemma shifts_makeReadingTask (h : s.lists.Ordered) (player : Int) (id : Nat) :
    Shifts s.lists (s.makeReadingTask player id).lists := by
  unfold makeReadingTask
  cases hfind : s.findTqueue player with
  | none => exact .refl
  | some n =>
    dsimp only
    split
    · exact .refl
    · exact shifts_modify_ite h (mem_members_of_findTqueue hfind).1 fun _ => by rfl

lemma lists_readInputNow (player : Int) (s : TaskState) :
    (s.readInputNow player).lists = s.lists := by
  unfold readInputNow
  cases s.findTqueue player with
  | none => rfl
  | some n => exact lists_modify s n fun _ => by rfl

lemma shifts_releaseTasks (now : Int) (ts : List BgTask) (h : s.lists.Ordered) :
    Shifts s.lists (s.releaseTasks now ts).lists := by
  induction ts generalizing s with
  | nil => exact .refl
  | cons t ts ih =>
    unfold releaseTasks
    split
    · have h₁ : ({ s with waiting := ts } : TaskState).lists.Ordered := h
      have hshift := (shifts_handOver h₁ t.progr t).1
      exact Relation.ReflTransGen.trans hshift (ih (hshift.ordered h₁))
    · exact .refl

lemma shift_retireQueue {ns : List Nat} (hn : s.active = n :: ns) (hr : s.running = none) :
    Shift s.lists (s.retireQueue n).lists := by
  have hlists : (s.retireQueue n).lists = { s.lists.setUsage n noUsage with
      idle := n :: s.idle, active := ns } := by
    ext1
    · exact usage_update s n { s.queues n with usage := noUsage }
    · rfl
    · change (s.active.dropWhile (· ≠ n)).tail = ns
      rw [hn, tail_dropWhile_ne]
    all_goals rfl
  rw [hlists]
  exact Shift.retire hn hr

/-- One look at the first active queue: it starts to run a task, drops a blank line or is
retired. -/
lemma shifts_pickTask (hr : s.running = none) (did : Bool) :
    Shifts s.lists (s.pickTask did).lists := by
  cases hact : s.active with
  | nil =>
    unfold pickTask
    rw [hact]
  | cons n ns =>
    have hstart {s₁ : TaskState} (hs₁ : s₁.lists = s.lists) :
        Shifts s.lists { s₁ with running := some n }.lists := by
      have hlists : ({ s₁ with running := some n } : TaskState).lists
          = { s.lists with running := some n } := by
        change ({ s₁.lists with running := some n } : QueueLists) = _
        rw [hs₁]
      rw [hlists]
      exact .single (Shift.start (congrArg List.head? hact))
    unfold pickTask
    rw [hact]
    dsimp only
    split
    · exact hstart (lists_modify s n fun _ => by rfl)
    · split
      · -- a line is taken from the queue
        generalize hs₁ : s.modify n _ = s₁
        have hlists : s₁.lists = s.lists := hs₁ ▸ lists_modify s n fun _ => by rfl
        split
        · exact hstart hlists
        · split
          · exact hstart ((lists_modify s₁ n fun _ => by rfl).trans hlists)
          · split
            · exact hstart hlists
            · exact hlists ▸ .refl
      · split
        · exact hstart ((lists_die _ _).trans (lists_dropBgTask n s))
        · exact .single (shift_retireQueue hact hr)

lemma shifts_finishTask (h : s.lists.Ordered) (elapsed : Nat) :
    Shifts s.lists (s.finishTask elapsed).lists := by
  unfold finishTask
  cases hrun : s.running with
  | none => exact .refl
  | some n =>
    obtain ⟨ns, hn⟩ : ∃ ns, s.active = n :: ns := List.head?_eq_some_iff.mp (h.running n hrun)
    have hlists : (activateTqueue n { s with
        queues := Function.update s.queues n
          { s.queues n with usage := (s.queues n).usage + elapsed }
        active := (s.active.dropWhile (· ≠ n)).tail
        running := none }).lists
          = QueueLists.insert n { s.lists.setUsage n (s.lists.usage n + elapsed) with
              active := ns, running := none } := by
      have husage := usage_update s n { s.queues n with usage := (s.queues n).usage + elapsed }
      change QueueLists.insert n ⟨fun m => (Function.update s.queues n _ m).usage,
        s.idle, (s.active.dropWhile (· ≠ n)).tail, none, s.nextQueue⟩ = _
      rw [husage, hn, tail_dropWhile_ne]
      rfl
    dsimp only
    rw [hlists]
    exact .single (Shift.finish hn elapsed)

/-! ### Logging in -/

lemma lists_moveBg (n m : Nat) (s : TaskState) : (s.moveBg n m).lists = s.lists := by
  unfold moveBg
  exact (lists_modify _ m fun _ => by rfl).trans (lists_modify s n fun _ => by rfl)

lemma shifts_keepOldTasks (n : Nat) (oldPlayer : Int) (s : TaskState) :
    Shifts s.lists (s.keepOldTasks n oldPlayer).lists := by
  unfold keepOldTasks
  split
  · dsimp only
    rw [lists_moveBg, lists_modify _ _ fun _ => by rfl]
    exact (shifts_findOrCreate oldPlayer s).1
  · exact .refl

lemma lists_takeOver (n d : Nat) (s : TaskState) : (s.takeOver n d).lists = s.lists := by
  unfold takeOver
  dsimp only
  rw [lists_modify _ _ fun _ => by rfl, lists_moveBg]
  exact lists_modify _ _ fun _ => by rfl

lemma shifts_redirect (h : s.lists.Ordered) (hn : n ∈ s.members) :
    Shifts s.lists (s.redirect n).lists := by
  unfold redirect
  split
  · exact shifts_freeTaskQueue h hn
  · exact .refl

lemma shifts_login (h : s.lists.Ordered) (n : Nat) (newPlayer : Int) :
    Shifts s.lists (s.login n newPlayer).lists := by
  unfold login
  dsimp only
  generalize hs₁ : s.modify n _ = s₁
  have hlists : s₁.lists = s.lists := hs₁ ▸ lists_modify s n fun _ => by rfl
  have hkeep := shifts_keepOldTasks n (s.queues n).player s₁
  rw [hlists] at hkeep
  cases hdead : s.findTqueue newPlayer with
  | none => exact hkeep
  | some d =>
    rw [← lists_takeOver n d (s₁.keepOldTasks n (s.queues n).player)] at hkeep
    have hd := mem_of_shifts hkeep (mem_members_of_findTqueue hdead).1
    exact hkeep.trans (shifts_redirect (hkeep.ordered h) hd)

/-! ### Runs -/

/-- What an event does to the lists, unless it frees queues. -/
lemma shifts_step (h : s.lists.Ordered) {e : TaskEvent} (he : e ≠ .freeQueues) :
    Shifts s.lists (s.step e).lists := by
  cases e with
  | addTask kind id progr startTime limit => exact shifts_addTask kind id progr startTime limit s
  | addExternal id progr => exact .refl
  | resumeTask i => exact shifts_resumeTask h i
  | doResume id now progr wizard => exact shifts_doResume h id now progr wizard
  | killTask id owner wizard => exact lists_killTask id owner wizard s ▸ .refl
  | newTaskQueue player =>
    simp only [step]
    split
    · exact shifts_newTaskQueue player s
    · exact .refl
  | freeTaskQueue n =>
    simp only [step]
    split
    · exact shifts_freeTaskQueue h ‹_›
    · exact .refl
  | enqueueInput n c atFront =>
    simp only [step]
    split
    · exact shifts_enqueueInput h ‹_› c atFront
    · exact .refl
  | forceInput player c atFront => exact shifts_forceInput h player c atFront
  | flushPlayer player => exact shifts_flushPlayer player s
  | makeReadingTask player id => exact shifts_makeReadingTask h player id
  | readInputNow player => exact lists_readInputNow player s ▸ .refl
  | setHoldInput n value =>
    simp only [step]
    split
    · exact shifts_setHoldInput h ‹_› value
    · exact .refl
  | setDisableOob n value =>
    simp only [step]
    split
    · exact shifts_setDisableOob h ‹_› value
    · exact .refl
  | releaseTasks now =>
    simp only [step]
    split
    · exact shifts_releaseTasks now s.waiting h
    · exact .refl
  | pickTask did =>
    simp only [step]
    split
    · exact shifts_pickTask ‹_› did
    · exact .refl
  | login n newPlayer =>
    simp only [step]
    split
    · exact shifts_login h n newPlayer
    · exact .refl
  | finishTask elapsed => exact shifts_finishTask h elapsed
  | freeQueues => exact absurd rfl he

lemma ordered_init : init.lists.Ordered where
  nodup := List.nodup_nil
  idle_usage _ h := absurd h List.not_mem_nil
  active_usage _ h := absurd h List.not_mem_nil
  sorted := List.Pairwise.nil
  running _ h := absurd h (by simp [init])
  fresh _ h := absurd h List.not_mem_nil

lemma ordered_step (h : s.lists.Ordered) (e : TaskEvent) : (s.step e).lists.Ordered := by
  by_cases he : e = .freeQueues
  · subst he
    exact h.free _
  · exact (shifts_step h he).ordered h

lemma ordered_run (es : List TaskEvent) : (run es).lists.Ordered := by
  induction es using List.reverseRecOn with
  | nil => exact ordered_init
  | append_singleton es e ih =>
    rw [run_concat]
    exact ordered_step ih e

/-- The queue has no connection, no input and no tasks. -/
def IsFreeable (s : TaskState) (n : Nat) : Prop :=
  (s.queues n).connected = false ∧ (s.queues n).lines = [] ∧ (s.queues n).numBgTasks = 0

/-- In the run the queue was idle when the last loop of `run_ready_tasks` found it empty. -/
def WasFreed (es : List TaskEvent) (n : Nat) : Prop :=
  ∃ es₁ es₂, es = es₁ ++ .freeQueues :: es₂ ∧ n ∈ (run es₁).idle ∧ (run es₁).IsFreeable n

lemma wasFreed_concat (es : List TaskEvent) (e : TaskEvent) (n : Nat) :
    WasFreed (es ++ [e]) n
      ↔ WasFreed es n ∨ (e = .freeQueues ∧ n ∈ (run es).idle ∧ (run es).IsFreeable n) := by
  constructor
  · rintro ⟨es₁, es₂, heq, hn⟩
    rcases List.eq_nil_or_concat es₂ with rfl | ⟨es₂, e', rfl⟩
    · obtain ⟨rfl, he⟩ := List.append_inj' heq rfl
      exact .inr ⟨by simpa using he, hn⟩
    · rw [List.concat_eq_append, ← List.cons_append, ← List.append_assoc] at heq
      exact .inl ⟨es₁, es₂, (List.append_inj' heq rfl).1, hn⟩
  · rintro (⟨es₁, es₂, rfl, hn⟩ | ⟨rfl, hn⟩)
    · exact ⟨es₁, es₂ ++ [e], by simp, hn⟩
    · exact ⟨es, [], rfl, hn⟩

lemma nextQueue_le_step (h : s.lists.Ordered) (e : TaskEvent) :
    s.nextQueue ≤ (s.step e).nextQueue := by
  by_cases he : e = .freeQueues
  · subst he
    exact Nat.le_refl _
  · exact (shifts_step h he).grows.le

lemma WasFreed.lt {es : List TaskEvent} (h : WasFreed es n) : n < (run es).nextQueue := by
  induction es using List.reverseRecOn with
  | nil =>
    obtain ⟨es₁, es₂, heq, -⟩ := h
    simp at heq
  | append_singleton es e ih =>
    have hle := nextQueue_le_step (ordered_run es) e
    rw [run_concat]
    rcases (wasFreed_concat es e n).mp h with hn | ⟨-, hn, -⟩
    · exact Nat.lt_of_lt_of_le (ih hn) hle
    · exact Nat.lt_of_lt_of_le ((ordered_run es).fresh n (List.mem_append_left _ hn)) hle

lemma mem_members_freeQueues (h : s.lists.Ordered) (n : Nat) :
    n ∈ s.freeQueues.members ↔ n ∈ s.members ∧ ¬ (n ∈ s.idle ∧ s.IsFreeable n) := by
  have hkeep : ((s.queues n).connected || !(s.queues n).lines.isEmpty
      || (s.queues n).numBgTasks ≠ 0) = true ↔ ¬ s.IsFreeable n := by
    simp only [IsFreeable]
    cases (s.queues n).connected
    · cases (s.queues n).lines <;> simp
    · simp
  change n ∈ s.idle.filter _ ++ s.active ↔ n ∈ s.idle ++ s.active ∧ _
  rw [List.mem_append, List.mem_append, List.mem_filter, hkeep]
  have hnot : n ∈ s.idle → n ∉ s.active := fun hi => h.notMem_active hi
  tauto

lemma mem_members_run (es : List TaskEvent) (n : Nat) :
    n ∈ (run es).members ↔ n < (run es).nextQueue ∧ ¬ WasFreed es n := by
  induction es using List.reverseRecOn with
  | nil =>
    constructor
    · intro h
      exact absurd h List.not_mem_nil
    · rintro ⟨h, -⟩
      exact absurd h (Nat.not_lt_zero n)
  | append_singleton es e ih =>
    have hord := ordered_run es
    rw [run_concat, wasFreed_concat]
    by_cases he : e = .freeQueues
    · subst he
      have hmem := mem_members_freeQueues hord n
      have hnext : (run es).freeQueues.nextQueue = (run es).nextQueue := rfl
      simp only [step]
      rw [hmem, ih, hnext]
      tauto
    · have hgrows := (shifts_step hord he).grows
      have hmem : n ∈ ((run es).step e).members ↔ n ∈ (run es).members
          ∨ ((run es).nextQueue ≤ n ∧ n < ((run es).step e).nextQueue) := hgrows.mem_iff n
      have hle : (run es).nextQueue ≤ ((run es).step e).nextQueue := hgrows.le
      have hlt (hf : WasFreed es n) : n < (run es).nextQueue := hf.lt
      rw [hmem, ih]
      constructor
      · rintro (⟨hn, hf⟩ | ⟨hge, hn⟩)
        · exact ⟨by omega, fun h => hf (h.resolve_right fun h => he h.1)⟩
        · refine ⟨hn, fun h => ?_⟩
          have := hlt (h.resolve_right fun h => he h.1)
          omega
      · rintro ⟨hn, hf⟩
        by_cases hold : n < (run es).nextQueue
        · exact .inl ⟨hold, fun h => hf (.inl h)⟩
        · exact .inr ⟨by omega, hn⟩

/-- The first active queue stays or is retired when the scheduler looks at it. -/
lemma pickTask_lists (s : TaskState) (did : Bool) :
    ((s.pickTask did).active = s.active ∧ (s.pickTask did).idle = s.idle) ∨
      ∃ n, s.active = n :: (s.pickTask did).active ∧ (s.pickTask did).idle = n :: s.idle := by
  cases hact : s.active with
  | nil => exact .inl (by simp [pickTask, hact])
  | cons n ns =>
    unfold pickTask
    rw [hact]
    dsimp only
    split
    · exact .inl ⟨hact, rfl⟩
    · split
      · split
        · exact .inl ⟨hact, rfl⟩
        · split
          · exact .inl ⟨hact, rfl⟩
          · split
            · exact .inl ⟨hact, rfl⟩
            · exact .inl ⟨hact, rfl⟩
      · split
        · exact .inl ⟨hact, rfl⟩
        · refine .inr ⟨n, ?_, rfl⟩
          change n :: ns = n :: (s.active.dropWhile (· ≠ n)).tail
          rw [hact, tail_dropWhile_ne]

/-- A queue that has run a task is put back. -/
lemma finishTask_lists (h : s.lists.Ordered) (hn : s.running = some n) (elapsed : Nat) :
    (s.finishTask elapsed).active.Perm s.active ∧ (s.finishTask elapsed).idle = s.idle := by
  obtain ⟨ns, hact⟩ : ∃ ns, s.active = n :: ns := List.head?_eq_some_iff.mp (h.running n hn)
  unfold finishTask
  rw [hn]
  refine ⟨?_, rfl⟩
  rw [hact]
  dsimp only
  rw [tail_dropWhile_ne]
  exact takeWhile_append_cons_dropWhile_perm _ _ _

/-- In every run each queue is on exactly one of the lists until it is freed, the active
ones are sorted by usage, and the scheduler puts the queue it ran a task of back or retires
it, whatever the task did to the lists. -/
theorem queues_kept_in_order (es : List TaskEvent) :
    (run es).members.Nodup ∧
    (∀ n, n ∈ (run es).members ↔ n < (run es).nextQueue ∧ ¬ WasFreed es n) ∧
    ((run es).active.Pairwise fun n m =>
      ((run es).queues n).usage ≤ ((run es).queues m).usage) ∧
    (∀ n, (run es).running = some n → (run es).active.head? = some n ∧
      ∀ elapsed, ((run es).step (.finishTask elapsed)).active.Perm (run es).active ∧
        ((run es).step (.finishTask elapsed)).idle = (run es).idle) ∧
    ((run es).running = none → ∀ did,
      (((run es).step (.pickTask did)).active = (run es).active ∧
        ((run es).step (.pickTask did)).idle = (run es).idle) ∨
      ∃ n, (run es).active = n :: ((run es).step (.pickTask did)).active ∧
        ((run es).step (.pickTask did)).idle = n :: (run es).idle) := by
  have hord := ordered_run es
  refine ⟨hord.nodup, mem_members_run es, hord.sorted, fun n hn => ⟨hord.running n hn, ?_⟩,
    fun hrun did => ?_⟩
  · exact finishTask_lists hord hn
  · simp only [step, if_pos hrun]
    exact pickTask_lists (run es) did

end TaskState

end LambdaMOO
