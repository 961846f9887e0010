import LambdaMOO.Tasks.Input

/-!
# The input queue refines a list of lines

`Threaded q ps ls`: the cells at `ps` are linked in order, hold the lines `ls`, and their
run ends are linked through `next_itail`. Every operation keeps it and does to the list
what the queue is for.
-/

namespace LambdaMOO

open PointerChain

namespace InputQueue

/-- The kind of the line at an address, as far as the runs depend on it. -/
def oobAt (q : InputQueue) (p : Nat) : Bool := (q.tasks p).any InputTask.isOob

structure Threaded (q : InputQueue) (ps : List Nat) (ls : List InputTask) : Prop where
  contents : ps.map q.tasks = ls.map some
  nodup : ps.Nodup
  input : Chain .next q.links .firstInput ps
  itail : Chain .nextItail q.links .firstItail (Runs.ends q.oobAt ps)
  lastInput : q.lastInput = lastSlot .next .firstInput ps
  lastItail : q.lastItail = lastSlot .nextItail .firstItail (Runs.ends q.oobAt ps).dropLast

/-- The queue holds the lines `ls`, and `total_input_length` is their length. -/
structure Represents (q : InputQueue) (ps : List Nat) (ls : List InputTask) : Prop extends
    Threaded q ps ls where
  length : q.totalInputLength = (ls.map fun c => c.length).sum

lemma represents_empty (tasks : Nat → Option InputTask) : (empty tasks).Represents [] [] where
  contents := rfl
  nodup := List.nodup_nil
  input := chain_nil.mpr rfl
  itail := chain_nil.mpr rfl
  lastInput := rfl
  lastItail := rfl
  length := rfl

/-! ### Slots -/

lemma next_injective : Function.Injective Slot.next := fun _ _ h => Slot.next.inj h

lemma nextItail_injective : Function.Injective Slot.nextItail :=
  fun _ _ h => Slot.nextItail.inj h

lemma nodup_inputSlots {ps : List Nat} (h : ps.Nodup) :
    (slots Slot.next .firstInput ps).Nodup :=
  nodup_slots next_injective (fun _ _ => (by rintro ⟨⟩)) h

lemma nodup_itailSlots {ps : List Nat} (h : ps.Nodup) :
    (slots Slot.nextItail .firstItail ps).Nodup :=
  nodup_slots nextItail_injective (fun _ _ => (by rintro ⟨⟩)) h

/-- A slot of the list of lines. -/
lemma input_slot {s : Slot} {ps : List Nat} (h : s ∈ slots Slot.next .firstInput ps) :
    s = .firstInput ∨ ∃ p ∈ ps, s = .next p := by
  rw [slots, List.mem_cons, List.mem_map] at h
  exact h.imp_right fun hs => hs.imp fun p hp => hp.imp_right Eq.symm

/-- A slot of the list of run ends. -/
lemma itail_slot {s : Slot} {ps : List Nat} (h : s ∈ slots Slot.nextItail .firstItail ps) :
    s = .firstItail ∨ ∃ p ∈ ps, s = .nextItail p := by
  rw [slots, List.mem_cons, List.mem_map] at h
  exact h.imp_right fun hs => hs.imp fun p hp => hp.imp_right Eq.symm

section

variable {q : InputQueue} {ps : List Nat} {ls : List InputTask}

lemma Threaded.tasks_of_mem (h : q.Threaded ps ls) {p : Nat} (hp : p ∈ ps) :
    ∃ c ∈ ls, q.tasks p = some c := by
  have hmem : q.tasks p ∈ ls.map some := h.contents ▸ List.mem_map_of_mem hp
  obtain ⟨c, hc, heq⟩ := List.mem_map.mp hmem
  exact ⟨c, hc, heq.symm⟩

lemma Threaded.notMem_of_free (h : q.Threaded ps ls) {t : Nat} (ht : q.tasks t = none) :
    t ∉ ps := by
  intro hp
  obtain ⟨c, -, hc⟩ := h.tasks_of_mem hp
  rw [ht] at hc
  exact absurd hc (by simp)

lemma Threaded.ends_subset (_ : q.Threaded ps ls) {p : Nat}
    (hp : p ∈ Runs.ends q.oobAt ps) : p ∈ ps :=
  Runs.ends_sublist.subset hp

lemma Threaded.nodup_ends (h : q.Threaded ps ls) : (Runs.ends q.oobAt ps).Nodup :=
  Runs.ends_sublist.nodup h.nodup

/-- The parts of the state that the threading depends on. -/
lemma Threaded.congr {q' : InputQueue} (h : q.Threaded ps ls)
    (hl : ∀ s, s ∈ slots Slot.next .firstInput ps ∨ s ∈ slots Slot.nextItail .firstItail ps →
      q'.links s = q.links s)
    (ht : ∀ p ∈ ps, q'.tasks p = q.tasks p) (hi : q'.lastInput = q.lastInput)
    (hj : q'.lastItail = q.lastItail) : q'.Threaded ps ls := by
  have hends : Runs.ends q'.oobAt ps = Runs.ends q.oobAt ps :=
    Runs.ends_congr fun p hp => by rw [oobAt, oobAt, ht p hp]
  refine ⟨?_, h.nodup, h.input.congr fun s hs => hl s (.inl hs), ?_, hi.trans h.lastInput, ?_⟩
  · rw [← h.contents]
    exact List.map_congr_left ht
  · rw [hends]
    refine h.itail.congr fun s hs => hl s (.inr ?_)
    rcases itail_slot hs with rfl | ⟨p, hp, rfl⟩
    · exact List.mem_cons_self
    · exact List.mem_cons_of_mem _ (List.mem_map_of_mem (h.ends_subset hp))
  · rw [hends]
    exact hj.trans h.lastItail

/-! ### Enqueueing

`Pending q t c ps ls`: the new line is filled in at `t` and not linked yet. -/

structure Pending (q : InputQueue) (t : Nat) (c : InputTask) (ps : List Nat)
    (ls : List InputTask) : Prop extends Threaded q ps ls where
  notMem : t ∉ ps
  task : q.tasks t = some c
  nextItail : q.links (.nextItail t) = none

lemma Threaded.alloc (cfg : InputConfig) (h : q.Threaded ps ls) {t : Nat} (ht : q.tasks t = none)
    (input : List UInt8) (binary : Bool) :
    (q.alloc cfg t input binary).Pending t (newLine cfg input binary) ps ls where
  toThreaded := by
    have hnot := h.notMem_of_free ht
    refine h.congr (fun s hs => ?_) (fun p hp => ?_) rfl rfl
    · rw [alloc_links, Function.update_of_ne]
      rintro rfl
      rcases hs with hs | hs
      · rcases input_slot hs with hs | ⟨p, -, hs⟩ <;> cases hs
      · rcases itail_slot hs with hs | ⟨p, hp, hs⟩
        · exact absurd hs (by rintro ⟨⟩)
        · exact hnot (nextItail_injective hs ▸ hp)
    · rw [alloc_tasks, Function.update_of_ne]
      rintro rfl
      exact hnot hp
  notMem := h.notMem_of_free ht
  task := by rw [alloc_tasks, Function.update_self]
  nextItail := by rw [alloc_links, Function.update_self]

lemma Threaded.contents_cons (h : q.Threaded ps ls) {t : Nat} {c : InputTask}
    (ht : q.tasks t = some c) : (t :: ps).map q.tasks = (c :: ls).map some := by
  rw [List.map_cons, List.map_cons, h.contents, ht]

lemma Threaded.contents_concat (h : q.Threaded ps ls) {t : Nat} {c : InputTask}
    (ht : q.tasks t = some c) : (ps ++ [t]).map q.tasks = (ls ++ [c]).map some := by
  rw [List.map_append, List.map_append, h.contents, List.map_singleton, ht, List.map_singleton]

/-- A slot of one list is no slot of the other. -/
lemma input_slot_ne_itail_slot {ps es : List Nat} {s s' : Slot}
    (hs : s ∈ slots Slot.next .firstInput ps) (hs' : s' ∈ slots Slot.nextItail .firstItail es) :
    s ≠ s' := by
  rcases input_slot hs with rfl | ⟨p, -, rfl⟩ <;>
    rcases itail_slot hs' with rfl | ⟨p', -, rfl⟩ <;> rintro ⟨⟩

/-- The line at the rear, once `last_itail` is the slot for the end of its run. -/
lemma Pending.linkRear {t : Nat} {c : InputTask} (h : q.Pending t c ps ls) (es : List Nat)
    (hends : Runs.ends q.oobAt (ps ++ [t]) = es ++ [t])
    (hpath : Path Slot.nextItail q.links .firstItail es) :
    (linkRear t { q with lastItail := lastSlot Slot.nextItail .firstItail es }).Threaded
      (ps ++ [t]) (ls ++ [c]) := by
  have hnodup : (ps ++ [t]).Nodup := by
    rw [List.nodup_append]
    exact ⟨h.nodup, List.nodup_singleton t, fun p hp x hx => by
      rw [List.mem_singleton.mp hx]
      rintro rfl
      exact h.notMem hp⟩
  have hnodup' : (es ++ [t]).Nodup := hends ▸ Runs.ends_sublist.nodup hnodup
  have hlast : lastSlot Slot.nextItail .firstItail es ∈ slots Slot.nextItail .firstItail es :=
    lastSlot_mem_slots
  have hlast' : q.lastInput ∈ slots Slot.next .firstInput ps :=
    h.lastInput ▸ lastSlot_mem_slots
  have hne : q.lastInput ≠ lastSlot Slot.nextItail .firstItail es :=
    input_slot_ne_itail_slot hlast' hlast
  have hnext : Slot.next t ∈ slots Slot.next .firstInput [t] := by simp [slots]
  have hnext' : q.lastInput ≠ .next t := by
    intro heq
    rcases input_slot (heq ▸ hlast') with hs | ⟨p, hp, hs⟩
    · exact absurd hs (by rintro ⟨⟩)
    · exact h.notMem (next_injective hs ▸ hp)
  have hlinks : (InputQueue.linkRear t { q with
      lastItail := lastSlot Slot.nextItail .firstItail es }).links
      = Function.update (Function.update (Function.update q.links
        (lastSlot Slot.nextItail .firstItail es) (some t)) q.lastInput (some t)) (.next t) none :=
    rfl
  have hoob : (InputQueue.linkRear t { q with
      lastItail := lastSlot Slot.nextItail .firstItail es }).oobAt = q.oobAt := rfl
  refine ⟨h.contents_concat h.task, hnodup, ?_, ?_, by rw [lastSlot_concat]; rfl, ?_⟩
  · have hpath' : Path Slot.next q.links .firstInput ps :=
      (chain_append.mp (by rw [List.append_nil]; exact h.input)).1
    refine Chain.splice (nodup_inputSlots hnodup) hpath' (fun s hs hs' => ?_) ?_
    · have h₁ : s ≠ .next t := by
        rintro rfl
        rcases input_slot hs with hs | ⟨p, hp, hs⟩
        · exact absurd hs (by rintro ⟨⟩)
        · exact h.notMem (next_injective hs ▸ hp)
      rw [hlinks, Function.update_of_ne h₁, Function.update_of_ne (h.lastInput ▸ hs'),
        Function.update_of_ne (input_slot_ne_itail_slot hs hlast)]
    · rw [chain_cons, chain_nil, ← h.lastInput, hlinks, Function.update_of_ne hnext',
        Function.update_self, Function.update_self]
      exact ⟨rfl, rfl⟩
  · rw [hoob, hends]
    refine Chain.splice (nodup_itailSlots hnodup') hpath (fun s hs hs' => ?_) ?_
    · rw [hlinks, Function.update_of_ne (input_slot_ne_itail_slot hnext hs).symm,
        Function.update_of_ne (input_slot_ne_itail_slot hlast' hs).symm,
        Function.update_of_ne hs']
    · rw [chain_cons, chain_nil, hlinks,
        Function.update_of_ne (input_slot_ne_itail_slot hnext hlast).symm,
        Function.update_of_ne hne.symm, Function.update_self]
      refine ⟨rfl, ?_⟩
      have hnot : lastSlot Slot.nextItail .firstItail es ≠ .nextItail t := by
        intro heq
        rcases itail_slot (heq ▸ hlast) with hs | ⟨p, hp, hs⟩
        · exact absurd hs (by rintro ⟨⟩)
        · have := (List.nodup_append.mp hnodup').2.2 p hp t (by simp)
          exact this (nextItail_injective hs).symm
      rw [Function.update_of_ne (by rintro ⟨⟩), Function.update_of_ne, Function.update_of_ne hnot.symm]
      · exact h.nextItail
      · rintro heq
        rcases input_slot (heq ▸ hlast') with hs | ⟨p, -, hs⟩ <;> cases hs
  · rw [hoob, hends, List.dropLast_concat]
    rfl

lemma linkFront_links (q : InputQueue) (t : Nat) : (q.linkFront t).links
    = Function.update (Function.update q.links (.next t) (q.links .firstInput)) .firstInput
      (some t) := rfl

/-- The list of lines with `t` in front. -/
lemma Pending.linkFront_input {t : Nat} {c : InputTask} (h : q.Pending t c ps ls)
    {q' : InputQueue} (hl : ∀ s ∈ slots Slot.next .firstInput ps, q'.links s = q.links s) :
    Chain Slot.next (q'.linkFront t).links .firstInput (t :: ps) := by
  rw [chain_cons, linkFront_links]
  refine ⟨Function.update_self _ _ _, ?_⟩
  refine Chain.move (fun p hp => ?_) ?_ h.input
  · have hne : p ≠ t := by
      rintro rfl
      exact h.notMem hp
    rw [Function.update_of_ne (by rintro ⟨⟩), Function.update_of_ne fun heq => hne (next_injective heq)]
    exact hl _ (List.mem_cons_of_mem _ (List.mem_map_of_mem hp))
  · rw [Function.update_of_ne (by rintro ⟨⟩), Function.update_self]
    exact hl _ List.mem_cons_self

lemma linkFront_links_itail (q : InputQueue) (t : Nat) {s : Slot} {es : List Nat}
    (hs : s ∈ slots Slot.nextItail .firstItail es) : (q.linkFront t).links s = q.links s := by
  rcases itail_slot hs with rfl | ⟨p, -, rfl⟩ <;>
    rw [linkFront_links, Function.update_of_ne (by rintro ⟨⟩), Function.update_of_ne (by rintro ⟨⟩)]

lemma lastSlot_ne_nil {s : Slot} (s' : Slot) {es : List Nat} (h : es ≠ []) :
    lastSlot Slot.nextItail s es = lastSlot Slot.nextItail s' es := by
  cases es with
  | nil => exact absurd rfl h
  | cons e es => rfl

/-- A line of the kind of the first run, put in front of it. -/
lemma Pending.linkFront_same {t f : Nat} {c : InputTask} (h : q.Pending t c (f :: ps) ls)
    (hmark : q.oobAt t = q.oobAt f) :
    (q.linkFront t).Threaded (t :: f :: ps) (c :: ls) := by
  have hoob : (q.linkFront t).oobAt = q.oobAt := rfl
  have hends : Runs.ends q.oobAt (t :: f :: ps) = Runs.ends q.oobAt (f :: ps) :=
    Runs.ends_cons_of_eq hmark
  refine ⟨h.contents_cons h.task, List.nodup_cons.mpr ⟨h.notMem, h.nodup⟩,
    h.linkFront_input fun _ _ => rfl, ?_, h.lastInput, ?_⟩
  · rw [hoob, hends]
    exact h.itail.congr fun s hs => q.linkFront_links_itail t hs
  · rw [hoob, hends]
    exact h.lastItail

/-- A line of the other kind, put in front as a run of its own. -/
lemma Pending.linkFront_other {t f : Nat} {c : InputTask} (h : q.Pending t c (f :: ps) ls)
    (hmark : q.oobAt t ≠ q.oobAt f) :
    ((q.linkFrontItail t).linkFront t).Threaded (t :: f :: ps) (c :: ls) := by
  have hlinks := linkFrontItail_links t q
  have hoob : ((q.linkFrontItail t).linkFront t).oobAt = q.oobAt := rfl
  have hends : Runs.ends q.oobAt (t :: f :: ps) = t :: Runs.ends q.oobAt (f :: ps) :=
    Runs.ends_cons_of_ne hmark
  have hne : Runs.ends q.oobAt (f :: ps) ≠ [] := Runs.ends_ne_nil
  refine ⟨h.contents_cons h.task, List.nodup_cons.mpr ⟨h.notMem, h.nodup⟩,
    h.linkFront_input fun s hs => ?_, ?_, h.lastInput, ?_⟩
  · rw [hlinks]
    rcases input_slot hs with rfl | ⟨p, -, rfl⟩ <;>
      rw [Function.update_of_ne (by rintro ⟨⟩), Function.update_of_ne (by rintro ⟨⟩)]
  · rw [hoob, hends]
    refine Chain.congr (fun s hs => (q.linkFrontItail t).linkFront_links_itail t hs) ?_
    rw [chain_cons, hlinks]
    refine ⟨Function.update_self _ _ _, Chain.move (fun p hp => ?_) ?_ h.itail⟩
    · have hpt : p ≠ t := by
        rintro rfl
        exact h.notMem (h.ends_subset hp)
      rw [hlinks, Function.update_of_ne (by rintro ⟨⟩),
        Function.update_of_ne fun heq => hpt (nextItail_injective heq)]
    · rw [hlinks, Function.update_of_ne (by rintro ⟨⟩), Function.update_self]
  · rw [hoob, hends, List.dropLast_cons_of_ne_nil hne]
    change (q.linkFrontItail t).lastItail = lastSlot Slot.nextItail (.nextItail t) _
    have hold := h.lastItail
    by_cases hnil : (Runs.ends q.oobAt (f :: ps)).dropLast = []
    · rw [hnil] at hold ⊢
      have hold : q.lastItail = .firstItail := hold
      rw [linkFrontItail_lastItail, if_pos hold]
      rfl
    · rw [lastSlot_ne_nil .firstItail hnil]
      have hslot : q.lastItail ≠ .firstItail := by
        rw [hold]
        obtain ⟨e, es, hes⟩ := List.exists_cons_of_ne_nil hnil
        rw [hes]
        intro heq
        have hmem : lastSlot Slot.nextItail (.nextItail e) es
            ∈ slots Slot.nextItail (.nextItail e) es := lastSlot_mem_slots
        rw [show lastSlot Slot.nextItail (.nextItail e) es = .firstItail from heq] at hmem
        simp [slots] at hmem
      rw [linkFrontItail_lastItail, if_neg hslot]
      exact hold

lemma Threaded.suspendInput {cfg : InputConfig} (h : q.Threaded ps ls) :
    (q.suspendInput cfg).Threaded ps ls :=
  h.congr (fun _ _ => rfl) (fun _ _ => rfl) rfl rfl

/-- The run ends of a non-empty list end with its last cell. -/
lemma exists_ends_concat (mark : Nat → Bool) (xs : List Nat) (z : Nat) :
    ∃ es, Runs.ends mark (xs ++ [z]) = es ++ [z] := by
  have hlast : (Runs.ends mark (xs ++ [z])).getLast? = some z := by
    rw [Runs.getLast?_ends, List.getLast?_concat]
  exact ⟨_, (List.dropLast_append_getLast? z hlast).symm⟩

/-- Adding a line to the list. -/
def addLine (c : InputTask) (atFront : Bool) (ls : List InputTask) : List InputTask :=
  if atFront then c :: ls else ls ++ [c]

lemma length_addLine (c : InputTask) (atFront : Bool) (ls : List InputTask) :
    ((addLine c atFront ls).map fun c => c.length).sum
      = (ls.map fun c => c.length).sum + c.length := by
  unfold addLine
  split
  · simp [Nat.add_comm]
  · simp

lemma Pending.enqueueRear {t : Nat} {c : InputTask} (h : q.Pending t c ps ls) :
    ∃ q', q.enqueueRear t c = some q' ∧ q'.Threaded (ps ++ [t]) (ls ++ [c]) ∧
      q'.totalInputLength = q.totalInputLength ∧ q'.disableOob = q.disableOob := by
  unfold InputQueue.enqueueRear
  rcases List.eq_nil_or_concat' ps with rfl | ⟨xs, z, rfl⟩
  · have hfirst : q.links .firstInput = none := chain_nil.mp h.input
    have hends : Runs.ends q.oobAt ([] ++ [t]) = [] ++ [t] := rfl
    have hlast : q.lastItail = .firstItail := h.lastItail
    have hrear := h.linkRear _ hends trivial
    refine ⟨q.linkRear t, by rw [hfirst], ?_, rfl, rfl⟩
    have heq : ({ q with lastItail := lastSlot Slot.nextItail .firstItail [] } : InputQueue) = q := by
      rw [← hlast]
      rfl
    rw [heq] at hrear
    exact hrear
  · obtain ⟨es, hes⟩ := exists_ends_concat q.oobAt xs z
    have hitail := h.itail
    rw [hes, chain_append, chain_cons, chain_nil] at hitail
    obtain ⟨hpath, hz, hnone⟩ := hitail
    have hlast : q.lastItail = lastSlot Slot.nextItail .firstItail es := by
      rw [h.lastItail, hes, List.dropLast_concat]
    have hfirst : ∃ f, q.links .firstInput = some f := by
      have hhead := h.input.get_eq_head?
      cases xs with
      | nil => exact ⟨z, hhead⟩
      | cons x xs => exact ⟨x, hhead⟩
    obtain ⟨f, hf⟩ := hfirst
    obtain ⟨old, -, hold⟩ := h.tasks_of_mem (p := z) (by simp)
    have hmark : q.oobAt z = old.isOob := by simp [oobAt, hold]
    have hmark' : q.oobAt t = c.isOob := by simp [oobAt, h.task]
    have hconcat := Runs.ends_concat q.oobAt xs z t
    rw [hes, List.dropLast_concat] at hconcat
    by_cases hkind : old.isOob = c.isOob
    · rw [if_pos (by rw [hmark, hmark', hkind])] at hconcat
      have hrear := h.linkRear es (by rw [List.append_assoc]; exact hconcat) hpath
      have heq : ({ q with lastItail := lastSlot Slot.nextItail .firstItail es } : InputQueue) = q := by
        rw [← hlast]
      rw [heq] at hrear
      refine ⟨_, ?_, hrear, rfl, rfl⟩
      simp only [hf, hlast, hz, hold, hkind, bind, Option.bind, ne_eq, not_true_eq_false, if_false]
      rfl
    · rw [if_neg (by rw [hmark, hmark']; exact hkind)] at hconcat
      have hpath' : Path Slot.nextItail q.links .firstItail (es ++ [z]) :=
        path_append.mpr ⟨hpath, hz, trivial⟩
      have hrear := h.linkRear (es ++ [z]) (by rw [List.append_assoc]; exact hconcat) hpath'
      rw [lastSlot_concat] at hrear
      refine ⟨_, ?_, hrear, rfl, rfl⟩
      simp only [hf, hlast, hz, hold, hkind, bind, Option.bind, ne_eq, not_false_eq_true, if_true]
      rfl

lemma Pending.enqueueFront {t f : Nat} {c : InputTask} (h : q.Pending t c (f :: ps) ls) :
    ∃ q', q.enqueueFront t f c = some q' ∧ q'.Threaded (t :: f :: ps) (c :: ls) ∧
      q'.totalInputLength = q.totalInputLength ∧ q'.disableOob = q.disableOob := by
  obtain ⟨old, -, hold⟩ := h.tasks_of_mem (p := f) (by simp)
  have hmark : q.oobAt f = old.isOob := by simp [oobAt, hold]
  have hmark' : q.oobAt t = c.isOob := by simp [oobAt, h.task]
  unfold InputQueue.enqueueFront
  by_cases hkind : old.isOob = c.isOob
  · refine ⟨q.linkFront t, ?_, h.linkFront_same (by rw [hmark, hmark', hkind]), rfl, rfl⟩
    simp [hold, hkind]
  · refine ⟨(q.linkFrontItail t).linkFront t, ?_,
      h.linkFront_other (by rw [hmark, hmark']; exact Ne.symm hkind), rfl, rfl⟩
    simp [hold, hkind]

/-- Enqueueing adds one line to the list, in front or at the rear. -/
lemma Represents.enqueueInputTask (cfg : InputConfig) (h : q.Represents ps ls) {t : Nat}
    (ht : q.tasks t = none) (input : List UInt8) (atFront binary : Bool) :
    ∃ q' ps', q.enqueueInputTask cfg t input atFront binary = some q' ∧
      q'.Represents ps' (addLine (newLine cfg input binary) atFront ls) ∧
      q'.disableOob = q.disableOob := by
  have hp := h.toThreaded.alloc cfg ht input binary
  have hrear := hp.enqueueRear
  have hlen : (q.alloc cfg t input binary).totalInputLength
      = (ls.map fun c => c.length).sum + (newLine cfg input binary).length := by
    rw [alloc_totalInputLength, h.length]
    rfl
  unfold InputQueue.enqueueInputTask
  have hhead := hp.input.get_eq_head?
  cases ps with
  | nil =>
    obtain ⟨q', hq', hth, htot, hdis⟩ := hrear
    have hnil : ls = [] := by simpa using h.contents
    have hadd : addLine (newLine cfg input binary) atFront ls = ls ++ [newLine cfg input binary] := by
      rw [hnil]
      cases atFront <;> rfl
    refine ⟨q'.suspendInput cfg, [] ++ [t], ?_, ⟨hadd ▸ hth.suspendInput, ?_⟩, hdis⟩
    · simp only [hhead, List.head?_nil, hq']
      rfl
    · rw [length_addLine, suspendInput_totalInputLength, htot, hlen]
      rfl
  | cons f ps =>
    cases atFront with
    | true =>
      obtain ⟨q', hq', hth, htot, hdis⟩ := hp.enqueueFront
      refine ⟨q'.suspendInput cfg, t :: f :: ps, ?_, ⟨hth.suspendInput, ?_⟩, hdis⟩
      · simp only [hhead, List.head?_cons, if_true, hq']
        rfl
      · rw [length_addLine, suspendInput_totalInputLength, htot, hlen]
        rfl
    | false =>
      obtain ⟨q', hq', hth, htot, hdis⟩ := hrear
      refine ⟨q'.suspendInput cfg, f :: ps ++ [t], ?_, ⟨hth.suspendInput, ?_⟩, hdis⟩
      · simp only [hhead, List.head?_cons, Bool.false_eq_true, if_false, hq']
        rfl
      · rw [length_addLine, suspendInput_totalInputLength, htot, hlen]
        rfl

/-! ### Dequeueing -/

lemma unlinkInput_links (q : InputQueue) (pt : Slot) (t : Nat) :
    (q.unlinkInput pt t).links
      = Function.update (Function.update q.links pt (q.links (.next t))) (.next t) none := by
  unfold unlinkInput
  cases h : q.links (.next t) with
  | some n => rfl
  | none =>
    funext s
    by_cases hs : s = .next t
    · subst hs
      rw [Function.update_self]
      change Function.update q.links pt none (.next t) = none
      by_cases hpt : Slot.next t = pt
      · rw [hpt, Function.update_self]
      · rw [Function.update_of_ne hpt, h]
    · rw [Function.update_of_ne hs]
      rfl

lemma unlinkInput_lastInput (q : InputQueue) (pt : Slot) (t : Nat) :
    (q.unlinkInput pt t).lastInput = if q.links (.next t) = none then pt else q.lastInput := by
  unfold unlinkInput
  cases h : q.links (.next t) with
  | some n => rfl
  | none => rfl

lemma unlinkInput_lastItail (q : InputQueue) (pt : Slot) (t : Nat) :
    (q.unlinkInput pt t).lastItail = q.lastItail := by
  unfold unlinkInput
  split <;> rfl

lemma unlinkInput_tasks (q : InputQueue) (pt : Slot) (t : Nat) :
    (q.unlinkInput pt t).tasks = q.tasks := by
  unfold unlinkInput
  split <;> rfl

variable {xs ys : List Nat} {t : Nat} {as bs : List InputTask} {c : InputTask}

/-- The list of lines without `t`. -/
lemma Threaded.unlinkInput (h : q.Threaded (xs ++ t :: ys) ls) :
    Chain Slot.next (q.unlinkInput (lastSlot Slot.next .firstInput xs) t).links .firstInput
        (xs ++ ys) ∧
      (q.unlinkInput (lastSlot Slot.next .firstInput xs) t).lastInput
        = lastSlot Slot.next .firstInput (xs ++ ys) := by
  have hinput := h.input
  rw [chain_append, chain_cons] at hinput
  obtain ⟨hpath, ht, hys⟩ := hinput
  have hnodup : (xs ++ ys).Nodup := h.nodup.sublist (by simp)
  have hcross : ∀ p ∈ xs, p ≠ t ∧ p ∉ ys := by
    intro p hp
    have := (List.nodup_append.mp h.nodup).2.2 p hp
    exact ⟨this t (by simp), fun hy => this p (by simp [hy]) rfl⟩
  have htys : t ∉ ys := (List.nodup_cons.mp (List.nodup_append.mp h.nodup).2.1).1
  have hlast : lastSlot Slot.next .firstInput xs ∈ slots Slot.next .firstInput xs :=
    lastSlot_mem_slots
  have hne : lastSlot Slot.next .firstInput xs ≠ .next t := by
    intro heq
    rcases input_slot (heq ▸ hlast) with hs | ⟨p, hp, hs⟩
    · exact absurd hs (by rintro ⟨⟩)
    · exact (hcross p hp).1 (next_injective hs).symm
  constructor
  · rw [unlinkInput_links]
    refine Chain.splice (nodup_inputSlots hnodup) hpath (fun s hs hs' => ?_) ?_
    · rw [Function.update_of_ne, Function.update_of_ne hs']
      rintro rfl
      rcases input_slot hs with hs | ⟨p, hp, hs⟩
      · exact absurd hs (by rintro ⟨⟩)
      · exact (hcross p hp).1 (next_injective hs).symm
    · refine Chain.move (fun p hp => ?_) ?_ hys
      · have hpt : p ≠ t := by
          rintro rfl
          exact htys hp
        rw [Function.update_of_ne fun heq => hpt (next_injective heq), Function.update_of_ne]
        intro heq
        rcases input_slot (heq ▸ hlast) with hs | ⟨p', hp', hs⟩
        · exact absurd hs (by rintro ⟨⟩)
        · exact (hcross p' hp').2 (next_injective hs ▸ hp)
      · rw [Function.update_of_ne hne, Function.update_self]
  · rw [unlinkInput_lastInput, hys.get_eq_head?, lastSlot_append, h.lastInput, lastSlot_append]
    cases ys with
    | nil => rfl
    | cons y ys => rfl

lemma unlinkInput_itail {s : Slot} {es : List Nat}
    (hs : s ∈ slots Slot.nextItail .firstItail es) :
    (q.unlinkInput (lastSlot Slot.next .firstInput xs) t).links s = q.links s := by
  have hnext : Slot.next t ∈ slots Slot.next .firstInput [t] := by simp [slots]
  have hlast : lastSlot Slot.next .firstInput xs ∈ slots Slot.next .firstInput xs :=
    lastSlot_mem_slots
  rw [unlinkInput_links, Function.update_of_ne (input_slot_ne_itail_slot hnext hs).symm,
    Function.update_of_ne (input_slot_ne_itail_slot hlast hs).symm]

/-- The list of run ends when `t` continues a run: nothing changes. -/
lemma unlinkItail_of_continued {mark : Nat → Bool} {y : Nat}
    (hnodup : (xs ++ t :: y :: ys).Nodup) (hxs : ∀ z ∈ xs, mark z ≠ mark t)
    (hy : mark t = mark y)
    (hchain : Chain Slot.nextItail q.links .firstItail (Runs.ends mark (xs ++ t :: y :: ys))) :
    Runs.ends mark (xs ++ t :: y :: ys) = Runs.ends mark (xs ++ y :: ys) ∧
      q.unlinkItail (lastSlot Slot.nextItail .firstItail (Runs.ends mark xs)) t = q := by
  have hends : Runs.ends mark (xs ++ t :: y :: ys)
      = Runs.ends mark xs ++ Runs.ends mark (y :: ys) := by
    rw [Runs.ends_append_of_ne hxs, Runs.ends_cons_of_eq hy]
  refine ⟨?_, ?_⟩
  · rw [hends, Runs.ends_append_of_ne fun z hz => hy ▸ hxs z hz]
  · rw [hends, chain_append] at hchain
    unfold unlinkItail
    rw [if_neg]
    rw [hchain.2.get_eq_head?]
    intro hhead
    have hmem : t ∈ y :: ys := Runs.ends_sublist.subset (List.mem_of_mem_head? hhead)
    exact (List.nodup_cons.mp (List.nodup_append.mp hnodup).2.1).1 hmem

/-- The end of the list of run ends is where `last_itail` points. -/
lemma links_lastSlot_dropLast {links : Slot → Option Nat} {s : Slot} {es : List Nat}
    (hne : es ≠ []) (hchain : Chain Slot.nextItail links s es) :
    links (lastSlot Slot.nextItail s es.dropLast) ≠ none := by
  have hes : es = es.dropLast ++ [es.getLast hne] := (List.dropLast_append_getLast hne).symm
  rw [hes, chain_append, chain_cons] at hchain
  rw [hchain.2.1]
  exact Option.some_ne_none _

/-- The list of run ends when `t` is the last run. -/
lemma unlinkItail_of_last {mark : Nat → Bool} (hnodup : (xs ++ [t]).Nodup)
    (hxs : ∀ z ∈ xs, mark z ≠ mark t)
    (hchain : Chain Slot.nextItail q.links .firstItail (Runs.ends mark (xs ++ [t])))
    (hlast : q.lastItail
      = lastSlot Slot.nextItail .firstItail (Runs.ends mark (xs ++ [t])).dropLast) :
    q.unlinkItail (lastSlot Slot.nextItail .firstItail (Runs.ends mark xs)) t
        = { q.set (lastSlot Slot.nextItail .firstItail (Runs.ends mark xs)) none with
            lastItail := .firstItail } ∧
      Chain Slot.nextItail
        (q.set (lastSlot Slot.nextItail .firstItail (Runs.ends mark xs)) none).links
        .firstItail (Runs.ends mark xs) ∧
      lastSlot Slot.nextItail .firstItail (Runs.ends mark xs).dropLast = .firstItail := by
  have hends : Runs.ends mark (xs ++ [t]) = Runs.ends mark xs ++ [t] :=
    Runs.ends_append_of_ne hxs
  have hnodup' : (Runs.ends mark xs ++ [t]).Nodup := hends ▸ Runs.ends_sublist.nodup hnodup
  rw [hends, chain_append, chain_cons, chain_nil] at hchain
  rw [hends, List.dropLast_concat] at hlast
  obtain ⟨hpath, ht, hnone⟩ := hchain
  refine ⟨?_, ?_, ?_⟩
  · have hclear : (q.set (lastSlot Slot.nextItail .firstItail (Runs.ends mark xs)) none).links
        (.nextItail t) = none := by
      rw [set_links]
      by_cases heq : Slot.nextItail t = lastSlot Slot.nextItail .firstItail (Runs.ends mark xs)
      · rw [← heq, Function.update_self]
      · rw [Function.update_of_ne heq, hnone]
    unfold unlinkItail
    rw [if_pos ht, hclear]
    simp only [resetLastItail, set_lastItail, set_links, hlast, Function.update_self, if_true]
  · rw [← List.append_nil (Runs.ends mark xs)]
    refine Chain.splice ?_ hpath (fun s _ hs => ?_) ?_
    · rw [List.append_nil]
      exact nodup_itailSlots hnodup'.of_append_left
    · rw [set_links, List.append_nil, Function.update_of_ne hs]
    · rw [chain_nil, set_links, List.append_nil, Function.update_self]
  · rw [Runs.ends_of_ne hxs]
    cases xs.getLast? <;> rfl

/-- The list of run ends when `t` is a run of its own in front of another: the runs around
it become one. -/
lemma unlinkItail_of_single {mark : Nat → Bool} {y : Nat} (hnodup : (xs ++ t :: y :: ys).Nodup)
    (hxs : ∀ z ∈ xs, mark z ≠ mark t) (hy : mark t ≠ mark y)
    (hchain : Chain Slot.nextItail q.links .firstItail (Runs.ends mark (xs ++ t :: y :: ys)))
    (hlast : q.lastItail
      = lastSlot Slot.nextItail .firstItail (Runs.ends mark (xs ++ t :: y :: ys)).dropLast) :
    Chain Slot.nextItail
        (q.unlinkItail (lastSlot Slot.nextItail .firstItail (Runs.ends mark xs)) t).links
        .firstItail (Runs.ends mark (xs ++ y :: ys)) ∧
      (q.unlinkItail (lastSlot Slot.nextItail .firstItail (Runs.ends mark xs)) t).lastItail
        = lastSlot Slot.nextItail .firstItail (Runs.ends mark (xs ++ y :: ys)).dropLast := by
  have hends : Runs.ends mark (xs ++ t :: y :: ys)
      = Runs.ends mark xs ++ t :: Runs.ends mark (y :: ys) := by
    rw [Runs.ends_append_of_ne hxs, Runs.ends_cons_of_ne hy]
  have hends' : Runs.ends mark (xs ++ y :: ys) = Runs.ends mark (y :: ys) := by
    refine Runs.ends_append_of_eq fun z hz => ?_
    exact (Bool.eq_not_of_ne (hxs z hz)).trans (Bool.eq_not_of_ne hy.symm).symm
  have hnodup' : (Runs.ends mark xs ++ t :: Runs.ends mark (y :: ys)).Nodup :=
    hends ▸ Runs.ends_sublist.nodup hnodup
  rw [hends, chain_append, chain_cons] at hchain
  rw [hends] at hlast
  obtain ⟨hpath, ht, hrest⟩ := hchain
  rw [hends']
  have hne : Runs.ends mark (y :: ys) ≠ [] := Runs.ends_ne_nil
  generalize Runs.ends mark (y :: ys) = rest at *
  generalize Runs.ends mark xs = front at *
  obtain ⟨e, es, rfl⟩ := List.exists_cons_of_ne_nil hne
  have hfront : lastSlot Slot.nextItail .firstItail front
      ∈ slots Slot.nextItail .firstItail front := lastSlot_mem_slots
  have hcross : ∀ p ∈ t :: e :: es,
      Slot.nextItail p ≠ lastSlot Slot.nextItail .firstItail front := by
    intro p hp heq
    rcases itail_slot (heq ▸ hfront) with hs | ⟨p', hp', hs⟩
    · exact absurd hs (by rintro ⟨⟩)
    · exact (List.nodup_append.mp hnodup').2.2 p' hp' p hp (nextItail_injective hs).symm
  have htes : t ∉ e :: es := (List.nodup_cons.mp (List.nodup_append.mp hnodup').2.1).1
  have hclear : (q.set (lastSlot Slot.nextItail .firstItail front) none).links (.nextItail t)
      = some e := by
    rw [set_links, Function.update_of_ne (hcross t (by simp))]
    exact hrest.get_eq_head?
  have hstep : q.unlinkItail (lastSlot Slot.nextItail .firstItail front) t
      = (((q.set (lastSlot Slot.nextItail .firstItail front) none).set .firstItail
        (some e)).set (.nextItail t) none).resetLastItail := by
    unfold unlinkItail
    rw [if_pos ht, hclear]
  have hchain' : Chain Slot.nextItail (q.unlinkItail
      (lastSlot Slot.nextItail .firstItail front) t).links .firstItail (e :: es) := by
    rw [hstep]
    refine Chain.move (fun p hp => ?_) ?_ hrest
    · have hpt : p ≠ t := by
        rintro rfl
        exact htes hp
      rw [resetLastItail_links, set_links, Function.update_of_ne
        fun heq => hpt (nextItail_injective heq), set_links, Function.update_of_ne (by rintro ⟨⟩),
        set_links, Function.update_of_ne (hcross p (List.mem_cons_of_mem _ hp))]
    · rw [resetLastItail_links, set_links, Function.update_of_ne (by rintro ⟨⟩), set_links,
        Function.update_self, hrest.get_eq_head?]
      rfl
  refine ⟨hchain', ?_⟩
  have hlast' : q.lastItail = lastSlot Slot.nextItail (.nextItail t) (e :: es).dropLast := by
    rw [hlast, List.dropLast_append_of_ne_nil (List.cons_ne_nil _ _), lastSlot_append]
    rfl
  have hreset : (q.unlinkItail (lastSlot Slot.nextItail .firstItail front) t).lastItail
      = if (q.unlinkItail (lastSlot Slot.nextItail .firstItail front) t).links q.lastItail = none
        then .firstItail else q.lastItail := by
    rw [hstep]
    rfl
  rw [hreset]
  cases es with
  | nil =>
    rw [if_pos]
    · rfl
    · rw [hlast', hstep]
      exact Function.update_self _ _ _
  | cons e' es =>
    have hsame : lastSlot Slot.nextItail (.nextItail t) (e :: e' :: es).dropLast
        = lastSlot Slot.nextItail .firstItail (e :: e' :: es).dropLast := rfl
    rw [hlast', hsame, if_neg]
    exact links_lastSlot_dropLast (List.cons_ne_nil _ _) hchain'

/-- Taking out of the list of run ends touches nothing else. -/
lemma unlinkItail_frame (ps : List Nat) (q : InputQueue) (front : List Nat) (t : Nat) :
    (∀ s ∈ slots Slot.next .firstInput ps,
      (q.unlinkItail (lastSlot Slot.nextItail .firstItail front) t).links s = q.links s) ∧
    (q.unlinkItail (lastSlot Slot.nextItail .firstItail front) t).tasks = q.tasks ∧
    (q.unlinkItail (lastSlot Slot.nextItail .firstItail front) t).lastInput = q.lastInput := by
  have hset (s : Slot) (hs : s ∈ slots Slot.next .firstInput ps) :
      (q.set (lastSlot Slot.nextItail .firstItail front) none).links s = q.links s := by
    rw [set_links, Function.update_of_ne (input_slot_ne_itail_slot hs lastSlot_mem_slots)]
  unfold unlinkItail
  split
  · split
    · refine ⟨fun s hs => ?_, rfl, rfl⟩
      rw [resetLastItail_links, set_links, Function.update_of_ne, set_links, Function.update_of_ne,
        hset s hs]
      all_goals
        rintro rfl
        rcases input_slot hs with hs | ⟨p, -, hs⟩ <;> cases hs
    · exact ⟨hset, rfl, rfl⟩
  · exact ⟨fun _ _ => rfl, rfl, rfl⟩

/-- `t` is taken out of both lists, where all lines in front of it are of the other kind. -/
lemma Threaded.unlink (h : q.Threaded (xs ++ t :: ys) (as ++ c :: bs))
    (hlen : xs.length = as.length) (hxs : ∀ z ∈ xs, q.oobAt z ≠ q.oobAt t) :
    ((q.unlinkInput (lastSlot Slot.next .firstInput xs) t).unlinkItail
      (lastSlot Slot.nextItail .firstItail (Runs.ends q.oobAt xs)) t).Threaded
      (xs ++ ys) (as ++ bs) := by
  obtain ⟨hinput, hlastInput⟩ := h.unlinkInput
  generalize hq₁ : q.unlinkInput (lastSlot Slot.next .firstInput xs) t = q₁ at *
  have hitail : Chain Slot.nextItail q₁.links .firstItail (Runs.ends q.oobAt (xs ++ t :: ys)) :=
    h.itail.congr fun s hs => hq₁ ▸ unlinkInput_itail hs
  have hlastItail : q₁.lastItail
      = lastSlot Slot.nextItail .firstItail (Runs.ends q.oobAt (xs ++ t :: ys)).dropLast := by
    rw [← hq₁, unlinkInput_lastItail, h.lastItail]
  have htasks : q₁.tasks = q.tasks := by
    rw [← hq₁, unlinkInput_tasks]
  obtain ⟨hframe, htasks', hframe'⟩ :=
    unlinkItail_frame (xs ++ ys) q₁ (Runs.ends q.oobAt xs) t
  have hoob : (q₁.unlinkItail (lastSlot Slot.nextItail .firstItail (Runs.ends q.oobAt xs))
      t).oobAt = q.oobAt := by
    funext p
    rw [oobAt, oobAt, htasks', htasks]
  have hcontents : (xs ++ ys).map q.tasks = (as ++ bs).map some := by
    have hmap := h.contents
    simp only [List.map_append, List.map_cons] at hmap ⊢
    obtain ⟨h₁, h₂⟩ := List.append_inj hmap (by simpa using hlen)
    rw [h₁, (List.cons.inj h₂).2]
  refine ⟨?_, h.nodup.sublist (by simp), hinput.congr hframe, ?_, hframe'.trans hlastInput, ?_⟩
  · rw [htasks', htasks]
    exact hcontents
  all_goals rw [hoob]
  · cases ys with
    | nil =>
      obtain ⟨hstep, hchain, -⟩ := unlinkItail_of_last h.nodup hxs hitail hlastItail
      rw [hstep, List.append_nil]
      exact hchain
    | cons y ys =>
      by_cases hy : q.oobAt t = q.oobAt y
      · obtain ⟨hends, hstep⟩ := unlinkItail_of_continued h.nodup hxs hy hitail
        rw [hstep, ← hends]
        exact hitail
      · exact (unlinkItail_of_single h.nodup hxs hy hitail hlastItail).1
  · cases ys with
    | nil =>
      obtain ⟨hstep, -, hlast⟩ := unlinkItail_of_last h.nodup hxs hitail hlastItail
      rw [hstep, List.append_nil, hlast]
    | cons y ys =>
      by_cases hy : q.oobAt t = q.oobAt y
      · obtain ⟨hends, hstep⟩ := unlinkItail_of_continued h.nodup hxs hy hitail
        rw [hstep, ← hends]
        exact hlastItail
      · exact (unlinkItail_of_single h.nodup hxs hy hitail hlastItail).2

/-! ### Selectors -/

lemma skips_eq_not_selects {how : DequeueHow} {d : Bool} (h : ¬ (d = true ∧ how = .oob))
    (c : InputTask) : (if d then .first else how).skips c.isOob = !selects how d c := by
  cases d <;> cases how <;> simp_all [DequeueHow.skips, selects]

/-- A line in front of the selected one is of the other kind. -/
lemma isOob_ne_of_selects {how : DequeueHow} {d : Bool} {c c' : InputTask}
    (hc : selects how d c = false) (hc' : selects how d c' = true) : c.isOob ≠ c'.isOob := by
  cases d <;> cases how <;> simp_all [selects]

/-- The slots `dequeue_input_task` works on when the line to take is `t`. -/
lemma Threaded.findInput {how : DequeueHow} {b : Bool} {f : Nat} {zs : List Nat}
    (h : q.Threaded (f :: zs) ls) (hsplit : f :: zs = xs ++ ys)
    (hskip : how.skips b = !xs.isEmpty) {m : Bool} (hxs : ∀ z ∈ xs, q.oobAt z ≠ m)
    (hys : ∀ y ∈ ys.head?, q.oobAt y = m) :
    q.findInput how b = some (lastSlot Slot.next .firstInput xs,
      lastSlot Slot.nextItail .firstItail (Runs.ends q.oobAt xs)) := by
  unfold InputQueue.findInput
  rcases List.eq_nil_or_concat' xs with rfl | ⟨xs, x, rfl⟩
  · rw [hskip]
    rfl
  · have hends : Runs.ends q.oobAt (xs ++ [x]) = [x] := by
      rw [Runs.ends_of_ne hxs, List.getLast?_concat]
      rfl
    have hfirst : q.links .firstItail = some x := by
      rw [h.itail.get_eq_head?, hsplit]
      cases ys with
      | nil => rw [List.append_nil, hends]; rfl
      | cons y ys =>
        have hy : q.oobAt y = m := hys y rfl
        rw [Runs.ends_append_of_ne fun z hz => hy ▸ hxs z hz, hends]
        rfl
    rw [hskip, hends, lastSlot_concat, if_pos (by simp), hfirst]
    rfl

/-- Dequeueing when no line is selected. -/
lemma Threaded.dequeue_none (cfg : InputConfig) {how : DequeueHow} (h : q.Threaded ps ls)
    (hfind : ls.find? (selects how q.disableOob) = none) :
    q.dequeueInputTask cfg how = some (none, q) := by
  unfold InputQueue.dequeueInputTask
  by_cases hoob : q.disableOob = true ∧ how = .oob
  · rw [if_pos hoob]
  · rw [if_neg hoob]
    have hnot := List.find?_eq_none.mp hfind
    cases ps with
    | nil => rw [chain_nil.mp h.input]
    | cons f zs =>
      obtain ⟨c, hc, htask⟩ := h.tasks_of_mem (p := f) (by simp)
      have hsel : selects how q.disableOob c = false := by simpa using hnot c hc
      have hskip : (if q.disableOob then .first else how).skips c.isOob = !(f :: zs).isEmpty := by
        rw [skips_eq_not_selects hoob, hsel]
        rfl
      have hmarks (z : Nat) (hz : z ∈ f :: zs) : q.oobAt z ≠ !c.isOob := by
        obtain ⟨c', hc', htask'⟩ := h.tasks_of_mem hz
        have hsel' : selects how q.disableOob c' = false := by simpa using hnot c' hc'
        have heq : c'.isOob = c.isOob := by
          cases hd : q.disableOob <;> cases how <;> simp_all [selects]
        simp [oobAt, htask', heq]
      have hfindInput := h.findInput (List.append_nil _).symm hskip hmarks (by simp)
      have hend : q.links (lastSlot Slot.next .firstInput (f :: zs)) = none := h.input.2
      simp only [h.input.get_eq_head?, List.head?_cons, htask, hfindInput, hend, bind, Option.bind]
      rfl

/-- Dequeueing when `t` holds the first selected line. -/
lemma Threaded.dequeue_some (cfg : InputConfig) {how : DequeueHow}
    (h : q.Threaded (xs ++ t :: ys) (as ++ c :: bs)) (hlen : xs.length = as.length)
    (has : ∀ a ∈ as, selects how q.disableOob a = false)
    (hc : selects how q.disableOob c = true) :
    ∃ q', q.dequeueInputTask cfg how = some (some t, q') ∧ q'.Threaded (xs ++ ys) (as ++ bs) ∧
      q'.tasks t = some (deliver cfg q.disableOob c) ∧ q'.disableOob = q.disableOob ∧
      q'.totalInputLength = q.totalInputLength - c.length := by
  have hmap := h.contents
  simp only [List.map_append, List.map_cons] at hmap
  obtain ⟨hmapx, hmapy⟩ := List.append_inj hmap (by simpa using hlen)
  have htask : q.tasks t = some c := (List.cons.inj hmapy).1
  have hoob : ¬ (q.disableOob = true ∧ how = .oob) := by
    rintro ⟨hd, rfl⟩
    rw [hd] at hc
    exact absurd hc (by simp [selects])
  have hxs (z : Nat) (hz : z ∈ xs) : q.oobAt z ≠ q.oobAt t := by
    have hmem : q.tasks z ∈ as.map some := hmapx ▸ List.mem_map_of_mem hz
    obtain ⟨a, ha, heq⟩ := List.mem_map.mp hmem
    have hne := isOob_ne_of_selects (has a ha) hc
    simpa [oobAt, htask, ← heq] using hne
  obtain ⟨f, zs, hsplit⟩ : ∃ f zs, f :: zs = xs ++ t :: ys := by
    cases xs with
    | nil => exact ⟨t, ys, rfl⟩
    | cons x xs => exact ⟨x, xs ++ t :: ys, rfl⟩
  have hpath := chain_append.mp h.input
  have hpt : q.links (lastSlot Slot.next .firstInput xs) = some t := (chain_cons.mp hpath.2).1
  have hunlink := h.unlink hlen hxs
  have hfree : t ∉ xs ++ ys := by
    have := List.nodup_append.mp h.nodup
    rw [List.mem_append, not_or]
    exact ⟨fun hx => this.2.2 t hx t (by simp) rfl, (List.nodup_cons.mp this.2.1).1⟩
  generalize hq' : (q.unlinkInput (lastSlot Slot.next .firstInput xs) t).unlinkItail
    (lastSlot Slot.nextItail .firstItail (Runs.ends q.oobAt xs)) t = q₂ at hunlink
  have hdis : q₂.disableOob = q.disableOob ∧ q₂.totalInputLength = q.totalInputLength := by
    rw [← hq']
    unfold unlinkItail InputQueue.unlinkInput
    split <;> split <;> first | exact ⟨rfl, rfl⟩ | split <;> exact ⟨rfl, rfl⟩
  rw [← hsplit] at h
  obtain ⟨c₀, hc₀, hfirst⟩ := h.tasks_of_mem (p := f) (by simp)
  have hskip : (if q.disableOob then .first else how).skips c₀.isOob = !xs.isEmpty := by
    rw [skips_eq_not_selects hoob]
    cases xs with
    | nil =>
      obtain ⟨rfl, rfl⟩ := List.cons.inj hsplit
      obtain rfl : c₀ = c := Option.some.inj (hfirst.symm.trans htask)
      rw [hc]
      rfl
    | cons x xs =>
      obtain ⟨rfl, -⟩ := List.cons.inj hsplit
      have hmem : q.tasks f ∈ as.map some := hmapx ▸ List.mem_map_of_mem (by simp)
      obtain ⟨a, ha, heq⟩ := List.mem_map.mp hmem
      obtain rfl : c₀ = a := Option.some.inj (hfirst.symm.trans heq.symm)
      rw [has _ ha]
      rfl
  have hfindInput := h.findInput hsplit hskip hxs (by simp)
  refine ⟨q₂.finishDequeue cfg t c, ?_, ?_, ?_, hdis.1, ?_⟩
  · unfold InputQueue.dequeueInputTask
    rw [if_neg hoob]
    simp only [h.input.get_eq_head?, List.head?_cons, hfirst, hfindInput, hpt, htask, hq', bind,
      Option.bind]
    rfl
  · refine hunlink.congr (fun _ _ => rfl) (fun p hp => ?_) rfl rfl
    change Function.update q₂.tasks t _ p = q₂.tasks p
    rw [Function.update_of_ne]
    rintro rfl
    exact hfree hp
  · change Function.update q₂.tasks t _ t = _
    rw [Function.update_self, hdis.1]
  · change q₂.totalInputLength - _ = _
    rw [hdis.2]

lemma Threaded.freeTask (h : q.Threaded ps ls) (ht : t ∉ ps) : (q.freeTask t).Threaded ps ls := by
  refine h.congr (fun _ _ => rfl) (fun p hp => ?_) rfl rfl
  change Function.update q.tasks t none p = q.tasks p
  rw [Function.update_of_ne]
  rintro rfl
  exact ht hp

/-- Dequeueing removes exactly the first selected line, and frees nothing else. -/
lemma Represents.dequeueInputTask (cfg : InputConfig) (how : DequeueHow)
    (h : q.Represents ps ls) :
    (ls.find? (selects how q.disableOob) = none ∧
        q.dequeueInputTask cfg how = some (none, q)) ∨
      ∃ c t q', ls.find? (selects how q.disableOob) = some c ∧
        q.dequeueInputTask cfg how = some (some t, q') ∧
        q'.tasks t = some (deliver cfg q.disableOob c) ∧
        (q'.freeTask t).disableOob = q.disableOob ∧
        ∃ ps', (q'.freeTask t).Represents ps' (ls.eraseP (selects how q.disableOob)) := by
  cases hfind : ls.find? (selects how q.disableOob) with
  | none => exact Or.inl ⟨rfl, h.dequeue_none cfg hfind⟩
  | some c =>
    obtain ⟨hc, as, bs, rfl, has⟩ := List.find?_eq_some_iff_append.mp hfind
    have has' : ∀ a ∈ as, selects how q.disableOob a = false := fun a ha => by
      simpa using has a ha
    have hlen : ps.length = as.length + (bs.length + 1) := by
      have := congrArg List.length h.contents
      simpa using this
    obtain ⟨xs, zs, rfl, hxs⟩ : ∃ xs zs, ps = xs ++ zs ∧ xs.length = as.length :=
      ⟨ps.take as.length, ps.drop as.length, (List.take_append_drop _ _).symm, by
        rw [List.length_take]; omega⟩
    obtain ⟨t, ys, rfl⟩ : ∃ t ys, zs = t :: ys := by
      cases zs with
      | nil =>
        rw [List.length_append, List.length_nil] at hlen
        omega
      | cons t ys => exact ⟨t, ys, rfl⟩
    obtain ⟨q', hq', hth, htask, hdis, htot⟩ := h.toThreaded.dequeue_some cfg hxs has' hc
    have hfree : t ∉ xs ++ ys := by
      have := List.nodup_append.mp h.nodup
      rw [List.mem_append, not_or]
      exact ⟨fun hx => this.2.2 t hx t (by simp) rfl, (List.nodup_cons.mp this.2.1).1⟩
    have herase : (as ++ c :: bs).eraseP (selects how q.disableOob) = as ++ bs := by
      rw [List.eraseP_append_right _ (fun a ha => by simp [has' a ha]),
        List.eraseP_cons_of_pos hc]
    refine Or.inr ⟨c, t, q', rfl, hq', htask, hdis, xs ++ ys, ?_⟩
    rw [herase]
    refine ⟨hth.freeTask hfree, ?_⟩
    change q'.totalInputLength = _
    rw [htot, h.length]
    simp only [List.map_append, List.map_cons, List.sum_append, List.sum_cons]
    omega

/-- Flushing hands out every line in order. -/
lemma Represents.flushInput (cfg : InputConfig) (fuel : Nat) (h : q.Represents ps ls) :
    (ls.length < fuel → ∃ q' ps', q.flushInput cfg fuel
        = some (ls.map (deliver cfg q.disableOob), q') ∧ q'.Represents ps' [] ∧
          q'.disableOob = q.disableOob) ∧
      (fuel ≤ ls.length → q.flushInput cfg fuel = none) := by
  induction fuel generalizing q ps ls with
  | zero => exact ⟨fun hlt => absurd hlt (by omega), fun _ => rfl⟩
  | succ fuel ih =>
    have hsel (c : InputTask) : selects .first q.disableOob c = true := by
      cases q.disableOob <;> rfl
    unfold InputQueue.flushInput
    rcases h.dequeueInputTask cfg .first with ⟨hfind, hdeq⟩ | ⟨c, t, q', hfind, hdeq, htask, hdis, ps', hrep⟩
    · cases ls with
      | nil =>
        rw [hdeq]
        exact ⟨fun _ => ⟨q, ps, rfl, h, rfl⟩, fun hle => absurd hle (by simp)⟩
      | cons c ls =>
        rw [List.find?_cons_of_pos (hsel c)] at hfind
        exact absurd hfind (by simp)
    · cases ls with
      | nil => exact absurd hfind (by simp)
      | cons c' ls =>
        rw [List.find?_cons_of_pos (hsel c')] at hfind
        obtain rfl := Option.some.inj hfind
        rw [List.eraseP_cons_of_pos (hsel c')] at hrep
        obtain ⟨ihlt, ihle⟩ := ih hrep
        rw [hdis] at ihlt
        rw [hdeq]
        refine ⟨fun hlt => ?_, fun hle => ?_⟩
        · obtain ⟨q'', ps'', hflush, hrep'', hdis''⟩ := ihlt (by simpa using hlt)
          refine ⟨q'', ps'', ?_, hrep'', hdis''⟩
          simp only [bind, Option.bind, htask, hflush]
          rfl
        · have hnone := ihle (by simpa using hle)
          simp only [bind, Option.bind, htask, hnone]

end

end InputQueue

/-! ### Runs -/

/-- What happens to an input queue. -/
inductive InputEvent where
  | enqueue (input : List UInt8) (atFront binary : Bool)
  | dequeue (how : DequeueHow)
  | flush
  | setDisableOob (value : Bool)
  | setConnected (value : Bool)

open InputQueue

section

variable (cfg : InputConfig)

/-- One event, with the lines it hands out. A new task is put anywhere in unused memory, and
a line that was handed out is freed. -/
inductive InputStep : InputEvent → InputQueue → List InputTask → InputQueue → Prop where
  | enqueue {q q' : InputQueue} {t : Nat} {input : List UInt8} {atFront binary : Bool}
      (ht : q.tasks t = none) (h : q.enqueueInputTask cfg t input atFront binary = some q') :
      InputStep (.enqueue input atFront binary) q [] q'
  | dequeueNone {q q' : InputQueue} {how : DequeueHow}
      (h : q.dequeueInputTask cfg how = some (none, q')) : InputStep (.dequeue how) q [] q'
  | dequeueSome {q q' : InputQueue} {how : DequeueHow} {t : Nat} {c : InputTask}
      (h : q.dequeueInputTask cfg how = some (some t, q')) (hc : q'.tasks t = some c) :
      InputStep (.dequeue how) q [c] (q'.freeTask t)
  | flush {q q' : InputQueue} {fuel : Nat} {cs : List InputTask}
      (h : q.flushInput cfg fuel = some (cs, q')) : InputStep .flush q cs q'
  | setDisableOob {q : InputQueue} {value : Bool} :
      InputStep (.setDisableOob value) q [] { q with disableOob := value }
  | setConnected {q : InputQueue} {value : Bool} :
      InputStep (.setConnected value) q [] { q with connected := value }

/-- A run from the empty queue, with the lines each event hands out. -/
inductive InputRun : List InputEvent → List (List InputTask) → InputQueue → Prop where
  | start (tasks : Nat → Option InputTask) : InputRun [] [] (InputQueue.empty tasks)
  | step {es : List InputEvent} {outs : List (List InputTask)} {q q' : InputQueue}
      {e : InputEvent} {out : List InputTask} (hr : InputRun es outs q)
      (hs : InputStep cfg e q out q') : InputRun (es ++ [e]) (outs ++ [out]) q'

/-- The plain list the queue stands for, with the connection option that makes every line
one in band. -/
structure LineList where
  disableOob : Bool
  lines : List InputTask

def LineList.empty : LineList := ⟨false, []⟩

/-- One event on the plain list. -/
def LineList.step (e : InputEvent) (s : LineList) : List InputTask × LineList :=
  match e with
  | .enqueue input atFront binary =>
    ([], { s with lines := addLine (newLine cfg input binary) atFront s.lines })
  | .dequeue how =>
    (((s.lines.find? (selects how s.disableOob)).map (deliver cfg s.disableOob)).toList,
      { s with lines := s.lines.eraseP (selects how s.disableOob) })
  | .flush => (s.lines.map (deliver cfg s.disableOob), { s with lines := [] })
  | .setDisableOob value => ([], { s with disableOob := value })
  | .setConnected _ => ([], s)

/-- The plain list after a run, and what each event hands out. -/
def LineList.run (es : List InputEvent) : List (List InputTask) × LineList :=
  es.foldl (fun r e => ((r.1 ++ [(r.2.step cfg e).1]), (r.2.step cfg e).2)) ([], LineList.empty)

lemma LineList.run_concat (es : List InputEvent) (e : InputEvent) :
    LineList.run cfg (es ++ [e]) = ((LineList.run cfg es).1 ++ [((LineList.run cfg es).2.step cfg e).1],
      ((LineList.run cfg es).2.step cfg e).2) := by
  simp [LineList.run]

/-- An input queue stands for a plain list. -/
def InputQueue.Refines (q : InputQueue) (s : LineList) : Prop :=
  q.disableOob = s.disableOob ∧ ∃ ps, q.Represents ps s.lines

variable {cfg} {q q' : InputQueue} {s : LineList}

/-- One event does to the queue what it does to the list. -/
lemma InputStep.refines {e : InputEvent} {out : List InputTask} (hs : InputStep cfg e q out q')
    (h : q.Refines s) : out = (s.step cfg e).1 ∧ q'.Refines (s.step cfg e).2 := by
  obtain ⟨hdis, ps, hrep⟩ := h
  cases hs with
  | enqueue ht hstep =>
    obtain ⟨q₁, ps₁, hq₁, hrep₁, hdis₁⟩ := hrep.enqueueInputTask cfg ht _ _ _
    obtain rfl := Option.some.inj (hstep.symm.trans hq₁)
    exact ⟨rfl, hdis₁.trans hdis, ps₁, hrep₁⟩
  | dequeueNone hstep =>
    rcases hrep.dequeueInputTask cfg _ with ⟨hfind, hq₁⟩ | ⟨c, t, q₁, -, hq₁, -⟩
    · obtain ⟨-, rfl⟩ := Prod.mk.inj (Option.some.inj (hstep.symm.trans hq₁))
      rw [hdis] at hfind
      refine ⟨by simp [LineList.step, hfind], hdis, ps, ?_⟩
      have herase : s.lines.eraseP (selects _ s.disableOob) = s.lines :=
        List.eraseP_of_forall_not fun a ha => by simpa using List.find?_eq_none.mp hfind a ha
      simp only [LineList.step]
      rw [herase]
      exact hrep
    · exact absurd (Prod.mk.inj (Option.some.inj (hstep.symm.trans hq₁))).1 (by simp)
  | dequeueSome hstep hc =>
    rcases hrep.dequeueInputTask cfg _ with ⟨-, hq₁⟩ | ⟨c, t, q₁, hfind, hq₁, htask, hdis₁, ps₁, hrep₁⟩
    · exact absurd (Prod.mk.inj (Option.some.inj (hstep.symm.trans hq₁))).1 (by simp)
    · obtain ⟨ht, rfl⟩ := Prod.mk.inj (Option.some.inj (hstep.symm.trans hq₁))
      obtain rfl := Option.some.inj ht
      obtain rfl := Option.some.inj (hc.symm.trans htask)
      rw [hdis] at hfind hrep₁ hdis₁ ⊢
      exact ⟨by simp [LineList.step, hfind], hdis₁, ps₁, hrep₁⟩
  | flush hstep =>
    rename_i fuel
    obtain ⟨hlt, hle⟩ := hrep.flushInput cfg fuel
    by_cases hfuel : s.lines.length < fuel
    · obtain ⟨q₁, ps₁, hq₁, hrep₁, hdis₁⟩ := hlt hfuel
      obtain ⟨rfl, rfl⟩ := Prod.mk.inj (Option.some.inj (hstep.symm.trans hq₁))
      rw [hdis]
      exact ⟨rfl, hdis₁.trans hdis, ps₁, hrep₁⟩
    · rw [hle (by omega)] at hstep
      exact absurd hstep (by simp)
  | setDisableOob =>
    exact ⟨rfl, rfl, ps, hrep.congr (fun _ _ => rfl) (fun _ _ => rfl) rfl rfl, hrep.length⟩
  | setConnected =>
    exact ⟨rfl, hdis, ps, hrep.congr (fun _ _ => rfl) (fun _ _ => rfl) rfl rfl, hrep.length⟩

/-- No event gets stuck on a null pointer, and flushing ends. -/
lemma InputQueue.Refines.progress (h : q.Refines s) :
    (∀ t input atFront binary, q.tasks t = none →
        (q.enqueueInputTask cfg t input atFront binary).isSome) ∧
      (∀ how, (q.dequeueInputTask cfg how).isSome) ∧ ∃ fuel, (q.flushInput cfg fuel).isSome := by
  obtain ⟨-, ps, hrep⟩ := h
  refine ⟨fun t input atFront binary ht => ?_, fun how => ?_, s.lines.length + 1, ?_⟩
  · obtain ⟨q', -, hq', -⟩ := hrep.enqueueInputTask cfg ht input atFront binary
    rw [hq']
    rfl
  · rcases hrep.dequeueInputTask cfg how with ⟨-, hq'⟩ | ⟨c, t, q', -, hq', -⟩ <;> rw [hq'] <;> rfl
  · obtain ⟨q', -, hq', -⟩ := (hrep.flushInput cfg (s.lines.length + 1)).1 (by omega)
    rw [hq']
    rfl

end

/-- The values of `options.h`: the prefixes are `#$#` and `#$"`. -/
def defaultInputConfig : InputConfig := ⟨[35, 36, 35], [35, 36, 34], 65536⟩

/-- An out-of-band line, then one in band, which is taken first. -/
lemma exists_sampleInputRun : ∃ q, InputRun defaultInputConfig
    [.enqueue [35, 36, 35] false false, .enqueue [97] false false, .dequeue .inband]
    [[], [], [⟨.inband, [97], 1⟩]] q := by
  refine ⟨_, ((InputRun.start fun _ => none).step (.enqueue (t := 0) rfl rfl)).step
    (.enqueue (t := 1) rfl rfl) |>.step (.dequeueSome (t := 1) rfl rfl)⟩

end LambdaMOO
