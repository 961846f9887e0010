import Mathlib.Data.List.Basic

/-!
# Block queues

A queue of blocks whose front goes out piece by piece, or is dropped. The ledger of such a
queue keeps for every block what went out of it and what did not.
-/

namespace BlockQueue

variable {α : Type*}

/-- The blocks that are gone, each with what went out of it and what was dropped, what went out
of the block in front, and what is left of the blocks in the queue. -/
structure Ledger (α : Type*) where
  gone : List (List α × Option (List α))
  begun : List α
  queue : List (List α)
  idle : queue = [] → begun = []

namespace Ledger

def empty : Ledger α := ⟨[], [], [], fun _ => rfl⟩

/-- All blocks there have been, in order. -/
def accepted (l : Ledger α) : List (List α) :=
  l.gone.map (fun p => p.1 ++ p.2.getD []) ++
    match l.queue with
    | [] => []
    | b :: bs => (l.begun ++ b) :: bs

/-- What went out. -/
def written (l : Ledger α) : List α := l.gone.flatMap (·.1) ++ l.begun

/-- What was dropped, block by block. -/
def lost (l : Ledger α) : List (List α) := l.gone.filterMap (·.2)

/-- So many elements go out, and with the last of its elements a block. -/
def write (n : Nat) : Ledger α → Ledger α
  | ⟨gone, begun, [], idle⟩ => ⟨gone, begun, [], idle⟩
  | ⟨gone, begun, b :: bs, _⟩ =>
    if b.length ≤ n then ⟨gone ++ [(begun ++ b, none)], [], bs, fun _ => rfl⟩
    else ⟨gone, begun ++ b.take n, b.drop n :: bs, nofun⟩

/-- The block in front is dropped. -/
def drop : Ledger α → Ledger α
  | ⟨gone, begun, [], idle⟩ => ⟨gone, begun, [], idle⟩
  | ⟨gone, begun, b :: bs, _⟩ => ⟨gone ++ [(begun, some b)], [], bs, fun _ => rfl⟩

/-- A block comes in at the end. -/
def accept (b : List α) (l : Ledger α) : Ledger α :=
  ⟨l.gone, l.begun, l.queue ++ [b], fun h => absurd h (List.concat_ne_nil _ _)⟩

variable (l : Ledger α) {b : List α} {bs : List (List α)}

lemma queue_write {n : Nat} (h : l.queue = b :: bs) :
    (l.write n).queue = if b.length ≤ n then bs else b.drop n :: bs := by
  obtain ⟨gone, begun, queue, idle⟩ := l
  obtain rfl : queue = b :: bs := h
  rw [write]
  split_ifs <;> rfl

@[simp] lemma lost_write (n : Nat) : (l.write n).lost = l.lost := by
  obtain ⟨gone, begun, _ | ⟨b, bs⟩, idle⟩ := l
  · rfl
  · rw [write]
    split_ifs
    · simp [lost]
    · rfl

@[simp] lemma accepted_write (n : Nat) : (l.write n).accepted = l.accepted := by
  obtain ⟨gone, begun, _ | ⟨b, bs⟩, idle⟩ := l
  · rfl
  · rw [write]
    split_ifs
    · cases bs <;> simp [accepted]
    · simp [accepted]

lemma written_write (n : Nat) (h : l.queue = b :: bs) :
    (l.write n).written = l.written ++ b.take n := by
  obtain ⟨gone, begun, queue, idle⟩ := l
  obtain rfl : queue = b :: bs := h
  rw [write]
  split_ifs with hn
  · rw [List.take_of_length_le hn]
    simp [written]
  · simp [written]

lemma queue_drop (h : l.queue = b :: bs) : l.drop.queue = bs := by
  obtain ⟨gone, begun, queue, idle⟩ := l
  obtain rfl : queue = b :: bs := h
  rfl

lemma lost_drop (h : l.queue = b :: bs) : l.drop.lost = l.lost ++ [b] := by
  obtain ⟨gone, begun, queue, idle⟩ := l
  obtain rfl : queue = b :: bs := h
  simp [drop, lost]

@[simp] lemma accepted_drop : l.drop.accepted = l.accepted := by
  obtain ⟨gone, begun, _ | ⟨b, bs⟩, idle⟩ := l
  · rfl
  · cases bs <;> simp [drop, accepted]

@[simp] lemma written_drop : l.drop.written = l.written := by
  obtain ⟨gone, begun, _ | ⟨b, bs⟩, idle⟩ := l
  · rfl
  · simp [drop, written]

@[simp] lemma queue_accept (b : List α) : (l.accept b).queue = l.queue ++ [b] := rfl

@[simp] lemma lost_accept (b : List α) : (l.accept b).lost = l.lost := rfl

@[simp] lemma written_accept (b : List α) : (l.accept b).written = l.written := rfl

@[simp] lemma accepted_accept (b : List α) : (l.accept b).accepted = l.accepted ++ [b] := by
  obtain ⟨gone, begun, _ | ⟨c, bs⟩, idle⟩ := l
  · obtain rfl := idle rfl
    simp [accept, accepted]
  · simp [accept, accepted]

end Ledger

end BlockQueue
