import LambdaMOO.Lib.Ledger
import LambdaMOO.Network.Output

/-!
# What becomes of the output

Over any calls of `push_output` and `enqueue_output` a connection keeps its ledger: what has
gone out and what is still queued is what was accepted, without the rests of blocks that were
dropped, and these are counted. The counters are `int`s, and lines so long that the number of
bytes to flush is not one break this.
-/

namespace LambdaMOO

open BlockQueue CType

/-! ### Sound connections -/

/-- The last link of a queue. -/
def lastLink (queue : List TextBlock) : Link :=
  match queue.getLast? with
  | none => .head
  | some b => .next b.addr

def OutputHandle.blocks (h : OutputHandle) : List (List UInt8) := h.queue.map (·.start)

/-- `INT_MAX`. -/
def intMax : Int := CType.int.max

/-- The counters are those of the blocks; only the tail may be that of an emptied queue. -/
structure OutputHandle.Counted (h : OutputHandle) : Prop where
  lengths : ∀ b ∈ h.queue, b.length = b.start.length
  addrs : (h.queue.map (·.addr)).Nodup
  total : h.outputLength = h.blocks.flatten.length
  fits : h.outputLength ≤ intMax
  flushed : 0 ≤ h.outputLinesFlushed ∧ h.outputLinesFlushed ≤ intMax
  tail : h.queue ≠ [] → h.outputTail = lastLink h.queue

/-- At most as much is queued as is allowed, or a single block with something in it. -/
def OutputHandle.Bounded (maxQueuedOutput : Nat) (h : OutputHandle) : Prop :=
  h.outputLength ≤ maxQueuedOutput ∨ (h.blocks.filter (· ≠ [])).length ≤ 1

structure OutputHandle.Sound (maxQueuedOutput : Nat) (h : OutputHandle) : Prop extends
    h.Counted where
  last : h.outputTail = lastLink h.queue
  bounded : h.Bounded maxQueuedOutput

lemma intMax_eq : intMax = 0x7fffffff := rfl

lemma lastLink_cons (b : TextBlock) {bs : List TextBlock} (h : bs ≠ []) :
    lastLink (b :: bs) = lastLink bs := by
  obtain ⟨c, cs, rfl⟩ := List.exists_cons_of_ne_nil h
  rw [lastLink, lastLink, List.getLast?_cons_cons]

lemma toInt32_of_nonneg {x : Int} (h : 0 ≤ x) (hx : x ≤ intMax) : toInt32 x = x :=
  toInt32_eq (by omega) hx

section

variable {max : Nat} {h : OutputHandle} {b : TextBlock} {bs : List TextBlock}

/-- The block in front goes out or is dropped. -/
lemma OutputHandle.Counted.tail_blocks (hc : h.Counted) (hq : h.queue = b :: bs) (flushed : Int)
    (hf : 0 ≤ flushed ∧ flushed ≤ intMax) :
    toInt32 (h.outputLength - b.length) = h.outputLength - b.length ∧
      (⟨bs, h.outputTail, toInt32 (h.outputLength - b.length), flushed⟩ : OutputHandle).Counted := by
  have hlen := hc.lengths b (hq ▸ List.mem_cons_self)
  have htotal : h.outputLength = b.start.length + (bs.map (·.start)).flatten.length := by
    rw [hc.total, blocks, hq]
    simp
  have hfits := hc.fits
  have hnarrow : toInt32 (h.outputLength - b.length) = h.outputLength - b.length :=
    toInt32_of_nonneg (by omega) (by omega)
  refine ⟨hnarrow, fun c hmem => hc.lengths c (hq ▸ List.mem_cons_of_mem _ hmem), ?_, ?_, ?_, hf,
    fun hne => ?_⟩
  · have haddrs := hc.addrs
    rw [hq, List.map_cons, List.nodup_cons] at haddrs
    exact haddrs.2
  · rw [hnarrow, blocks, htotal, hlen]
    dsimp only
    omega
  · rw [hnarrow]
    dsimp only
    omega
  · rw [← lastLink_cons b hne, ← hq]
    exact hc.tail (hq ▸ List.cons_ne_nil _ _)

/-- Some bytes of the block in front go out. -/
lemma OutputHandle.Counted.shorten (hc : h.Counted) (hq : h.queue = b :: bs) {n : Nat}
    (hn : n ≤ b.start.length) :
    toInt32 (h.outputLength - n) = h.outputLength - n ∧
      (⟨{ b with start := b.start.drop n, length := toInt32 (b.length - n) } :: bs, h.outputTail,
        toInt32 (h.outputLength - n), h.outputLinesFlushed⟩ : OutputHandle).Counted := by
  have hlen := hc.lengths b (hq ▸ List.mem_cons_self)
  have htotal : h.outputLength = b.start.length + (bs.map (·.start)).flatten.length := by
    rw [hc.total, blocks, hq]
    simp
  have hfits := hc.fits
  have hnarrow : toInt32 (h.outputLength - n) = h.outputLength - n :=
    toInt32_of_nonneg (by omega) (by omega)
  have hblock : toInt32 (b.length - n) = b.length - n :=
    toInt32_of_nonneg (by omega) (by omega)
  refine ⟨hnarrow, fun c hmem => ?_, ?_, ?_, ?_, hc.flushed, fun _ => ?_⟩
  · rcases List.mem_cons.mp hmem with rfl | hmem
    · rw [hblock, hlen]
      simp only [List.length_drop]
      omega
    · exact hc.lengths c (hq ▸ List.mem_cons_of_mem _ hmem)
  · have haddrs := hc.addrs
    rwa [hq] at haddrs
  · rw [hnarrow, blocks, htotal]
    simp only [List.map_cons, List.flatten_cons, List.length_append, List.length_drop]
    omega
  · rw [hnarrow]
    dsimp only
    omega
  · rw [hc.tail (hq ▸ List.cons_ne_nil _ _), hq]
    cases bs with
    | nil => rfl
    | cons c cs => rw [lastLink_cons _ (List.cons_ne_nil _ _), lastLink_cons _ (List.cons_ne_nil _ _)]

/-! ### Draining -/

/-- What goes out on a connection between two of its states, and what that means for the
ledger. -/
structure Drains (h : OutputHandle) (l : Ledger UInt8) (sent : List Sent) (reported : Int)
    (h' : OutputHandle) (l' : Ledger UInt8) : Prop where
  counted : h'.Counted
  queue : l'.queue = h'.blocks
  accepted : l'.accepted = l.accepted
  lost : l'.lost = l.lost
  written : l'.written = l.written ++ sent.flatMap Sent.dataBytes
  shorter : h'.outputLength ≤ h.outputLength
  fewer : (h'.blocks.filter (· ≠ [])).length ≤ (h.blocks.filter (· ≠ [])).length
  balance : reported + h'.outputLinesFlushed = h.outputLinesFlushed

namespace Drains

variable {h h' h'' : OutputHandle} {l l' l'' : Ledger UInt8} {sent sent' : List Sent}
  {reported reported' : Int}

lemma refl (hc : h.Counted) (hl : l.queue = h.blocks) : Drains h l [] 0 h l where
  counted := hc
  queue := hl
  accepted := rfl
  lost := rfl
  written := (List.append_nil _).symm
  shorter := Int.le_refl _
  fewer := Nat.le_refl _
  balance := Int.zero_add _

lemma trans (d : Drains h l sent reported h' l') (e : Drains h' l' sent' reported' h'' l'') :
    Drains h l (sent ++ sent') (reported + reported') h'' l'' where
  counted := e.counted
  queue := e.queue
  accepted := e.accepted.trans d.accepted
  lost := e.lost.trans d.lost
  written := by rw [e.written, d.written, List.flatMap_append, List.append_assoc]
  shorter := Int.le_trans e.shorter d.shorter
  fewer := Nat.le_trans e.fewer d.fewer
  balance := by rw [Int.add_assoc, e.balance, d.balance]

/-- The link that the tail points to is of no matter to the ledger. -/
lemma setTail (d : Drains h l sent reported h' l') {tail : Link}
    (ht : h'.queue ≠ [] → tail = lastLink h'.queue) :
    Drains h l sent reported { h' with outputTail := tail } l' :=
  { d with counted := { d.counted with tail := ht } }

end Drains

lemma length_filter_tail_le (b : List UInt8) (bs : List (List UInt8)) :
    (bs.filter (· ≠ [])).length ≤ ((b :: bs).filter (· ≠ [])).length :=
  ((List.sublist_cons_self b bs).filter _).length_le

lemma length_filter_drop_le (n : Nat) (b : List UInt8) (bs : List (List UInt8)) :
    ((b.drop n :: bs).filter (· ≠ [])).length ≤ ((b :: bs).filter (· ≠ [])).length := by
  rw [List.filter_cons, List.filter_cons]
  by_cases hb : b = []
  · simp [hb]
  · split_ifs <;> simp_all

/-- One round of the loop. -/
lemma drains_advance {l : Ledger UInt8} (hc : h.Counted) (hl : l.queue = h.blocks)
    (hq : h.queue = b :: bs) {n : Nat} (hn : n ≤ b.start.length) :
    Drains h l [.data (b.start.take n)] 0 (h.advance b bs n) (l.write n) := by
  have hqueue : l.queue = b.start :: bs.map (·.start) := by rw [hl, OutputHandle.blocks, hq]; rfl
  have hlen := hc.lengths b (hq ▸ List.mem_cons_self)
  obtain ⟨hnarrow, hshort⟩ := hc.shorten hq hn
  have hwritten : (l.write n).written
      = l.written ++ [Sent.data (b.start.take n)].flatMap Sent.dataBytes := by
    rw [l.written_write n hqueue]
    simp [Sent.dataBytes]
  have hle : (h.advance b bs n).outputLength ≤ h.outputLength := by
    rw [OutputHandle.advance, hnarrow]
    dsimp only
    omega
  by_cases hall : (n : Int) = b.length
  · -- the last of the block
    have hadv : h.advance b bs n
        = ⟨bs, h.outputTail, toInt32 (h.outputLength - b.length), h.outputLinesFlushed⟩ := by
      rw [OutputHandle.advance, if_pos hall, hall]
    obtain ⟨-, hrest⟩ := hc.tail_blocks hq h.outputLinesFlushed hc.flushed
    refine ⟨hadv ▸ hrest, ?_, l.accepted_write n, l.lost_write n, hwritten, hle, ?_, ?_⟩
    · rw [l.queue_write hqueue, if_pos (by omega), hadv]
      rfl
    · rw [hadv, OutputHandle.blocks, OutputHandle.blocks, hq, List.map_cons]
      exact length_filter_tail_le _ _
    · rw [hadv]
      exact Int.zero_add _
  · have hadv : h.advance b bs n
        = ⟨{ b with start := b.start.drop n, length := toInt32 (b.length - n) } :: bs, h.outputTail,
          toInt32 (h.outputLength - n), h.outputLinesFlushed⟩ := by
      rw [OutputHandle.advance, if_neg hall]
    refine ⟨hadv ▸ hshort, ?_, l.accepted_write n, l.lost_write n, hwritten, hle, ?_, ?_⟩
    · rw [l.queue_write hqueue, if_neg (by omega), hadv]
      rfl
    · rw [hadv, OutputHandle.blocks, OutputHandle.blocks, hq, List.map_cons, List.map_cons]
      exact length_filter_drop_le _ _ _
    · rw [hadv]
      exact Int.zero_add _

lemma pushBlocks_drains (ws : List WriteResult) {h : OutputHandle} {l : Ledger UInt8}
    (hc : h.Counted) (hl : l.queue = h.blocks) :
    ∃ l', Drains h l (pushBlocks ws h).sent (pushBlocks ws h).reported (pushBlocks ws h).handle l' ∧
      (pushBlocks ws h).handle.outputTail = lastLink (pushBlocks ws h).handle.queue := by
  induction ws generalizing h l with
  | nil =>
    obtain ⟨queue, tail, outputLength, flushed⟩ := h
    cases queue with
    | nil => exact ⟨l, (Drains.refl hc hl).setTail fun hne => absurd rfl hne, rfl⟩
    | cons b bs => exact ⟨l, Drains.refl hc hl, hc.tail (List.cons_ne_nil _ _)⟩
  | cons w ws ih =>
    obtain ⟨queue, tail, outputLength, flushed⟩ := h
    cases queue with
    | nil => exact ⟨l, (Drains.refl hc hl).setTail fun hne => absurd rfl hne, rfl⟩
    | cons b bs =>
      cases w with
      | failed again => exact ⟨l, Drains.refl hc hl, hc.tail (List.cons_ne_nil _ _)⟩
      | wrote n =>
        have d := drains_advance hc hl rfl (Nat.min_le_right n b.start.length)
        obtain ⟨l', d', hlast⟩ := ih d.counted d.queue
        have htrans := d.trans d'
        rw [Int.zero_add] at htrans
        exact ⟨l', htrans, hlast⟩

/-- The loop sends no notice. -/
lemma pushBlocks_reported (ws : List WriteResult) (h : OutputHandle) :
    (pushBlocks ws h).reported = 0 := by
  induction ws generalizing h with
  | nil =>
    obtain ⟨_ | ⟨b, bs⟩, tail, outputLength, flushed⟩ := h <;> rfl
  | cons w ws ih =>
    obtain ⟨_ | ⟨b, bs⟩, tail, outputLength, flushed⟩ := h
    · rfl
    · cases w with
      | failed again => rfl
      | wrote n => exact ih _

lemma pushOutput_drains (eol : String) (ws : List WriteResult) {h : OutputHandle}
    {l : Ledger UInt8} (hc : h.Counted) (hlast : h.outputTail = lastLink h.queue)
    (hl : l.queue = h.blocks) :
    ∃ l', Drains h l (pushOutput eol ws h).sent (pushOutput eol ws h).reported
        (pushOutput eol ws h).handle l' ∧
      (pushOutput eol ws h).handle.outputTail = lastLink (pushOutput eol ws h).handle.queue := by
  rw [pushOutput]
  split_ifs with hflushed
  · cases ws with
    | nil => exact ⟨l, Drains.refl hc hl, hlast⟩
    | cons w ws =>
      cases w with
      | failed again => exact ⟨l, Drains.refl hc hl, hlast⟩
      | wrote n =>
        dsimp only
        split_ifs with hall
        · -- the notice is out
          have d : Drains h l [.notice (overflowNotice eol h.outputLinesFlushed)]
              h.outputLinesFlushed { h with outputLinesFlushed := 0 } l := by
            refine { Drains.refl hc hl with
              counted := { hc with flushed := ⟨Int.le_refl 0, Int.natCast_nonneg 0x7fffffff⟩ }
              balance := Int.add_zero _
              written := ?_ }
            simp [Sent.dataBytes]
          obtain ⟨l', d', hlast'⟩ := pushBlocks_drains ws d.counted d.queue
          have htrans := d.trans d'
          rw [pushBlocks_reported, Int.add_zero] at htrans
          exact ⟨l', htrans, hlast'⟩
        · have hnone : [Sent.notice ((overflowNotice eol h.outputLinesFlushed).take
              (min n (overflowNotice eol h.outputLinesFlushed).length))].flatMap Sent.dataBytes
                = [] := rfl
          exact ⟨l, { Drains.refl hc hl with
            written := by rw [hnone, List.append_nil] }, hlast⟩
  · exact pushBlocks_drains ws hc hl

/-! ### Dropping -/

/-- How many of the oldest blocks have to go for so many bytes. -/
def oldestToGo : Int → List (List UInt8) → Nat
  | _, [] => 0
  | toFlush, b :: bs => if 0 < toFlush then oldestToGo (toFlush - b.length) bs + 1 else 0

lemma oldestToGo_of_nonpos {toFlush : Int} (h : toFlush ≤ 0) (blocks : List (List UInt8)) :
    oldestToGo toFlush blocks = 0 := by
  cases blocks with
  | nil => rfl
  | cons b bs => exact if_neg (Int.not_lt.mpr h)

lemma flushBlocks_of_nonpos {toFlush : Int} (h : toFlush ≤ 0) (queue : List TextBlock)
    (handle : OutputHandle) : (flushBlocks queue toFlush handle).2 = [] := by
  cases queue with
  | nil => rfl
  | cons b bs => rw [flushBlocks, if_neg (Int.not_lt.mpr h)]

/-- What `flushBlocks` does: the oldest blocks are gone until there is room, and counted. -/
structure Drops (h : OutputHandle) (l : Ledger UInt8) (toFlush : Int)
    (r : OutputHandle × List (List UInt8)) (l' : Ledger UInt8) : Prop where
  counted : r.1.Counted
  queue : l'.queue = r.1.blocks
  accepted : l'.accepted = l.accepted
  lost : l'.lost = l.lost ++ r.2
  written : l'.written = l.written
  room : r.1.queue = [] ∨ r.1.outputLength ≤ h.outputLength - toFlush
  balance : r.1.outputLinesFlushed = h.outputLinesFlushed + r.2.length

lemma flushBlocks_drops {queue : List TextBlock} {toFlush : Int} {h : OutputHandle}
    {l : Ledger UInt8} (hq : h.queue = queue) (hc : h.Counted) (hl : l.queue = h.blocks)
    (hto : toFlush ≤ intMax)
    (hfit : h.outputLinesFlushed + oldestToGo toFlush h.blocks ≤ intMax) :
    ∃ l', Drops h l toFlush (flushBlocks queue toFlush h) l' ∧
      (flushBlocks queue toFlush h).1.outputTail
        = lastLink (flushBlocks queue toFlush h).1.queue := by
  induction queue generalizing toFlush h l with
  | nil =>
    refine ⟨l, ⟨{ hc with tail := fun hne => absurd hq hne }, hl, rfl, (List.append_nil _).symm, rfl,
      .inl hq, (Int.add_zero _).symm⟩, ?_⟩
    rw [flushBlocks, hq]
    rfl
  | cons b bs ih =>
    rw [flushBlocks]
    split_ifs with hpos
    · have hblocks : h.blocks = b.start :: bs.map (·.start) := by rw [OutputHandle.blocks, hq]; rfl
      have hlen := hc.lengths b (hq ▸ List.mem_cons_self)
      have hqueue : l.queue = b.start :: bs.map (·.start) := hl.trans hblocks
      rw [hblocks, oldestToGo, if_pos hpos, ← hlen] at hfit
      have hflushed := hc.flushed
      have hone : toInt32 (h.outputLinesFlushed + 1) = h.outputLinesFlushed + 1 :=
        toInt32_of_nonneg (by omega) (by omega)
      obtain ⟨hnarrow, hrest⟩ := hc.tail_blocks hq (toInt32 (h.outputLinesFlushed + 1))
        (by omega)
      have hlong : b.length ≤ h.outputLength := by
        rw [hc.total, hblocks, hlen, List.flatten_cons, List.length_append]
        omega
      have hfits := hc.fits
      have hleft : toInt32 (toFlush - b.length) = toFlush - b.length :=
        toInt32_eq (by rw [intMax_eq] at *; omega) (by rw [intMax_eq] at *; omega)
      have hq' : l.drop.queue = bs.map (·.start) := l.queue_drop hqueue
      rw [hleft]
      obtain ⟨l', d, hlast⟩ := @ih (toFlush - b.length) _ _ rfl hrest hq' (by omega) (by
        rw [hone]
        dsimp only [OutputHandle.blocks]
        omega)
      refine ⟨l', ⟨d.counted, d.queue, d.accepted.trans l.accepted_drop, ?_,
        d.written.trans l.written_drop, ?_, ?_⟩, hlast⟩
      · rw [d.lost, l.lost_drop hqueue, List.append_assoc]
        rfl
      · have hroom := d.room
        rw [hnarrow] at hroom ⊢
        exact hroom.imp_right fun hle => by dsimp only at hle ⊢; omega
      · have hbalance := d.balance
        rw [hnarrow, hone] at hbalance ⊢
        dsimp only at hbalance ⊢
        rw [hbalance, List.length_cons]
        omega
    · exact ⟨l, ⟨hc, hl, rfl, (List.append_nil _).symm, rfl, .inr (by dsimp only; omega),
        (Int.add_zero _).symm⟩, hc.tail (hq ▸ List.cons_ne_nil _ _)⟩

/-! ### A new line -/

lemma assign_lastLink (block : TextBlock) {queue : List TextBlock}
    (haddrs : (queue.map (·.addr)).Nodup) :
    (lastLink queue).assign block queue = queue ++ [block] := by
  induction queue with
  | nil => rfl
  | cons b bs ih =>
    rw [List.map_cons, List.nodup_cons] at haddrs
    cases bs with
    | nil => exact if_pos rfl
    | cons c cs =>
      rw [lastLink_cons b (List.cons_ne_nil c cs)]
      obtain ⟨last, hlast⟩ : ∃ last, (c :: cs).getLast? = some last :=
        ⟨_, List.getLast?_eq_some_getLast (List.cons_ne_nil c cs)⟩
      have hlink : lastLink (c :: cs) = .next last.addr := by rw [lastLink, hlast]
      have hne : b.addr ≠ last.addr := by
        intro heq
        exact haddrs.1 (heq ▸ List.mem_map_of_mem (List.mem_of_getLast? hlast))
      have hrest := ih haddrs.2
      rw [hlink] at hrest ⊢
      rw [Link.assign, if_neg hne, hrest]
      rfl

@[simp] lemma lastLink_append (queue : List TextBlock) (b : TextBlock) :
    lastLink (queue ++ [b]) = .next b.addr := by
  rw [lastLink, List.getLast?_concat]

/-- The new block is behind all others. -/
lemma OutputHandle.append_eq (hc : h.Counted) (hlast : h.outputTail = lastLink h.queue)
    (addr : Nat) {buffer : List UInt8} (hfits : h.outputLength + buffer.length ≤ intMax) :
    h.append addr buffer = ⟨h.queue ++ [⟨addr, buffer.length, buffer⟩], .next addr,
      h.outputLength + buffer.length, h.outputLinesFlushed⟩ := by
  have htotal := hc.total
  rw [append, hlast, assign_lastLink _ hc.addrs, toInt32_of_nonneg (by omega) hfits,
    toInt32_of_nonneg (by omega) (by omega)]

lemma OutputHandle.Counted.append (hc : h.Counted) (hlast : h.outputTail = lastLink h.queue)
    {addr : Nat} {buffer : List UInt8} (hfresh : addr ∉ h.queue.map (·.addr))
    (hfits : h.outputLength + buffer.length ≤ intMax) : (h.append addr buffer).Counted := by
  rw [append_eq hc hlast addr hfits]
  refine ⟨fun b hmem => ?_, ?_, ?_, hfits, hc.flushed, fun _ => ?_⟩
  · rcases List.mem_append.mp hmem with hmem | hmem
    · exact hc.lengths b hmem
    · rw [List.mem_singleton.mp hmem]
  · rw [List.map_append, List.nodup_append_comm]
    exact List.nodup_cons.mpr ⟨hfresh, hc.addrs⟩
  · rw [hc.total]
    simp [blocks]
  · exact (lastLink_append h.queue ⟨addr, buffer.length, buffer⟩).symm

/-! ### Room for a line -/

/-- What a line of so many bytes must not do to the counters. -/
def OutputHandle.InRange (max : Nat) (eol : String) (length : Nat) (flushOk : Bool)
    (ws : List WriteResult) (h : OutputHandle) : Prop :=
  if h.outputLength ≠ 0 ∧ max < toSizeT (h.outputLength + length) then
    let p := (pushOutput eol ws h).handle
    let toFlush := p.outputLength + length - max
    toFlush ≤ intMax ∧
      (flushOk → length ≤ intMax ∧
        p.outputLinesFlushed + oldestToGo toFlush p.blocks ≤ intMax)
  else h.outputLength + length ≤ intMax

instance (max : Nat) (eol : String) (length : Nat) (flushOk : Bool) (ws : List WriteResult)
    (h : OutputHandle) : Decidable (h.InRange max eol length flushOk ws) :=
  by delta OutputHandle.InRange; infer_instance

/-- What a call means for the ledger. -/
structure Accounts (h : OutputHandle) (l : Ledger UInt8) (r : Enqueued) (l' : Ledger UInt8) :
    Prop where
  counted : r.handle.Counted
  last : r.handle.outputTail = lastLink r.handle.queue
  queue : l'.queue = r.handle.blocks
  accepted : l'.accepted = l.accepted
  lost : l'.lost = l.lost ++ r.dropped
  written : l'.written = l.written ++ r.sent.flatMap Sent.dataBytes
  balance : r.reported + r.handle.outputLinesFlushed = h.outputLinesFlushed + r.dropped.length

lemma Drains.accounts {l l' : Ledger UInt8} {p : Pushed}
    (d : Drains h l p.sent p.reported p.handle l')
    (hlast : p.handle.outputTail = lastLink p.handle.queue) (ok : Bool) :
    Accounts h l ⟨p.handle, p.sent, p.reported, [], ok⟩ l' where
  counted := d.counted
  last := hlast
  queue := d.queue
  accepted := d.accepted
  lost := by rw [d.lost, List.append_nil]
  written := d.written
  balance := by rw [d.balance]; exact (Int.add_zero _).symm

lemma Drains.bounded {l l' : Ledger UInt8} {sent : List Sent} {reported : Int}
    {h' : OutputHandle} (d : Drains h l sent reported h' l') (hb : h.Bounded max) :
    h'.Bounded max :=
  hb.imp (Int.le_trans d.shorter) (Nat.le_trans d.fewer)

lemma OutputHandle.InRange.toSizeT_eq {eol : String} {length : Nat} {flushOk : Bool}
    {ws : List WriteResult} (hmax : max ≤ intMax) (hc : h.Counted)
    (hlast : h.outputTail = lastLink h.queue) {l : Ledger UInt8} (hl : l.queue = h.blocks)
    (hr : h.InRange max eol length flushOk ws) :
    toSizeT (h.outputLength + length) = h.outputLength + length := by
  obtain ⟨l', d, -⟩ := pushOutput_drains eol ws hc hlast hl
  have htotal := hc.total
  have hfits := hc.fits
  have htotal' := d.counted.total
  rw [InRange] at hr
  apply Int.emod_eq_of_lt
  · omega
  · rw [intMax_eq] at *
    split_ifs at hr
    · have := hr.1
      omega
    · omega

/-- The call finds too little room. -/
lemma makeRoom_of_full (eol : String) {length : Nat} (flushOk : Bool) (ws : List WriteResult)
    {toFlush : Int} (hneeds : h.outputLength ≠ 0 ∧ max < toSizeT (h.outputLength + length))
    (hto : toInt32 ((pushOutput eol ws h).handle.outputLength + length - max) = toFlush) :
    makeRoom max eol length flushOk ws h =
      let p := pushOutput eol ws h
      if 0 < toFlush ∧ ¬ flushOk then ⟨p.handle, p.sent, p.reported, [], false⟩
      else
        let r := flushBlocks p.handle.queue toFlush p.handle
        ⟨r.1, p.sent, p.reported, r.2, true⟩ := by
  rw [makeRoom, if_pos hneeds, ← hto]

/-- The oldest blocks make room for a line, or the line is refused. -/
lemma makeRoom_accounts {eol : String} {length : Nat} {flushOk : Bool} {ws : List WriteResult}
    (hmax : max ≤ intMax) (hc : h.Counted) (hlast : h.outputTail = lastLink h.queue)
    {l : Ledger UInt8} (hl : l.queue = h.blocks) (hr : h.InRange max eol length flushOk ws) :
    ∃ l', Accounts h l (makeRoom max eol length flushOk ws h) l' ∧
      ((makeRoom max eol length flushOk ws h).ok = true →
        (makeRoom max eol length flushOk ws h).handle.outputLength + length ≤ max ∨
          (makeRoom max eol length flushOk ws h).handle.outputLength = 0 ∧ length ≤ intMax) ∧
      ((makeRoom max eol length flushOk ws h).ok = false →
        h.Bounded max → (makeRoom max eol length flushOk ws h).handle.Bounded max) := by
  have hsize := hr.toSizeT_eq hmax hc hlast hl
  rw [OutputHandle.InRange] at hr
  split_ifs at hr with hneeds
  · -- there is too little room
    obtain ⟨l₁, d, hlast₁⟩ := pushOutput_drains eol ws hc hlast hl
    have htotal := d.counted.total
    have hroom := makeRoom_of_full eol flushOk ws hneeds
      (toInt32_eq (by rw [intMax_eq] at hmax; omega) hr.1)
    by_cases hrefuse : 0 < (pushOutput eol ws h).handle.outputLength + length - max ∧ ¬ flushOk
    · rw [hroom, if_pos hrefuse]
      exact ⟨l₁, d.accounts hlast₁ false, by rintro ⟨⟩, fun _ => d.bounded⟩
    · rw [hroom, if_neg hrefuse]
      have hfit : (pushOutput eol ws h).handle.outputLinesFlushed
          + oldestToGo ((pushOutput eol ws h).handle.outputLength + length - max)
            (pushOutput eol ws h).handle.blocks ≤ intMax := by
        by_cases hok : flushOk
        · exact (hr.2 hok).2
        · rw [oldestToGo_of_nonpos (Int.not_lt.mp fun hpos => hrefuse ⟨hpos, hok⟩)]
          exact (Int.add_zero _).trans_le d.counted.flushed.2
      have hlength : length ≤ intMax := by
        by_cases hok : flushOk
        · exact (hr.2 hok).1
        · have hroom := Int.not_lt.mp fun hpos => hrefuse ⟨hpos, hok⟩
          omega
      obtain ⟨l₂, dr, hlast₂⟩ := flushBlocks_drops rfl d.counted d.queue hr.1 hfit
      refine ⟨l₂, ⟨dr.counted, hlast₂, dr.queue, dr.accepted.trans d.accepted, ?_, ?_, ?_⟩,
        fun _ => ?_, by rintro ⟨⟩⟩
      · rw [dr.lost, d.lost]
      · rw [dr.written, d.written]
      · rw [← d.balance, Int.add_assoc]
        exact congrArg _ dr.balance
      · dsimp only
        rcases dr.room with hempty | hroom
        · right
          refine ⟨?_, hlength⟩
          rw [dr.counted.total, OutputHandle.blocks, hempty]
          rfl
        · left
          omega
  · -- there is room, or nothing is queued
    rw [makeRoom, if_neg hneeds]
    refine ⟨l, Drains.accounts (p := ⟨h, [], 0, true⟩) (Drains.refl hc hl) hlast true, fun _ => ?_, by rintro ⟨⟩⟩
    dsimp only
    by_cases hzero : h.outputLength = 0
    · right
      omega
    · left
      rw [hsize] at hneeds
      exact Int.not_lt.mp fun hlt => hneeds ⟨hzero, hlt⟩

/-- Without `flush_ok` nothing is dropped, and the line is refused when there is no room. -/
lemma makeRoom_noFlush {eol : String} {length : Nat} {ws : List WriteResult}
    (hmax : max ≤ intMax) (hc : h.Counted) (hlast : h.outputTail = lastLink h.queue)
    {l : Ledger UInt8} (hl : l.queue = h.blocks) (hr : h.InRange max eol length false ws) :
    (makeRoom max eol length false ws h).dropped = [] ∧
      ((makeRoom max eol length false ws h).ok = false ↔
        h.outputLength ≠ 0 ∧ max < (pushOutput eol ws h).handle.outputLength + length) := by
  have hsize := hr.toSizeT_eq hmax hc hlast hl
  obtain ⟨l₁, d, -⟩ := pushOutput_drains eol ws hc hlast hl
  have hshorter := d.shorter
  have htotal := d.counted.total
  rw [OutputHandle.InRange] at hr
  split_ifs at hr with hneeds
  · rw [makeRoom_of_full eol false ws hneeds (toInt32_eq (by rw [intMax_eq] at hmax; omega) hr.1)]
    by_cases hpos : 0 < (pushOutput eol ws h).handle.outputLength + length - max
    · rw [if_pos ⟨hpos, Bool.false_ne_true⟩]
      exact ⟨rfl, fun _ => ⟨hneeds.1, by omega⟩, fun _ => rfl⟩
    · rw [if_neg fun hrefuse => hpos hrefuse.1]
      exact ⟨flushBlocks_of_nonpos (Int.not_lt.mp hpos) _ _, by rintro ⟨⟩,
        fun hroom => absurd hroom.2 (by omega)⟩
  · rw [makeRoom, if_neg hneeds]
    rw [hsize] at hneeds
    exact ⟨rfl, by rintro ⟨⟩, fun hroom => absurd ⟨hroom.1, by omega⟩ hneeds⟩

end

end LambdaMOO
