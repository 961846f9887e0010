import LambdaMOO.Network.OutputSpec

/-!
# Runs of a connection's output

Any calls of `push_output` and `enqueue_output` on a new connection, whatever the peer takes of
each write.
-/

namespace LambdaMOO

open BlockQueue CType

/-- A connection, with all that has gone out on it, the lines that were accepted, the rests of
lines that were dropped, and how many of these the notices that are out told of. -/
structure Connection where
  handle : OutputHandle
  sent : List Sent
  accepted : List (List UInt8)
  dropped : List (List UInt8)
  reported : Int

def newConnection : Connection := ⟨newOutputHandle, [], [], [], 0⟩

inductive OutputCall where
  | push (ws : List WriteResult)
  | enqueue (addr : Nat) (line : List UInt8) (addEol flushOk : Bool) (ws : List WriteResult)

section

variable (maxQueuedOutput : Nat) (eol : String)

def Connection.call (c : Connection) : OutputCall → Connection
  | .push ws =>
    let p := pushOutput eol ws c.handle
    { c with
      handle := p.handle
      sent := c.sent ++ p.sent
      reported := c.reported + p.reported }
  | .enqueue addr line addEol flushOk ws =>
    let r := enqueueOutput maxQueuedOutput eol addr line addEol flushOk ws c.handle
    { handle := r.handle
      sent := c.sent ++ r.sent
      accepted := if r.ok then c.accepted ++ [lineBuffer eol line addEol] else c.accepted
      dropped := c.dropped ++ r.dropped
      reported := c.reported + r.reported }

/-- No block that is queued when the new one is allocated lies where that one does. -/
def OutputCall.IsFresh (h : OutputHandle) : OutputCall → Prop
  | .push _ => True
  | .enqueue addr line addEol flushOk ws =>
    addr ∉ (makeRoom maxQueuedOutput eol (lineBuffer eol line addEol).length flushOk ws
      h).handle.queue.map (·.addr)

/-- The counters can hold what the call makes of them. -/
def OutputCall.InRange (h : OutputHandle) : OutputCall → Prop
  | .push _ => True
  | .enqueue _ line addEol flushOk ws =>
    h.InRange maxQueuedOutput eol (lineBuffer eol line addEol).length flushOk ws

instance (h : OutputHandle) :
    (oc : OutputCall) → Decidable (oc.IsFresh maxQueuedOutput eol h)
  | .push _ => inferInstanceAs (Decidable True)
  | .enqueue _ _ _ _ _ => inferInstanceAs (Decidable (_ ∉ _))

instance (h : OutputHandle) :
    (oc : OutputCall) → Decidable (oc.InRange maxQueuedOutput eol h)
  | .push _ => inferInstanceAs (Decidable True)
  | .enqueue _ _ _ _ _ => inferInstanceAs (Decidable (h.InRange _ _ _ _ _))

/-- What calls in range lead to. -/
inductive Connection.Reached : Connection → Prop
  | new : Reached newConnection
  | call {c : Connection} (hc : Reached c) (oc : OutputCall)
      (hfresh : oc.IsFresh maxQueuedOutput eol c.handle)
      (hrange : oc.InRange maxQueuedOutput eol c.handle) :
      Reached (c.call maxQueuedOutput eol oc)

end

/-- The account of a connection: its counters are right, and the ledger tells what became of the
lines that were accepted. -/
structure Connection.Accounted (c : Connection) (l : Ledger UInt8) : Prop where
  counted : c.handle.Counted
  last : c.handle.outputTail = lastLink c.handle.queue
  queue : l.queue = c.handle.blocks
  accepted : l.accepted = c.accepted
  lost : l.lost = c.dropped
  written : l.written = c.sent.flatMap Sent.dataBytes
  balance : c.reported + c.handle.outputLinesFlushed = c.dropped.length

namespace Connection

variable {max : Nat} {eol : String} {c : Connection} {l l' : Ledger UInt8}

lemma accounted_new : newConnection.Accounted Ledger.empty where
  counted := {
    lengths := by rintro _ ⟨⟩
    addrs := List.nodup_nil
    total := rfl
    fits := Int.natCast_nonneg 0x7fffffff
    flushed := ⟨Int.le_refl 0, Int.natCast_nonneg 0x7fffffff⟩
    tail := fun _ => rfl }
  last := rfl
  queue := rfl
  accepted := rfl
  lost := rfl
  written := rfl
  balance := rfl

/-- Blocks go out or are dropped. -/
lemma Accounted.account {r : Enqueued} (hc : c.Accounted l) (a : Accounts c.handle l r l') :
    (⟨r.handle, c.sent ++ r.sent, c.accepted, c.dropped ++ r.dropped,
      c.reported + r.reported⟩ : Connection).Accounted l' where
  counted := a.counted
  last := a.last
  queue := a.queue
  accepted := a.accepted.trans hc.accepted
  lost := by rw [a.lost, hc.lost]
  written := by rw [a.written, hc.written, List.flatMap_append]
  balance := by
    have hone := a.balance
    have hall := hc.balance
    rw [List.length_append]
    dsimp only
    omega

/-- A line is queued. -/
lemma Accounted.append (hc : c.Accounted l) {addr : Nat} {buffer : List UInt8}
    (hfresh : addr ∉ c.handle.queue.map (·.addr))
    (hfits : c.handle.outputLength + buffer.length ≤ intMax) :
    (⟨c.handle.append addr buffer, c.sent, c.accepted ++ [buffer], c.dropped,
      c.reported⟩ : Connection).Accounted (l.accept buffer) where
  counted := hc.counted.append hc.last hfresh hfits
  last := by
    rw [OutputHandle.append_eq hc.counted hc.last addr hfits]
    exact (lastLink_append c.handle.queue ⟨addr, buffer.length, buffer⟩).symm
  queue := by
    rw [OutputHandle.append_eq hc.counted hc.last addr hfits, l.queue_accept, hc.queue]
    simp [OutputHandle.blocks]
  accepted := by rw [l.accepted_accept, hc.accepted]
  lost := hc.lost
  written := hc.written
  balance := hc.balance

lemma Accounted.push (hc : c.Accounted l) (hb : c.handle.Bounded max) (ws : List WriteResult) :
    ∃ l', (c.call max eol (.push ws)).Accounted l' ∧
      (c.call max eol (.push ws)).handle.Bounded max := by
  obtain ⟨l', d, hlast⟩ := pushOutput_drains eol ws hc.counted hc.last hc.queue
  have ha := hc.account (d.accounts hlast true)
  rw [List.append_nil] at ha
  exact ⟨l', ha, d.bounded hb⟩

lemma Accounted.enqueue (hmax : max ≤ intMax) (hc : c.Accounted l) (hb : c.handle.Bounded max)
    {addr : Nat} {line : List UInt8} {addEol flushOk : Bool} {ws : List WriteResult}
    (hfresh : (OutputCall.enqueue addr line addEol flushOk ws).IsFresh max eol c.handle)
    (hrange : (OutputCall.enqueue addr line addEol flushOk ws).InRange max eol c.handle) :
    ∃ l', (c.call max eol (.enqueue addr line addEol flushOk ws)).Accounted l' ∧
      (c.call max eol (.enqueue addr line addEol flushOk ws)).handle.Bounded max := by
  obtain ⟨l', a, hroom, hrefused⟩ := makeRoom_accounts hmax hc.counted hc.last hc.queue hrange
  have ha := hc.account a
  rw [OutputCall.IsFresh] at hfresh
  rw [call, enqueueOutput]
  dsimp only
  generalize makeRoom max eol (lineBuffer eol line addEol).length flushOk ws c.handle = r at *
  cases hok : r.ok with
  | false =>
    simp only [Bool.false_eq_true, if_false, hok]
    exact ⟨l', ha, hrefused hok hb⟩
  | true =>
    simp only [if_true]
    have hspace := hroom hok
    have hfits : r.handle.outputLength + (lineBuffer eol line addEol).length ≤ intMax := by omega
    refine ⟨l'.accept (lineBuffer eol line addEol), ha.append hfresh hfits, ?_⟩
    rw [OutputHandle.append_eq a.counted a.last addr hfits]
    rcases hspace with hle | ⟨hzero, -⟩
    · exact .inl hle
    · -- what is queued besides is empty
      right
      have hempty : ∀ b ∈ r.handle.blocks, b = [] := by
        have htotal := a.counted.total
        rw [hzero] at htotal
        exact List.flatten_eq_nil_iff.mp (List.eq_nil_of_length_eq_zero (by omega))
      rw [OutputHandle.blocks, List.map_append, List.filter_append,
        List.filter_eq_nil_iff.mpr fun b hmem => by simp [hempty b hmem], List.nil_append]
      exact List.length_filter_le _ _

lemma Reached.accounted (hmax : max ≤ intMax) (h : c.Reached max eol) :
    ∃ l, c.Accounted l ∧ c.handle.Bounded max := by
  induction h with
  | new => exact ⟨Ledger.empty, accounted_new, .inr (Nat.zero_le 1)⟩
  | call h oc hfresh hrange ih =>
    obtain ⟨l, hc, hb⟩ := ih
    cases oc with
    | push ws => exact hc.push hb ws
    | enqueue addr line addEol flushOk ws => exact hc.enqueue hmax hb hfresh hrange

/-- As long as the counters can hold what the calls make of them, they are right, the blocks are
bounded, the ledger accounts for every line, and without `flush_ok` no line is dropped. -/
theorem Reached.keeps_account (hmax : max ≤ intMax) (h : c.Reached max eol) :
    c.handle.Sound max ∧
    (∃ l : Ledger UInt8, l.queue = c.handle.blocks ∧ l.accepted = c.accepted ∧
      l.lost = c.dropped ∧ l.written = c.sent.flatMap Sent.dataBytes) ∧
    c.reported + c.handle.outputLinesFlushed = c.dropped.length ∧
    ∀ (addr : Nat) (line : List UInt8) (addEol : Bool) (ws : List WriteResult),
      c.handle.InRange max eol (lineBuffer eol line addEol).length false ws →
      (enqueueOutput max eol addr line addEol false ws c.handle).dropped = [] ∧
      ((enqueueOutput max eol addr line addEol false ws c.handle).ok = false ↔
        c.handle.outputLength ≠ 0 ∧
          max < (pushOutput eol ws c.handle).handle.outputLength
            + (lineBuffer eol line addEol).length) := by
  obtain ⟨l, hc, hb⟩ := h.accounted hmax
  refine ⟨⟨hc.counted, hc.last, hb⟩, ⟨l, hc.queue, hc.accepted, hc.lost, hc.written⟩, hc.balance,
    fun addr line addEol ws hrange => ?_⟩
  obtain ⟨hdropped, hok⟩ := makeRoom_noFlush hmax hc.counted hc.last hc.queue hrange
  rw [enqueueOutput]
  split_ifs with hroom
  · exact ⟨hdropped, hok⟩
  · exact ⟨hdropped, hok⟩

/-- Two lines for a peer that takes nothing: the second makes the first go. -/
theorem Reached.keeps_account_twoLines :
    let c := (newConnection.call 3 "" (.enqueue 0 [1, 2] false true [])).call 3 ""
      (.enqueue 1 [3, 4] false true [.failed true])
    c.dropped = [[1, 2]] ∧ c.handle.outputLinesFlushed = 1 ∧ c.handle.Sound 3 := by
  have hrun : ((newConnection.call 3 "" (.enqueue 0 [1, 2] false true [])).call 3 ""
      (.enqueue 1 [3, 4] false true [.failed true])).Reached 3 "" := by
    refine .call (.call .new _ ?_ ?_) _ ?_ ?_
    · decide
    · decide
    · decide
    · decide
  exact ⟨by decide, by decide, (Reached.keeps_account (by decide) hrun).1⟩

/-! ### Lines too long for the counters -/

/-- The peer takes nothing, and there is more to flush than an `int` can say: nothing is
flushed. -/
lemma handle_enqueueOutput_of_blocked {h : OutputHandle} {b : TextBlock} {bs : List TextBlock}
    (hq : h.queue = b :: bs) (hflushed : h.outputLinesFlushed = 0) (addr : Nat)
    {line : List UInt8} {addEol : Bool} (flushOk : Bool)
    (hneeds : h.outputLength ≠ 0 ∧
      max < toSizeT (h.outputLength + (lineBuffer eol line addEol).length))
    (hto : toInt32 (h.outputLength + (lineBuffer eol line addEol).length - max) ≤ 0) :
    (enqueueOutput max eol addr line addEol flushOk [.failed true] h).handle
      = h.append addr (lineBuffer eol line addEol) := by
  obtain ⟨queue, tail, outputLength, flushed⟩ := h
  obtain rfl : queue = b :: bs := hq
  obtain rfl : flushed = 0 := hflushed
  have hneg : ¬ 0 < toInt32 (outputLength + (lineBuffer eol line addEol).length - max) :=
    Int.not_lt.mpr hto
  have hroom := makeRoom_of_full eol flushOk [.failed true] hneeds rfl
  rw [enqueueOutput, hroom]
  have hpush : pushOutput eol [.failed true] ⟨b :: bs, tail, outputLength, 0⟩
      = ⟨⟨b :: bs, tail, outputLength, 0⟩, [], 0, true⟩ := rfl
  rw [hpush]
  simp only [hneg, false_and, if_false, flushBlocks, if_true]

/-- A line of the greatest length that a string can have, and one after which the number of bytes
to flush is not an `int`. -/
lemma outputLength_call_long {line line' : List UInt8} (hline : line.length = 2147483638)
    (hline' : line'.length = 65542) :
    ((newConnection.call 65536 "\r\n" (.enqueue 0 line true true [])).call 65536 "\r\n"
      (.enqueue 1 line' true true [.failed true])).handle.outputLength = toInt32 2147549184 := by
  have hbuffer : (lineBuffer "\r\n" line true).length = 2147483640 := by
    rw [lineBuffer, List.length_append, hline]
    rfl
  have hbuffer' : (lineBuffer "\r\n" line' true).length = 65544 := by
    rw [lineBuffer, List.length_append, hline']
    rfl
  have hfirst : (newConnection.call 65536 "\r\n" (.enqueue 0 line true true [])).handle
      = ⟨[⟨0, 2147483640, lineBuffer "\r\n" line true⟩], .next 0, 2147483640, 0⟩ := by
    have hfits : newOutputHandle.outputLength + (lineBuffer "\r\n" line true).length ≤ intMax := by
      rw [hbuffer]
      decide
    have happend := OutputHandle.append_eq accounted_new.counted rfl 0 hfits
    rw [hbuffer] at happend
    exact happend
  have hsecond : (enqueueOutput 65536 "\r\n" 1 line' true true [.failed true]
      ⟨[⟨0, 2147483640, lineBuffer "\r\n" line true⟩], .next 0, 2147483640, 0⟩).handle
        = OutputHandle.append ⟨[⟨0, 2147483640, lineBuffer "\r\n" line true⟩], .next 0, 2147483640,
          0⟩ 1 (lineBuffer "\r\n" line' true) := by
    apply handle_enqueueOutput_of_blocked rfl rfl 1 true
    · rw [hbuffer']
      exact ⟨by dsimp only; decide, by dsimp only; decide⟩
    · rw [hbuffer']
      dsimp only
      decide
  rw [Connection.call, hfirst]
  dsimp only
  rw [hsecond, OutputHandle.append, hbuffer']
  rfl

end Connection

/-- Two lines for a peer that takes nothing break the count. -/
theorem outputLength_ne_total :
    let c := (newConnection.call 65536 "\r\n"
      (.enqueue 0 (List.replicate 2147483638 120) true true [])).call 65536 "\r\n"
      (.enqueue 1 (List.replicate 65542 120) true true [.failed true])
    c.handle.outputLength ≠ c.handle.blocks.flatten.length := by
  intro c htotal
  have hlong : c.handle.outputLength = toInt32 2147549184 :=
    Connection.outputLength_call_long List.length_replicate List.length_replicate
  have hneg : toInt32 2147549184 < 0 := by decide
  omega

end LambdaMOO
