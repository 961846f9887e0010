import LambdaMOO.Numbers.CTypes
import LambdaMOO.Strings.Compare

/-!
# Output to the network

`push_output` and `enqueue_output` of `net_multi.c` with the blocks that a connection has
queued. The outcomes of the writes are arguments: a call is told how many bytes the peer takes
each time, and a call that is told no more would block.
-/

namespace LambdaMOO

open CType

/-- A pointer to a pointer to a block: `&h->output_head` or `&b->next`. -/
inductive Link where
  | head
  | next (addr : Nat)
  deriving DecidableEq, Repr

/-- `text_block`: `start` is what is left of the buffer. -/
structure TextBlock where
  addr : Nat
  length : Int
  start : List UInt8
  deriving DecidableEq, Repr

/-- `nhandle`, as far as output is concerned: the blocks behind `output_head` and the other
fields. -/
structure OutputHandle where
  queue : List TextBlock
  outputTail : Link
  outputLength : Int
  outputLinesFlushed : Int
  deriving DecidableEq, Repr

/-- `new_nhandle`. -/
def newOutputHandle : OutputHandle := ⟨[], .head, 0, 0⟩

/-- What a `write` does: it takes some bytes, or fails with `EAGAIN` or `EWOULDBLOCK` or with
another error. -/
inductive WriteResult where
  | wrote (count : Nat)
  | failed (again : Bool)
  deriving DecidableEq, Repr

/-- What goes out on the connection. -/
inductive Sent where
  | data (bytes : List UInt8)
  | notice (bytes : List UInt8)
  deriving DecidableEq, Repr

def Sent.dataBytes : Sent → List UInt8
  | .data bytes => bytes
  | .notice _ => []

/-- The outcome of `push_output`; `reported` is the number in a notice that went out whole. -/
structure Pushed where
  handle : OutputHandle
  sent : List Sent
  reported : Int
  ok : Bool
  deriving DecidableEq, Repr

/-- The outcome of `enqueue_output`; `dropped` are the rests of the blocks freed unwritten. -/
structure Enqueued where
  handle : OutputHandle
  sent : List Sent
  reported : Int
  dropped : List (List UInt8)
  ok : Bool
  deriving DecidableEq, Repr

section

variable (maxQueuedOutput : Nat) (eol : String)

/-- The notice about lost lines. -/
def overflowNotice (n : Int) : List UInt8 :=
  asciiBytes (eol ++ ">> Network buffer overflow: " ++ toString n ++ " line"
    ++ (if n = 1 then "" else "s") ++ " of output to you "
    ++ (if n = 1 then "has" else "have") ++ " been lost <<" ++ eol)

/-- The peer has taken some bytes of the block in front. -/
def OutputHandle.advance (h : OutputHandle) (b : TextBlock) (bs : List TextBlock) (count : Nat) :
    OutputHandle :=
  { h with
    outputLength := toInt32 (h.outputLength - count)
    queue :=
      if (count : Int) = b.length then bs
      else { b with start := b.start.drop count, length := toInt32 (b.length - count) } :: bs }

/-- The loop of `push_output`, and the `if` behind it. -/
def pushBlocks : List WriteResult → OutputHandle → Pushed
  | ws, h =>
    match h.queue, ws with
    | [], _ => ⟨{ h with outputTail := .head }, [], 0, true⟩
    | _ :: _, [] => ⟨h, [], 0, true⟩
    | _ :: _, .failed again :: _ => ⟨h, [], 0, again⟩
    | b :: bs, .wrote n :: ws =>
      let count := min n b.start.length
      let p := pushBlocks ws (h.advance b bs count)
      { p with sent := .data (b.start.take count) :: p.sent }

def pushOutput (ws : List WriteResult) (h : OutputHandle) : Pushed :=
  if 0 < h.outputLinesFlushed then
    let buf := overflowNotice eol h.outputLinesFlushed
    match ws with
    | [] => ⟨h, [], 0, true⟩
    | .failed again :: _ => ⟨h, [], 0, again⟩
    | .wrote n :: ws =>
      let count := min n buf.length
      if count = buf.length then
        let p := pushBlocks ws { h with outputLinesFlushed := 0 }
        { p with sent := .notice buf :: p.sent, reported := h.outputLinesFlushed }
      else ⟨h, [.notice (buf.take count)], 0, true⟩
  else pushBlocks ws h

/-- The loop that frees the oldest blocks, and the `if` behind it; the bytes of the blocks freed
come with the handle. The list is the queue of the handle. -/
def flushBlocks : List TextBlock → Int → OutputHandle → OutputHandle × List (List UInt8)
  | [], _, h => ({ h with outputTail := .head }, [])
  | b :: bs, toFlush, h =>
    if 0 < toFlush then
      let r := flushBlocks bs (toInt32 (toFlush - b.length))
        { h with
          queue := bs
          outputLength := toInt32 (h.outputLength - b.length)
          outputLinesFlushed := toInt32 (h.outputLinesFlushed + 1) }
      (r.1, b.start :: r.2)
    else (h, [])

/-- `*link = block`, for a block with nothing behind it. -/
def Link.assign (link : Link) (block : TextBlock) (queue : List TextBlock) : List TextBlock :=
  match link with
  | .head => [block]
  | .next addr =>
    match queue with
    | [] => []
    | b :: bs => if b.addr = addr then [b, block] else b :: Link.assign (.next addr) block bs

/-- The end of `enqueue_output`: the new block goes where `output_tail` points to. -/
def OutputHandle.append (h : OutputHandle) (addr : Nat) (buffer : List UInt8) : OutputHandle :=
  { h with
    queue := h.outputTail.assign ⟨addr, toInt32 buffer.length, buffer⟩ h.queue
    outputTail := .next addr
    outputLength := toInt32 (h.outputLength + buffer.length) }

/-- `size_t` arithmetic wraps around. -/
def toSizeT (x : Int) : Int := x % 2 ^ 64

/-- The `if` of `enqueue_output`: a line of so many bytes needs room. -/
def makeRoom (length : Nat) (flushOk : Bool) (ws : List WriteResult) (h : OutputHandle) :
    Enqueued :=
  if h.outputLength ≠ 0 ∧ maxQueuedOutput < toSizeT (h.outputLength + length) then
    let p := pushOutput eol ws h
    let toFlush := toInt32 (p.handle.outputLength + length - maxQueuedOutput)
    if 0 < toFlush ∧ ¬ flushOk then ⟨p.handle, p.sent, p.reported, [], false⟩
    else
      let r := flushBlocks p.handle.queue toFlush p.handle
      ⟨r.1, p.sent, p.reported, r.2, true⟩
  else ⟨h, [], 0, [], true⟩

/-- The bytes of a line, with its end when that is to be added. -/
def lineBuffer (line : List UInt8) (addEol : Bool) : List UInt8 :=
  line ++ if addEol then asciiBytes eol else []

/-- `enqueue_output`; `addr` is where the new block is allocated. -/
def enqueueOutput (addr : Nat) (line : List UInt8) (addEol flushOk : Bool)
    (ws : List WriteResult) (h : OutputHandle) : Enqueued :=
  let buffer := lineBuffer eol line addEol
  let r := makeRoom maxQueuedOutput eol buffer.length flushOk ws h
  if r.ok then { r with handle := r.handle.append addr buffer } else r

end

end LambdaMOO
