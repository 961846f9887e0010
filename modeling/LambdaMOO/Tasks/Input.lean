import LambdaMOO.Lib.Chain
import Mathlib.Tactic.Simps.Basic
import Mathlib.Tactic.Common
import Mathlib.Algebra.GroupWithZero.Nat

/-!
# Input queues

The input lines of a task queue in `tasks.c`. The lines form a list through their `next`
pointers; the last lines of the runs of equal kind form a second list through
`next_itail`. Both are edited through pointers to pointers, so a place that holds a pointer
is a slot here and `links` is the store of all of them.
-/

namespace LambdaMOO

/-- The input part of `task_kind`. -/
inductive InputKind where
  | binary | inband | quoted | oob
  deriving DecidableEq, Repr

/-- `t.input` with its kind; a string is its bytes. -/
structure InputTask where
  kind : InputKind
  string : List UInt8
  length : Nat
  deriving DecidableEq, Repr

/-- `kind == TASK_OOB`. -/
def InputTask.isOob (t : InputTask) : Bool := t.kind = .oob

/-- The places that hold a `task *`. -/
inductive Slot where
  | firstInput | firstItail
  | next (t : Nat)
  | nextItail (t : Nat)
  deriving DecidableEq, Repr

/-- `OUT_OF_BAND_PREFIX`, `OUT_OF_BAND_QUOTE_PREFIX` and `MAX_QUEUED_INPUT`. -/
structure InputConfig where
  oobPrefix : List UInt8
  oobQuotePrefix : List UInt8
  maxQueuedInput : Nat

/-- The part of `tqueue` that the input functions read. A task without contents is memory
that is not in use. -/
structure InputQueue where
  links : Slot → Option Nat
  tasks : Nat → Option InputTask
  lastInput : Slot
  lastItail : Slot
  totalInputLength : Int
  disableOob : Bool
  connected : Bool
  inputSuspended : Bool

inductive DequeueHow where
  | first | oob | inband
  deriving DecidableEq, Repr

/-- `how == (first_input->kind == TASK_OOB)`: the first run is not the one asked for. -/
def DequeueHow.skips : DequeueHow → Bool → Bool
  | .first, _ => false
  | .oob, isOob => !isOob
  | .inband, isOob => isOob

namespace InputQueue

/-- The queue `find_tqueue` creates. -/
def empty (tasks : Nat → Option InputTask) : InputQueue where
  links _ := none
  tasks := tasks
  lastInput := .firstInput
  lastItail := .firstItail
  totalInputLength := 0
  disableOob := false
  connected := false
  inputSuspended := false

@[simps]
def set (s : Slot) (p : Option Nat) (q : InputQueue) : InputQueue :=
  { q with links := Function.update q.links s p }

variable (cfg : InputConfig)

/-- The kind of a new line. -/
def lineKind (input : List UInt8) (binary : Bool) : InputKind :=
  if binary then .binary
  else if 0 < cfg.oobQuotePrefix.length ∧ cfg.oobQuotePrefix <+: input then .quoted
  else if 0 < cfg.oobPrefix.length ∧ cfg.oobPrefix <+: input then .oob
  else .inband

/-- Above the high-water mark the network stops reading for this connection. -/
@[simps]
def suspendInput (q : InputQueue) : InputQueue :=
  { q with
    inputSuspended := q.inputSuspended
      || (q.connected && q.totalInputLength > cfg.maxQueuedInput) }

/-- Below the low-water mark it reads again. -/
@[simps]
def resumeInput (q : InputQueue) : InputQueue :=
  { q with
    inputSuspended := q.inputSuspended
      && !(q.connected && q.totalInputLength < cfg.maxQueuedInput / 2) }

/-- The contents of a new task. -/
def newLine (input : List UInt8) (binary : Bool) : InputTask :=
  ⟨lineKind cfg input binary, input, input.length⟩

/-- A new task at the address `t`, not linked yet. -/
@[simps]
def alloc (t : Nat) (input : List UInt8) (binary : Bool) (q : InputQueue) : InputQueue :=
  { q with
    tasks := Function.update q.tasks t (some (newLine cfg input binary))
    totalInputLength := q.totalInputLength + input.length
    links := Function.update q.links (.nextItail t) none }

/-- A line of the other kind in front begins a run of its own. -/
@[simps]
def linkFrontItail (t : Nat) (q : InputQueue) : InputQueue :=
  { q with
    links := Function.update (Function.update q.links (.nextItail t) (q.links .firstItail))
      .firstItail (some t)
    lastItail := if q.lastItail = .firstItail then .nextItail t else q.lastItail }

def linkFront (t : Nat) (q : InputQueue) : InputQueue :=
  (q.set (.next t) (q.links .firstInput)).set .firstInput (some t)

def linkRear (t : Nat) (q : InputQueue) : InputQueue :=
  let q := (q.set q.lastItail (some t)).set q.lastInput (some t)
  { q with lastInput := .next t }.set (.next t) none

def enqueueFront (t first : Nat) (new : InputTask) (q : InputQueue) : Option InputQueue := do
  let old ← q.tasks first
  let q := if old.isOob ≠ new.isOob then q.linkFrontItail t else q
  return q.linkFront t

def enqueueRear (t : Nat) (new : InputTask) (q : InputQueue) : Option InputQueue :=
  match q.links .firstInput with
  | some _ => do
    let last ← q.links q.lastItail
    let old ← q.tasks last
    let q := if old.isOob ≠ new.isOob then { q with lastItail := .nextItail last } else q
    return q.linkRear t
  | none => some (q.linkRear t)

/-- `enqueue_input_task`, with the address `mymalloc` returned. The result is `none` if a
null pointer is followed. Whether the queue becomes active is up to the scheduler. -/
def enqueueInputTask (t : Nat) (input : List UInt8) (atFront binary : Bool) (q : InputQueue) :
    Option InputQueue := do
  let q := q.alloc cfg t input binary
  let new := newLine cfg input binary
  let q ← match q.links .firstInput with
    | some first => if atFront then q.enqueueFront t first new else q.enqueueRear t new
    | none => q.enqueueRear t new
  return q.suspendInput cfg

/-- Take `t` out of the list of lines, where `pt` points at it. -/
def unlinkInput (pt : Slot) (t : Nat) (q : InputQueue) : InputQueue :=
  match q.links (.next t) with
  | none => { q.set pt none with lastInput := pt }
  | some n => (q.set pt (some n)).set (.next t) none

/-- `last_itail` goes back to the front when the slot it points at is cleared. -/
@[simps]
def resetLastItail (q : InputQueue) : InputQueue :=
  { q with lastItail := if q.links q.lastItail = none then .firstItail else q.lastItail }

/-- If `t` was a run of its own, take it out of the list of run ends too. -/
def unlinkItail (pitail : Slot) (t : Nat) (q : InputQueue) : InputQueue :=
  if q.links pitail = some t then
    match (q.set pitail none).links (.nextItail t) with
    | some n =>
      (((q.set pitail none).set .firstItail (some n)).set (.nextItail t) none).resetLastItail
    | none => (q.set pitail none).resetLastItail
  else q

/-- The line as it is handed out. -/
def deliver (disableOob : Bool) (t : InputTask) : InputTask :=
  match t.kind with
  | .oob => if disableOob then { t with kind := .inband } else t
  | .quoted =>
    { t with
      kind := .inband
      string := if disableOob then t.string else t.string.drop cfg.oobQuotePrefix.length }
  | _ => t

/-- The rest of `dequeue_input_task` once `t` is unlinked. -/
def finishDequeue (t : Nat) (c : InputTask) (q : InputQueue) : InputQueue :=
  ({ q with
    totalInputLength := q.totalInputLength - c.length
    tasks := Function.update q.tasks t (some (deliver cfg q.disableOob c)) }).resumeInput cfg

/-- The slot that points at the line to take and the slot that points at the end of its
run. -/
def findInput (how : DequeueHow) (isOob : Bool) (q : InputQueue) : Option (Slot × Slot) :=
  if how.skips isOob then do
    let tail ← q.links .firstItail
    return (.next tail, .nextItail tail)
  else return (.firstInput, .firstItail)

/-- `dequeue_input_task`, returning the address of the line taken. -/
def dequeueInputTask (how : DequeueHow) (q : InputQueue) : Option (Option Nat × InputQueue) :=
  if q.disableOob ∧ how = .oob then some (none, q)
  else
    let how := if q.disableOob then .first else how
    match q.links .firstInput with
    | none => some (none, q)
    | some first => do
      let c ← q.tasks first
      let (pt, pitail) ← q.findInput how c.isOob
      match q.links pt with
      | none => return (none, q)
      | some t => do
        let c ← q.tasks t
        return (some t, ((q.unlinkInput pt t).unlinkItail pitail t).finishDequeue cfg t c)

/-- `free_task`. -/
def freeTask (t : Nat) (q : InputQueue) : InputQueue :=
  { q with tasks := Function.update q.tasks t none }

/-- The loop of `flush_input`, at most `fuel` times, with the lines it shows. -/
def flushInput : Nat → InputQueue → Option (List InputTask × InputQueue)
  | 0, _ => none
  | fuel + 1, q => do
    match ← q.dequeueInputTask cfg .first with
    | (none, q) => return ([], q)
    | (some t, q) =>
      let c ← q.tasks t
      let (cs, q) ← flushInput fuel (q.freeTask t)
      return (c :: cs, q)

/-! ### What the queue is for

The queue as a plain list of lines. -/

/-- The lines a selector asks for. Without out-of-band lines every line is in band. -/
def selects (how : DequeueHow) (disableOob : Bool)
    (c : InputTask) : Bool :=
  if disableOob then how ≠ .oob
  else match how with
    | .first => true
    | .oob => c.isOob
    | .inband => !c.isOob

end InputQueue

end LambdaMOO
