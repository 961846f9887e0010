import LambdaMOO.Structures
import LambdaMOO.Tasks.Input
import Mathlib.Data.List.Basic
import Mathlib.Data.List.Nodup

/-!
# Task queues and the scheduler

The queues of `tasks.c`: the list of waiting tasks, the idle and the active queues with
their background tasks, and the queues other modules register. A queue is a record at an
address; `idle` and `active` are the two lists of addresses. Input lines are the plain
list of lines that the input queue stands for.
-/

namespace LambdaMOO

/-- `TASK_FORKED` and `TASK_SUSPENDED`. -/
inductive BgKind where
  | forked | suspended
  deriving DecidableEq, Repr

/-- A background task. `serial` is the identity of the task, which the source has as the
address of its activation; a `TaskID` is random and may occur twice. -/
structure BgTask where
  serial : Nat
  kind : BgKind
  id : Nat
  progr : Int
  startTime : Int
  deriving DecidableEq, Repr

/-- `struct tqueue`, without the fields for output, `.program` and intrinsic commands. -/
structure TQueue where
  player : Int
  connected : Bool
  lines : List InputTask
  holdInput : Bool
  disableOob : Bool
  reading : Option Nat
  bg : List BgTask
  usage : Int
  numBgTasks : Int
  deriving DecidableEq, Repr

/-- `NO_USAGE`. -/
def noUsage : Int := -1

/-- The queues. `running` is the queue whose task `run_ready_tasks` is running, and `live`
the tasks that were forked or suspended and have neither run nor been killed; the source
has `live` nowhere. -/
structure TaskState where
  queues : Nat → TQueue
  idle : List Nat
  active : List Nat
  waiting : List BgTask
  external : List BgTask
  running : Option Nat
  nextQueue : Nat
  nextSerial : Nat
  live : Nat → Bool

namespace TaskState

variable (s : TaskState)

def init : TaskState where
  queues _ := ⟨0, false, [], false, false, none, [], noUsage, 0⟩
  idle := []
  active := []
  waiting := []
  external := []
  running := none
  nextQueue := 0
  nextSerial := 0
  live _ := false

/-- Change the queue at an address. -/
@[simps]
def modify (n : Nat) (f : TQueue → TQueue) (s : TaskState) : TaskState :=
  { s with queues := Function.update s.queues n (f (s.queues n)) }

/-! ### Queues -/

/-- `deactivate_tqueue`. -/
@[simps]
def deactivateTqueue (n : Nat) (s : TaskState) : TaskState :=
  { s with
    queues := Function.update s.queues n { s.queues n with usage := noUsage }
    idle := n :: s.idle }

/-- `activate_tqueue`: in front of the first queue with a greater usage. -/
@[simps]
def activateTqueue (n : Nat) (s : TaskState) : TaskState :=
  { s with
    active := s.active.takeWhile (fun m => (s.queues m).usage ≤ (s.queues n).usage)
      ++ n :: s.active.dropWhile (fun m => (s.queues m).usage ≤ (s.queues n).usage) }

/-- The usage a queue starts with: that of the first active queue. -/
def firstUsage (s : TaskState) : Int :=
  match s.active with
  | [] => 0
  | m :: _ => (s.queues m).usage

/-- `ensure_usage`. -/
def ensureUsage (n : Nat) (s : TaskState) : TaskState :=
  if (s.queues n).usage = noUsage then
    activateTqueue n
      { s with
        queues := Function.update s.queues n { s.queues n with usage := s.firstUsage }
        idle := s.idle.erase n }
  else s

/-- `find_tqueue` without creation. -/
def findTqueue (player : Int) (s : TaskState) : Option Nat :=
  (s.active ++ s.idle).find? fun n => (s.queues n).player = player

/-- The queue `find_tqueue` creates, on the idle list. -/
def newQueue (player : Int) : TQueue :=
  ⟨player, false, [], false, false, none, [], noUsage, 0⟩

@[simps]
def createQueue (player : Int) (s : TaskState) : TaskState :=
  { s with
    queues := Function.update s.queues s.nextQueue (newQueue player)
    idle := s.nextQueue :: s.idle
    nextQueue := s.nextQueue + 1 }

/-- The address of the player's queue and the state in which there is one. -/
def findOrCreate (player : Int) (s : TaskState) : Nat × TaskState :=
  match s.findTqueue player with
  | some n => (n, s)
  | none => (s.nextQueue, s.createQueue player)

/-- `enqueue_bg_task`. -/
def enqueueBgTask (n : Nat) (t : BgTask) (s : TaskState) : TaskState :=
  s.modify n fun q => { q with bg := q.bg ++ [t] }

/-- `dequeue_bg_task` on a queue that has a task. -/
def dropBgTask (n : Nat) (s : TaskState) : TaskState :=
  s.modify n fun q => { q with bg := q.bg.tail, numBgTasks := q.numBgTasks - 1 }

/-! ### Forking and suspending -/

/-- Insertion behind every task that starts no later. -/
def insertWaiting (t : BgTask) (ts : List BgTask) : List BgTask :=
  ts.takeWhile (fun w => w.startTime ≤ t.startTime)
    ++ t :: ts.dropWhile (fun w => w.startTime ≤ t.startTime)

/-- `enqueue_waiting`. -/
def enqueueWaiting (t : BgTask) (s : TaskState) : TaskState :=
  let (n, s) := s.findOrCreate t.progr
  let s := s.modify n fun q => { q with numBgTasks := q.numBgTasks + 1 }
  { s with waiting := insertWaiting t s.waiting }

/-- `check_user_task_limit`, given the limit that the property or the server option sets;
a negative one is no limit. -/
def checkUserTaskLimit (user limit : Int) (s : TaskState) : Bool :=
  limit < 0 || ((s.findTqueue user).elim 0 fun n => (s.queues n).numBgTasks) < limit

/-- A task that did not exist before. -/
def newTask (kind : BgKind) (id : Nat) (progr startTime : Int) (s : TaskState) : BgTask :=
  ⟨s.nextSerial, kind, id, progr, startTime⟩

/-- The new task is alive. -/
def birth (s : TaskState) : TaskState :=
  { s with
    nextSerial := s.nextSerial + 1
    live := Function.update s.live s.nextSerial true }

/-- `enqueue_forked_task2` and `enqueue_suspended_task`; over the limit nothing happens. -/
def addTask (kind : BgKind) (id : Nat) (progr startTime limit : Int) (s : TaskState) :
    TaskState :=
  if s.checkUserTaskLimit progr limit then
    (s.enqueueWaiting (s.newTask kind id progr startTime)).birth
  else s

/-- A task suspended into a registered queue. -/
def addExternal (id : Nat) (progr : Int) (s : TaskState) : TaskState :=
  { s with external := s.newTask .suspended id progr 0 :: s.external }.birth

/-- `resume_task` on the `i`-th task of the registered queues. -/
def resumeTask (i : Nat) (s : TaskState) : TaskState :=
  match s.external[i]? with
  | none => s
  | some t =>
    let (n, s) := { s with external := s.external.eraseIdx i }.findOrCreate t.progr
    (s.enqueueBgTask n { t with startTime := 0 }).ensureUsage n

/-! ### Resuming and killing -/

/-- The task `do_resume` looks for. -/
def isSuspended (id : Nat) (t : BgTask) : Bool := t.kind = .suspended ∧ t.id = id

/-- The state after `do_resume`; `wizard` says whether the caller is one. -/
def doResume (id : Nat) (now progr : Int) (wizard : Bool) (s : TaskState) : TaskState :=
  match s.waiting.find? (isSuspended id) with
  | none => s
  | some t =>
    if wizard ∨ progr = t.progr then
      let s' := { s with
        waiting := s.waiting.eraseP (isSuspended id) }
      let (n, s') := s'.findOrCreate t.progr
      (s'.ensureUsage n).enqueueBgTask n { t with startTime := now }
    else s

/-- The address of the first queue on which the task with the number is blocked in
`read()`. -/
def findReading (id : Nat) (ns : List Nat) (s : TaskState) : Option Nat :=
  ns.find? fun n => (s.queues n).reading = some id

/-- The task has run or was killed. -/
def die (t : BgTask) (s : TaskState) : TaskState :=
  { s with live := Function.update s.live t.serial false }

/-- `kill_task` on a task in `waiting_tasks`. -/
def killWaiting (t : BgTask) (s : TaskState) : TaskState :=
  let s' := { s with waiting := s.waiting.eraseP (fun w => w.id = t.id) }
  match s.findTqueue t.progr with
  | some n => (s'.modify n fun q => { q with numBgTasks := q.numBgTasks - 1 }).die t
  | none => s'.die t

/-- `kill_task` on a task in a background list. -/
def killBg (n : Nat) (t : BgTask) (s : TaskState) : TaskState :=
  (s.modify n fun q =>
    { q with bg := q.bg.eraseP (fun w => w.id = t.id), numBgTasks := q.numBgTasks - 1 }).die t

/-- `kill_task` on a task in a registered queue. -/
def killExternal (t : BgTask) (s : TaskState) : TaskState :=
  { s with external := s.external.eraseP (fun w => w.id = t.id) }.die t

/-- The active queue on which a search for the number stops: one where the task is reading
or in the background list. -/
def stopsAt (id : Nat) (s : TaskState) (n : Nat) : Bool :=
  (s.queues n).reading = some id ∨ ((s.queues n).bg.find? fun t => t.id = id).isSome

/-- The state after `kill_task` of a task other than the current one. -/
def killTask (id : Nat) (owner : Int) (wizard : Bool) (s : TaskState) : TaskState :=
  match s.waiting.find? (fun t => t.id = id) with
  | some t => if wizard ∨ owner = t.progr then s.killWaiting t else s
  | none =>
    match s.findReading id s.idle, s.active.find? (s.stopsAt id) with
    | some n, _ =>
      if wizard ∨ owner = (s.queues n).player then s.modify n fun q => { q with reading := none }
      else s
    | none, some n =>
      if ¬ (wizard ∨ owner = (s.queues n).player) then s
      else if (s.queues n).reading = some id then s.modify n fun q => { q with reading := none }
      else match (s.queues n).bg.find? fun t => t.id = id with
        | some t => s.killBg n t
        | none => s
    | none, none =>
      match s.external.find? (fun t => t.id = id) with
      | some t => if wizard ∨ owner = t.progr then s.killExternal t else s
      | none => s

/-! ### Connections and input -/

/-- `new_task_queue`. -/
def newTaskQueue (player : Int) (s : TaskState) : TaskState :=
  let (n, s) := s.findOrCreate player
  s.modify n fun q => { q with connected := true }

/-- `free_task_queue`. -/
def freeTaskQueue (n : Nat) (s : TaskState) : TaskState :=
  let s := s.modify n fun q => { q with connected := false }
  if (s.queues n).reading.isSome then s.ensureUsage n else s

/-- `enqueue_input_task`. -/
def enqueueInput (n : Nat) (c : InputTask) (atFront : Bool) (s : TaskState) : TaskState :=
  let s := s.modify n fun q => { q with lines := if atFront then c :: q.lines else q.lines ++ [c] }
  if ¬ (s.queues n).holdInput ∨ (s.queues n).reading.isSome
      ∨ (¬ (s.queues n).disableOob ∧ c.isOob) then
    s.ensureUsage n
  else s

/-- `bf_force_input`. -/
def forceInput (player : Int) (c : InputTask) (atFront : Bool) (s : TaskState) : TaskState :=
  let (n, s) := s.findOrCreate player
  s.enqueueInput n c atFront

/-- `bf_flush_input`. -/
def flushPlayer (player : Int) (s : TaskState) : TaskState :=
  let (n, s) := s.findOrCreate player
  s.modify n fun q => { q with lines := [] }

/-- `is_out_of_input`. -/
def isOutOfInput (q : TQueue) : Bool := !q.connected && q.lines.isEmpty

/-- `make_reading_task`. -/
def makeReadingTask (player : Int) (id : Nat) (s : TaskState) : TaskState :=
  match s.findTqueue player with
  | none => s
  | some n =>
    if (s.queues n).reading.isSome ∨ isOutOfInput (s.queues n) then s
    else
      let s := s.modify n fun q => { q with reading := some id }
      if (s.queues n).lines ≠ [] then s.ensureUsage n else s

/-- `read_input_now`. -/
def readInputNow (player : Int) (s : TaskState) : TaskState :=
  match s.findTqueue player with
  | none => s
  | some n =>
    s.modify n fun q =>
      { q with lines := q.lines.eraseP (InputQueue.selects .inband q.disableOob) }

/-- The connection option `hold-input`. -/
def setHoldInput (n : Nat) (value : Bool) (s : TaskState) : TaskState :=
  let s := s.modify n fun q => { q with holdInput := value }
  if ¬ value ∧ (s.queues n).lines ≠ [] then s.ensureUsage n else s

/-- The connection option `disable-oob`: is there an out-of-band line to handle? -/
def setDisableOob (n : Nat) (value : Bool) (s : TaskState) : TaskState :=
  let s := s.modify n fun q => { q with disableOob := value }
  if ¬ value ∧ (s.queues n).lines.any InputTask.isOob then s.ensureUsage n else s

/-! ### Scheduling rounds -/

/-- The first loop of `run_ready_tasks`, over the waiting tasks `ts`. -/
def releaseTasks (now : Int) : List BgTask → TaskState → TaskState
  | [], s => { s with waiting := [] }
  | t :: ts, s =>
    if t.startTime ≤ now then
      let (n, s) := { s with waiting := ts }.findOrCreate t.progr
      releaseTasks now ts ((s.ensureUsage n).enqueueBgTask n t)
    else { s with waiting := t :: ts }

/-- The queue has run out of tasks and leaves the active list. -/
def retireQueue (n : Nat) (s : TaskState) : TaskState :=
  deactivateTqueue n { s with active := (s.active.dropWhile (· ≠ n)).tail }

/-- Which line the queue would run. -/
def selector (q : TQueue) : DequeueHow :=
  if q.holdInput ∧ q.reading.isNone then .oob else .first

/-- The second loop of `run_ready_tasks` up to the point where it runs a task of the first
active queue. `did` is what `do_command_task` returns, 0 for a blank command. -/
def pickTask (did : Bool) (s : TaskState) : TaskState :=
  match s.active with
  | [] => s
  | n :: _ =>
    let q := s.queues n
    if q.reading.isSome ∧ isOutOfInput q then
      { s.modify n fun q => { q with reading := none } with running := some n }
    else match q.lines.find? (InputQueue.selects (selector q) q.disableOob) with
      | some c =>
        let s := s.modify n fun q =>
          { q with lines := q.lines.eraseP (InputQueue.selects (selector q) q.disableOob) }
        if c.isOob ∧ ¬ q.disableOob then { s with running := some n }
        else if q.reading.isSome then
          { s.modify n fun q => { q with reading := none } with running := some n }
        else if did then { s with running := some n }
        else s
      | none =>
        match q.bg with
        | t :: _ => { (s.dropBgTask n).die t with running := some n }
        | [] => s.retireQueue n

/-- The end of the second loop: the queue goes back among the active ones, `elapsed` seconds
more used. The clock does not go back. -/
def finishTask (elapsed : Nat) (s : TaskState) : TaskState :=
  match s.running with
  | none => s
  | some n =>
    activateTqueue n
      { s with
        queues := Function.update s.queues n
          { s.queues n with usage := (s.queues n).usage + elapsed }
        active := (s.active.dropWhile (· ≠ n)).tail
        running := none }

/-- The last loop of `run_ready_tasks`. -/
def freeQueues (s : TaskState) : TaskState :=
  { s with
    idle := s.idle.filter fun n =>
      (s.queues n).connected || !(s.queues n).lines.isEmpty || (s.queues n).numBgTasks ≠ 0 }

/-! ### Logging in -/

/-- Move the background tasks of one queue to another. -/
def moveBg (n m : Nat) (s : TaskState) : TaskState :=
  let ts := (s.queues n).bg
  (s.modify n fun q => { q with bg := [], numBgTasks := 0 }).modify m fun q =>
    { q with bg := q.bg ++ ts }

/-- The tasks queued under the number of the connection get a queue of their own. -/
def keepOldTasks (n : Nat) (oldPlayer : Int) (s : TaskState) : TaskState :=
  if (s.queues n).numBgTasks ≠ 0 then
    let count := (s.queues n).numBgTasks
    let (m, s) := s.findOrCreate oldPlayer
    (s.modify m fun q => { q with numBgTasks := count }).moveBg n m
  else s

/-- The tasks of the player's old queue `d` come over; `d` is left without an owner. -/
def takeOver (n d : Nat) (s : TaskState) : TaskState :=
  let count := (s.queues d).numBgTasks
  ((s.modify n fun q => { q with numBgTasks := count }).moveBg d n).modify d fun q =>
    { q with lines := [], player := nothing }

/-- `player_connected` closes the connection the player still has, whose queue is `d`. -/
def redirect (d : Nat) (s : TaskState) : TaskState :=
  if (s.queues d).connected then s.freeTaskQueue d else s

/-- The second half of `do_login_task` on the queue `n`, where `#0:do_login_command` has
returned the player `newPlayer`. -/
def login (n : Nat) (newPlayer : Int) (s : TaskState) : TaskState :=
  let oldPlayer := (s.queues n).player
  let dead := s.findTqueue newPlayer
  let s := s.modify n fun q => { q with player := newPlayer }
  let s := s.keepOldTasks n oldPlayer
  match dead with
  | some d => (s.takeOver n d).redirect d
  | none => s

/-- `do_login_task` is only run for the first line of a connection that is not logged in. -/
def canLogin (n : Nat) (newPlayer : Int) (s : TaskState) : Prop :=
  s.running = some n ∧ (s.queues n).player < 0 ∧ (s.queues n).connected = true ∧ 0 ≤ newPlayer

instance (n : Nat) (newPlayer : Int) (s : TaskState) : Decidable (s.canLogin n newPlayer) :=
  inferInstanceAs (Decidable (_ ∧ _))

end TaskState

/-! ### Events -/

/-- What happens to the queues, in any order. The scheduler's round is split into its
parts, because the task it runs may do anything in between. -/
inductive TaskEvent where
  | addTask (kind : BgKind) (id : Nat) (progr startTime limit : Int)
  | addExternal (id : Nat) (progr : Int)
  | resumeTask (i : Nat)
  | doResume (id : Nat) (now progr : Int) (wizard : Bool)
  | killTask (id : Nat) (owner : Int) (wizard : Bool)
  | newTaskQueue (player : Int)
  | freeTaskQueue (n : Nat)
  | enqueueInput (n : Nat) (c : InputTask) (atFront : Bool)
  | forceInput (player : Int) (c : InputTask) (atFront : Bool)
  | flushPlayer (player : Int)
  | makeReadingTask (player : Int) (id : Nat)
  | readInputNow (player : Int)
  | setHoldInput (n : Nat) (value : Bool)
  | setDisableOob (n : Nat) (value : Bool)
  | releaseTasks (now : Int)
  | pickTask (did : Bool)
  | login (n : Nat) (newPlayer : Int)
  | finishTask (elapsed : Nat)
  | freeQueues
  deriving DecidableEq, Repr

namespace TaskState

/-- One event. A queue is given by its address on one of the two lists; a round goes on only
when no task is running. New connections are numbered downwards from `NOTHING - 1`. -/
def step (e : TaskEvent) (s : TaskState) : TaskState :=
  match e with
  | .addTask kind id progr startTime limit => s.addTask kind id progr startTime limit
  | .addExternal id progr => s.addExternal id progr
  | .resumeTask i => s.resumeTask i
  | .doResume id now progr wizard => s.doResume id now progr wizard
  | .killTask id owner wizard => s.killTask id owner wizard
  | .newTaskQueue player => if player < nothing then s.newTaskQueue player else s
  | .freeTaskQueue n => if n ∈ s.idle ++ s.active then s.freeTaskQueue n else s
  | .enqueueInput n c atFront => if n ∈ s.idle ++ s.active then s.enqueueInput n c atFront else s
  | .forceInput player c atFront => s.forceInput player c atFront
  | .flushPlayer player => s.flushPlayer player
  | .makeReadingTask player id => s.makeReadingTask player id
  | .readInputNow player => s.readInputNow player
  | .setHoldInput n value => if n ∈ s.idle ++ s.active then s.setHoldInput n value else s
  | .setDisableOob n value => if n ∈ s.idle ++ s.active then s.setDisableOob n value else s
  | .releaseTasks now => if s.running = none then s.releaseTasks now s.waiting else s
  | .pickTask did => if s.running = none then s.pickTask did else s
  | .login n newPlayer => if s.canLogin n newPlayer then s.login n newPlayer else s
  | .finishTask elapsed => s.finishTask elapsed
  | .freeQueues => s.freeQueues

/-- The state after a run. -/
def run (es : List TaskEvent) : TaskState := es.foldl (fun s e => s.step e) init

@[simp] lemma run_concat (es : List TaskEvent) (e : TaskEvent) :
    run (es ++ [e]) = (run es).step e := by
  simp [run]

/-- Every event of a run meets a condition in the state it finds. -/
def AllSteps (C : TaskState → TaskEvent → Prop) : TaskState → List TaskEvent → Prop
  | _, [] => True
  | s, e :: es => C s e ∧ AllSteps C (s.step e) es

instance (C : TaskState → TaskEvent → Prop) [∀ s e, Decidable (C s e)] :
    ∀ (s : TaskState) (es : List TaskEvent), Decidable (AllSteps C s es)
  | _, [] => inferInstanceAs (Decidable True)
  | s, e :: es =>
    have := instDecidableAllSteps C (s.step e) es
    inferInstanceAs (Decidable (C s e ∧ AllSteps C (s.step e) es))

lemma AllSteps.foldl {C : TaskState → TaskEvent → Prop} {I : TaskState → Prop}
    (hstep : ∀ s e, I s → C s e → I (s.step e)) {es : List TaskEvent} {s : TaskState} (hs : I s)
    (h : AllSteps C s es) : I (es.foldl (fun s e => s.step e) s) := by
  induction es generalizing s with
  | nil => exact hs
  | cons e es ih => exact ih (hstep s e hs h.1) h.2

/-- What holds at the start and is kept by every event that meets the condition holds after
every run whose events do. -/
theorem run_induction {C : TaskState → TaskEvent → Prop} {I : TaskState → Prop} (hinit : I init)
    (hstep : ∀ s e, I s → C s e → I (s.step e)) {es : List TaskEvent}
    (h : AllSteps C init es) : I (run es) :=
  h.foldl hstep hinit

end TaskState

end LambdaMOO
