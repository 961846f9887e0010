import LambdaMOO.Db.Structures
import LambdaMOO.Numbers.CTypes
import LambdaMOO.Tasks.Waiting

/-!
# Delays

The delay of `fork` and of `suspend()` is a number of the language. On its way to the start
time of the task it passes through an `unsigned` or an `int`, and for a suspended task so does the
time itself. What has more than 32 bits is cut off.
-/

namespace LambdaMOO

namespace TaskState

variable {s s' : TaskState}

/-- `enqueue_forked_task2` at the time `now`. -/
def enqueueForkedTask2 (now : Int) (id : Nat) (progr limit afterSeconds : Int) (s : TaskState) :
    Except ErrorCode TaskState :=
  if !s.checkUserTaskLimit progr limit then .error .eQuota
  else .ok (s.addTask .forked id progr (now + afterSeconds) limit)

/-- `OP_FORK`. -/
def opFork (now : Int) (id : Nat) (progr limit : Int) (time : Var) (s : TaskState) :
    Except ErrorCode TaskState :=
  match time with
  | .int n =>
    if n < 0 then .error .eInvarg
    else s.enqueueForkedTask2 now id progr limit (CType.toUnsigned32 n)
  | _ => .error .eType

/-- When a task that is suspended at the time `now` starts. A sum that is less than `now` has
overflowed, or stands for ever. -/
def suspendedStart (now afterSeconds : Int) : Int :=
  let now := CType.toInt32 now
  if CType.toInt32 (now + afterSeconds) < now then 0x7fffffff
  else CType.toInt32 (now + afterSeconds)

/-- `enqueue_suspended_task` at the time `now`. -/
def enqueueSuspendedTask (now : Int) (id : Nat) (progr limit afterSeconds : Int)
    (s : TaskState) : Except ErrorCode TaskState :=
  if s.checkUserTaskLimit progr limit then
    .ok (s.addTask .suspended id progr (suspendedStart now afterSeconds) limit)
  else .error .eQuota

/-- `bf_suspend` and what `call_bi_func` checks before it. -/
def bfSuspend (now : Int) (id : Nat) (progr limit : Int) (args : List Var) (s : TaskState) :
    Except ErrorCode TaskState :=
  match args with
  | [] => s.enqueueSuspendedTask now id progr limit (-1)
  | [.int n] =>
    let seconds := CType.toInt32 n
    if seconds < 0 then .error .eInvarg
    else s.enqueueSuspendedTask now id progr limit seconds
  | [_] => .error .eType
  | _ => .error .eArgs

/-- The task that came last waits until `time` at least. -/
def WaitsUntil (s s' : TaskState) (time : Int) : Prop :=
  ∃ t ∈ s'.waiting, t.serial = s.nextSerial ∧ time ≤ t.startTime

instance (s s' : TaskState) (time : Int) : Decidable (WaitsUntil s s' time) :=
  inferInstanceAs (Decidable (∃ t ∈ s'.waiting, _))

/-- The new task is the only one with its number, and it has the start time it has been given. -/
lemma waitsUntil_addTask (h : s.WaitsInOrder) {kind : BgKind} {id : Nat}
    {progr startTime limit time : Int} (hlimit : s.checkUserTaskLimit progr limit = true) :
    WaitsUntil s (s.addTask kind id progr startTime limit) time ↔ time ≤ startTime := by
  obtain ⟨hwait, -⟩ := enqueueWaiting_waiting (s.newTask kind id progr startTime) s
  have hmem : ∀ t, t ∈ (s.addTask kind id progr startTime limit).waiting
      ↔ t = s.newTask kind id progr startTime ∨ t ∈ s.waiting := by
    intro t
    rw [addTask, if_pos hlimit]
    change t ∈ (s.enqueueWaiting (s.newTask kind id progr startTime)).waiting ↔ _
    rw [hwait, (insertWaiting_perm _ s.waiting).mem_iff, List.mem_cons]
  constructor
  · rintro ⟨t, ht, hserial, htime⟩
    rcases (hmem t).mp ht with rfl | ht
    · exact htime
    · exact absurd (h.fresh t ht) (by omega)
  · intro htime
    exact ⟨_, (hmem _).mpr (.inl rfl), rfl, htime⟩

/-- The start time of a suspended task is late enough unless the sum does not fit an `int`. -/
lemma le_suspendedStart_iff {now n : Int} (hnow : 0 ≤ now) (hn : 0 ≤ n)
    (hseconds : 0 ≤ CType.toInt32 n) :
    now + n ≤ suspendedStart now (CType.toInt32 n) ↔ now + n ≤ 0x7fffffff := by
  have hmax : ∀ x, CType.toInt32 x ≤ 0x7fffffff := by
    intro x
    have hlt := BitVec.toInt_lt (x := BitVec.ofInt 32 x)
    have hpow : (2 : Int) ^ (32 - 1) = 0x80000000 := by decide
    rw [hpow] at hlt
    exact Int.le_of_lt_add_one hlt
  constructor
  · intro h
    refine h.trans ?_
    unfold suspendedStart
    dsimp only
    split_ifs
    · exact le_rfl
    · exact hmax _
  · intro h
    have hn' : CType.toInt32 n = n := CType.toInt32_eq (by omega) (by omega)
    have hnow' : CType.toInt32 now = now := CType.toInt32_eq (by omega) (by omega)
    have hsum : CType.toInt32 (now + n) = now + n := CType.toInt32_eq (by omega) h
    unfold suspendedStart
    dsimp only
    rw [hn', hnow', hsum, if_neg (by omega)]

lemma le_toUnsigned32_iff {n : Int} (hn : 0 ≤ n) : n ≤ CType.toUnsigned32 n ↔ n < 2 ^ 32 := by
  unfold CType.toUnsigned32
  constructor
  · intro h
    have hlt := Int.emod_lt_of_pos n (show (0 : Int) < 2 ^ 32 by decide)
    omega
  · intro h
    rw [Int.emod_eq_of_lt hn h]

end TaskState

end LambdaMOO
