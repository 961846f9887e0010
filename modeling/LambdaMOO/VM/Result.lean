import LambdaMOO.VM.Handlers
import LambdaMOO.VM.Run

/-!
# The value of a task

When the last activation returns, `run` hands its value to whoever asked for it. Three
instructions can end a run that way: the two returns, and the `EOP_CONTINUE` behind a
finally handler that goes on with a return it had interrupted. The last one hands over
nothing.
-/

namespace LambdaMOO

section

variable {W : World} {fs : Frames W} {db db' : W.Db} {a : Activation W.Data W.Info}

/-! ### Unwinding -/

/-- Raising and aborting do not finish a task. -/
lemma unwindAll_ne_done (why : Reason) (value code : Value) (fs : Frames W) (db db' : W.Db) :
    unwindAll why value code fs db ≠ .ok (.stopped .done db') := by
  induction fs generalizing db with
  | nil => simp [unwindAll]
  | cons a fs ih =>
    rw [unwindAll]
    cases hscan : scan why code 0 0 a.stack with
    | error e => simp [bind, Except.bind]
    | ok sc =>
      cases sc with
      | entered pc s => simp [bind, Except.bind, pure, Except.pure]
      | caught pc s => simp [bind, Except.bind, pure, Except.pure]
      | emptied s =>
        by_cases hempty : fs.isEmpty = true
        · simp [bind, Except.bind, pure, Except.pure, hempty]
        · simpa [bind, Except.bind, hempty] using ih (finishCall a db)

lemma raiseError_ne_done (code : Value) (msg : String) (value : Value) (fs : Frames W)
    (db db' : W.Db) : raiseError code msg value fs db ≠ .ok (.stopped .done db') := by
  unfold raiseError
  split
  · exact unwindAll_ne_done _ _ _ _ _ _
  · exact unwindAll_ne_done _ _ _ _ _ _

lemma resumeBiFunc_ne_done (f : BiFunc W.Data) (value : Value) (b : Activation W.Data W.Info)
    (fs : Frames W) (db db' : W.Db) : resumeBiFunc f value b fs db ≠ .ok (.stopped .done db') := by
  unfold resumeBiFunc
  split
  · simp
  · split
    · exact raiseError_ne_done _ _ _ _ _ _
    · simp
  · split
    · simp
    · simp
  · simp
  · cases hu : unwindAll .abort .zero .zero (b :: fs) _ with
    | error e => simp [bind, Except.bind]
    | ok u => cases u <;> simp [bind, Except.bind, pure, Except.pure]

/-- A return finishes the task only from the last activation. -/
lemma unwindReturn_done {value : Value}
    (h : unwindReturn value (a :: fs) db = .ok (.stopped .done db')) : fs = [] := by
  unfold unwindReturn at h
  dsimp only at h
  cases hscan : scan .ret .zero 0 0 a.stack with
  | error e => simp [hscan, bind, Except.bind] at h
  | ok sc =>
    cases sc with
    | entered pc s => simp [hscan, bind, Except.bind, pure, Except.pure] at h
    | caught pc s => simp [hscan, bind, Except.bind, pure, Except.pure] at h
    | emptied s =>
      cases fs with
      | nil => rfl
      | cons b fs =>
        simp only [hscan, bind, Except.bind, pure, Except.pure] at h
        split at h
        · exact absurd h (resumeBiFunc_ne_done _ _ _ _ _ _)
        · exact absurd h (by simp)

lemma unwindExit_ne_done (value : Value) (fs : Frames W) (db db' : W.Db) :
    unwindExit value fs db ≠ .ok (.stopped .done db') := by
  cases fs with
  | nil => simp [unwindExit]
  | cons a fs =>
    unfold unwindExit
    dsimp only
    split
    · rename_i height target
      cases hscan : scan .exit .zero height.toNat 0 a.stack with
      | error e => simp [bind, Except.bind]
      | ok sc => cases sc <;> simp [bind, Except.bind, pure, Except.pure]
    · simp

lemma unwindStack_done {why : Reason} {value : Value}
    (h : unwindStack why value (a :: fs) db = .ok (.stopped .done db')) : fs = [] := by
  unfold unwindStack at h
  split at h
  · exact unwindReturn_done h
  · exact absurd h (unwindExit_ne_done _ _ _ _)
  · split at h
    · exact absurd h (unwindAll_ne_done _ _ _ _ _ _)
    · exact absurd h (by simp)
  · exact absurd h (unwindAll_ne_done _ _ _ _ _ _)

lemma continueFinally_done (h : continueFinally a fs db = .ok (.stopped .done db')) : fs = [] := by
  unfold continueFinally at h
  split at h
  · split at h
    · exact absurd h (by simp)
    · exact unwindStack_done h
    · exact absurd h (by simp)
  · exact absurd h (by simp)

/-! ### Instructions -/

/-- Not the end of a task. -/
def NotDone (x : Except String (Executed W)) : Prop :=
  ∀ result db, x ≠ .ok (.stop .done result db)

lemma notDone_go (fs : Frames W) (db : W.Db) : NotDone (.ok (.go fs db)) := fun _ _ => by simp

lemma notDone_error (e : String) : NotDone (.error e : Except String (Executed W)) :=
  fun _ _ => by simp

lemma notDone_bind {α : Type} {x : Except String α} {f : α → Except String (Executed W)}
    (h : ∀ v, NotDone (f v)) : NotDone (x >>= f) := by
  cases x with
  | error e => exact notDone_error e
  | ok v => exact h v

lemma notDone_execRaise (u : Except String (Unwound W)) : NotDone (execRaise u) := by
  refine notDone_bind fun u => ?_
  cases u with
  | resumed how fs db => exact notDone_go fs db
  | stopped outcome db => exact fun _ _ => by simp [pure, Except.pure]

lemma notDone_raiseOr (e : ErrorCode) {otherwise : Executed W} (h : NotDone (.ok otherwise)) :
    NotDone (raiseOr a fs db e otherwise) := by
  unfold raiseOr
  split
  · exact notDone_execRaise _
  · exact h

lemma notDone_pushError (e : ErrorCode) : NotDone (pushError a fs db e) :=
  notDone_raiseOr e (notDone_go _ _)

lemma notDone_abortTask : NotDone (abortTask a fs db) := by
  refine notDone_bind fun u => ?_
  cases u <;> exact fun _ _ => by simp [pure, Except.pure]

lemma notDone_pushErrorUnlessQuota (e : ErrorCode) : NotDone (pushErrorUnlessQuota a fs db e) := by
  unfold pushErrorUnlessQuota
  split
  · exact notDone_abortTask
  · exact notDone_pushError e

lemma notDone_pushResult (x : Except ErrorCode Value) : NotDone (pushResult a fs db x) := by
  cases x with
  | error e => exact notDone_pushError e
  | ok v => exact notDone_go _ _

lemma notDone_pushConcat (x : Except ErrorCode Value) : NotDone (pushConcat a fs db x) := by
  cases x with
  | error e => exact notDone_pushErrorUnlessQuota e
  | ok v => exact notDone_go _ _

lemma notDone_pushOrCall (x : Except ErrorCode (Value ⊕ Activation W.Data W.Info)) :
    NotDone (pushOrCall a fs db x) := by
  rcases x with e | v | b
  · exact notDone_pushError e
  · exact notDone_go _ _
  · exact notDone_go _ _

lemma notDone_execScatter (nargs nreq rest : Nat) (ts : List (Nat × Nat)) (done : Nat) :
    NotDone (execScatter nargs nreq rest ts done a fs db) := by
  refine notDone_bind fun ⟨v, s⟩ => ?_
  dsimp only
  split
  · exact notDone_pushError _
  · exact notDone_go _ _
  · exact notDone_error _

lemma notDone_execForList (id label : Nat) : NotDone (execForList id label a fs db) := by
  refine notDone_bind fun ⟨count, list, s⟩ => ?_
  dsimp only
  split
  · split
    · exact notDone_go _ _
    · exact notDone_go _ _
  · exact notDone_raiseOr _ (notDone_go _ _)
  · exact notDone_error _

lemma notDone_execForRange (id label : Nat) : NotDone (execForRange id label a fs db) := by
  refine notDone_bind fun ⟨stop, start, s⟩ => ?_
  dsimp only
  split
  · split
    · exact notDone_go _ _
    · exact notDone_go _ _
  · split
    · exact notDone_go _ _
    · exact notDone_go _ _
  · exact notDone_raiseOr _ (notDone_go _ _)

lemma notDone_execFork (index : Nat) (id : Option Nat) : NotDone (execFork index id a fs db) := by
  refine notDone_bind fun ⟨time, s⟩ => ?_
  dsimp only
  split
  · split
    · exact notDone_raiseOr _ (notDone_go _ _)
    · split
      · exact notDone_raiseOr _ (notDone_go _ _)
      · split
        · exact notDone_go _ _
        · exact notDone_go _ _
  · exact notDone_raiseOr _ (notDone_go _ _)

lemma notDone_execBiFunc (id : Nat) : NotDone (execBiFunc id a fs db) := by
  refine notDone_bind fun ⟨args, s⟩ => ?_
  dsimp only
  split
  · split
    · exact notDone_go _ _
    · split
      · exact notDone_execRaise _
      · exact notDone_go _ _
    · exact notDone_go _ _
    · split
      · exact fun _ _ => by simp [pure, Except.pure]
      · exact notDone_pushError _
    · exact notDone_abortTask
  · exact notDone_pushError _

lemma notDone_execPush (id : Nat) (clear : Bool) : NotDone (execPush id clear a fs db) := by
  unfold execPush
  split
  · exact notDone_error _
  · exact notDone_pushError _
  · exact notDone_go _ _

/-- Only a return or a continued return finishes a task. -/
lemma notDone_exec {i : Instr} (hret : i ≠ .ret) (hret0 : i ≠ .ret0) (hcont : i ≠ .continueOp) :
    NotDone (exec i a fs db) := by
  cases i with
  | ret => exact absurd rfl hret
  | ret0 => exact absurd rfl hret0
  | continueOp => exact absurd rfl hcont
  | test label => exact notDone_bind fun _ => notDone_go _ _
  | whileId id label => exact notDone_bind fun _ => notDone_go _ _
  | jump label => exact notDone_go _ _
  | forList id label => exact notDone_execForList id label
  | forRange id label => exact notDone_execForRange id label
  | pop => exact notDone_bind fun _ => notDone_go _ _
  | skip => exact notDone_go _ _
  | imm slot =>
    unfold exec
    dsimp only
    split
    · exact notDone_go _ _
    · exact notDone_error _
  | num n => exact notDone_go _ _
  | makeEmptyList => exact notDone_go _ _
  | makeSingletonList => exact notDone_bind fun _ => notDone_go _ _
  | listAddTail => exact notDone_bind fun _ => notDone_pushConcat _
  | listAppend => exact notDone_bind fun _ => notDone_pushConcat _
  | checkListForSplice =>
    refine notDone_bind fun ⟨v, s⟩ => ?_
    dsimp only
    split
    · exact notDone_go _ _
    · exact notDone_pushError _
  | indexset => exact notDone_bind fun _ => notDone_pushOrCall _
  | putTemp => exact notDone_bind fun _ => notDone_go _ _
  | pushTemp => exact notDone_go _ _
  | binary op =>
    refine notDone_bind fun ⟨rhs, lhs, s⟩ => ?_
    dsimp only
    split
    · exact notDone_pushConcat _
    · exact notDone_pushResult _
  | unary op =>
    refine notDone_bind fun ⟨v, s⟩ => ?_
    dsimp only
    split
    · exact notDone_go _ _
    · exact notDone_pushResult _
  | logical op label =>
    refine notDone_bind fun ⟨v, s⟩ => ?_
    dsimp only
    split
    · exact notDone_go _ _
    · exact notDone_go _ _
  | ref => exact notDone_bind fun _ => notDone_pushOrCall _
  | pushRef => exact notDone_bind fun _ => notDone_pushResult _
  | rangeRef => exact notDone_bind fun _ => notDone_pushResult _
  | rangeset => exact notDone_bind fun _ => notDone_pushConcat _
  | put id drop => exact notDone_bind fun _ => notDone_go _ _
  | push id => exact notDone_execPush id false
  | pushClear id => exact notDone_execPush id true
  | getProp => exact notDone_bind fun _ => notDone_pushResult _
  | pushGetProp => exact notDone_bind fun _ => notDone_pushResult _
  | putProp =>
    refine notDone_bind fun ⟨rhs, name, obj, s⟩ => ?_
    dsimp only
    split
    · exact notDone_go _ _
    · exact notDone_pushError _
  | fork index id => exact notDone_execFork index id
  | callVerb =>
    refine notDone_bind fun ⟨args, verb, obj, s⟩ => ?_
    dsimp only
    split
    · exact notDone_go _ _
    · exact notDone_pushError _
  | biFuncCall id => exact notDone_execBiFunc id
  | length place =>
    unfold exec
    dsimp only
    split
    · exact notDone_pushResult _
    · exact notDone_error _
  | scatter nargs nreq rest ts done => exact notDone_execScatter nargs nreq rest ts done
  | pushLabel label => exact notDone_go _ _
  | tryFinally label => exact notDone_go _ _
  | catchMark num => exact notDone_go _ _
  | endCatch label => exact notDone_bind fun _ => notDone_bind fun _ => notDone_go _ _
  | endExcept label => exact notDone_bind fun _ => notDone_go _ _
  | endFinally =>
    unfold exec
    dsimp only
    split
    · exact notDone_go _ _
    · exact notDone_error _
  | exit height label =>
    intro result db'
    unfold exec
    dsimp only
    cases hu : unwindStack .exit (.list [.int height, .int label]) (a :: fs) db with
    | error e => simp [bind, Except.bind]
    | ok u =>
      cases u with
      | resumed how gs db₁ => simp [bind, Except.bind, pure, Except.pure, Unwound.executed]
      | stopped outcome db₁ =>
        intro h
        simp only [bind, Except.bind, pure, Except.pure, Unwound.executed, Except.ok.injEq,
          Executed.stop.injEq] at h
        obtain ⟨rfl, -, rfl⟩ := h
        exact unwindExit_ne_done (.list [.int height, .int label]) (a :: fs) db db₁ hu

lemma execReturn_done {v : Value} {result : Option Value}
    (h : execReturn v (a :: fs) db = .ok (.stop .done result db')) : fs = [] ∧ result = some v := by
  unfold execReturn at h
  cases hu : unwindStack .ret v (a :: fs) db with
  | error e => simp [hu, bind, Except.bind] at h
  | ok u =>
    cases u with
    | resumed how gs db₁ => simp [hu, bind, Except.bind, pure, Except.pure] at h
    | stopped outcome db₁ =>
      simp only [hu, bind, Except.bind, pure, Except.pure, Except.ok.injEq, Executed.stop.injEq] at h
      obtain ⟨rfl, rfl, rfl⟩ := h
      exact ⟨unwindStack_done hu, rfl⟩

/-! ### Runs -/

/-- The instruction the next round executes. -/
def currentInstr (r : Bool) (vm : VM W) : Option Instr :=
  match vm.frames with
  | [] => none
  | a :: _ => (decode r a.bc a.pc).toOption.map Prod.fst

/-- The value of the return the next round executes in the last activation. -/
def returnOperand (r : Bool) (vm : VM W) : Option Value :=
  match vm.frames, currentInstr r vm with
  | [a], some .ret =>
    match a.stack with
    | .val v :: _ => some v
    | _ => none
  | [_], some .ret0 => some .zero
  | _, _ => none

/-- The value of the last return in the last activation, this round included. -/
def lastReturned (r : Bool) (vm : VM W) (last : Option Value) : Option Value :=
  (returnOperand r vm).or last

/-- Runs from the start of a task, with the value of the last return that the activation it
started with has executed. -/
inductive TaskRun (r : Bool) : VM W → Option Value → Prop
  | start {vm : VM W} (h : Started vm) : TaskRun r vm none
  | step {vm vm' : VM W} {last : Option Value} (timedOut : Bool) (hrun : TaskRun r vm last)
    (hstep : step r timedOut vm = .ok (.go vm')) : TaskRun r vm' (lastReturned r vm last)

/-- The round that ends a task with `OUTCOME_DONE`. -/
lemma step_done {r timedOut : Bool} {vm : VM W} {result : Option Value}
    (h : step r timedOut vm = .ok (.stop .done result db')) :
    ∃ a fs i next, vm.frames = a :: fs ∧ decode r a.bc a.pc = .ok (i, next) ∧
      exec i { a with pc := next, errorPc := a.pc } fs vm.db = .ok (.stop .done result db') := by
  unfold step at h
  cases hframes : vm.frames with
  | nil => simp [hframes] at h
  | cons a fs =>
    rw [hframes] at h
    dsimp only at h
    cases hticks : countsTick r a.bc a.pc with
    | error e => simp [hticks, bind, Except.bind] at h
    | ok checked =>
      simp only [hticks, bind, Except.bind] at h
      split at h
      · cases habort : abortTask { a with errorPc := a.pc } fs vm.db with
        | error e => simp [habort] at h
        | ok e =>
          cases e with
          | go gs db₁ => simp [habort, Executed.next, pure, Except.pure] at h
          | stop outcome res db₁ =>
            simp only [habort, Executed.next, pure, Except.pure, Except.ok.injEq,
              Next.stop.injEq] at h
            obtain ⟨rfl, rfl, rfl⟩ := h
            exact absurd habort (notDone_abortTask _ _)
      · cases hdecode : decode r a.bc a.pc with
        | error e => simp [hdecode] at h
        | ok d =>
          obtain ⟨i, next⟩ := d
          simp only [hdecode] at h
          cases hcount : countsEopTick r a.bc a.pc with
          | error e => simp [hcount] at h
          | ok counted =>
            simp only [hcount] at h
            cases hexec : exec i { a with pc := next, errorPc := a.pc } fs vm.db with
            | error e => simp [hexec] at h
            | ok e =>
              cases e with
              | go gs db₁ => simp [hexec, Executed.next, pure, Except.pure] at h
              | stop outcome res db₁ =>
                simp only [hexec, Executed.next, pure, Except.pure, Except.ok.injEq,
                  Next.stop.injEq] at h
                obtain ⟨rfl, rfl, rfl⟩ := h
                exact ⟨a, fs, i, next, rfl, hdecode, hexec⟩

lemma exec_continueOp_done {result : Option Value}
    (h : exec .continueOp a fs db = .ok (.stop .done result db')) : result = none := by
  unfold exec at h
  cases hu : continueFinally a fs db with
  | error e => simp [hu, bind, Except.bind] at h
  | ok u =>
    cases u with
    | resumed how gs db₁ => simp [hu, bind, Except.bind, pure, Except.pure, Unwound.executed] at h
    | stopped outcome db₁ =>
      simp only [hu, bind, Except.bind, pure, Except.pure, Unwound.executed, Except.ok.injEq,
        Executed.stop.injEq] at h
      exact h.2.1.symm

end

/-- A task of `bareWorld` at the start of a vector. -/
def bareTask (bc : Bytecodes) : VM bareWorld where
  frames := [{ bareActivation [] with prog := ⟨bc, [], []⟩, bc := bc }]
  db := ()
  ticks := 30000

lemma started_bareTask (bc : Bytecodes) : Started (bareTask bc) := ⟨_, rfl, rfl, rfl, rfl⟩

/-- The code of `return 5;`. -/
def plainReturn : Bytecodes :=
  ⟨1, 1, 1, 1, 1, [128, 108, 110], 3, 1, [0, 1, 0], [0, 0, 0]⟩

example : generateCode false (.cons (.ret (some (.var (.int 5)))) .nil)
    = .ok ⟨plainReturn, [], []⟩ := by
  decide

/-- The code of `try return 5; finally endtry`. -/
def tryReturn : Bytecodes :=
  ⟨1, 1, 1, 1, 1, [112, 9, 7, 128, 108, 112, 5, 112, 6, 110], 10, 2,
    [0, 0, 0, 1, 2, 1, 1, 2, 2, 0], [0, 0, 0, 0, 0, 0, 0, 0, 0, 0]⟩

example : generateCode false
    (.cons (.tryFinally (.cons (.ret (some (.var (.int 5)))) .nil) .nil) .nil)
      = .ok ⟨tryReturn, [], []⟩ := by
  decide

end LambdaMOO
