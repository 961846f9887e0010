import LambdaMOO.VM.Activation
import LambdaMOO.VM.Instr

/-!
# The interpreter

The loop of `run`, one instruction at a time. `exec` says what an instruction does to the
activations; `step` reads it, counts its tick and executes it.
-/

namespace LambdaMOO

section

variable {W : World}

/-- What an instruction leads to: the next round, or the end of `run` with the value it
delivers. The caller has asked for a result. -/
inductive Executed (W : World) where
  | go (fs : Frames W) (db : W.Db)
  | stop (outcome : Outcome) (result : Option Value) (db : W.Db)

def Unwound.executed : Unwound W → Executed W
  | .resumed _ fs db => .go fs db
  | .stopped outcome db => .stop outcome none db

/-! ### Errors -/

/-- `raise_error` where `run` ends with `OUTCOME_ABORTED`. -/
def execRaise (u : Except String (Unwound W)) : Except String (Executed W) := do
  match ← u with
  | .resumed _ fs db => return .go fs db
  | .stopped _ db => return .stop .aborted none db

variable (a : Activation W.Data W.Info) (fs : Frames W) (db : W.Db)

/-- `RAISE_ERROR`: without the debug flag the instruction goes on. -/
def raiseOr (e : ErrorCode) (otherwise : Executed W) : Except String (Executed W) :=
  if a.debug then execRaise (raiseCode e (a :: fs) db) else .ok otherwise

/-- `PUSH_ERROR`. -/
def pushError (e : ErrorCode) : Except String (Executed W) :=
  raiseOr a fs db e (.go (pushValue (.err e) a :: fs) db)

/-- `abort_task`. -/
def abortTask : Except String (Executed W) := do
  match ← unwindAll .abort .zero .zero (a :: fs) db with
  | .resumed _ _ db => return .stop .aborted none db
  | .stopped _ db => return .stop .aborted none db

/-- `PUSH_ERROR_UNLESS_QUOTA`. -/
def pushErrorUnlessQuota (e : ErrorCode) : Except String (Executed W) :=
  if e = .eQuota ∧ ¬ W.maxConcatCatchable db then abortTask a fs db else pushError a fs db e

/-- Push the value of an operator, or its error. -/
def pushResult : Except ErrorCode Value → Except String (Executed W)
  | .ok v => .ok (.go (pushValue v a :: fs) db)
  | .error e => pushError a fs db e

def pushConcat : Except ErrorCode Value → Except String (Executed W)
  | .ok v => .ok (.go (pushValue v a :: fs) db)
  | .error e => pushErrorUnlessQuota a fs db e

/-- Push the value, or run the activation that computes it. -/
def pushOrCall : Except ErrorCode (Value ⊕ Activation W.Data W.Info) →
    Except String (Executed W)
  | .ok (.inl v) => .ok (.go (pushValue v a :: fs) db)
  | .ok (.inr b) => .ok (.go (b :: a :: fs) db)
  | .error e => pushError a fs db e

end

/-! ### Operands on the stack -/

def pop1 : List StackSlot → Except String (Value × List StackSlot)
  | .val v :: s => .ok (v, s)
  | _ => .error "no value on the stack"

/-- The top two values, the upper one first. -/
def pop2 : List StackSlot → Except String (Value × Value × List StackSlot)
  | .val v :: .val w :: s => .ok (v, w, s)
  | _ => .error "no value on the stack"

def pop3 : List StackSlot → Except String (Value × Value × Value × List StackSlot)
  | .val u :: .val v :: .val w :: s => .ok (u, v, w, s)
  | _ => .error "no value on the stack"

def pop4 : List StackSlot → Except String (Value × Value × Value × Value × List StackSlot)
  | .val t :: .val u :: .val v :: .val w :: s => .ok (t, u, v, w, s)
  | _ => .error "no value on the stack"

/-- The slots a catch marker stands for, popped with it. -/
def popMarker : List StackSlot → Except String (List StackSlot)
  | .catchMark num :: s =>
    if 2 * num ≤ s.length then .ok (s.drop (2 * num)) else .error "no value on the stack"
  | _ => .error "Stack marker is not TYPE_CATCH!"

/-- The length of a list or a string. -/
def lengthOf : StackSlot → Except ErrorCode Value
  | .val (.str s) => .ok (.int s.length)
  | .val (.list vs) => .ok (.int vs.length)
  | _ => .error .eType

/-- `OP_PUSH_REF`. -/
def pushRefOf (list index : Value) : Except ErrorCode Value :=
  match index, list with
  | .int i, .list vs =>
    if i ≤ 0 ∨ vs.length < i then .error .eRange
    else .ok (vs.getD (i.toNat - 1) .none)
  | _, _ => .error .eType

/-- `OP_LIST_ADD_TAIL` and `OP_LIST_APPEND`. -/
def addTail (limit : Int) (list tail : Value) : Except ErrorCode Value :=
  match list with
  | .list vs => if limit ≤ vs.length then .error .eQuota else .ok (.list (vs ++ [tail]))
  | _ => .error .eType

def appendList (limit : Int) (list tail : Value) : Except ErrorCode Value :=
  match list, tail with
  | .list vs, .list ws =>
    if limit < vs.length + ws.length then .error .eQuota else .ok (.list (vs ++ ws))
  | _, _ => .error .eType

/-! ### Scattering assignment -/

/-- The binding loop of `EOP_SCATTER` over the targets that are left. -/
structure ScatterState where
  i : Nat
  offset : Int
  nopt : Int
  goal : Nat
  env : List Value

/-- `list.v.list[k]`. -/
def elementAt (vs : List Value) (k : Int) : Value := vs.getD (k.toNat - 1) .none

/-- `sublist(list, first, after)`. -/
def sublist (vs : List Value) (first after : Int) : List Value :=
  (vs.drop (first.toNat - 1)).take (after - first).toNat

def bindTarget (vs : List Value) (rest : Nat) (nrest : Int) (target : Nat × Nat)
    (st : ScatterState) : ScatterState :=
  let (id, label) := target
  if st.i = rest then
    { st with
      i := st.i + 1
      env := st.env.set id (.list (sublist vs st.i (st.i + nrest - 1)))
      offset := st.offset + nrest - 1 }
  else if label = 0 then
    { st with i := st.i + 1, env := st.env.set id (elementAt vs (st.i + st.offset)) }
  else if 0 < st.nopt then
    { st with
      i := st.i + 1
      nopt := st.nopt - 1
      env := st.env.set id (elementAt vs (st.i + st.offset)) }
  else
    { st with
      i := st.i + 1
      offset := st.offset - 1
      goal := if st.goal = 0 ∧ label ≠ 1 then label else st.goal }

def bindTargets (vs : List Value) (rest : Nat) (nrest : Int) (targets : List (Nat × Nat))
    (st : ScatterState) : ScatterState :=
  targets.foldl (fun st target => bindTarget vs rest nrest target st) st

/-- The error of a scattering assignment. -/
def scatterError (nargs nreq rest : Nat) : Value → Option ErrorCode
  | .list vs =>
    if vs.length < nreq ∨ (nargs < rest ∧ nargs < vs.length) then some .eArgs else none
  | _ => some .eType

section

variable {W : World}

/-! ### Instructions -/

/-- `EOP_SCATTER`. -/
def execScatter (nargs nreq rest : Nat) (targets : List (Nat × Nat)) (done : Nat)
    (a : Activation W.Data W.Info) (fs : Frames W) (db : W.Db) : Except String (Executed W) := do
  let (v, s) ← pop1 a.stack
  match scatterError nargs nreq rest v, v with
  | some e, _ => pushError { a with stack := s, pc := done } fs db e
  | none, .list vs =>
    let nrest : Int := if rest ≤ nargs ∧ nargs ≤ vs.length then vs.length - nargs + 1 else 0
    let st := bindTargets vs rest nrest targets ⟨1, 0, vs.length - nreq, 0, a.env⟩
    return .go ({ a with env := st.env, pc := if st.goal = 0 then done else st.goal } :: fs) db
  | none, _ => .error "not a list"

/-- `OP_FOR_LIST`. -/
def execForList (id label : Nat) (a : Activation W.Data W.Info) (fs : Frames W) (db : W.Db) :
    Except String (Executed W) := do
  let (count, list, s) ← pop2 a.stack
  match count, list with
  | .int n, .list vs =>
    if vs.length < n then return .go ({ a with stack := s, pc := label } :: fs) db
    else
      return .go ({ a with
        stack := .val (.int (n + 1)) :: .val list :: s
        env := a.env.set id (elementAt vs n) } :: fs) db
  | .int _, _ => raiseOr a fs db .eType (.go ({ a with stack := s, pc := label } :: fs) db)
  | _, _ => .error "the count of a loop is not an integer"

/-- One round of a loop over a range: the two bounds afterwards, unless it is over. -/
def nextInRange (numMax : Int) (start stop : Int) : Option (Int × Int) :=
  if stop < start then none
  else if start < numMax then some (start + 1, stop)
  else some (start, stop - 1)

/-- `OP_FOR_RANGE`. -/
def execForRange (id label : Nat) (a : Activation W.Data W.Info) (fs : Frames W) (db : W.Db) :
    Except String (Executed W) := do
  let (stop, start, s) ← pop2 a.stack
  let finished := Executed.go ({ a with stack := s, pc := label } :: fs) db
  match stop, start with
  | .int n, .int m =>
    match nextInRange W.numMax m n with
    | none => return finished
    | some (m', n') => return .go ({ a with
        stack := .val (.int n') :: .val (.int m') :: s, env := a.env.set id (.int m) } :: fs) db
  | .obj n, .obj m =>
    match nextInRange W.numMax m n with
    | none => return finished
    | some (m', n') => return .go ({ a with
        stack := .val (.obj n') :: .val (.obj m') :: s, env := a.env.set id (.obj m) } :: fs) db
  | _, _ => raiseOr a fs db .eType finished

/-- `OP_FORK` and `OP_FORK_WITH_ID`. -/
def execFork (index : Nat) (id : Option Nat) (a : Activation W.Data W.Info) (fs : Frames W)
    (db : W.Db) : Except String (Executed W) := do
  let (time, s) ← pop1 a.stack
  let a := { a with stack := s }
  match time with
  | .int t =>
    if t < 0 then raiseOr a fs db .eInvarg (.go (a :: fs) db)
    else match W.enqueueForked db a index t with
      | .error e => raiseOr a fs db e (.go (a :: fs) db)
      | .ok (db, task) =>
        match id with
        | some id => return .go ({ a with env := a.env.set id (.int task) } :: fs) db
        | none => return .go (a :: fs) db
  | _ => raiseOr a fs db .eType (.go (a :: fs) db)

/-- `OP_BI_FUNC_CALL`. -/
def execBiFunc (id : Nat) (a : Activation W.Data W.Info) (fs : Frames W) (db : W.Db) :
    Except String (Executed W) := do
  let (args, s) ← pop1 a.stack
  let a := { a with stack := s }
  match args with
  | .list _ =>
    match W.callBiFunc db (a :: fs) id args 1 none with
    | (db, .ret v) => return .go (pushValue v a :: fs) db
    | (db, .raise code msg value) =>
      if a.debug then execRaise (raiseError code msg value (a :: fs) db)
      else return .go (pushValue code a :: fs) db
    | (db, .call b pc data) =>
      let b := { b with biFunc := if pc = 0 then none else some ⟨pc, id, data⟩ }
      return .go (b :: a :: fs) db
    | (db, .suspend) =>
      match W.suspendTask db (a :: fs) with
      | .ok db => return .stop .blocked none db
      | .error e => pushError a fs db e
    | (db, .abort) => abortTask a fs db
  | _ => pushError a fs db .eType

/-- `OP_RETURN`, `OP_RETURN0` and `OP_DONE`: the last activation's value is delivered. -/
def execReturn (v : Value) (fs : Frames W) (db : W.Db) : Except String (Executed W) := do
  match ← unwindStack .ret v fs db with
  | .resumed _ fs db => return .go fs db
  | .stopped outcome db => return .stop outcome (if outcome = .done then some v else none) db

/-- The push of a variable. -/
def execPush (id : Nat) (clear : Bool) (a : Activation W.Data W.Info) (fs : Frames W)
    (db : W.Db) : Except String (Executed W) :=
  match a.env[id]? with
  | none => .error "no such variable"
  | some .none => pushError a fs db .eVarnf
  | some v =>
    .ok (.go (pushValue v { a with env := if clear then a.env.set id .none else a.env } :: fs) db)

/-- An instruction, in an activation that is already behind it. -/
def exec (i : Instr) (a : Activation W.Data W.Info) (fs : Frames W) (db : W.Db) :
    Except String (Executed W) :=
  match i with
  | .test label => do
    let (v, s) ← pop1 a.stack
    return .go ({ a with stack := s, pc := if v.isTrue then a.pc else label } :: fs) db
  | .whileId id label => do
    let (v, s) ← pop1 a.stack
    return .go ({ a with
      env := a.env.set id v, stack := s, pc := if v.isTrue then a.pc else label } :: fs) db
  | .jump label => return .go ({ a with pc := label } :: fs) db
  | .forList id label => execForList id label a fs db
  | .forRange id label => execForRange id label a fs db
  | .pop => do
    let (_, s) ← pop1 a.stack
    return .go ({ a with stack := s } :: fs) db
  | .skip => return .go (a :: fs) db
  | .imm slot =>
    match a.prog.literals[slot]? with
    | some v => return .go (pushValue v.toValue a :: fs) db
    | none => .error "no such literal"
  | .num n => return .go (pushValue (.int n) a :: fs) db
  | .makeEmptyList => return .go (pushValue (.list []) a :: fs) db
  | .makeSingletonList => do
    let (v, s) ← pop1 a.stack
    return .go (pushValue (.list [v]) { a with stack := s } :: fs) db
  | .listAddTail => do
    let (tail, list, s) ← pop2 a.stack
    pushConcat { a with stack := s } fs db (addTail (W.maxListConcat db) list tail)
  | .listAppend => do
    let (tail, list, s) ← pop2 a.stack
    pushConcat { a with stack := s } fs db (appendList (W.maxListConcat db) list tail)
  | .checkListForSplice => do
    let (v, s) ← pop1 a.stack
    match v with
    | .list _ => return .go (a :: fs) db
    | _ => pushError { a with stack := s } fs db .eType
  | .indexset => do
    let (value, index, list, s) ← pop3 a.stack
    let a := { a with stack := s }
    pushOrCall a fs db (W.setIndex db (a :: fs) list index value)
  | .putTemp => do
    let (v, _) ← pop1 a.stack
    return .go ({ a with temp := v } :: fs) db
  | .pushTemp => return .go ({ pushValue a.temp a with temp := .none } :: fs) db
  | .binary op => do
    let (rhs, lhs, s) ← pop2 a.stack
    let a := { a with stack := s }
    let result := W.binary db op lhs rhs
    if op = .plus then pushConcat a fs db result else pushResult a fs db result
  | .unary op => do
    let (v, s) ← pop1 a.stack
    let a := { a with stack := s }
    match op with
    | .not => return .go (pushValue (.int (if v.isTrue then 0 else 1)) a :: fs) db
    | op => pushResult a fs db (W.unary op v)
  | .logical op label => do
    let (v, s) ← pop1 a.stack
    if v.isTrue = (op = .or) then return .go ({ a with pc := label } :: fs) db
    else return .go ({ a with stack := s } :: fs) db
  | .ref => do
    let (index, list, s) ← pop2 a.stack
    let a := { a with stack := s }
    pushOrCall a fs db (W.index db (a :: fs) list index)
  | .pushRef => do
    let (index, list, _) ← pop2 a.stack
    pushResult a fs db (pushRefOf list index)
  | .rangeRef => do
    let (stop, start, base, s) ← pop3 a.stack
    pushResult { a with stack := s } fs db (W.range base start stop)
  | .rangeset => do
    let (value, stop, start, base, s) ← pop4 a.stack
    pushConcat { a with stack := s } fs db (W.setRange db base start stop value)
  | .put id drop => do
    let (v, s) ← pop1 a.stack
    return .go ({ a with env := a.env.set id v, stack := if drop then s else a.stack } :: fs) db
  | .push id => execPush id false a fs db
  | .pushClear id => execPush id true a fs db
  | .getProp => do
    let (name, obj, s) ← pop2 a.stack
    let a := { a with stack := s }
    match W.getProp db a obj name with
    | (db, result) => pushResult a fs db result
  | .pushGetProp => do
    let (name, obj, _) ← pop2 a.stack
    match W.getProp db a obj name with
    | (db, result) => pushResult a fs db result
  | .putProp => do
    let (rhs, name, obj, s) ← pop3 a.stack
    let a := { a with stack := s }
    match W.putProp db a obj name rhs with
    | (db, .ok ()) => return .go (pushValue rhs a :: fs) db
    | (db, .error e) => pushError a fs db e
  | .fork index id => execFork index id a fs db
  | .callVerb => do
    let (args, verb, obj, s) ← pop3 a.stack
    let a := { a with stack := s }
    match W.callVerb db (a :: fs) obj verb args with
    | .ok b => return .go (b :: a :: fs) db
    | .error e => pushError a fs db e
  | .biFuncCall id => execBiFunc id a fs db
  | .ret => do
    let (v, s) ← pop1 a.stack
    execReturn v ({ a with stack := s } :: fs) db
  | .ret0 => execReturn .zero (a :: fs) db
  | .length place =>
    match a.stack.reverse[place]? with
    | some slot => pushResult a fs db (lengthOf slot)
    | none => .error "no value on the stack"
  | .scatter nargs nreq rest targets done => execScatter nargs nreq rest targets done a fs db
  | .pushLabel label => return .go (pushValue (.int label) a :: fs) db
  | .tryFinally label =>
    return .go ({ a with stack := .finallyMark label :: a.stack } :: fs) db
  | .catchMark num => return .go ({ a with stack := .catchMark num :: a.stack } :: fs) db
  | .endCatch label => do
    let (v, s) ← pop1 a.stack
    let s ← popMarker s
    return .go ({ a with stack := .val v :: s, pc := label } :: fs) db
  | .endExcept label => do
    let s ← popMarker a.stack
    return .go ({ a with stack := s, pc := label } :: fs) db
  | .endFinally =>
    match a.stack with
    | .finallyMark _ :: s =>
      return .go ({ a with stack := finallyStack .fallThru .zero s } :: fs) db
    | _ => .error "Stack marker is not TYPE_FINALLY!"
  | .continueOp => do
    let u ← continueFinally a fs db
    return u.executed
  | .exit height label => do
    let u ← unwindStack .exit (.list [.int height, .int label]) (a :: fs) db
    return u.executed

/-! ### Runs -/

/-- The interpreter between two rounds. -/
structure VM (W : World) where
  frames : Frames W
  db : W.Db
  ticks : Int

/-- What a round leads to. -/
inductive Next (W : World) where
  | go (vm : VM W)
  | stop (outcome : Outcome) (result : Option Value) (db : W.Db)

def Executed.next (ticks : Int) : Executed W → Next W
  | .go fs db => .go ⟨fs, db, ticks⟩
  | .stop outcome result db => .stop outcome result db

/-- One round of the loop of `run`. `timedOut` is whether the task's seconds are used up. -/
def step (r timedOut : Bool) (vm : VM W) : Except String (Next W) :=
  match vm.frames with
  | [] => .error "no activation"
  | a :: fs => do
    let checked ← countsTick r a.bc a.pc
    if checked ∧ (vm.ticks - 1 ≤ 0 ∨ timedOut) then do
      let e ← abortTask { a with errorPc := a.pc } fs vm.db
      return e.next (vm.ticks - 1)
    else do
      let (i, next) ← decode r a.bc a.pc
      let counted ← countsEopTick r a.bc a.pc
      let e ← exec i { a with pc := next, errorPc := a.pc } fs vm.db
      return e.next (vm.ticks - checked.toNat - counted.toNat)

/-- The interpreter at the start of a task: one activation at the beginning of a vector. -/
structure Started (vm : VM W) : Prop where
  frames : ∃ a, vm.frames = [a] ∧ a.pc = 0 ∧ a.stack = [] ∧ a.biFunc = none

end

end LambdaMOO
