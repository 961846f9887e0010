import LambdaMOO.CodeGen.Program
import LambdaMOO.VM.Value

/-!
# Activations and unwinding

The activation stack of `execute.c`, with `unwind_stack`, `find_handler_activ` and
`raise_error`. Stacks are lists with the top in front. A run-time stack holds values and
the markers `TYPE_CATCH` and `TYPE_FINALLY`, which no instruction mistakes for values.

What the interpreter asks of the rest of the server is a parameter: the results of
operators and built-in functions, property and verb lookup, and the traceback.
-/

namespace LambdaMOO

/-- A place on a run-time stack. -/
inductive StackSlot where
  | val (v : Value)
  | catchMark (num : Nat)
  | finallyMark (pc : Nat)
  deriving Repr

/-- `Finally_Reason`. -/
inductive Reason where
  | fallThru | raise | uncaught | ret | abort | exit
  deriving DecidableEq, Repr

namespace Reason

/-- The number of a reason, as it is pushed for a finally handler. -/
def code : Reason → Int
  | fallThru => 0
  | raise => 1
  | uncaught => 2
  | ret => 3
  | abort => 4
  | exit => 5

/-- The reason `EOP_CONTINUE` reads; `FIN_ABORT` is not one it knows. -/
def ofValue : Value → Option Reason
  | .int 0 => some fallThru
  | .int 1 => some raise
  | .int 2 => some uncaught
  | .int 3 => some ret
  | .int 5 => some exit
  | _ => none

lemma ofValue_code {why : Reason} (h : why ≠ abort) : ofValue (.int why.code) = some why := by
  cases why with
  | abort => exact absurd rfl h
  | _ => rfl

end Reason

/-- `enum outcome`. -/
inductive Outcome where
  | done | aborted | blocked
  deriving DecidableEq, Repr

/-! ### Handlers on one stack -/

/-- The test of a code list: anything but a list catches every code. -/
def catches (code : Value) : StackSlot → Bool
  | .val (.list codes) => code.isMember codes
  | _ => true

/-- The slots of a catch marker from the bottom up, a code list and a handler each. -/
def findArm (code : Value) : List StackSlot → Option StackSlot
  | codes :: handler :: arms => if catches code codes then some handler else findArm code arms
  | _ => none

/-- What the loop over one run-time stack ends with. -/
inductive Scanned where
  | entered (pc : Nat) (rest : List StackSlot)
  | caught (pc : Nat) (rest : List StackSlot)
  | emptied (rest : List StackSlot)
  deriving Repr

/-- The loop of `unwind_stack` over one run-time stack, down to the height `goal`; `skip`
slots of a catch marker are still to be dropped. -/
def scan (why : Reason) (code : Value) (goal : Nat) :
    Nat → List StackSlot → Except String Scanned
  | _, [] => .ok (.emptied [])
  | skip + 1, _ :: s => scan why code goal skip s
  | 0, v :: s =>
    if s.length < goal then .ok (.emptied (v :: s))
    else match v with
      | .finallyMark pc =>
        if why = .abort then scan why code goal 0 s else .ok (.entered pc s)
      | .catchMark num =>
        if why = .raise then
          match findArm code (s.take (2 * num)).reverse with
          | some (.val (.int pc)) => .ok (.caught pc.toNat (s.drop (2 * num)))
          | some _ => .error "Non-numeric PC value on stack!"
          | none => scan why code goal (2 * num) s
        else scan why code goal 0 s
      | .val _ => scan why code goal 0 s

/-- The scan of `find_handler_activ` over one stack. -/
def handles (code : Value) : Nat → List StackSlot → Bool
  | _, [] => false
  | skip + 1, _ :: s => handles code skip s
  | 0, v :: s =>
    match v with
    | .catchMark num =>
      (findArm code (s.take (2 * num)).reverse).isSome || handles code (2 * num) s
    | _ => handles code 0 s

/-! ### The activation stack -/

/-- What a built-in function leaves behind when it calls a verb. -/
structure BiFunc (Data : Type) where
  pc : Nat
  id : Nat
  data : Data

/-- `activation`. `Info` is the verb information: `this`, `player`, `progr`, `vloc` and the
names. -/
structure Activation (Data Info : Type) where
  prog : Program
  bc : Bytecodes
  env : List Value
  stack : List StackSlot
  pc : Nat
  errorPc : Nat
  temp : Value
  biFunc : Option (BiFunc Data)
  debug : Bool
  info : Info

/-- `package`. -/
inductive Package (Data Info : Type) where
  | ret (v : Value)
  | raise (code : Value) (msg : String) (value : Value)
  | call (a : Activation Data Info) (pc : Nat) (data : Data)
  | suspend
  | abort

/-- The rest of the server. An operator gives a value or an error; the operations that a waif
class or another verb may take over give an activation to run. -/
structure World where
  Db : Type
  Data : Type
  Info : Type
  /-- `NUM_MAX` and `OBJ_MAX`. -/
  numMax : Int
  /-- The strict binary operators, and the unary minus and complement. -/
  binary : Db → BinOp → Value → Value → Except ErrorCode Value
  unary : UnOp → Value → Except ErrorCode Value
  /-- The server options `max_list_concat` and `max_concat_catchable`. -/
  maxListConcat : Db → Int
  maxConcatCatchable : Db → Bool
  /-- `l[i]`, `l[i] = v`, `l[i..j]` and `l[i..j] = v`. -/
  index : Db → List (Activation Data Info) → Value → Value →
    Except ErrorCode (Value ⊕ Activation Data Info)
  setIndex : Db → List (Activation Data Info) → Value → Value → Value →
    Except ErrorCode (Value ⊕ Activation Data Info)
  range : Value → Value → Value → Except ErrorCode Value
  setRange : Db → Value → Value → Value → Value → Except ErrorCode Value
  getProp : Db → Activation Data Info → Value → Value → Db × Except ErrorCode Value
  putProp : Db → Activation Data Info → Value → Value → Value → Db × Except ErrorCode Unit
  /-- `enqueue_forked_task2`, with the number of the new task. -/
  enqueueForked : Db → Activation Data Info → Nat → Int → Except ErrorCode (Db × Int)
  /-- The checks of `OP_CALL_VERB` and `call_verb2`. -/
  callVerb : Db → List (Activation Data Info) → Value → Value → Value →
    Except ErrorCode (Activation Data Info)
  /-- `call_bi_func`: the function, its argument, where it goes on, and its data. -/
  callBiFunc : Db → List (Activation Data Info) → Nat → Value → Nat → Option Data →
    Db × Package Data Info
  /-- A built-in function whose call is unwound: it goes on with zeros to its end. -/
  finishBiFunc : Db → BiFunc Data → Db
  /-- `suspend_task`; an error when there is no room for another task. -/
  suspendTask : Db → List (Activation Data Info) → Except ErrorCode Db
  /-- `make_stack_list`. -/
  stackList : List (Activation Data Info) → Int → Value

section

variable {W : World}

/-- The activation stack, top first. -/
abbrev Frames (W : World) := List (Activation W.Data W.Info)

/-- `find_handler_activ`: the number of the activation, or -1. -/
def findHandlerActiv (code : Value) : Frames W → Int
  | [] => -1
  | a :: fs => if handles code 0 a.stack then fs.length else findHandlerActiv code fs

/-- Where the interpreter goes on: in a handler, behind a loop, or with a value. -/
inductive Resumption where
  | finallyHandler | catchHandler | jump | value
  deriving DecidableEq, Repr

/-- What unwinding leads to: the interpreter goes on, or it stops. -/
inductive Unwound (W : World) where
  | resumed (how : Resumption) (fs : Frames W) (db : W.Db)
  | stopped (outcome : Outcome) (db : W.Db)

/-- The activation a handler starts in. -/
def enter (a : Activation W.Data W.Info) (pc : Nat) (stack : List StackSlot) :
    Activation W.Data W.Info :=
  { a with pc := pc, stack := stack }

/-- What a finally handler finds on its stack. -/
def finallyStack (why : Reason) (value : Value) (s : List StackSlot) : List StackSlot :=
  .val value :: .val (.int why.code) :: s

/-- The effect of the activation's built-in function when the activation is unwound. -/
def finishCall (a : Activation W.Data W.Info) (db : W.Db) : W.Db :=
  match a.biFunc with
  | some b => W.finishBiFunc db b
  | none => db

/-- `unwind_stack` for `FIN_RAISE`, `FIN_UNCAUGHT` and `FIN_ABORT`. -/
def unwindAll (why : Reason) (value code : Value) : Frames W → W.Db → Except String (Unwound W)
  | [], db => .ok (.stopped .aborted db)
  | a :: fs, db => do
    match ← scan why code 0 0 a.stack with
    | .entered pc s => return .resumed .finallyHandler (enter a pc (finallyStack why value s) :: fs) db
    | .caught pc s => return .resumed .catchHandler (enter a pc (.val value :: s) :: fs) db
    | .emptied _ =>
      if fs.isEmpty then return .stopped .aborted db
      else unwindAll why value code fs (finishCall a db)

/-- `raise_error`. -/
def raiseError (code : Value) (msg : String) (value : Value) (fs : Frames W) (db : W.Db) :
    Except String (Unwound W) :=
  if 0 ≤ findHandlerActiv code fs then
    unwindAll .raise (.list [code, .str msg, value, W.stackList fs (findHandlerActiv code fs)])
      code fs db
  else unwindAll .uncaught .zero code fs db

/-- `make_error_pack`. -/
def raiseCode (e : ErrorCode) (fs : Frames W) (db : W.Db) : Except String (Unwound W) :=
  raiseError (.err e) "" .zero fs db

/-- `*(a->top_rt_stack++) = value`. -/
def pushValue (v : Value) (a : Activation W.Data W.Info) : Activation W.Data W.Info :=
  { a with stack := .val v :: a.stack }

/-- A built-in function goes on with what its call returned, above the activations `fs` of
which `b` is the first. -/
def resumeBiFunc (f : BiFunc W.Data) (value : Value) (b : Activation W.Data W.Info)
    (fs : Frames W) (db : W.Db) : Except String (Unwound W) :=
  match W.callBiFunc db (b :: fs) f.id value f.pc (some f.data) with
  | (db, .ret v) => .ok (.resumed .value (pushValue v b :: fs) db)
  | (db, .raise code msg value) =>
    if b.debug then raiseError code msg value (b :: fs) db
    else .ok (.resumed .value (pushValue code b :: fs) db)
  | (db, .suspend) =>
    match W.suspendTask db (b :: fs) with
    | .ok db => .ok (.stopped .blocked db)
    | .error _ => .error "FIN_RAISE with a value that is not a list"
  | (db, .call a pc data) =>
    .ok (.resumed .value
      ({ a with biFunc := if pc = 0 then none else some ⟨pc, f.id, data⟩ } :: b :: fs) db)
  | (db, .abort) => do
    let u ← unwindAll .abort .zero .zero (b :: fs) db
    match u with
    | .resumed _ _ db => return .stopped .aborted db
    | .stopped _ db => return .stopped .aborted db

/-- `unwind_stack` for `FIN_RETURN`. -/
def unwindReturn (value : Value) : Frames W → W.Db → Except String (Unwound W)
  | [], db => .ok (.stopped .done db)
  | a :: fs, db => do
    match ← scan .ret .zero 0 0 a.stack with
    | .entered pc s => return .resumed .finallyHandler (enter a pc (finallyStack .ret value s) :: fs) db
    | .caught pc s => return .resumed .catchHandler (enter a pc (.val value :: s) :: fs) db
    | .emptied _ =>
      match fs with
      | [] => return .stopped .done db
      | b :: fs =>
        match a.biFunc with
        | some f => resumeBiFunc f value b fs db
        | none => return .resumed .value (pushValue value b :: fs) db

/-- `unwind_stack` for `FIN_EXIT`, with a stack height and a place to go on. -/
def unwindExit (value : Value) : Frames W → W.Db → Except String (Unwound W)
  | [], _ => .error "no activation"
  | a :: fs, db =>
    match value with
    | .list [.int height, .int target] => do
      match ← scan .exit .zero height.toNat 0 a.stack with
      | .entered pc s => return .resumed .finallyHandler (enter a pc (finallyStack .exit value s) :: fs) db
      | .caught pc s => return .resumed .catchHandler (enter a pc (.val value :: s) :: fs) db
      | .emptied s => return .resumed .jump (enter a target.toNat s :: fs) db
    | _ => .error "FIN_EXIT with a value that is not a pair"

/-- `unwind_stack`. -/
def unwindStack (why : Reason) (value : Value) (fs : Frames W) (db : W.Db) :
    Except String (Unwound W) :=
  match why with
  | .ret => unwindReturn value fs db
  | .exit => unwindExit value fs db
  | .raise =>
    match value with
    | .list (code :: _) => unwindAll .raise value code fs db
    | _ => .error "FIN_RAISE with a value that is not a list"
  | why => unwindAll why value .zero fs db

/-- `EOP_CONTINUE`, at the end of a finally handler. -/
def continueFinally (a : Activation W.Data W.Info) (fs : Frames W) (db : W.Db) :
    Except String (Unwound W) :=
  match a.stack with
  | .val v :: .val why :: s =>
    match Reason.ofValue why with
    | some .fallThru => .ok (.resumed .value ({ a with stack := s } :: fs) db)
    | some why => unwindStack why v ({ a with stack := s } :: fs) db
    | none => .error "Unknown FINALLY reason!"
  | _ => .error "Unknown FINALLY reason!"

end

end LambdaMOO
