import LambdaMOO.VM.Activation

/-!
# The handler of an error

`find_handler_activ` looks for a handler on all stacks before anything is unwound;
`unwind_stack` takes the stacks down one slot at a time and stops at finally handlers. The
two agree on the activation that handles an error.
-/

namespace LambdaMOO

/-! ### Stacks of generated code -/

/-- The slots under a catch marker, from the bottom up: for each arm its codes and its
handler. -/
def armSlots (arms : List (Value × Nat)) : List StackSlot :=
  arms.flatMap fun arm => [.val arm.1, .val (.int arm.2)]

/-- A run-time stack on which every catch marker has its arms under it. -/
inductive WellMarked : List StackSlot → Prop
  | nil : WellMarked []
  | val {s} (v : Value) : WellMarked s → WellMarked (.val v :: s)
  | finallyMark {s} (pc : Nat) : WellMarked s → WellMarked (.finallyMark pc :: s)
  | catchMark {s} (arms : List (Value × Nat)) :
    WellMarked s → WellMarked (.catchMark arms.length :: ((armSlots arms).reverse ++ s))

section

variable {code : Value} {arms : List (Value × Nat)} {s : List StackSlot}

lemma length_armSlots (arms : List (Value × Nat)) : (armSlots arms).length = 2 * arms.length := by
  induction arms with
  | nil => rfl
  | cons arm arms ih =>
    simp only [armSlots, List.flatMap_cons, List.length_append, List.length_cons,
      List.length_nil] at *
    omega

lemma take_arms (s : List StackSlot) :
    (((armSlots arms).reverse ++ s).take (2 * arms.length)).reverse = armSlots arms := by
  rw [List.take_left' (by rw [List.length_reverse, length_armSlots]), List.reverse_reverse]

lemma drop_arms (s : List StackSlot) :
    ((armSlots arms).reverse ++ s).drop (2 * arms.length) = s :=
  List.drop_left' (by rw [List.length_reverse, length_armSlots])

/-- A handler is a place in the code. -/
lemma findArm_armSlots (code : Value) (arms : List (Value × Nat)) :
    findArm code (armSlots arms) = none ∨
      ∃ pc : Nat, findArm code (armSlots arms) = some (.val (.int pc)) := by
  induction arms with
  | nil => exact Or.inl rfl
  | cons arm arms ih =>
    change findArm code (.val arm.1 :: .val (.int arm.2) :: armSlots arms) = none ∨ ∃ pc : Nat,
      findArm code (.val arm.1 :: .val (.int arm.2) :: armSlots arms) = some (.val (.int pc))
    rw [findArm]
    by_cases hcatch : catches code (.val arm.1) = true
    · rw [if_pos hcatch]
      exact Or.inr ⟨arm.2, rfl⟩
    · rw [if_neg hcatch]
      exact ih

lemma scan_skip (why : Reason) (code : Value) (goal : Nat) (t s : List StackSlot) :
    scan why code goal t.length (t ++ s) = scan why code goal 0 s := by
  induction t with
  | nil => rfl
  | cons v t ih => exact ih

lemma handles_skip (code : Value) (t s : List StackSlot) :
    handles code t.length (t ++ s) = handles code 0 s := by
  induction t with
  | nil => rfl
  | cons v t ih => exact ih

/-- One stack under `FIN_RAISE`: a finally handler leaves the question open, otherwise the
two scans agree. -/
lemma scan_raise (h : WellMarked s) :
    (∃ pc rest, scan .raise code 0 0 s = .ok (.entered pc rest) ∧ WellMarked rest ∧
      handles code 0 rest = handles code 0 s ∧ rest.length < s.length) ∨
    (∃ pc rest, scan .raise code 0 0 s = .ok (.caught pc rest) ∧ handles code 0 s = true) ∨
    (scan .raise code 0 0 s = .ok (.emptied []) ∧ handles code 0 s = false) := by
  induction h with
  | nil => exact Or.inr (Or.inr ⟨rfl, rfl⟩)
  | @val s v hs ih =>
    have hscan : scan .raise code 0 0 (.val v :: s) = scan .raise code 0 0 s := by
      rw [scan, if_neg (Nat.not_lt_zero _)]
    have hhandles : handles code 0 (.val v :: s) = handles code 0 s := rfl
    rw [hscan, hhandles]
    refine ih.imp_left ?_
    rintro ⟨pc, rest, hrest, hwell, heq, hlt⟩
    exact ⟨pc, rest, hrest, hwell, heq, Nat.lt_succ_of_lt hlt⟩
  | @finallyMark s pc hs ih =>
    refine Or.inl ⟨pc, s, ?_, hs, rfl, Nat.lt_succ_self _⟩
    rw [scan, if_neg (Nat.not_lt_zero _)]
    rfl
  | @catchMark s arms hs ih =>
    have hskip := scan_skip .raise code 0 (armSlots arms).reverse s
    rw [List.length_reverse, length_armSlots] at hskip
    have hhandles : handles code 0 (.catchMark arms.length :: ((armSlots arms).reverse ++ s))
        = ((findArm code (armSlots arms)).isSome || handles code 0 s) := by
      have hskip := handles_skip code (armSlots arms).reverse s
      rw [List.length_reverse, length_armSlots] at hskip
      rw [handles, take_arms, hskip]
    rw [hhandles]
    rcases findArm_armSlots code arms with hnone | ⟨pc, hsome⟩
    · have hscan : scan .raise code 0 0 (.catchMark arms.length :: ((armSlots arms).reverse ++ s))
          = scan .raise code 0 0 s := by
        rw [scan, if_neg (Nat.not_lt_zero _), take_arms, drop_arms, hnone, ← hskip]
        rfl
      rw [hscan, hnone]
      refine ih.imp_left ?_
      rintro ⟨pc, rest, hrest, hwell, heq, hlt⟩
      refine ⟨pc, rest, hrest, hwell, heq, ?_⟩
      rw [List.length_cons, List.length_append]
      omega
    · have hscan : scan .raise code 0 0 (.catchMark arms.length :: ((armSlots arms).reverse ++ s))
          = .ok (.caught pc s) := by
        rw [scan, if_neg (Nat.not_lt_zero _), take_arms, drop_arms, hsome]
        rfl
      rw [hscan, hsome]
      exact Or.inr (Or.inl ⟨pc, s, rfl, rfl⟩)

end

/-! ### The whole activation stack -/

section

variable {W : World} {code value : Value} {fs gs : Frames W} {a : Activation W.Data W.Info}
  {db : W.Db}

/-- The slots on all stacks. -/
def stackSize (fs : Frames W) : Nat := (fs.map fun a => a.stack.length).sum

/-- The activation with another stack. -/
def withStack (a : Activation W.Data W.Info) (s : List StackSlot) : Activation W.Data W.Info :=
  { a with stack := s }

/-- A finally handler has come to its end: variables, the place in the code and everything
outside may have changed, and the stack is as the handler found it. -/
def FinishesNormally (a a' : Activation W.Data W.Info) : Prop := a'.stack = a.stack

/-- Where a raise ends that goes on after each finally handler: in a handler of the
activation with the number `i`, or with all activations gone. -/
inductive RaiseEnds : Except String (Unwound W) → Option Nat → Prop
  | caught (b : Activation W.Data W.Info) (gs' : Frames W) (db₁ : W.Db) :
    RaiseEnds (.ok (.resumed .catchHandler (b :: gs') db₁)) (some gs'.length)
  | left (db₁ : W.Db) : RaiseEnds (.ok (.stopped .aborted db₁)) none
  | continued {b b' : Activation W.Data W.Info} {gs' : Frames W} {db₁ : W.Db} (db₂ : W.Db)
    {i : Option Nat} (hfin : FinishesNormally b b')
    (hnext : RaiseEnds (continueFinally b' gs' db₂) i) :
    RaiseEnds (.ok (.resumed .finallyHandler (b :: gs') db₁)) i

/-- What `find_handler_activ` reports. -/
def Reports (code : Value) (fs : Frames W) : Option Nat → Prop
  | some i => findHandlerActiv code fs = i
  | none => findHandlerActiv code fs = -1

lemma findHandlerActiv_withStack (a a' : Activation W.Data W.Info) (s : List StackSlot)
    (gs : Frames W) :
    findHandlerActiv code (withStack a s :: gs) = findHandlerActiv code (withStack a' s :: gs) := rfl

/-- One call of `unwind_stack` for a raise. -/
lemma unwindAll_raise (h : ∀ a ∈ fs, WellMarked a.stack) (value : Value) (db : W.Db) :
    (∃ a gs db', unwindAll .raise value code fs db = .ok (.resumed .catchHandler (a :: gs) db') ∧
      findHandlerActiv code fs = gs.length) ∨
    (∃ db', unwindAll .raise value code fs db = .ok (.stopped .aborted db') ∧
      findHandlerActiv code fs = -1) ∨
    (∃ a pc s gs db', unwindAll .raise value code fs db = .ok (.resumed .finallyHandler
        (enter a pc (finallyStack .raise value s) :: gs) db') ∧
      (∀ b ∈ withStack a s :: gs, WellMarked b.stack) ∧
      findHandlerActiv code (withStack a s :: gs) = findHandlerActiv code fs ∧
      stackSize (withStack a s :: gs) < stackSize fs) := by
  induction fs generalizing db with
  | nil => exact Or.inr (Or.inl ⟨db, rfl, rfl⟩)
  | cons a fs ih =>
    have hfs : ∀ b ∈ fs, WellMarked b.stack := fun b hb => h b (List.mem_cons_of_mem _ hb)
    rw [unwindAll, findHandlerActiv]
    rcases scan_raise (h a List.mem_cons_self) with
      ⟨pc, s, hscan, hwell, heq, hlt⟩ | ⟨pc, s, hscan, hcatch⟩ | ⟨hscan, hnone⟩
    · -- a finally handler of this activation
      refine Or.inr (Or.inr ⟨a, pc, s, fs, db, ?_, ?_, ?_, ?_⟩)
      · rw [hscan]
        rfl
      · intro b hb
        rcases List.mem_cons.mp hb with rfl | hb
        · exact hwell
        · exact hfs b hb
      · rw [findHandlerActiv]
        change (if handles code 0 s = true then _ else _) = _
        rw [heq]
      · simp only [stackSize, withStack, List.map_cons, List.sum_cons]
        omega
    · -- a handler of this activation
      refine Or.inl ⟨enter a pc (.val value :: s), fs, db, ?_, ?_⟩
      · rw [hscan]
        rfl
      · rw [if_pos hcatch]
    · -- nothing here
      rw [hnone, hscan]
      rcases ih hfs (finishCall a db) with ⟨b, gs, db', hunwind, hfind⟩ | ⟨db', hunwind, hfind⟩ |
        ⟨b, pc, s, gs, db', hunwind, hwell, hfind, hlt⟩
      · cases fs with
        | nil => exact absurd hunwind (by simp [unwindAll])
        | cons c fs => exact Or.inl ⟨b, gs, db', hunwind, hfind⟩
      · cases fs with
        | nil => exact Or.inr (Or.inl ⟨db, rfl, rfl⟩)
        | cons c fs => exact Or.inr (Or.inl ⟨db', hunwind, hfind⟩)
      · cases fs with
        | nil => exact absurd hunwind (by simp [unwindAll])
        | cons c fs =>
          refine Or.inr (Or.inr ⟨b, pc, s, gs, db', hunwind, hwell, hfind, ?_⟩)
          simp only [stackSize, List.map_cons, List.sum_cons] at hlt ⊢
          omega

/-- At the end of a finally handler that was entered by a raise, the raise goes on. -/
lemma continueFinally_raise {a' : Activation W.Data W.Info} {s : List StackSlot} {rest : List Value}
    (hstack : a'.stack = finallyStack .raise (.list (code :: rest)) s) :
    continueFinally a' gs db
      = unwindAll .raise (.list (code :: rest)) code (withStack a' s :: gs) db := by
  unfold continueFinally
  rw [hstack]
  rfl

/-- A raise ends where `find_handler_activ` says, and nowhere else. -/
lemma raiseEnds_iff (rest : List Value) (n : Nat) :
    ∀ (fs : Frames W) (db : W.Db), stackSize fs = n → (∀ a ∈ fs, WellMarked a.stack) →
      ∀ i, RaiseEnds (unwindAll .raise (.list (code :: rest)) code fs db) i ↔ Reports code fs i := by
  induction n using Nat.strongRecOn with
  | _ n ih =>
    intro fs db hsize hwell i
    rcases unwindAll_raise hwell (.list (code :: rest)) db with ⟨a, gs, db', hunwind, hfind⟩ |
      ⟨db', hunwind, hfind⟩ | ⟨a, pc, s, gs, db', hunwind, hwell', hfind, hlt⟩
    · rw [hunwind]
      constructor
      · intro hends
        cases hends
        exact hfind
      · intro hreports
        cases i with
        | none => exact absurd (hfind.symm.trans hreports) (by omega)
        | some i =>
          have hi : i = gs.length := by
            have := hfind.symm.trans hreports
            omega
          rw [hi]
          exact .caught _ _ _
    · rw [hunwind]
      constructor
      · intro hends
        cases hends
        exact hfind
      · intro hreports
        cases i with
        | none => exact .left _
        | some i => exact absurd (hfind.symm.trans hreports) (by omega)
    · rw [hunwind]
      have hcontinue (a' : Activation W.Data W.Info) (db'' : W.Db)
          (hfin : FinishesNormally (enter a pc (finallyStack .raise (.list (code :: rest)) s)) a') :
          RaiseEnds (continueFinally a' gs db'') i ↔ Reports code fs i := by
        rw [continueFinally_raise hfin]
        have hnext := ih _ (hsize ▸ hlt) (withStack a' s :: gs) db'' rfl (fun b hb => ?_) i
        · rw [hnext]
          cases i <;> simp only [Reports, findHandlerActiv_withStack a' a, hfind]
        · rcases List.mem_cons.mp hb with rfl | hb
          · exact hwell' (withStack a s) List.mem_cons_self
          · exact hwell' b (List.mem_cons_of_mem _ hb)
      constructor
      · intro hends
        cases hends with
        | continued _ hfin hnext => exact (hcontinue _ _ hfin).mp hnext
      · intro hreports
        exact .continued db' rfl ((hcontinue _ _ rfl).mpr hreports)

/-- `find_handler_activ` reports the activation in whose handler a raise of the code ends,
and none if and only if the raise unwinds everything. The value of a raise is a list that
starts with the code. -/
theorem findHandlerActiv_eq_iff (code : Value) (rest : List Value) (fs : Frames W) (db : W.Db)
    (h : ∀ a ∈ fs, WellMarked a.stack) :
    (∀ i : Nat, findHandlerActiv code fs = i ↔
      RaiseEnds (unwindStack .raise (.list (code :: rest)) fs db) (some i)) ∧
    (findHandlerActiv code fs = -1 ↔
      RaiseEnds (unwindStack .raise (.list (code :: rest)) fs db) none) :=
  ⟨fun i => (raiseEnds_iff rest _ fs db rfl h (some i)).symm,
    (raiseEnds_iff rest _ fs db rfl h none).symm⟩

end

/-- A server without a database: no property, verb or built-in function can be found. -/
def bareWorld : World where
  Db := Unit
  Data := Unit
  Info := Unit
  numMax := 2 ^ 31 - 1
  binary _ _ _ _ := .error .eType
  unary _ _ := .error .eType
  maxListConcat _ := 1000
  maxConcatCatchable _ := true
  index _ _ _ _ := .error .eType
  setIndex _ _ _ _ _ := .error .eType
  range _ _ _ := .error .eType
  setRange _ _ _ _ _ := .error .eType
  getProp _ _ _ _ := ((), .error .eInvind)
  putProp _ _ _ _ _ := ((), .error .eInvind)
  enqueueForked _ _ _ _ := .error .eQuota
  callVerb _ _ _ _ _ := .error .eInvind
  callBiFunc _ _ _ _ _ _ := ((), .raise (.err .eInvarg) "" .zero)
  finishBiFunc db _ := db
  suspendTask _ _ := .error .eQuota
  stackList _ _ := .list []

/-- An activation of `bareWorld` with a given stack. -/
def bareActivation (s : List StackSlot) : Activation bareWorld.Data bareWorld.Info where
  prog := ⟨⟨1, 1, 1, 1, 1, [], 0, 0, [], []⟩, [], []⟩
  bc := ⟨1, 1, 1, 1, 1, [], 0, 0, [], []⟩
  env := []
  stack := s
  pc := 0
  errorPc := 0
  temp := .none
  biFunc := none
  debug := true
  info := ()

/-- A finally handler in front of an except that catches `E_PERM`. -/
theorem findHandlerActiv_eq_iff_sample :
    RaiseEnds (unwindStack .raise (.list [.err .ePerm, .str "", .zero, .list []])
      ([bareActivation [.finallyMark 7], bareActivation [.catchMark 1, .val (.int 9),
        .val (.list [.err .ePerm])]] : Frames bareWorld) ()) (some 0) := by
  refine ((findHandlerActiv_eq_iff _ _ _ _ fun a ha => ?_).1 0).mp rfl
  rcases List.mem_cons.mp ha with rfl | ha
  · exact .finallyMark 7 .nil
  · obtain rfl := List.mem_singleton.mp ha
    exact .catchMark [(.list [.err .ePerm], 9)] .nil

end LambdaMOO
