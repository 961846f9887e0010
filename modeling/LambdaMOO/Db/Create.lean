import LambdaMOO.Db.Reachable

/-!
# Creating objects

`bf_create` from the call of the function to the call of `initialize`. The verbs themselves run
elsewhere; what matters of them here is whether they can be called.
-/

namespace LambdaMOO

namespace Db

variable {P : Type}

/-- What a call of a built-in function comes to at first: an error, a value, or a verb that is about
to run. -/
inductive Outcome where
  | error (e : ErrorCode)
  | value (v : Var)
  | calls

/-- `SYSTEM_OBJECT`. -/
def systemOid : Int := 0

section

/-! `findVerb` says whether there is a verb to be called, on the object or on an ancestor of it,
and `room` whether `push_activation` has room for another activation. -/
variable (findVerb : Objects P → Int → String → Bool) (room : Bool)

/-- What `call_verb` answers. -/
def callVerb (objects : Objects P) (this : Int) (vname : String) : ErrorCode :=
  if !isValid objects this then .eInvind
  else if !findVerb objects this vname then .eVerbnf
  else if !room then .eMaxrec
  else .eNone

/-- `bf_create` on its way to `initialize`, with the arguments it has been given. -/
def createAndCall (db : Db P) (progr parent owner : Int) : Option (Outcome × Db P) := do
  let (r, db) ← db.bfCreate progr parent owner
  match r with
  | .error e => return (.error e, db)
  | .ok oid =>
    match callVerb findVerb room db.objects oid "initialize" with
    | .eNone => return (.calls, db)
    | .eMaxrec => return (.error .eMaxrec, db)
    | _ => return (.value (.obj oid), db)

/-- What `call_bi_func` checks of the arguments of `create`, and the call. -/
def checkedCreate (db : Db P) (progr : Int) (args : List Var) : Option (Outcome × Db P) :=
  match args with
  | [.obj parent] => createAndCall findVerb room db progr parent progr
  | [.obj parent, .obj owner] => createAndCall findVerb room db progr parent owner
  | [_] | [_, _] => some (.error .eType, db)
  | _ => some (.error .eArgs, db)

/-- `call_bi_func` for `create`, which may be protected. `fromSystem` says whether the caller is the
system object. -/
def callCreate (isProtected fromSystem : Bool) (db : Db P) (progr : Int) (args : List Var) :
    Option (Outcome × Db P) :=
  if !isProtected || fromSystem then checkedCreate findVerb room db progr args
  else
    match callVerb findVerb room db.objects systemOid "bf_create" with
    | .eNone => some (.calls, db)
    | .eMaxrec => some (.error .eMaxrec, db)
    | _ =>
      if !isWizard db.objects progr then some (.error .ePerm, db)
      else checkedCreate findVerb room db progr args

end

/-- The error that comes after the object has been made: there is an `initialize` to be called,
but no room for it. -/
def MadeBefore (findVerb : Objects P → Int → String → Bool) (room : Bool) (db db' : Db P)
    (progr : Int) (e : ErrorCode) : Prop :=
  e = .eMaxrec ∧ ∃ parent owner oid, db.bfCreate progr parent owner = some (.ok oid, db') ∧
    callVerb findVerb room db'.objects oid "initialize" = .eMaxrec

variable {findVerb : Objects P → Int → String → Bool} {room : Bool} {db : Db P}

lemma Reached.createAndCall_error (h : Reached db) (progr parent owner : Int) :
    ∃ r db', createAndCall findVerb room db progr parent owner = some (r, db') ∧
      ∀ e, r = .error e → db' = db ∨ MadeBefore findVerb room db db' progr e := by
  obtain ⟨r, db', heq, -, herror⟩ := h.coherent.bfCreate_spec progr parent owner
  simp only [createAndCall, heq, Option.bind_eq_bind, Option.bind_some]
  cases r with
  | error e => exact ⟨_, db', rfl, fun _ _ => .inl (herror e rfl)⟩
  | ok oid =>
    cases hcall : callVerb findVerb room db'.objects oid "initialize" with
    | eMaxrec =>
      refine ⟨.error .eMaxrec, db', by simp only [hcall]; rfl, fun e he => .inr ?_⟩
      cases he
      exact ⟨rfl, parent, owner, oid, heq, hcall⟩
    | eNone => exact ⟨.calls, db', by simp only [hcall]; rfl, by rintro _ ⟨⟩⟩
    | _ => exact ⟨.value (.obj oid), db', by simp only [hcall]; rfl, by rintro _ ⟨⟩⟩

lemma Reached.checkedCreate_error (h : Reached db) (progr : Int) (args : List Var) :
    ∃ r db', checkedCreate findVerb room db progr args = some (r, db') ∧
      ∀ e, r = .error e → db' = db ∨ MadeBefore findVerb room db db' progr e := by
  unfold checkedCreate
  split
  · exact h.createAndCall_error progr _ _
  · exact h.createAndCall_error progr _ _
  · exact ⟨_, db, rfl, fun _ _ => .inl rfl⟩
  · exact ⟨_, db, rfl, fun _ _ => .inl rfl⟩
  · exact ⟨_, db, rfl, fun _ _ => .inl rfl⟩

/-- When `create` returns an error before `initialize` has run, nothing has changed, unless
`initialize` could not be called for want of room. -/
theorem Reached.callCreate_error (h : Reached db) (findVerb : Objects P → Int → String → Bool)
    (room isProtected fromSystem : Bool) (progr : Int) (args : List Var) :
    ∃ r db', callCreate findVerb room isProtected fromSystem db progr args = some (r, db') ∧
      ∀ e, r = .error e → db' = db ∨ MadeBefore findVerb room db db' progr e := by
  unfold callCreate
  by_cases hopen : (!isProtected || fromSystem) = true
  · rw [if_pos hopen]
    exact h.checkedCreate_error progr args
  · rw [if_neg hopen]
    split
    · exact ⟨_, db, rfl, by rintro _ ⟨⟩⟩
    · exact ⟨_, db, rfl, fun _ _ => .inl rfl⟩
    · split_ifs
      · exact ⟨_, db, rfl, fun _ _ => .inl rfl⟩
      · exact h.checkedCreate_error progr args

theorem Reached.callCreate_error_motherDb :
    ∃ r db', callCreate (fun _ _ _ => false) true false false motherDb 1 [.obj 0]
        = some (r, db') ∧
      ∀ e, r = .error e → db' = motherDb ∨
        MadeBefore (fun _ _ _ => false) true motherDb db' 1 e :=
  reached_motherDb.callCreate_error _ _ _ _ _ _

/-- A generic object with an `initialize`, whose owner may create one more. -/
def lastCreator : Db Unit where
  objects := [some { name := "", flags := 0, owner := 0, location := nothing, contents := nothing,
                     next := nothing, parent := nothing, child := nothing, sibling := nothing,
                     verbdefs := [{ name := "initialize", owner := 0, perms := 4, prep := 0,
                                    program := some () }],
                     propdefs := [{ addr := 0, name := quotaName }],
                     propval := [⟨.int 1, 0, 0⟩], waifPropdefs := none }]
  allUsers := []
  waifs := []
  waifPropdefs := []

/-- Without room for `initialize` there is an error after the object has been made. -/
theorem callCreate_maxrec :
    ∃ db', callCreate (fun objects oid vname => (ancestors objects objects.length oid).any fun o =>
        o.verbdefs.any fun v => v.name = vname) false false false lastCreator 0 [.obj 0]
          = some (.error .eMaxrec, db') ∧
      lastCreator.objects.length = 1 ∧ db'.objects.length = 2 ∧
      findQuota lastCreator.objects 0 = some (some (0, 1)) ∧
      findQuota db'.objects 0 = some (some (0, 0)) :=
  ⟨_, rfl, rfl, rfl, rfl, rfl⟩

end Db

end LambdaMOO
