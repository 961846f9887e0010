import LambdaMOO.CodeGen.FrameStmt
import LambdaMOO.CodeGen.Layout
import LambdaMOO.VM.Handlers
import LambdaMOO.VM.Run

/-!
# Loops over ranges

The two bounds of `for id in [from..to]` stay on the stack while the loop runs. Each round
of `OP_FOR_RANGE` takes one value off the range; when the lower bound cannot be raised any
more the upper one is lowered, which makes the range empty.
-/

namespace LambdaMOO

/-- The two types of bounds. -/
inductive BoundType where
  | int | obj

def BoundType.value : BoundType → Int → Value
  | int => .int
  | obj => .obj

/-- The values from `lo` to `hi`, in ascending order. -/
def rangeValues (t : BoundType) (lo hi : Int) : List Value :=
  (List.range (hi - lo + 1).toNat).map fun i : Nat => t.value (lo + i)

/-- The bounds on the stack, above `s`. -/
def boundsOn (t : BoundType) (lo hi : Int) (s : List StackSlot) : List StackSlot :=
  .val (t.value hi) :: .val (t.value lo) :: s

/-- A compiled loop: the opcode with its operands, and behind the body the jump back. -/
structure RangeLoop (r : Bool) (bc : Bytecodes) where
  id : Nat
  top : Nat
  back : Nat
  head : readByte bc.vector top = .ok (Opcode.opForRange.code r)
  var : readVarName bc (top + 1) = .ok id
  label : readLabel bc (top + 1 + bc.numbytesVarName) = .ok (back + 1 + bc.numbytesLabel)
  jump : readByte bc.vector back = .ok (Opcode.opJump.code r)
  jumpLabel : readLabel bc (back + 1) = .ok top
  body_le : top + 1 + bc.numbytesVarName + bc.numbytesLabel ≤ back

namespace RangeLoop

variable {r : Bool} {bc : Bytecodes} (l : RangeLoop r bc)

/-- Where the body starts. -/
def body : Nat := l.top + 1 + bc.numbytesVarName + bc.numbytesLabel

/-- Where the statement behind the loop starts. -/
def done : Nat := l.back + 1 + bc.numbytesLabel

end RangeLoop

section

variable {W : World} {r : Bool} {bc : Bytecodes}

/-- The activation above `fs` is at `pc` with the stack `s`. -/
def VM.IsAt (bc : Bytecodes) (pc : Nat) (s : List StackSlot) (fs : Frames W) (vm : VM W) : Prop :=
  ∃ a, vm.frames = a :: fs ∧ a.bc = bc ∧ a.pc = pc ∧ a.stack = s

/-- The variable `id` of the activation that runs. -/
def VM.variable (id : Nat) (vm : VM W) : Option Value :=
  match vm.frames with
  | [] => none
  | a :: _ => a.env[id]?

/-- Rounds of the interpreter that do not start at the top of the loop, in its activation. -/
inductive BodyRun (l : RangeLoop r bc) (fs : Frames W) : VM W → VM W → Prop where
  | stop (vm : VM W) : BodyRun l fs vm vm
  | round {vm₀ vm₁ vm₂ : VM W} {timedOut : Bool}
      (outside : ∀ s, ¬ vm₀.IsAt bc l.top s fs)
      (step : step r timedOut vm₀ = .ok (.go vm₁))
      (rest : BodyRun l fs vm₁ vm₂) : BodyRun l fs vm₀ vm₂

/-- A run from the body to the top of the loop, which finds the stack as the body did. -/
structure BodyPass (l : RangeLoop r bc) (fs : Frames W) (s : List StackSlot) (vm₁ vm₂ : VM W) :
    Prop where
  start : vm₁.IsAt bc l.body s fs
  run : BodyRun l fs vm₁ vm₂
  back : vm₂.IsAt bc l.top s fs
  var : (vm₂.variable l.id).isSome

/-- From the top of the loop to its top: the values that the variable has when the body
starts. -/
inductive Passes (l : RangeLoop r bc) (fs : Frames W) : VM W → List Value → VM W → Prop where
  | none (vm : VM W) : Passes l fs vm [] vm
  | pass {vm₀ vm₁ vm₂ vm₃ : VM W} {timedOut : Bool} {s : List StackSlot} {v : Value}
      {vs : List Value} (round : step r timedOut vm₀ = .ok (.go vm₁))
      (value : vm₁.variable l.id = some v) (body : BodyPass l fs s vm₁ vm₂)
      (rest : Passes l fs vm₂ vs vm₃) : Passes l fs vm₀ (v :: vs) vm₃

/-! ## One round -/

/-- A round takes the lower bound off the range, also when neither bound can be raised. -/
lemma nextInRange_spec (t : BoundType) {M lo hi : Int} (hlo : lo ≤ M) (hhi : hi ≤ M) :
    match nextInRange M lo hi with
    | none => rangeValues t lo hi = []
    | some (lo', hi') => rangeValues t lo hi = t.value lo :: rangeValues t lo' hi' ∧
        lo' ≤ M ∧ hi' ≤ M := by
  unfold nextInRange rangeValues
  split_ifs with hempty hlt
  · have hcount : (hi - lo + 1).toNat = 0 := by omega
    rw [hcount]
    rfl
  · have hcount : (hi - lo + 1).toNat = (hi - (lo + 1) + 1).toNat + 1 := by omega
    refine ⟨?_, hlt, hhi⟩
    rw [hcount, List.range_succ_eq_map, List.map_cons, List.map_map]
    congr 1
    · exact congrArg t.value (Int.add_zero lo)
    · apply List.map_congr_left
      intro i _
      refine congrArg t.value ?_
      dsimp only [Nat.succ_eq_add_one]
      omega
  · have hcount : (hi - lo + 1).toNat = 1 := by omega
    have hcount' : (hi - 1 - lo + 1).toNat = 0 := by omega
    refine ⟨?_, hlo, by omega⟩
    rw [hcount, hcount', List.range_one, List.map_singleton]
    congr 1
    exact congrArg t.value (Int.add_zero lo)

namespace RangeLoop

variable (l : RangeLoop r bc)

lemma done_ne_body : l.done ≠ l.body := by
  have hle := l.body_le
  unfold done body
  omega

lemma decode_top : decode r bc l.top = .ok (.forRange l.id l.done, l.body) := by
  have hop : Opcode.ofCode r (Opcode.opForRange.code r) = some .opForRange :=
    Opcode.ofCode_code trivial
  unfold decode
  simp only [l.head, bind, Except.bind, hop, decodeOp, decodeVarLabel, l.var, l.label]
  rfl

lemma countsTick_top : countsTick r bc l.top = .ok true := by
  unfold countsTick
  simp only [l.head, bind, Except.bind, pure, Except.pure]
  cases r <;> rfl

lemma countsEopTick_top : countsEopTick r bc l.top = .ok false := by
  unfold countsEopTick
  simp only [l.head, bind, Except.bind, pure, Except.pure]
  cases r <;> rfl

variable {a : Activation W.Data W.Info} {fs : Frames W} {vm : VM W} {timedOut : Bool}

lemma step_top (hframes : vm.frames = a :: fs) (hbc : a.bc = bc) (hpc : a.pc = l.top) :
    step r timedOut vm =
      if vm.ticks - 1 ≤ 0 ∨ timedOut = true then
        (abortTask { a with errorPc := a.pc } fs vm.db).bind fun e =>
          .ok (e.next (vm.ticks - 1))
      else
        (execForRange l.id l.done { a with pc := l.body, errorPc := a.pc } fs vm.db).bind fun e =>
          .ok (e.next (vm.ticks - 1)) := by
  have hticks : vm.ticks - (true.toNat : Int) - (false.toNat : Int) = vm.ticks - 1 :=
    Int.sub_zero _
  unfold step
  rw [hframes]
  simp only [hbc, hpc, l.countsTick_top, l.countsEopTick_top, l.decode_top, bind, Except.bind,
    true_and, pure, Except.pure, exec, hticks]

lemma abortTask_next {a : Activation W.Data W.Info} {db : W.Db} {ticks : Int} {vm : VM W} :
    (abortTask a fs db).bind (fun e => Except.ok (e.next ticks)) ≠ .ok (.go vm) := by
  unfold abortTask
  intro h
  cases hu : unwindAll .abort .zero .zero (a :: fs) db with
  | error e =>
    rw [hu] at h
    cases h
  | ok u =>
    rw [hu] at h
    cases u <;> cases h

end RangeLoop

lemma execForRange_boundsOn (t : BoundType) (lo hi : Int) (s : List StackSlot) (id label : Nat)
    {a : Activation W.Data W.Info} (h : a.stack = boundsOn t lo hi s) (fs : Frames W) (db : W.Db) :
    execForRange id label a fs db = .ok (.go
      (match nextInRange W.numMax lo hi with
        | none => { a with stack := s, pc := label } :: fs
        | some (lo', hi') =>
          { a with stack := boundsOn t lo' hi' s, env := a.env.set id (t.value lo) } :: fs)
      db) := by
  unfold execForRange
  rw [h]
  cases t with
  | int =>
    simp only [boundsOn, BoundType.value, pop2, bind, Except.bind]
    cases nextInRange W.numMax lo hi <;> rfl
  | obj =>
    simp only [boundsOn, BoundType.value, pop2, bind, Except.bind]
    cases nextInRange W.numMax lo hi <;> rfl

/-- What a round at the top of the loop leads to. -/
def RangeLoop.Leads (l : RangeLoop r bc) (t : BoundType) (lo hi : Int) (s : List StackSlot)
    (fs : Frames W) (vm : VM W) : Prop :=
  match nextInRange W.numMax lo hi with
  | none => vm.IsAt bc l.done s fs
  | some (lo', hi') =>
    vm.IsAt bc l.body (boundsOn t lo' hi' s) fs ∧ vm.variable l.id = some (t.value lo)

variable {l : RangeLoop r bc} {t : BoundType} {lo hi : Int} {s : List StackSlot} {fs : Frames W}
  {vm vm' : VM W}

lemma round_leads (h : vm.IsAt bc l.top (boundsOn t lo hi s) fs)
    (hvar : (vm.variable l.id).isSome) :
    (∀ timedOut vm', step r timedOut vm = .ok (.go vm') → l.Leads t lo hi s fs vm') ∧
      (1 < vm.ticks → ∃ vm', step r false vm = .ok (.go vm')) := by
  obtain ⟨a, hframes, hbc, hpc, hstack⟩ := h
  have hid : l.id < a.env.length := by
    unfold VM.variable at hvar
    rw [hframes] at hvar
    obtain ⟨v, hv⟩ := Option.isSome_iff_exists.mp hvar
    exact (List.getElem?_eq_some_iff.mp hv).1
  have hexec := execForRange_boundsOn t lo hi s l.id l.done
    (a := { a with pc := l.body, errorPc := a.pc }) hstack fs vm.db
  constructor
  · intro timedOut vm' hstep
    rw [l.step_top hframes hbc hpc] at hstep
    split_ifs at hstep with hticks
    · exact absurd hstep RangeLoop.abortTask_next
    · rw [hexec] at hstep
      unfold RangeLoop.Leads
      cases hnext : nextInRange W.numMax lo hi with
      | none =>
        rw [hnext] at hstep
        cases hstep
        exact ⟨_, rfl, hbc, rfl, rfl⟩
      | some p =>
        rw [hnext] at hstep
        cases hstep
        refine ⟨⟨_, rfl, hbc, rfl, rfl⟩, ?_⟩
        exact List.getElem?_set_self hid
  · intro hticks
    have hgo : ¬ (vm.ticks - 1 ≤ 0 ∨ false = true) := by
      rintro (hle | hfalse)
      · omega
      · cases hfalse
    rw [l.step_top hframes hbc hpc, if_neg hgo, hexec]
    exact ⟨_, rfl⟩

/-! ## All rounds -/

/-- Each time the body starts it goes on to the top of the loop, with a tick left. -/
def BodyCompletes (l : RangeLoop r bc) (fs : Frames W) (vm : VM W) : Prop :=
  ∀ vs vm₀ timedOut vm₁ s, Passes l fs vm vs vm₀ → step r timedOut vm₀ = .ok (.go vm₁) →
    vm₁.IsAt bc l.body s fs → ∃ vm₂, BodyPass l fs s vm₁ vm₂ ∧ 1 < vm₂.ticks

lemma VM.IsAt.stack_eq {pc pc' : Nat} {s s' : List StackSlot} (h : vm.IsAt bc pc s fs)
    (h' : vm.IsAt bc pc' s' fs) : s = s' := by
  obtain ⟨a, ha, -, -, rfl⟩ := h
  obtain ⟨b, hb, -, -, rfl⟩ := h'
  rw [ha] at hb
  cases hb
  rfl

lemma VM.IsAt.pc_eq {pc pc' : Nat} {s s' : List StackSlot} (h : vm.IsAt bc pc s fs)
    (h' : vm.IsAt bc pc' s' fs) : pc = pc' := by
  obtain ⟨a, ha, -, rfl, -⟩ := h
  obtain ⟨b, hb, -, rfl, -⟩ := h'
  rw [ha] at hb
  cases hb
  rfl

/-- The values so far, when the loop goes on with the lower bound `lo`. -/
lemma passes_spec {vs : List Value} (hpasses : Passes l fs vm vs vm')
    (hlo : lo ≤ W.numMax) (hhi : hi ≤ W.numMax)
    (h : vm.IsAt bc l.top (boundsOn t lo hi s) fs) (hvar : (vm.variable l.id).isSome) :
    ∃ lo' hi', lo' ≤ W.numMax ∧ hi' ≤ W.numMax ∧
      vs ++ rangeValues t lo' hi' = rangeValues t lo hi ∧
      vm'.IsAt bc l.top (boundsOn t lo' hi' s) fs ∧ (vm'.variable l.id).isSome := by
  induction hpasses generalizing lo hi with
  | none vm => exact ⟨lo, hi, hlo, hhi, rfl, h, hvar⟩
  | @pass vm₀ vm₁ vm₂ vm₃ timedOut s₁ v vs round value body rest ih =>
    have hleads := (round_leads h hvar).1 _ _ round
    have hnext := nextInRange_spec t hlo hhi
    unfold RangeLoop.Leads at hleads
    cases heq : nextInRange W.numMax lo hi with
    | none =>
      rw [heq] at hleads
      exact absurd (hleads.pc_eq body.start) l.done_ne_body
    | some p =>
      rw [heq] at hleads hnext
      obtain ⟨hstart, hvalue⟩ := hleads
      obtain ⟨hvalues, hlo', hhi'⟩ := hnext
      obtain rfl := body.start.stack_eq hstart
      obtain ⟨lo₂, hi₂, hlo₂, hhi₂, happ, hat, hvar₂⟩ := ih hlo' hhi' body.back body.var
      refine ⟨lo₂, hi₂, hlo₂, hhi₂, ?_, hat, hvar₂⟩
      rw [hvalue, Option.some.injEq] at value
      rw [hvalues, ← happ, ← value, List.cons_append]

lemma rangeValues_eq_nil_or (t : BoundType) (hlo : lo ≤ W.numMax) (hhi : hi ≤ W.numMax) :
    (rangeValues t lo hi = [] ∧ nextInRange W.numMax lo hi = none) ∨
      ∃ lo' hi', nextInRange W.numMax lo hi = some (lo', hi') ∧ lo' ≤ W.numMax ∧
        hi' ≤ W.numMax ∧ rangeValues t lo hi = t.value lo :: rangeValues t lo' hi' := by
  have hnext := nextInRange_spec t hlo hhi
  cases heq : nextInRange W.numMax lo hi with
  | none =>
    rw [heq] at hnext
    exact .inl ⟨hnext, rfl⟩
  | some p =>
    rw [heq] at hnext
    exact .inr ⟨p.1, p.2, rfl, hnext.2.1, hnext.2.2, hnext.1⟩

/-- When the body completes the loop comes to its end. -/
lemma passes_complete {vs : List Value} (hvs : rangeValues t lo hi = vs)
    (hlo : lo ≤ W.numMax) (hhi : hi ≤ W.numMax)
    (h : vm.IsAt bc l.top (boundsOn t lo hi s) fs) (hvar : (vm.variable l.id).isSome)
    (hbody : BodyCompletes l fs vm) (hticks : 1 < vm.ticks) :
    ∃ vm' vm'', Passes l fs vm vs vm' ∧ step r false vm' = .ok (.go vm'') ∧
      vm''.IsAt bc l.done s fs := by
  induction vs generalizing lo hi vm with
  | nil =>
    obtain ⟨vm', hstep⟩ := (round_leads h hvar).2 hticks
    have hleads := (round_leads h hvar).1 _ _ hstep
    rcases rangeValues_eq_nil_or t hlo hhi with ⟨-, heq⟩ | ⟨lo', hi', -, -, -, hcons⟩
    · unfold RangeLoop.Leads at hleads
      rw [heq] at hleads
      exact ⟨vm, vm', .none vm, hstep, hleads⟩
    · rw [hvs] at hcons
      cases hcons
  | cons v vs ih =>
    obtain ⟨vm₁, hstep⟩ := (round_leads h hvar).2 hticks
    have hleads := (round_leads h hvar).1 _ _ hstep
    rcases rangeValues_eq_nil_or t hlo hhi with ⟨hnil, -⟩ | ⟨lo', hi', heq, hlo', hhi', hcons⟩
    · rw [hvs] at hnil
      cases hnil
    · rw [hvs] at hcons
      obtain ⟨rfl, rfl⟩ := List.cons.inj hcons
      unfold RangeLoop.Leads at hleads
      rw [heq] at hleads
      obtain ⟨hstart, hvalue⟩ := hleads
      obtain ⟨vm₂, hpass, hticks₂⟩ := hbody [] vm false vm₁ _ (.none vm) hstep hstart
      have hrest : BodyCompletes l fs vm₂ := fun vs vm₀ timedOut vm₃ s hp =>
        hbody (_ :: vs) vm₀ timedOut vm₃ s (.pass hstep hvalue hpass hp)
      obtain ⟨vm', vm'', hpasses, hend, hdone⟩ :=
        ih rfl hlo' hhi' hpass.back hpass.var hrest hticks₂
      exact ⟨vm', vm'', .pass hstep hvalue hpass hpasses, hend, hdone⟩

/-- In every run the body starts once for each value from the lower to the upper bound, in
ascending order. After the last one the loop ends with the stack as it was below the bounds;
it comes to this end if the body always completes. -/
theorem forRange_runs (l : RangeLoop r bc) (t : BoundType) (hlo : lo ≤ W.numMax)
    (hhi : hi ≤ W.numMax) (h : vm.IsAt bc l.top (boundsOn t lo hi s) fs)
    (hvar : (vm.variable l.id).isSome) :
    (∀ vs vm', Passes l fs vm vs vm' → vs <+: rangeValues t lo hi ∧
      ∀ timedOut vm'', step r timedOut vm' = .ok (.go vm'') →
        (vs = rangeValues t lo hi ∧ vm''.IsAt bc l.done s fs) ∨
        (∃ v s', vs ++ [v] <+: rangeValues t lo hi ∧ vm''.IsAt bc l.body s' fs ∧
          vm''.variable l.id = some v)) ∧
    (BodyCompletes l fs vm → 1 < vm.ticks →
      ∃ vm' vm'', Passes l fs vm (rangeValues t lo hi) vm' ∧
        step r false vm' = .ok (.go vm'') ∧ vm''.IsAt bc l.done s fs) := by
  refine ⟨?_, passes_complete rfl hlo hhi h hvar⟩
  intro vs vm' hpasses
  obtain ⟨lo', hi', hlo', hhi', happ, hat, hvar'⟩ := passes_spec hpasses hlo hhi h hvar
  refine ⟨⟨_, happ⟩, ?_⟩
  intro timedOut vm'' hstep
  have hleads := (round_leads hat hvar').1 _ _ hstep
  unfold RangeLoop.Leads at hleads
  rcases rangeValues_eq_nil_or t hlo' hhi' with ⟨hnil, heq⟩ | ⟨lo₂, hi₂, heq, -, -, hcons⟩
  · rw [heq] at hleads
    rw [hnil, List.append_nil] at happ
    exact .inl ⟨happ, hleads⟩
  · rw [heq] at hleads
    refine .inr ⟨_, _, ⟨rangeValues t lo₂ hi₂, ?_⟩, hleads.1, hleads.2⟩
    rw [← happ, hcons, List.append_assoc, List.singleton_append]

end

/-- The code of `for x in [2147483646..2147483647] endfor`, up to the greatest number of
`bareWorld`. -/
def highRange : Bytecodes :=
  ⟨1, 1, 1, 1, 1, [100, 0, 100, 1, 6, 0, 9, 107, 4, 110], 10, 2,
    [0, 0, 1, 1, 2, 2, 2, 2, 2, 0], [0, 0, 0, 0, 0, 0, 0, 0, 0, 0]⟩

def highLoop : RangeLoop false highRange := ⟨0, 4, 7, rfl, rfl, rfl, rfl, rfl, by decide⟩

/-- The task at a place of the loop, with the bounds `lo` and `hi` left. -/
def highTask (pc errorPc : Nat) (x : Value) (lo hi ticks : Int) : VM bareWorld where
  frames := [{ bareActivation (boundsOn .int lo hi []) with
    bc := highRange, pc := pc, errorPc := errorPc, env := [x] }]
  db := ()
  ticks := ticks

lemma highTask_pass {x : Value} {lo hi ticks ticks' : Int}
    (h : step false false (highTask 7 4 x lo hi ticks) = .ok (.go (highTask 4 7 x lo hi ticks'))) :
    BodyPass highLoop [] (boundsOn .int lo hi []) (highTask 7 4 x lo hi ticks)
      (highTask 4 7 x lo hi ticks') where
  start := ⟨_, rfl, rfl, rfl, rfl⟩
  run := by
    refine .round ?_ h (.stop _)
    rintro s ⟨a, ha, -, hpc, -⟩
    cases ha
    cases hpc
  back := ⟨_, rfl, rfl, rfl, rfl⟩
  var := rfl

/-- After the two values the loop ends, although the bound cannot be passed. -/
theorem forRange_runs_high : ∃ vm vm' : VM bareWorld,
    Passes highLoop [] (highTask 4 3 .zero 2147483646 2147483647 100)
      [.int 2147483646, .int 2147483647] vm ∧
    step false false vm = .ok (.go vm') ∧ vm'.IsAt highRange 9 [] [] := by
  have h₁ : step false false (highTask 4 3 .zero 2147483646 2147483647 100)
      = .ok (.go (highTask 7 4 (.int 2147483646) 2147483647 2147483647 99)) := rfl
  have h₂ : step false false (highTask 7 4 (.int 2147483646) 2147483647 2147483647 99)
      = .ok (.go (highTask 4 7 (.int 2147483646) 2147483647 2147483647 99)) := rfl
  have h₃ : step false false (highTask 4 7 (.int 2147483646) 2147483647 2147483647 99)
      = .ok (.go (highTask 7 4 (.int 2147483647) 2147483647 2147483646 98)) := rfl
  have h₄ : step false false (highTask 7 4 (.int 2147483647) 2147483647 2147483646 98)
      = .ok (.go (highTask 4 7 (.int 2147483647) 2147483647 2147483646 98)) := rfl
  have hpasses : Passes highLoop [] (highTask 4 3 .zero 2147483646 2147483647 100)
      [.int 2147483646, .int 2147483647]
      (highTask 4 7 (.int 2147483647) 2147483647 2147483646 98) :=
    .pass h₁ rfl (highTask_pass h₂) (.pass h₃ rfl (highTask_pass h₄) (.none _))
  obtain ⟨vm', hstep⟩ : ∃ vm', step false false
      (highTask 4 7 (.int 2147483647) 2147483647 2147483646 98) = .ok (.go vm') := ⟨_, rfl⟩
  have hat : (highTask 4 3 .zero 2147483646 2147483647 100).IsAt highRange highLoop.top
      (boundsOn .int 2147483646 2147483647 []) [] := ⟨_, rfl, rfl, rfl, rfl⟩
  have hruns := (forRange_runs highLoop .int (by decide) (by decide) hat rfl).1 _ _ hpasses
  refine ⟨_, vm', hpasses, hstep, ?_⟩
  rcases hruns.2 _ _ hstep with ⟨-, hdone⟩ | ⟨v, s', hmore, -, -⟩
  · exact hdone
  · exact absurd hmore.length_le (show ¬ 3 ≤ 2 by decide)

/-! ## The generated code -/

/-- What is generated for a loop over a range is a loop in the vector. At its top the
generator counts two values more than before the statement, and none behind it. -/
theorem exists_rangeLoop {r : Bool} {bc : Bytecodes} {lim : Limits} (hlim : lim.IsByte)
    {F s t : State} (c : Linked r F bc) {slot : Nat} {lo hi : Expr} {body : StmtList}
    {loops : List (Option Nat)} (hb : (Stmt.range slot lo hi body).isBuilt loops = true)
    (hw : (Stmt.range slot lo hi body).isWithin lim = true)
    (hl : s.loops.map (·.slot) = loops) (hs : s.IsSound r)
    (h : generateStmt r (.range slot lo hi body) s = .ok t) (hg : Grows r t F) :
    ∃ (l : RangeLoop r bc) (s₁ s₂ : State), generateExpr r lo s = .ok s₁ ∧
      generateExpr r hi s₁ = .ok s₂ ∧ s₂.curStack = s.curStack + 2 ∧
      l.id = slot ∧ l.top = s₂.pos bc.widths ∧ l.done = t.pos bc.widths ∧
      t.curStack = s.curStack := by
  have hslots := hlim.slots
  have hcur : t.curStack = s.curStack := (frame_of_generateStmt hlim hb hw hl h).curStack
  simp only [Stmt.isBuilt, Stmt.isWithin, Bool.and_eq_true, decide_eq_true_eq] at hb hw
  simp only [generateStmt, Except.bind_eq_ok] at h
  obtain ⟨s₁, h₁, s₂, h₂, u, h₃, h⟩ := h
  obtain rfl := Except.ok.inj h
  have f₁ := frame_of_generateExpr hlim hb.1.1 hw.1.1.2 (by rintro ⟨⟩) h₁
  have f₂ := frame_of_generateExpr hlim hb.1.2 hw.1.2 (by rintro ⟨⟩) h₂
  have hcur₂ : s₂.curStack = s.curStack + 2 := by rw [f₂.curStack, f₁.curStack]
  have hs₂ : s₂.IsSound r := f₂.grows.sound (f₁.grows.sound hs)
  have ky : Keeps r s₂ ((s₂.emitOp .opForRange).addVarRef slot) :=
    Keeps.trans (Keeps.emitOp (by trivial)) (Keeps.addVarRef (by omega))
  have hloops : ((s₂.emitOp .opForRange).addVarRef slot).addLabel.loops = s.loops :=
    ky.loops.trans (f₂.loops.trans f₁.loops)
  have f₃ := frame_of_generateStmts hlim hb.2 hw.2 (s := State.enterLoop _ _ _ _ _ _)
    (congrArg (some slot :: ·) ((congrArg _ hloops).trans hl)) h₃
  generalize hy : (s₂.emitOp .opForRange).addVarRef slot = y at ky f₃ h₃ hg ⊢
  -- what is emitted behind the body, from the last state backwards
  have hnone : u.labels[y.labels.length]? = some none :=
    f₃.getElem?_labels (State.getElem?_addLabel y)
  have hlt := (List.getElem?_eq_some_iff.mp hnone).1
  have gd := (Grows.popStack 2).trans hg
  have gk : Grows r ((u.exitLoop.emitOp .opJump).addKnownLabel s₂.captureLabel) F :=
    (Grows.defineLabel (s := (u.exitLoop.emitOp .opJump).addKnownLabel _) hnone).trans gd
  have gj : Grows r (u.exitLoop.emitOp .opJump) F := Grows.trans (Grows.addFixup (by trivial)) gk
  have gu : Grows r u F := Grows.exitLoop.trans (Grows.trans (Grows.emitOp (by trivial)) gj)
  have gz : Grows r y.addLabel F := (Grows.enterLoop _ _ _ _ _).trans (f₃.grows.trans gu)
  have gy : Grows r y F := Grows.addLabel.trans gz
  have gx : Grows r (s₂.emitOp .opForRange) F := (Grows.addVarRef (by omega)).trans (hy ▸ gy)
  have hj : ((u.exitLoop.emitOp .opJump).addKnownLabel s₂.captureLabel).IsSound r :=
    (Grows.exitLoop.trans
      (Grows.trans (Grows.emitOp (by trivial)) (Grows.addFixup (by trivial)))).sound
      (f₃.grows.sound ((Grows.enterLoop _ _ _ _ _).sound
        (Grows.addLabel.sound (ky.grows.sound hs₂))))
  have hhead := c.read_emitOp gx
  have hvar := c.read_addVarRef (hy ▸ gy)
  have hlabel := c.read_label hj hlt gd gz.cells
  have hjump := c.read_emitOp gj
  have hback := c.read_known hs₂ (ky.grows.trans gy) gk
  have hle := f₃.grows.pos_le bc.widths
  have hposy : y.pos bc.widths = s₂.pos bc.widths + 1 + bc.numbytesVarName := by
    rw [← hy, State.pos_addVarRef, State.pos_emitOp, Bytecodes.widths_varName]
  have hposz : y.addLabel.pos bc.widths = y.pos bc.widths + bc.numbytesLabel :=
    State.pos_addLabel ..
  simp only [State.pos_addKnownLabel, State.pos_emitOp, State.pos_exitLoop,
    State.pos_enterLoop, Bytecodes.widths_label, hposy]
    at hlabel hjump hback hle hposz hvar
  refine ⟨⟨slot, s₂.pos bc.widths, u.pos bc.widths, hhead, hvar, hlabel, hjump, hback,
    hposz ▸ hle⟩, s₁, s₂, h₁, h₂, hcur₂, rfl, rfl, ?_, hcur⟩
  simp only [RangeLoop.done, State.pos_popStack, State.pos_defineLabel, State.pos_addKnownLabel,
    State.pos_emitOp, State.pos_exitLoop, Bytecodes.widths_label]

end LambdaMOO
