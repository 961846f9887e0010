import Mathlib.Data.List.Induction
import Mathlib.Data.Option.Basic

/-!
# Operands of suffixes

In a list of tokens a suffix applies to what stands in front of it: to an item, to what has a
suffix already, or to everything back to the bracket that opens a group. When each token is
replaced by tokens that are on one level, the operand of a suffix is replaced as well.
-/

namespace Suffixes

/-- What a token is for brackets and suffixes. A token that is nothing of it, as the sign for an
alternative, is no operand. -/
inductive Role where
  | opens
  | closes
  | item
  | suffix
  | other
  deriving DecidableEq, Repr

variable {α β : Type*}

section

variable (role : α → Role)

/-- The number of groups that are open behind a token. -/
def depthStep : Role → Nat → Option Nat
  | .opens, d => some (d + 1)
  | .closes, 0 => none
  | .closes, d + 1 => some d
  | _, d => some d

/-- The number of groups that are open behind the tokens, unless one is closed that is not
open. -/
def depthAfter : Nat → List α → Option Nat
  | d, [] => some d
  | d, t :: ts => (depthStep (role t) d).bind fun e => depthAfter e ts

def IsBalanced (ts : List α) : Prop := depthAfter role 0 ts = some 0

instance (ts : List α) : Decidable (IsBalanced role ts) :=
  inferInstanceAs (Decidable (_ = _))

/-- From the back up to the bracket that opens the group around `d` groups. -/
def groupBack : Nat → List α → List α
  | _, [] => []
  | d, t :: ts =>
    match role t, d with
    | .opens, 0 => [t]
    | .opens, d + 1 => t :: groupBack d ts
    | .closes, d => t :: groupBack (d + 1) ts
    | _, d => t :: groupBack d ts

/-- The operand of a suffix, from the back. -/
def operandBack : List α → List α
  | [] => []
  | t :: ts =>
    match role t with
    | .item => [t]
    | .closes => t :: groupBack role 0 ts
    | .suffix => t :: operandBack ts
    | _ => []

/-- The operand of a suffix behind the tokens. -/
def operand (ts : List α) : List α := (operandBack role ts.reverse).reverse

/-- The tokens close what they open and nothing else. -/
structure Level (ts : List α) : Prop where
  depth : ∀ d, depthAfter role d ts = some d
  back : ∀ d us, groupBack role d (ts.reverse ++ us) = ts.reverse ++ groupBack role d us

/-- All the tokens, and nothing else, are an operand. -/
def Whole (ts : List α) : Prop :=
  ∀ us, operandBack role (ts.reverse ++ us) = ts.reverse

end

section

variable {role : α → Role} {t : α} {ts us : List α} {d e : Nat}

lemma depthStep_level (ho : role t ≠ .opens) (hc : role t ≠ .closes) :
    depthStep (role t) d = some d := by
  cases h : role t with
  | opens => exact absurd h ho
  | closes => exact absurd h hc
  | item | suffix | other => rfl

lemma depthAfter_append :
    depthAfter role d (ts ++ us) = (depthAfter role d ts).bind fun e => depthAfter role e us := by
  induction ts generalizing d with
  | nil => rfl
  | cons t ts ih => simp only [List.cons_append, depthAfter, ih, Option.bind_assoc]

lemma depthAfter_singleton : depthAfter role d [t] = depthStep (role t) d := by
  rw [depthAfter]
  exact Option.bind_fun_some _

lemma groupBack_level (ho : role t ≠ .opens) (hc : role t ≠ .closes) :
    groupBack role d (t :: ts) = t :: groupBack role d ts := by
  cases h : role t with
  | opens => exact absurd h ho
  | closes => exact absurd h hc
  | item | suffix | other => simp only [groupBack, h]

lemma groupBack_closes (hc : role t = .closes) :
    groupBack role d (t :: ts) = t :: groupBack role (d + 1) ts := by
  simp only [groupBack, hc]

lemma groupBack_opens_zero (ho : role t = .opens) : groupBack role 0 (t :: ts) = [t] := by
  simp only [groupBack, ho]

lemma groupBack_opens_succ (ho : role t = .opens) :
    groupBack role (d + 1) (t :: ts) = t :: groupBack role d ts := by
  simp only [groupBack, ho]

lemma Level.singleton (ho : role t ≠ .opens) (hc : role t ≠ .closes) : Level role [t] where
  depth d := by rw [depthAfter_singleton, depthStep_level ho hc]
  back d us := by rw [List.reverse_singleton, List.singleton_append, groupBack_level ho hc,
    List.singleton_append]

/-- What is balanced is so in an open group, too. -/
lemma depthAfter_add (h : depthAfter role d ts = some e) (k : Nat) :
    depthAfter role (d + k) ts = some (e + k) := by
  induction ts generalizing d with
  | nil =>
    obtain rfl : d = e := Option.some_injective _ h
    rfl
  | cons t ts ih =>
    obtain ⟨d', hstep, hrest⟩ := Option.bind_eq_some_iff.mp h
    have hstep' : depthStep (role t) (d + k) = some (d' + k) := by
      cases hrole : role t with
      | opens =>
        rw [hrole] at hstep
        obtain rfl : d + 1 = d' := Option.some_injective _ hstep
        exact congrArg some (Nat.add_right_comm d k 1)
      | closes =>
        rw [hrole] at hstep
        cases d with
        | zero => cases hstep
        | succ d =>
          obtain rfl : d = d' := Option.some_injective _ hstep
          rw [Nat.add_right_comm]
          rfl
      | item | suffix | other =>
        rw [hrole] at hstep
        obtain rfl : d = d' := Option.some_injective _ hstep
        rfl
    rw [depthAfter, hstep', Option.bind_some, ih hrest]

end

/-! ## Images -/

/-- Brackets and tokens that are no operands are replaced by one token of the same kind, and the
others by tokens that are on one level. -/
structure Image (role : α → Role) (role' : β → Role) (f : α → List β) : Prop where
  opens : ∀ t, role t = .opens → ∃ b, f t = [b] ∧ role' b = .opens
  closes : ∀ t, role t = .closes → ∃ b, f t = [b] ∧ role' b = .closes
  other : ∀ t, role t = .other → ∃ b, f t = [b] ∧ role' b = .other
  level : ∀ t, role t ≠ .opens → role t ≠ .closes → Level role' (f t)

namespace Image

variable {role : α → Role} {role' : β → Role} {f : α → List β} {ts : List α} {d k : Nat}

lemma depthAfter_token (h : Image role role' f) (t : α) (d : Nat) :
    depthAfter role' d (f t) = depthStep (role t) d := by
  by_cases ho : role t = .opens
  · obtain ⟨b, hb, hrole⟩ := h.opens t ho
    rw [hb, depthAfter_singleton, hrole, ho]
  by_cases hc : role t = .closes
  · obtain ⟨b, hb, hrole⟩ := h.closes t hc
    rw [hb, depthAfter_singleton, hrole, hc]
  rw [(h.level t ho hc).depth, depthStep_level ho hc]

lemma depthAfter_flatMap (h : Image role role' f) (d : Nat) :
    depthAfter role' d (ts.flatMap f) = depthAfter role d ts := by
  induction ts generalizing d with
  | nil => rfl
  | cons t ts ih =>
    rw [List.flatMap_cons, depthAfter_append, h.depthAfter_token, depthAfter]
    congr 1
    funext e
    exact ih e

/-- A group that is open is found in the image. -/
lemma groupBack_flatMap (h : Image role role' f) (hdepth : depthAfter role 0 ts = some k)
    (hlt : d < k) (us : List β) :
    groupBack role' d ((ts.flatMap f).reverse ++ us)
      = ((groupBack role d ts.reverse).reverse.flatMap f).reverse := by
  induction ts using List.reverseRecOn generalizing d k with
  | nil =>
    obtain rfl : 0 = k := Option.some_injective _ hdepth
    exact absurd hlt (Nat.not_lt_zero d)
  | append_singleton ts t ih =>
    rw [depthAfter_append] at hdepth
    obtain ⟨e, hfirst, hlast⟩ := Option.bind_eq_some_iff.mp hdepth
    rw [depthAfter_singleton] at hlast
    rw [List.flatMap_append, List.flatMap_singleton, List.reverse_append, List.reverse_append,
      List.reverse_singleton, List.singleton_append, List.append_assoc]
    by_cases ho : role t = .opens
    · obtain ⟨b, hb, hrole⟩ := h.opens t ho
      rw [ho] at hlast
      obtain rfl : e + 1 = k := Option.some_injective _ hlast
      rw [hb, List.reverse_singleton, List.singleton_append]
      cases d with
      | zero =>
        rw [groupBack_opens_zero hrole, groupBack_opens_zero ho, List.reverse_singleton,
          List.flatMap_singleton, hb, List.reverse_singleton]
      | succ d =>
        rw [groupBack_opens_succ hrole, groupBack_opens_succ ho, ih hfirst (by omega),
          List.reverse_cons, List.flatMap_append, List.flatMap_singleton, hb,
          List.reverse_append, List.reverse_singleton, List.singleton_append]
    by_cases hc : role t = .closes
    · obtain ⟨b, hb, hrole⟩ := h.closes t hc
      rw [hc] at hlast
      obtain rfl : e = k + 1 := by
        cases e with
        | zero => cases hlast
        | succ e => exact congrArg (· + 1) (Option.some_injective _ hlast)
      rw [hb, List.reverse_singleton, List.singleton_append, groupBack_closes hrole,
        groupBack_closes hc, ih hfirst (by omega), List.reverse_cons, List.flatMap_append,
        List.flatMap_singleton, hb, List.reverse_append, List.reverse_singleton,
        List.singleton_append]
    · rw [depthStep_level ho hc] at hlast
      obtain rfl : e = k := Option.some_injective _ hlast
      rw [(h.level t ho hc).back, groupBack_level ho hc, ih hfirst hlt, List.reverse_cons,
        List.flatMap_append, List.flatMap_singleton, List.reverse_append]

/-- Behind a token that is no suffix, and whose image is whole if it is an item, the operand in
the image is the image of the operand. -/
theorem operand_flatMap (h : Image role role' f) {b : β} (hb : role' b = .opens)
    (hdepth : (depthAfter role 0 ts).isSome)
    (hlast : ∀ t ∈ ts.getLast?, role t ≠ .suffix ∧ (role t = .item → Whole role' (f t))) :
    operand role' (b :: ts.flatMap f) = (operand role ts).flatMap f := by
  suffices hback : operandBack role' ((ts.flatMap f).reverse ++ [b])
      = ((operandBack role ts.reverse).reverse.flatMap f).reverse by
    rw [operand, List.reverse_cons, hback, List.reverse_reverse, operand]
  induction ts using List.reverseRecOn with
  | nil =>
    rw [List.flatMap_nil, List.reverse_nil, List.nil_append, operandBack, hb]
    rfl
  | append_singleton ts t _ =>
    obtain ⟨hsuffix, hitem⟩ := hlast t (by rw [List.getLast?_concat]; rfl)
    rw [depthAfter_append] at hdepth
    obtain ⟨k, hdepth⟩ := Option.isSome_iff_exists.mp hdepth
    obtain ⟨e, hfirst, hdepth⟩ := Option.bind_eq_some_iff.mp hdepth
    rw [depthAfter_singleton] at hdepth
    rw [List.flatMap_append, List.flatMap_singleton, List.reverse_append, List.reverse_append,
      List.reverse_singleton, List.singleton_append, List.append_assoc]
    cases hrole : role t with
    | opens =>
      obtain ⟨c, hc, hrole'⟩ := h.opens t hrole
      rw [hc, List.reverse_singleton, List.singleton_append, operandBack, operandBack, hrole',
        hrole]
      rfl
    | closes =>
      obtain ⟨c, hc, hrole'⟩ := h.closes t hrole
      rw [hrole] at hdepth
      obtain rfl : e = k + 1 := by
        cases e with
        | zero => cases hdepth
        | succ e => exact congrArg (· + 1) (Option.some_injective _ hdepth)
      rw [hc, List.reverse_singleton, List.singleton_append, operandBack, operandBack, hrole',
        hrole]
      dsimp only
      rw [h.groupBack_flatMap hfirst (Nat.succ_pos k), List.reverse_cons, List.flatMap_append,
        List.flatMap_singleton, hc, List.reverse_append, List.reverse_singleton,
        List.singleton_append]
    | item =>
      rw [hitem hrole, operandBack, hrole]
      dsimp only
      rw [List.reverse_singleton, List.flatMap_singleton]
    | suffix => exact absurd hrole hsuffix
    | other =>
      obtain ⟨c, hc, hrole'⟩ := h.other t hrole
      rw [hc, List.reverse_singleton, List.singleton_append, operandBack, operandBack, hrole',
        hrole]
      rfl

end Image

end Suffixes
