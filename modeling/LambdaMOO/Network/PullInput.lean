import LambdaMOO.Lib.Incremental
import LambdaMOO.Utf

/-!
# Input from the network

`pull_input` of `net_multi.c` with what it carries from one read to the next: the line so
far, whether the last character was a carriage return, and the bytes of a character that
has not come in whole. What it does with a read is compared with reading on from the bytes
that were carried.
-/

namespace LambdaMOO

open Incremental

/-- The line so far, which is what the stream of an `nhandle` holds, and whether the last
character was a carriage return. -/
structure LineState where
  input : List UInt8
  lastInputWasCR : Bool
  deriving DecidableEq, Repr

/-- `nhandle`, as far as input is concerned. -/
structure NHandle extends LineState where
  binary : Bool
  excessUtf : List UInt8
  deriving DecidableEq, Repr

/-- `new_nhandle`. -/
def newNhandle : NHandle := ⟨⟨[], false⟩, false, []⟩

/-- `my_is_printable`; `character` is the property of the Unicode tables that it asks for. -/
def myIsPrintable (character : Nat → Bool) (x : Nat) : Bool :=
  if x = 0x09 then true
  else if (x ≤ 0xff ∧ (x &&& 0x60 = 0 ∨ x = 0x7f)) ∨ (0xd800 ≤ x ∧ x ≤ 0xdfff) then false
  else character x

/-- `stream_add_utf`. -/
def streamAddUtf (c : Nat) (s : List UInt8) : List UInt8 := s ++ (putUtf c).getD []

/-- `stream_delete_utf`: the last character goes, with all of its bytes. -/
def streamDeleteUtf (s : List UInt8) : List UInt8 :=
  ((s.reverse.dropWhile isUtf8ContByte).drop 1).reverse

/-- A hexadecimal digit of `%02x`. -/
def hexDigit (n : UInt8) : UInt8 := if n < 10 then 48 + n else 87 + n

/-- One byte of a binary string. -/
def moobinaryByte (c : UInt8) : List UInt8 :=
  if 32 ≤ c ∧ c < 126 then [c] else [126, hexDigit (c / 16), hexDigit (c % 16)]

/-- `stream_add_moobinary_from_raw_bytes`. -/
def streamAddMoobinary (bytes : List UInt8) (s : List UInt8) : List UInt8 :=
  s ++ bytes.flatMap moobinaryByte

section

variable (character : Nat → Bool)

/-- One character of a connection in text mode, and the lines that `server_receive_line`
gets. -/
def receiveChar (c : Nat) (l : LineState) : LineState × List (List UInt8) :=
  let (s, lines) :=
    if myIsPrintable character c then (streamAddUtf c l.input, [])
    else if c = 0x08 ∨ c = 0x7f then (streamDeleteUtf l.input, [])
    else if c = 13 ∨ (c = 10 ∧ ¬ l.lastInputWasCR) then ([], [l.input])
    else (l.input, [])
  (⟨s, c = 13⟩, lines)

/-- One round of the loop: the character at the front, if all the bytes of it that its first
byte asks for are there. -/
def pullChar (l : LineState) : List UInt8 → Option (LineState × List (List UInt8) × List UInt8)
  | [] => none
  | b :: p =>
    if clearanceUtf b ≤ p.length + 1 then
      let (c, k) := getUtf (b :: p)
      let (l, lines) := receiveChar character c l
      some (l, lines, (b :: p).drop k)
    else none

/-- The loop is an incremental consumer. -/
def textConsumer : Consumer LineState UInt8 (List UInt8) where
  step := pullChar character
  shorter := by
    intro l x l' o r hstep
    cases x with
    | nil => simp [pullChar] at hstep
    | cons b p =>
      simp only [pullChar] at hstep
      split_ifs at hstep
      simp only [Option.some.injEq, Prod.mk.injEq] at hstep
      have hmoves := getUtf_moves (b :: p)
      rw [← hstep.2.2, List.length_drop, List.length_cons]
      omega
  stable := by
    intro l x l' o r hstep y
    cases x with
    | nil => simp [pullChar] at hstep
    | cons b p =>
      simp only [pullChar] at hstep
      split_ifs at hstep with hb
      simp only [Option.some.injEq, Prod.mk.injEq] at hstep
      obtain ⟨rfl, rfl, rfl⟩ := hstep
      have hle := (getUtf_le b p).trans hb
      have hb' : clearanceUtf b ≤ (p ++ y).length + 1 := by
        rw [List.length_append]
        omega
      have hutf := getUtf_append hb y
      rw [List.cons_append] at hutf ⊢
      simp only [pullChar, if_pos hb', hutf]
      rw [← List.cons_append, List.drop_append_of_le_length hle]

/-- What a stream of bytes in text mode means, however it comes in: the lines, and what is
carried on. -/
def receiveStream (h : NHandle) (stream : List UInt8) : NHandle × List (List UInt8) :=
  let (l, lines, rest) := (textConsumer character).run h.toLineState (h.excessUtf ++ stream)
  ({ h with toLineState := l, excessUtf := rest }, lines)

/-- `pull_input` when `read` has put `data` behind the bytes carried over. The end of the
data is taken to be `count` bytes behind the start of the buffer. -/
def pullInput (h : NHandle) (data : List UInt8) : NHandle × List (List UInt8) :=
  let buffer := (h.excessUtf ++ data).take data.length
  if h.binary then
    ({ h with input := [], lastInputWasCR := false, excessUtf := [] },
      [streamAddMoobinary buffer h.input])
  else
    let (l, lines, rest) := (textConsumer character).run h.toLineState buffer
    ({ h with toLineState := l, excessUtf := rest }, lines)

/-- One read after the other: the lines and the state that is carried on. -/
def pullAll (h : NHandle) : List (List UInt8) → NHandle × List (List UInt8)
  | [] => (h, [])
  | data :: ds =>
    let (h, lines) := pullInput character h data
    let (h, more) := pullAll h ds
    (h, lines ++ more)

/-- The states of a connection, whatever is read and whichever mode it is switched to. -/
inductive NHandle.Reachable : NHandle → Prop
  | new : Reachable newNhandle
  | read {h : NHandle} (hr : Reachable h) (data : List UInt8) :
    Reachable (pullInput character h data).1
  | setBinary {h : NHandle} (hr : Reachable h) (doBinary : Bool) :
    Reachable { h with binary := doBinary }

/-- No read finds bytes of a character that has not come in whole. -/
def FindsNothing : NHandle → List (List UInt8) → Prop
  | _, [] => True
  | h, data :: ds => h.excessUtf = [] ∧ FindsNothing (pullInput character h data).1 ds

variable {character} {h : NHandle} {l l' : LineState} {x r : List UInt8}
  {o : List (List UInt8)}

/-! ### One read -/

/-- Whether a round is possible is a question of the bytes alone. -/
lemma pullChar_eq_none_iff (l : LineState) :
    pullChar character l x = none ↔ ∀ b ∈ x.head?, x.length < clearanceUtf b := by
  cases x with
  | nil => simp [pullChar]
  | cons b p =>
    simp only [pullChar, List.head?_cons, Option.mem_some_iff, forall_eq', List.length_cons]
    split_ifs with hb
    · simpa using hb
    · simpa using hb

/-- The bytes that are carried over are less than a character. -/
lemma NHandle.Reachable.pullChar_excessUtf (hr : h.Reachable character) :
    pullChar character h.toLineState h.excessUtf = none := by
  induction hr with
  | new => rfl
  | @read h hr data ih =>
    unfold pullInput
    dsimp only
    split
    · rfl
    · exact Consumer.step_leftover (c := textConsumer character) h.toLineState _
  | setBinary hr doBinary ih => exact ih

/-- They fit into the four bytes that the connection has for them. -/
lemma NHandle.Reachable.length_excessUtf_le (hr : h.Reachable character) :
    h.excessUtf.length ≤ 3 := by
  have hnone := (pullChar_eq_none_iff h.toLineState).mp hr.pullChar_excessUtf
  cases hx : h.excessUtf with
  | nil => exact Nat.zero_le 3
  | cons b p =>
    have hlt := hnone b (by rw [hx]; rfl)
    rw [hx] at hlt
    have hclear : clearanceUtf b ≤ 4 := by
      unfold clearanceUtf
      split_ifs <;> decide
    omega

/-- With nothing carried over the end of the data is where it is taken to be. -/
lemma pullInput_of_text (hb : h.binary = false) (hx : h.excessUtf = []) (data : List UInt8) :
    pullInput character h data = receiveStream character h data := by
  unfold pullInput receiveStream
  rw [hx, List.nil_append, List.take_length, hb]
  rfl

/-- Reading on from what was carried over is reading it all. -/
lemma receiveStream_append (h : NHandle) (x y : List UInt8) :
    receiveStream character h (x ++ y)
      = ((receiveStream character (receiveStream character h x).1 y).1,
        (receiveStream character h x).2
          ++ (receiveStream character (receiveStream character h x).1 y).2) := by
  have happend := Consumer.run_append (c := textConsumer character) h.toLineState
    (h.excessUtf ++ x) y
  rw [List.append_assoc] at happend
  unfold receiveStream
  rw [happend]

lemma receiveStream_nil (hr : h.Reachable character) :
    receiveStream character h [] = (h, []) := by
  have hrun := Consumer.run_of_none (c := textConsumer character) hr.pullChar_excessUtf
  unfold receiveStream
  rw [List.append_nil, hrun]

/-! ### All reads -/

/-- Reads that find nothing carried over receive the stream. -/
lemma pullAll_eq (hr : h.Reachable character) (hb : h.binary = false) {ds : List (List UInt8)}
    (hds : FindsNothing character h ds) :
    pullAll character h ds = receiveStream character h ds.flatten := by
  induction ds generalizing h with
  | nil => exact (receiveStream_nil hr).symm
  | cons data ds ih =>
    obtain ⟨hx, hds⟩ := hds
    have hread : pullInput character h data = receiveStream character h data :=
      pullInput_of_text hb hx data
    have hb' : (pullInput character h data).1.binary = false := by
      rw [hread]
      exact hb
    rw [List.flatten_cons, receiveStream_append, ← hread, ← ih (hr.read data) hb' hds]
    rfl

lemma pullChar_suffix (hstep : pullChar character l x = some (l', o, r)) : r <:+ x := by
  cases x with
  | nil => simp [pullChar] at hstep
  | cons b p =>
    simp only [pullChar] at hstep
    split_ifs at hstep
    simp only [Option.some.injEq, Prod.mk.injEq] at hstep
    rw [← hstep.2.2]
    exact List.drop_suffix _ _

/-- A read that finds something carried over goes wrong when a newline comes in. -/
lemma pullInput_ne (hr : h.Reachable character) (hb : h.binary = false) (hx : h.excessUtf ≠ []) :
    pullInput character h [10] ≠ receiveStream character h [10] := by
  obtain ⟨b, p, hbp⟩ := List.exists_cons_of_ne_nil hx
  have hclear : (h.excessUtf).length < clearanceUtf b :=
    (pullChar_eq_none_iff h.toLineState).mp hr.pullChar_excessUtf b (by rw [hbp]; rfl)
  rw [hbp, List.length_cons] at hclear
  -- the first byte alone is read, and carried over
  have hbuffer : (h.excessUtf ++ [10]).take [(10 : UInt8)].length = [b] := by
    rw [hbp]
    rfl
  have hnone : pullChar character h.toLineState [b] = none := by
    rw [pullChar_eq_none_iff]
    intro b' hb'
    obtain rfl := Option.some.inj hb'
    rw [List.length_singleton]
    omega
  have hpull : (pullInput character h [10]).1.excessUtf = [b] := by
    have hrun : (textConsumer character).run h.toLineState [b] = (h.toLineState, [], [b]) :=
      Consumer.run_of_none (c := textConsumer character) hnone
    unfold pullInput
    rw [hbuffer]
    dsimp only
    rw [hrun, hb]
    rfl
  have hsuffix : (receiveStream character h [10]).1.excessUtf <:+ h.excessUtf ++ [10] :=
    Consumer.run_suffix (c := textConsumer character) pullChar_suffix h.toLineState _
  intro heq
  rw [← heq, hpull] at hsuffix
  obtain ⟨t, ht⟩ := hsuffix
  have hlast : b = 10 := (List.append_inj' ht rfl).2 |> List.singleton_inj.mp
  rw [hlast] at hclear
  exact absurd hclear (by simp [clearanceUtf])

lemma pullInput_eq_iff (hr : h.Reachable character) (hb : h.binary = false) :
    (∀ data, pullInput character h data = receiveStream character h data)
      ↔ h.excessUtf = [] := by
  constructor
  · intro heq
    by_contra hx
    exact pullInput_ne hr hb hx (heq [10])
  · intro hx data
    exact pullInput_of_text hb hx data

/-- A binary read delivers all bytes if and only if it finds nothing carried over. -/
lemma pullInput_of_binary_iff (hb : h.binary = true) (data : List UInt8) :
    (pullInput character h data).2 = [streamAddMoobinary (h.excessUtf ++ data) h.input]
      ↔ h.excessUtf = [] := by
  have hpos (c : UInt8) : moobinaryByte c ≠ [] := by
    unfold moobinaryByte
    split_ifs <;> exact List.cons_ne_nil _ _
  have hlines : (pullInput character h data).2
      = [streamAddMoobinary ((h.excessUtf ++ data).take data.length) h.input] := by
    simp [pullInput, hb]
  rw [hlines, List.singleton_inj, streamAddMoobinary, streamAddMoobinary,
    List.append_cancel_left_eq]
  constructor
  · intro heq
    have hsplit := List.take_append_drop data.length (h.excessUtf ++ data)
    nth_rewrite 2 [← hsplit] at heq
    rw [List.flatMap_append, List.self_eq_append_right, List.flatMap_eq_nil_iff] at heq
    have hdrop : (h.excessUtf ++ data).drop data.length = [] := by
      by_contra hne
      obtain ⟨c, hc⟩ := List.exists_mem_of_ne_nil _ hne
      exact hpos c (heq c hc)
    rw [List.drop_eq_nil_iff, List.length_append] at hdrop
    exact List.eq_nil_of_length_eq_zero (by omega)
  · intro hx
    rw [hx, List.nil_append, List.take_length]

/-- The input of a connection does not depend on how it is cut as long as no read finds
bytes of a character that has not come in whole; a read that does goes wrong for some
data, and in binary mode for all. -/
theorem pullInput_cut_iff (hr : h.Reachable character) :
    (h.binary = false →
      (∀ ds, FindsNothing character h ds →
        pullAll character h ds = receiveStream character h ds.flatten) ∧
      ((∀ data, pullInput character h data = receiveStream character h data)
        ↔ h.excessUtf = [])) ∧
    (h.binary = true → ∀ data,
      (pullInput character h data).2 = [streamAddMoobinary (h.excessUtf ++ data) h.input]
        ↔ h.excessUtf = []) := by
  refine ⟨fun hb => ⟨fun ds hds => pullAll_eq hr hb hds, pullInput_eq_iff hr hb⟩, fun hb data => ?_⟩
  exact pullInput_of_binary_iff hb data

/-- A line in two reads. -/
theorem pullInput_cut_iff_line :
    pullAll (fun _ => true) newNhandle [[0x41], [0xc3, 0xa9, 10]]
      = receiveStream (fun _ => true) newNhandle [0x41, 0xc3, 0xa9, 10] :=
  ((pullInput_cut_iff NHandle.Reachable.new).1 rfl).1 [[0x41], [0xc3, 0xa9, 10]]
    ⟨rfl, rfl, trivial⟩

end

/-- The same line, cut inside of a character, does not come to its end. -/
theorem pullAll_cut_character :
    [[0x41, 0xc3, 0xa9, 10]].flatten = [[0x41, 0xc3], [0xa9, (10 : UInt8)]].flatten ∧
      pullAll (fun _ => true) newNhandle [[0x41, 0xc3, 0xa9, 10]]
        = (newNhandle, [[0x41, 0xc3, 0xa9]]) ∧
      pullAll (fun _ => true) newNhandle [[0x41, 0xc3], [0xa9, 10]]
        = ({ newNhandle with input := [0x41, 0xc3, 0xa9] }, []) := by
  decide +kernel

end LambdaMOO
