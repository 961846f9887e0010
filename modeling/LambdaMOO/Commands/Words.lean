import LambdaMOO.Strings.Compare
import Mathlib.Data.List.TakeWhile
import Mathlib.Logic.Relation
import Mathlib.Tactic.Common

/-!
# Words of a command line

`parse_into_words` writes the words of a line over the line itself. Its buffer is read through
one cursor and written through another one. Nothing is the result where the code would read or
write outside of the buffer or of the array with the words.
-/

namespace LambdaMOO

/-- A string of C without the byte 0 at its end. -/
structure CString where
  bytes : List UInt8
  nul_notMem : 0 ∉ bytes

/-- `'"'`. -/
def doubleQuote : UInt8 := 34

/-- `'\\'`. -/
def backslash : UInt8 := 92

/-! ## The buffer -/

/-- `words` and `max_words`, once there is an array. An element that was never written to has no
value. -/
structure WordTable where
  slots : List (Option Nat)
  slots_pos : 0 < slots.length

/-- The first array, of 50 pointers. -/
def WordTable.first : WordTable := ⟨List.replicate 50 none, by simp⟩

/-- The copy in an array twice as large. -/
def WordTable.double (t : WordTable) : WordTable :=
  ⟨t.slots ++ List.replicate t.slots.length none,
    Nat.lt_of_lt_of_le t.slots_pos (by simp)⟩

/-- `words[i] = ptr`. -/
def WordTable.set (t : WordTable) (i ptr : Nat) : Option WordTable :=
  if i < t.slots.length then
    some ⟨t.slots.set i (some ptr), by rw [List.length_set]; exact t.slots_pos⟩
  else none

/-- The loops of `parse_into_words`: over the blanks in front, over the words, over the characters
of a word, and over the blanks behind it. -/
inductive WordLoop where
  | front
  | words
  | word
  | behind
  | done
  deriving DecidableEq, Repr

/-- The variables of `parse_into_words`. The cursors are offsets in the buffer, which ends in the
byte 0. -/
structure WordParser where
  loop : WordLoop
  buf : List UInt8
  input : Nat
  ptr : Nat
  inQuotes : Bool
  nwords : Nat
  words : WordTable

namespace WordParser

/-- `*(ptr++) = c`. -/
def store (s : WordParser) (c : UInt8) : Option WordParser :=
  if s.ptr < s.buf.length then some { s with buf := s.buf.set s.ptr c, ptr := s.ptr + 1 }
  else none

/-- The statements in front of the loop over a word. -/
def openWord (s : WordParser) : Option WordParser := do
  let words := if s.nwords = s.words.slots.length then s.words.double else s.words
  let words ← words.set s.nwords s.ptr
  return { s with words := words, loop := .word }

/-- The body of the loop over a word, for the character `c` at the cursor. -/
def turn (s : WordParser) (c : UInt8) : Option WordParser :=
  let s := { s with input := s.input + 1 }
  if c = doubleQuote then some { s with inQuotes := !s.inQuotes }
  else if c = backslash then do
    let d ← s.buf[s.input]?
    if d ≠ 0 then store { s with input := s.input + 1 } d else return s
  else s.store c

/-- One turn of the loop, or the way from it to the next one. -/
def step (s : WordParser) : Option WordParser := do
  let c ← s.buf[s.input]?
  match s.loop with
  | .front =>
    if c = space then return { s with input := s.input + 1 } else return { s with loop := .words }
  | .words => if c ≠ 0 then s.openWord else return { s with loop := .done }
  | .word =>
    if c ≠ 0 ∧ (s.inQuotes ∨ c ≠ space) then s.turn c else return { s with loop := .behind }
  | .behind =>
    if c = space then return { s with input := s.input + 1 }
    else do
      let s ← s.store 0
      return { s with nwords := s.nwords + 1, loop := .words }
  | .done => none

/-- The state in which a call starts, with the array of the calls before, if there was one. -/
def start (words : Option WordTable) (line : CString) : WordParser where
  loop := .front
  buf := line.bytes ++ [0]
  input := 0
  ptr := 0
  inQuotes := false
  nwords := 0
  words := words.getD .first

/-- At most `n` turns. -/
def run : Nat → WordParser → Option WordParser
  | 0, s => if s.loop = .done then some s else none
  | n + 1, s => if s.loop = .done then some s else s.step.bind (run n)

/-- The string at an address. -/
def stringAt (buf : List UInt8) (ptr : Nat) : Option (List UInt8) :=
  if 0 ∈ buf.drop ptr then some ((buf.drop ptr).takeWhile (· ≠ 0)) else none

/-- The strings that the array leads to. -/
def strings (s : WordParser) : Option (List (List UInt8)) :=
  (s.words.slots.take s.nwords).mapM fun slot => slot.bind (stringAt s.buf)

/-- The states that a call comes through. -/
def Reaches (s t : WordParser) : Prop :=
  Relation.ReflTransGen (fun s t : WordParser => s.step = some t) s t

end WordParser

/-- `parse_into_words`. Each turn reads a character or has to do with the beginning or end of a
word, so four of them for each character are enough. -/
def parseIntoWords (words : Option WordTable) (line : CString) : Option WordParser :=
  (WordParser.start words line).run (4 * line.bytes.length + 5)

/-! ## What the words of a line are -/

/-- The pieces of a line: a character of a word, an unquoted blank, and a quote or backslash that is
dropped. -/
inductive LinePiece where
  | char (c : UInt8)
  | blank
  | dropped
  deriving DecidableEq, Repr

/-- The pieces of the rest of a line, in quotes or not. -/
def linePieces : Bool → List UInt8 → List LinePiece
  | _, [] => []
  | inQuotes, c :: rest =>
    if c = doubleQuote then .dropped :: linePieces (!inQuotes) rest
    else if c = backslash then
      match rest with
      | [] => [.dropped]
      | d :: rest => .dropped :: .char d :: linePieces inQuotes rest
    else if c = space ∧ !inQuotes then .blank :: linePieces inQuotes rest
    else .char c :: linePieces inQuotes rest

/-- What is left of the pieces of a word. -/
def letters (word : List LinePiece) : List UInt8 :=
  word.filterMap fun
    | .char c => some c
    | _ => none

/-- The words between the blanks. -/
def wordsBetween (line : List LinePiece) : List (List UInt8) :=
  ((line.splitOn .blank).filter (· ≠ [])).map letters

/-- The words of a line. -/
def wordsOf (line : List UInt8) : List (List UInt8) := wordsBetween (linePieces false line)

/-! ## Pieces and words -/

section

variable {w p : List LinePiece} {x : LinePiece} {c : UInt8}

@[simp] lemma letters_append : letters (w ++ p) = letters w ++ letters p := List.filterMap_append

@[simp] lemma wordsBetween_nil : wordsBetween [] = [] := rfl

@[simp] lemma wordsBetween_blank : wordsBetween (.blank :: p) = wordsBetween p := by
  simp [wordsBetween, List.splitOn_cons_eq_if_modifyHead]

lemma wordsBetween_word (hw : .blank ∉ w) (hne : w ≠ []) : wordsBetween w = [letters w] := by
  simp [wordsBetween, List.splitOn_eq_singleton hw, hne]

lemma wordsBetween_append_blank (hw : .blank ∉ w) (hne : w ≠ []) :
    wordsBetween (w ++ .blank :: p) = letters w :: wordsBetween p := by
  simp [wordsBetween, List.splitOn_append_cons_self_of_not_mem hw, hne]

/-- Each word has at least one piece. -/
lemma length_wordsBetween_le (p : List LinePiece) : (wordsBetween p).length ≤ p.length := by
  induction p with
  | nil => simp
  | cons x p ih =>
    by_cases hx : x = .blank
    · rw [hx, wordsBetween_blank]
      exact Nat.le_succ_of_le ih
    · obtain ⟨first, more, hp⟩ := List.exists_cons_of_ne_nil (List.splitOn_ne_nil .blank p)
      have hgrow : (wordsBetween (x :: p)).length ≤ (wordsBetween p).length + 1 := by
        by_cases hf : first = [] <;>
          simp [wordsBetween, List.splitOn_cons_eq_if_modifyHead, hp, hx, hf]
      rw [List.length_cons]
      omega

end

@[simp] lemma linePieces_nil (q : Bool) : linePieces q [] = [] := rfl

lemma linePieces_quote (q : Bool) (rest : List UInt8) :
    linePieces q (doubleQuote :: rest) = .dropped :: linePieces (!q) rest := by
  rw [linePieces.eq_def]
  simp

lemma linePieces_backslash_end (q : Bool) : linePieces q [backslash] = [.dropped] := by
  rw [linePieces.eq_def]
  simp [backslash, doubleQuote]

lemma linePieces_backslash (q : Bool) (d : UInt8) (rest : List UInt8) :
    linePieces q (backslash :: d :: rest) = .dropped :: .char d :: linePieces q rest := by
  rw [linePieces.eq_def]
  simp [backslash, doubleQuote]

lemma linePieces_space (rest : List UInt8) :
    linePieces false (space :: rest) = .blank :: linePieces false rest := by
  rw [linePieces.eq_def]
  simp [backslash, doubleQuote, space]

lemma linePieces_char {q : Bool} {c : UInt8} (hq : c ≠ doubleQuote) (hb : c ≠ backslash)
    (hs : q = true ∨ c ≠ space) (rest : List UInt8) :
    linePieces q (c :: rest) = .char c :: linePieces q rest := by
  rw [linePieces.eq_def]
  simp only [if_neg hq, if_neg hb]
  rw [if_neg]
  rintro ⟨rfl, hnot⟩
  simp_all

lemma length_linePieces (q : Bool) (line : List UInt8) :
    (linePieces q line).length = line.length := by
  fun_induction linePieces q line <;> simp_all

/-! ## What is in the buffer -/

namespace WordParser

/-- The word lies in front of the place `lim` of the buffer, with the byte 0 behind it. -/
def Held (buf : List UInt8) (lim : Nat) (slot : Option Nat) (w : List UInt8) : Prop :=
  ∃ p, slot = some p ∧ p + w.length < lim ∧ (buf.drop p).take (w.length + 1) = w ++ [0] ∧ 0 ∉ w

/-- The word that is being written lies in front of the place `lim`. -/
def Opened (buf : List UInt8) (lim : Nat) (slot : Option Nat) (w : List UInt8) : Prop :=
  ∃ p, slot = some p ∧ p + w.length = lim ∧ (buf.drop p).take w.length = w ∧ 0 ∉ w

section

variable {buf w : List UInt8} {lim i p : Nat} {slot : Option Nat} {c : UInt8}

lemma take_drop_set {n : Nat} (h : p + n ≤ i) :
    ((buf.set i c).drop p).take n = (buf.drop p).take n := by
  rw [List.drop_set]
  split_ifs with hi
  · rfl
  · rw [List.take_set_of_le (by omega)]

lemma Held.set (h : Held buf lim slot w) (hi : lim ≤ i) : Held (buf.set i c) (i + 1) slot w := by
  obtain ⟨p, hs, hp, hw, h0⟩ := h
  refine ⟨p, hs, by omega, ?_, h0⟩
  rw [take_drop_set (by omega), hw]

lemma Held.stringAt (h : Held buf lim slot w) : slot.bind (stringAt buf) = some w := by
  obtain ⟨p, rfl, -, hw, h0⟩ := h
  have hd : buf.drop p = w ++ 0 :: (buf.drop p).drop (w.length + 1) := by
    conv_lhs => rw [← List.take_append_drop (w.length + 1) (buf.drop p), hw]
    simp
  rw [Option.bind_some, WordParser.stringAt, hd, if_pos (by simp),
    List.takeWhile_append_of_pos (fun d hd => decide_eq_true (ne_of_mem_of_not_mem hd h0))]
  simp

lemma take_drop_set_concat (hw : (buf.drop p).take w.length = w) (hi : p + w.length < buf.length) :
    ((buf.set (p + w.length) c).drop p).take (w.length + 1) = w ++ [c] := by
  rw [List.take_add_one, take_drop_set le_rfl, hw, List.getElem?_drop,
    List.getElem?_set_self hi, Option.toList_some]

/-- A character is put at the end of the word. -/
lemma Opened.set (h : Opened buf lim slot w) (hi : lim < buf.length) (hc : c ≠ 0) :
    Opened (buf.set lim c) (lim + 1) slot (w ++ [c]) := by
  obtain ⟨p, hs, rfl, hw, h0⟩ := h
  refine ⟨p, hs, by simp [Nat.add_assoc], ?_, by simp [h0, hc.symm]⟩
  rw [List.length_append, List.length_singleton, take_drop_set_concat hw hi]

/-- The word is closed. -/
lemma Opened.close (h : Opened buf lim slot w) (hi : lim < buf.length) :
    Held (buf.set lim 0) (lim + 1) slot w := by
  obtain ⟨p, hs, rfl, hw, h0⟩ := h
  exact ⟨p, hs, by omega, take_drop_set_concat hw hi, h0⟩

end

/-! ## Runs -/

/-- What holds in all loops: the words `finished` are held, and from the cursor on the buffer is as
it was, with the rest `rest` of the line. -/
structure Reading (line : List UInt8) (finished : List (List UInt8)) (rest : List UInt8)
    (s : WordParser) : Prop where
  rest_eq : line.drop s.input = rest
  input_le : s.input ≤ line.length
  unread : s.buf.drop s.input = rest ++ [0]
  nwords_eq : s.nwords = finished.length
  held : List.Forall₂ (Held s.buf s.ptr) (s.words.slots.take s.nwords) finished

/-- Where a call stands after the words `finished`, with the words `todo` before it. -/
inductive Invariant (line : List UInt8) (finished todo : List (List UInt8)) (s : WordParser) : Prop
  | front (rest : List UInt8) (hr : Reading line finished rest s) (hl : s.loop = .front)
      (hp : s.ptr ≤ s.input) (hq : s.inQuotes = false)
      (ht : todo = wordsBetween (linePieces false rest))
  | words (rest : List UInt8) (hr : Reading line finished rest s) (hl : s.loop = .words)
      (hp : rest ≠ [] → s.ptr ≤ s.input ∧ s.inQuotes = false ∧ rest.head? ≠ some space)
      (ht : todo = wordsBetween (linePieces false rest))
  | word (rest : List UInt8) (w : List LinePiece) (hr : Reading line finished rest s)
      (hl : s.loop = .word) (hp : s.ptr ≤ s.input)
      (ho : ∃ slot, s.words.slots[s.nwords]? = some slot ∧ Opened s.buf s.ptr slot (letters w))
      (hw : .blank ∉ w)
      (hn : w = [] → rest ≠ [] ∧ s.inQuotes = false ∧ rest.head? ≠ some space)
      (ht : todo = wordsBetween (w ++ linePieces s.inQuotes rest))
  | behind (rest w : List UInt8) (hr : Reading line finished rest s)
      (hl : s.loop = .behind)
      (hp : s.ptr ≤ s.input ∧ (rest = [] ∨ rest.head? = some space ∨ s.ptr < s.input))
      (ho : ∃ slot, s.words.slots[s.nwords]? = some slot ∧ Opened s.buf s.ptr slot w)
      (hq : rest ≠ [] → s.inQuotes = false)
      (ht : todo = w :: wordsBetween (linePieces false rest))
  | done (rest : List UInt8) (hr : Reading line finished rest s) (hl : s.loop = .done)
      (ht : todo = [])

section

variable {line : List UInt8} {finished todo : List (List UInt8)} {rest : List UInt8} {c : UInt8}
  {s : WordParser}

namespace Reading

lemma next_nil (h : Reading line finished [] s) : s.buf[s.input]? = some 0 := by
  rw [← List.head?_drop, h.unread]
  rfl

lemma next_cons (h : Reading line finished (c :: rest) s) : s.buf[s.input]? = some c := by
  rw [← List.head?_drop, h.unread]
  rfl

lemma ne_zero (h : Reading line finished (c :: rest) s) (h0 : 0 ∉ line) : c ≠ 0 := by
  apply ne_of_mem_of_not_mem _ h0
  exact List.mem_of_mem_drop (h.rest_eq ▸ List.mem_cons_self)

lemma input_add (h : Reading line finished rest s) : s.input + rest.length = line.length := by
  have hlen := congrArg List.length h.rest_eq
  have hle := h.input_le
  rw [List.length_drop] at hlen
  omega

lemma buf_length (h : Reading line finished rest s) : s.buf.length = line.length + 1 := by
  have hlen := congrArg List.length h.unread
  have hadd := h.input_add
  simp only [List.length_drop, List.length_append, List.length_singleton] at hlen
  omega

lemma nwords_le (h : Reading line finished rest s) : s.nwords ≤ s.words.slots.length := by
  have hlen := h.held.length_eq
  rw [List.length_take, ← h.nwords_eq] at hlen
  omega

lemma advance (h : Reading line finished (c :: rest) s) :
    Reading line finished rest { s with input := s.input + 1 } where
  rest_eq := by
    rw [← List.drop_drop, h.rest_eq]
    rfl
  input_le := by
    have hadd := h.input_add
    rw [List.length_cons] at hadd
    show s.input + 1 ≤ line.length
    omega
  unread := by
    rw [← List.drop_drop, h.unread]
    rfl
  nwords_eq := h.nwords_eq
  held := h.held

/-- A byte is stored where nothing is left to be read, or the end of the line on itself. -/
lemma store (h : Reading line finished rest s)
    (hp : s.ptr < s.input ∨ (s.ptr = s.input ∧ rest = [] ∧ c = 0)) :
    s.store c = some { s with buf := s.buf.set s.ptr c, ptr := s.ptr + 1 } ∧
      Reading line finished rest { s with buf := s.buf.set s.ptr c, ptr := s.ptr + 1 } := by
  have hlen := h.buf_length
  have hle := h.input_le
  refine ⟨if_pos (by omega), h.rest_eq, h.input_le, ?_, h.nwords_eq, ?_⟩
  · obtain hp | ⟨hp, rfl, rfl⟩ := hp
    · exact (List.drop_set_of_lt hp).trans h.unread
    · show (s.buf.set s.ptr 0).drop s.input = _
      rw [hp, List.drop_set, if_neg (lt_irrefl _), Nat.sub_self, h.unread]
      rfl
  · exact h.held.imp fun _ _ hw => hw.set le_rfl

end Reading

/-- The greatest number of turns that are left. -/
def turnsLeft (line : List UInt8) (todo : List (List UInt8)) (s : WordParser) : Nat :=
  line.length - s.input + 3 * todo.length +
    match s.loop with
    | .front => 3
    | .words => 2
    | .word => 1
    | .behind => 0
    | .done => 0

/-- The next turn is in order, and there are fewer turns left. -/
def Steps (line : List UInt8) (finished todo : List (List UInt8)) (s : WordParser) : Prop :=
  ∃ t finished' todo', s.step = some t ∧ Invariant line finished' todo' t ∧
    finished' ++ todo' = finished ++ todo ∧ turnsLeft line todo' t < turnsLeft line todo s

lemma front_steps (hr : Reading line finished rest s) (hl : s.loop = .front)
    (hp : s.ptr ≤ s.input) (hq : s.inQuotes = false) :
    Steps line finished (wordsBetween (linePieces false rest)) s := by
  match rest with
  | [] =>
    refine ⟨{ s with loop := .words }, finished, _, ?_, ?_, rfl, ?_⟩
    · simp [step, hr.next_nil, hl, space]
    · exact .words [] { hr with } rfl (fun h => absurd rfl h) rfl
    · simp [turnsLeft, hl]
  | c :: rest =>
    by_cases hc : c = space
    · subst hc
      have hadd := hr.input_add
      rw [List.length_cons] at hadd
      refine ⟨{ s with input := s.input + 1 }, finished, wordsBetween (linePieces false rest),
        ?_, ?_, ?_, ?_⟩
      · simp [step, hr.next_cons, hl]
      · exact .front rest hr.advance hl (Nat.le_succ_of_le hp) hq rfl
      · rw [linePieces_space, wordsBetween_blank]
      · simp only [turnsLeft, hl, linePieces_space, wordsBetween_blank]
        omega
    · refine ⟨{ s with loop := .words }, finished, _, ?_, ?_, rfl, ?_⟩
      · simp [step, hr.next_cons, hl, hc]
      · exact .words _ { hr with } rfl (fun _ => ⟨hp, hq, by simpa using hc⟩) rfl
      · simp [turnsLeft, hl]

/-- The array has room for the word, twice as much if necessary. -/
lemma Reading.openWord (hr : Reading line finished rest s) : ∃ words,
    s.openWord = some { s with words := words, loop := .word } ∧
      Reading line finished rest { s with words := words, loop := .word } ∧
      words.slots[s.nwords]? = some (some s.ptr) := by
  have hle := hr.nwords_le
  have hpos := s.words.slots_pos
  let words := if s.nwords = s.words.slots.length then s.words.double else s.words
  have hlt : s.nwords < words.slots.length := by
    simp only [words]
    split_ifs with hfull
    · simp only [WordTable.double, List.length_append, List.length_replicate]
      omega
    · omega
  have htake : words.slots.take s.nwords = s.words.slots.take s.nwords := by
    simp only [words]
    split_ifs with hfull
    · exact List.take_append_of_le_length hle
    · rfl
  refine ⟨⟨words.slots.set s.nwords (some s.ptr), by rw [List.length_set]; exact words.slots_pos⟩,
    ?_, ?_, List.getElem?_set_self hlt⟩
  · simp only [WordParser.openWord, WordTable.set]
    rw [if_pos hlt]
    rfl
  · refine ⟨hr.rest_eq, hr.input_le, hr.unread, hr.nwords_eq, ?_⟩
    show List.Forall₂ _ ((words.slots.set s.nwords (some s.ptr)).take s.nwords) _
    rw [List.take_set_of_le le_rfl, htake]
    exact hr.held

lemma words_steps (h0 : 0 ∉ line) (hr : Reading line finished rest s) (hl : s.loop = .words)
    (hp : rest ≠ [] → s.ptr ≤ s.input ∧ s.inQuotes = false ∧ rest.head? ≠ some space) :
    Steps line finished (wordsBetween (linePieces false rest)) s := by
  match rest with
  | [] =>
    refine ⟨{ s with loop := .done }, finished, [], ?_, .done [] { hr with } rfl rfl, rfl, ?_⟩
    · simp [step, hr.next_nil, hl]
    · simp [turnsLeft, hl]
  | c :: rest =>
    obtain ⟨hle, hq, hhead⟩ := hp (List.cons_ne_nil _ _)
    obtain ⟨words, hopen, hr', hslot⟩ := hr.openWord
    refine ⟨{ s with words := words, loop := .word }, finished, _, ?_, ?_, rfl, ?_⟩
    · rw [step, hr.next_cons]
      simp only [Option.bind_eq_bind, Option.bind_some, hl, ne_eq, hr.ne_zero h0,
        not_false_eq_true, if_true]
      exact hopen
    · refine .word _ [] hr' rfl hle ⟨_, hslot, s.ptr, rfl, rfl, rfl, List.not_mem_nil⟩ (by simp)
        (fun _ => ⟨List.cons_ne_nil _ _, hq, hhead⟩) ?_
      rw [List.nil_append]
      show _ = wordsBetween (linePieces s.inQuotes _)
      rw [hq]
    · simp [turnsLeft, hl]

/-- The character is put behind the word. -/
lemma Reading.storeChar {d : UInt8} {w : List UInt8} (hr : Reading line finished rest s)
    (hp : s.ptr < s.input) (hd : d ≠ 0)
    (ho : ∃ slot, s.words.slots[s.nwords]? = some slot ∧ Opened s.buf s.ptr slot w) :
    ∃ t, s.store d = some t ∧ Reading line finished rest t ∧ t.loop = s.loop ∧
      t.inQuotes = s.inQuotes ∧ t.input = s.input ∧ t.ptr ≤ t.input ∧
      ∃ slot, t.words.slots[t.nwords]? = some slot ∧ Opened t.buf t.ptr slot (w ++ [d]) := by
  obtain ⟨hstore, hr'⟩ := hr.store (c := d) (.inl hp)
  obtain ⟨slot, hslot, ho⟩ := ho
  have hlen := hr.buf_length
  have hle := hr.input_le
  exact ⟨_, hstore, hr', rfl, rfl, rfl, hp, slot, hslot, ho.set (by omega) hd⟩

/-- A turn of the loop over a word takes the pieces `gone` of what is left of the line. -/
lemma turn_eq {w : List LinePiece} (h0 : 0 ∉ line) (hr : Reading line finished (c :: rest) s)
    (hp : s.ptr ≤ s.input) (hs : s.inQuotes = true ∨ c ≠ space)
    (ho : ∃ slot, s.words.slots[s.nwords]? = some slot ∧ Opened s.buf s.ptr slot (letters w)) :
    ∃ t rest' gone, s.turn c = some t ∧ Reading line finished rest' t ∧ t.loop = s.loop ∧
      t.ptr ≤ t.input ∧ s.input < t.input ∧ gone ≠ [] ∧ .blank ∉ gone ∧
      linePieces s.inQuotes (c :: rest) = gone ++ linePieces t.inQuotes rest' ∧
      ∃ slot, t.words.slots[t.nwords]? = some slot ∧
        Opened t.buf t.ptr slot (letters (w ++ gone)) := by
  have hp' : s.ptr < s.input + 1 := Nat.lt_succ_of_le hp
  have hdrop : letters (w ++ [.dropped]) = letters w := by simp [letters]
  by_cases hq : c = doubleQuote
  · subst hq
    refine ⟨{ s with input := s.input + 1, inQuotes := !s.inQuotes }, rest, [.dropped],
      by simp [turn], { hr.advance with }, rfl, hp'.le, Nat.lt_succ_self _, by simp, by simp,
      linePieces_quote _ _, ?_⟩
    rw [hdrop]
    exact ho
  by_cases hb : c = backslash
  · subst hb
    match rest with
    | [] =>
      refine ⟨{ s with input := s.input + 1 }, [], [.dropped], ?_, hr.advance, rfl, hp'.le,
        Nat.lt_succ_self _, by simp, by simp, linePieces_backslash_end _, ?_⟩
      · simp [turn, hq, hr.advance.next_nil]
      · rw [hdrop]
        exact ho
    | d :: rest =>
      have hr1 := hr.advance
      have hd := hr1.ne_zero h0
      obtain ⟨t, hstore, hr', hl, hin, hinput, hle, ho'⟩ :=
        hr1.advance.storeChar (Nat.lt_succ_of_lt hp') hd ho
      refine ⟨t, rest, [.dropped, .char d], ?_, hr', hl, hle, ?_, by simp, by simp, ?_, ?_⟩
      · rw [turn, if_neg hq, if_pos rfl]
        simp only [hr1.next_cons, Option.bind_eq_bind, Option.bind_some, ne_eq, hd,
          not_false_eq_true, if_true]
        exact hstore
      · rw [hinput]
        show s.input < s.input + 1 + 1
        omega
      · rw [hin, linePieces_backslash]
        rfl
      · have hletters : letters (w ++ [.dropped, .char d]) = letters w ++ [d] := by
          simp [letters]
        rw [hletters]
        exact ho'
  · obtain ⟨t, hstore, hr', hl, hin, hinput, hle, ho'⟩ :=
      hr.advance.storeChar hp' (hr.ne_zero h0) ho
    refine ⟨t, rest, [.char c], ?_, hr', hl, hle, ?_, by simp, by simp, ?_, ?_⟩
    · rw [turn, if_neg hq, if_neg hb]
      exact hstore
    · rw [hinput]
      exact Nat.lt_succ_self _
    · rw [hin, linePieces_char hq hb hs]
      rfl
    · have hletters : letters (w ++ [.char c]) = letters w ++ [c] := by simp [letters]
      rw [hletters]
      exact ho'

lemma word_steps {w : List LinePiece} (h0 : 0 ∉ line) (hr : Reading line finished rest s)
    (hl : s.loop = .word) (hp : s.ptr ≤ s.input)
    (ho : ∃ slot, s.words.slots[s.nwords]? = some slot ∧ Opened s.buf s.ptr slot (letters w))
    (hw : .blank ∉ w)
    (hn : w = [] → rest ≠ [] ∧ s.inQuotes = false ∧ rest.head? ≠ some space) :
    Steps line finished (wordsBetween (w ++ linePieces s.inQuotes rest)) s := by
  match rest with
  | [] =>
    have hne : w ≠ [] := fun h => (hn h).1 rfl
    rw [linePieces_nil, List.append_nil, wordsBetween_word hw hne]
    refine ⟨{ s with loop := .behind }, finished, [letters w], ?_, ?_, rfl, ?_⟩
    · simp [step, hr.next_nil, hl]
    · exact .behind [] (letters w) { hr with } rfl ⟨hp, .inl rfl⟩ ho (fun h => absurd rfl h) rfl
    · simp [turnsLeft, hl]
  | c :: rest =>
    have hc := hr.ne_zero h0
    by_cases hs : s.inQuotes = true ∨ c ≠ space
    · obtain ⟨t, rest', gone, hturn, hr', htl, hle, hlt, hgne, hgone, hpieces, ho'⟩ :=
        turn_eq h0 hr hp hs ho
      have htle := hr'.input_le
      rw [hpieces, ← List.append_assoc]
      refine ⟨t, finished, _, ?_, ?_, rfl, ?_⟩
      · simp only [step, hr.next_cons, Option.bind_eq_bind, Option.bind_some, hl, ne_eq, hc,
          not_false_eq_true, true_and]
        rw [if_pos hs]
        exact hturn
      · exact .word rest' (w ++ gone) hr' (htl.trans hl) hle ho'
          (by simp [hw, hgone]) (fun h => absurd (List.append_eq_nil_iff.mp h).2 hgne) rfl
      · simp only [turnsLeft, htl.trans hl, hl]
        omega
    · obtain ⟨hq, rfl⟩ : s.inQuotes = false ∧ c = space := by simpa using hs
      have hne : w ≠ [] := fun h => (hn h).2.2 rfl
      rw [hq, linePieces_space, wordsBetween_append_blank hw hne]
      refine ⟨{ s with loop := .behind }, finished,
        letters w :: wordsBetween (linePieces false rest), ?_, ?_, rfl, ?_⟩
      · simp only [step, hr.next_cons, Option.bind_eq_bind, Option.bind_some, hl]
        rw [if_neg fun h => hs h.2]
        rfl
      · refine .behind (space :: rest) (letters w) { hr with } rfl ⟨hp, .inr (.inl rfl)⟩ ho
          (fun _ => hq) ?_
        rw [linePieces_space, wordsBetween_blank]
      · simp [turnsLeft, hl]

lemma behind_steps {w : List UInt8} (hr : Reading line finished rest s) (hl : s.loop = .behind)
    (hp : s.ptr ≤ s.input ∧ (rest = [] ∨ rest.head? = some space ∨ s.ptr < s.input))
    (ho : ∃ slot, s.words.slots[s.nwords]? = some slot ∧ Opened s.buf s.ptr slot w)
    (hq : rest ≠ [] → s.inQuotes = false) :
    Steps line finished (w :: wordsBetween (linePieces false rest)) s := by
  by_cases hs : rest.head? = some space
  · obtain ⟨rest, rfl⟩ : ∃ more, rest = space :: more := by
      cases rest <;> simp_all
    have hadd := hr.input_add
    rw [List.length_cons] at hadd
    rw [linePieces_space, wordsBetween_blank]
    refine ⟨{ s with input := s.input + 1 }, finished, _, ?_, ?_, rfl, ?_⟩
    · simp [step, hr.next_cons, hl]
    · have hlt : s.ptr < s.input + 1 := Nat.lt_succ_of_le hp.1
      exact .behind rest w hr.advance hl ⟨hlt.le, .inr (.inr hlt)⟩ ho
        (fun _ => hq (List.cons_ne_nil _ _)) rfl
    · simp only [turnsLeft, hl]
      omega
  · have hstored : s.ptr < s.input ∨ (s.ptr = s.input ∧ rest = []) := by
      obtain h | h | h := hp.2
      · obtain hlt | heq := Nat.lt_or_eq_of_le hp.1
        · exact .inl hlt
        · exact .inr ⟨heq, h⟩
      · exact absurd h hs
      · exact .inl h
    obtain ⟨hstore, hr'⟩ := hr.store (c := 0) (hstored.imp_right fun h => ⟨h.1, h.2, rfl⟩)
    obtain ⟨slot, hslot, ho⟩ := ho
    have hlen := hr.buf_length
    have hle := hr.input_le
    obtain ⟨c, hnext, hc⟩ : ∃ c, s.buf[s.input]? = some c ∧ c ≠ space := by
      match rest with
      | [] => exact ⟨0, hr.next_nil, by decide⟩
      | c :: rest => exact ⟨c, hr.next_cons, by simpa using hs⟩
    refine ⟨{ s with
        buf := s.buf.set s.ptr 0, ptr := s.ptr + 1, nwords := s.nwords + 1, loop := .words },
      finished ++ [w], wordsBetween (linePieces false rest), ?_, ?_, by simp, ?_⟩
    · simp [step, hnext, hl, hc, hstore]
    · refine .words rest ⟨hr'.rest_eq, hr'.input_le, hr'.unread, ?_, ?_⟩ rfl ?_ rfl
      · simp [hr.nwords_eq]
      · show List.Forall₂ _ (s.words.slots.take (s.nwords + 1)) _
        rw [List.take_add_one, hslot]
        exact List.rel_append hr'.held (.cons (ho.close (by omega)) .nil)
      · intro hne
        refine ⟨?_, hq hne, hs⟩
        obtain h | h := hstored
        · exact h
        · exact absurd h.2 hne
    · simp only [turnsLeft, hl, List.length_cons]
      omega

lemma Invariant.steps (h : Invariant line finished todo s) (h0 : 0 ∉ line)
    (hl : s.loop ≠ .done) : Steps line finished todo s := by
  cases h with
  | front rest hr hl hp hq ht => exact ht ▸ front_steps hr hl hp hq
  | words rest hr hl hp ht => exact ht ▸ words_steps h0 hr hl hp
  | word rest w hr hl hp ho hw hn ht => exact ht ▸ word_steps h0 hr hl hp ho hw hn
  | behind rest w hr hl hp ho hq ht => exact ht ▸ behind_steps hr hl hp ho hq
  | done rest hr hdone ht => exact absurd hdone hl

lemma Invariant.exists_reading (h : Invariant line finished todo s) :
    ∃ rest, Reading line finished rest s := by
  cases h with
  | front rest hr | words rest hr | word rest w hr | behind rest w hr | done rest hr =>
    exact ⟨rest, hr⟩

/-- The call is in order and comes to its end in at most `n` turns. -/
def Ready (line : List UInt8) (n : Nat) (s : WordParser) : Prop :=
  ∃ finished todo, Invariant line finished todo s ∧ finished ++ todo = wordsOf line ∧
    turnsLeft line todo s ≤ n

lemma Ready.step {n : Nat} (h : Ready line n s) (h0 : 0 ∉ line) (hl : s.loop ≠ .done) :
    ∃ m t, n = m + 1 ∧ s.step = some t ∧ Ready line m t := by
  obtain ⟨finished, todo, hi, hw, hn⟩ := h
  obtain ⟨t, finished', todo', hstep, hi', hw', hlt⟩ := hi.steps h0 hl
  obtain ⟨m, rfl⟩ : ∃ m, n = m + 1 := ⟨n - 1, by omega⟩
  exact ⟨m, t, rfl, hstep, finished', todo', hi', hw'.trans hw, by omega⟩

lemma Ready.run {n : Nat} (h : Ready line n s) (h0 : 0 ∉ line) :
    ∃ t m, run n s = some t ∧ t.loop = .done ∧ Ready line m t := by
  induction n generalizing s with
  | zero =>
    have hl : s.loop = .done := by
      by_contra hl
      obtain ⟨m, -, hm, -⟩ := h.step h0 hl
      exact absurd hm (Nat.succ_ne_zero m).symm
    exact ⟨s, 0, if_pos hl, hl, h⟩
  | succ n ih =>
    by_cases hl : s.loop = .done
    · exact ⟨s, n + 1, if_pos hl, hl, h⟩
    · obtain ⟨m, t, hm, hstep, ht⟩ := h.step h0 hl
      obtain rfl : n = m := Nat.succ_injective hm
      obtain ⟨u, m, hu, hdone, hready⟩ := ih ht
      refine ⟨u, m, ?_, hdone, hready⟩
      rw [WordParser.run, if_neg hl, hstep]
      exact hu

lemma ready_start (words : Option WordTable) (line : CString) :
    Ready line.bytes (4 * line.bytes.length + 5) (start words line) := by
  have hwords := length_wordsBetween_le (linePieces false line.bytes)
  rw [length_linePieces] at hwords
  refine ⟨[], wordsOf line.bytes, .front line.bytes ⟨rfl, Nat.zero_le _, rfl, rfl, ?_⟩ rfl le_rfl
    rfl rfl, rfl, ?_⟩
  · exact .nil
  · simp only [turnsLeft, start, wordsOf]
    omega

lemma Ready.of_reaches {words : Option WordTable} {line : CString}
    (h : (start words line).Reaches s) : ∃ n, Ready line.bytes n s := by
  induction h with
  | refl => exact ⟨_, ready_start words line⟩
  | tail _ hstep ih =>
    obtain ⟨n, hready⟩ := ih
    obtain ⟨m, t, -, ht, hready⟩ := hready.step line.nul_notMem (by
      rintro hl
      simp [WordParser.step, hl] at hstep)
    rw [hstep, Option.some_inj] at ht
    exact ⟨m, ht ▸ hready⟩

lemma mapM_stringAt {buf : List UInt8} {lim : Nat} {slots : List (Option Nat)}
    {ws : List (List UInt8)} (h : List.Forall₂ (Held buf lim) slots ws) :
    (slots.mapM fun slot => slot.bind (stringAt buf)) = some ws := by
  induction h with
  | nil => rfl
  | cons hw _ ih => simp [List.mapM_cons, hw.stringAt, ih]

lemma Ready.strings {n : Nat} (h : Ready line n s) (hl : s.loop = .done) :
    s.strings = some (wordsOf line) := by
  obtain ⟨finished, todo, hi, hw, -⟩ := h
  cases hi with
  | done rest hr _ ht =>
    rw [ht, List.append_nil] at hw
    rw [← hw]
    exact mapM_stringAt hr.held
  | front _ _ hne | words _ _ hne | word _ _ _ hne | behind _ _ _ hne =>
    rw [hl] at hne
    cases hne

end

end WordParser

lemma exists_parseIntoWords (words : Option WordTable) (line : CString) :
    ∃ s, parseIntoWords words line = some s ∧ s.strings = some (wordsOf line.bytes) := by
  obtain ⟨s, m, hrun, hl, hready⟩ := (WordParser.ready_start words line).run line.nul_notMem
  exact ⟨s, hrun, hready.strings hl⟩

/-- The strings that the array leads to after a call are the words of the line. In every state on
the way the buffer is as it was from the place on that is read next. -/
theorem parseIntoWords_strings (words : Option WordTable) (line : CString) :
    (∃ s, parseIntoWords words line = some s ∧ s.strings = some (wordsOf line.bytes)) ∧
      ∀ s, (WordParser.start words line).Reaches s →
        s.buf.drop s.input = (line.bytes ++ [0]).drop s.input := by
  refine ⟨exists_parseIntoWords words line, ?_⟩
  · intro s hs
    obtain ⟨n, finished, todo, hi, -⟩ := WordParser.Ready.of_reaches hs
    obtain ⟨rest, hr⟩ := hi.exists_reading
    rw [hr.unread, List.drop_append_of_le_length hr.input_le, hr.rest_eq]

end LambdaMOO
