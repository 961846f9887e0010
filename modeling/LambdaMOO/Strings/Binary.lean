import LambdaMOO.Lists.Insert
import LambdaMOO.Network.PullInput

/-!
# Binary strings

A binary string has a tilde and two hexadecimal digits for each byte that is not printable.
`decode_binary` and `encode_binary` go between binary strings and lists of runs of text and
single bytes.
-/

namespace LambdaMOO

/-! ## Streams with a limit -/

/-- `Stream`. -/
structure StreamBuffer where
  buflen : Nat
  bytes : List UInt8

/-- `NEXT_2_POWER`. -/
def nextTwoPower (v : Nat) : Nat := if v = 0 then 1 else 2 ^ (Nat.log2 v + 1)

/-- `new_stream`. -/
def newStream (size : Nat) : StreamBuffer := ⟨nextTwoPower (size ||| 0x1f), []⟩

/-- Why `encode_binary` has no result: `stream_too_big` is raised, or it returns 0. -/
inductive EncodeFailure where
  | tooBig
  | invalid
  deriving DecidableEq, Repr

namespace StreamBuffer

/-- `grew` with stream exceptions enabled. `maximum` is `stream_alloc_maximum`. -/
def grew (maximum need : Nat) (s : StreamBuffer) : Except EncodeFailure StreamBuffer :=
  let size := s.bytes.length + need
  if size < s.buflen then .ok s
  else if maximum < nextTwoPower size then
    if size < maximum then .ok { s with buflen := maximum } else .error .tooBig
  else .ok { s with buflen := nextTwoPower size }

/-- `stream_add_bytes`, `stream_add_string`, `stream_add_char` and `stream_printf`, given what
they add. -/
def addBytes (maximum : Nat) (bytes : List UInt8) (s : StreamBuffer) :
    Except EncodeFailure StreamBuffer := do
  let s ← s.grew maximum bytes.length
  return { s with bytes := s.bytes ++ bytes }

/-- `stream_add_moobinary_from_raw_bytes`. -/
def addMoobinary (maximum : Nat) : List UInt8 → StreamBuffer → Except EncodeFailure StreamBuffer
  | [], s => .ok s
  | c :: bytes, s => do addMoobinary maximum bytes (← s.addBytes maximum (moobinaryByte c))

end StreamBuffer

/-! ## Decoding -/

/-- The value of a hexadecimal digit, in the loop of `moobinary_to_raw_bytes`. -/
def hexValue (c : UInt8) : Option UInt8 :=
  let c := c ||| 0x20
  if 48 ≤ c ∧ c ≤ 57 then some (c - 48)
  else if 97 ≤ c ∧ c ≤ 102 then some (c - 97 + 10)
  else none

/-- `moobinary_to_raw_bytes`. The byte 0 behind the string is no digit. -/
def moobinaryToRawBytes : List UInt8 → Option (List UInt8)
  | [] => some []
  | c :: binary =>
    if c ≠ 126 then (moobinaryToRawBytes binary).map fun bytes => c :: bytes
    else
      match binary with
      | high :: low :: binary => do
        let high ← hexValue high
        let low ← hexValue low
        let bytes ← moobinaryToRawBytes binary
        return (high <<< 4 + low) :: bytes
      | _ => none

/-- `Var`, as far as `encode_binary` tells its types apart. -/
inductive ByteVar where
  | int (num : Int)
  | str (str : List UInt8)
  | list (list : List ByteVar)
  | other

/-- The characters of runs. -/
def isRunChar (c : UInt8) : Bool := (32 ≤ c && c ≤ 126) || c == 9

/-- The first loop of `bf_decode_binary`. -/
def countElements : List UInt8 → Nat → Bool → Nat
  | [], count, _ => count
  | c :: bytes, count, inString =>
    if isRunChar c then countElements bytes (if inString then count else count + 1) true
    else countElements bytes (count + 1) false

/-- The second loop and the store behind it: `s` is the stream, and `r` has what has been stored
at the indices below `count`. -/
def fillElements : List UInt8 → List UInt8 → Bool → List ByteVar → List ByteVar
  | [], s, inString, r => if inString then r ++ [.str s] else r
  | c :: bytes, s, inString, r =>
    if isRunChar c then fillElements bytes (s ++ [c]) true r
    else if inString then fillElements bytes [] false (r ++ [.str s] ++ [.int c.toNat])
    else fillElements bytes s false (r ++ [.int c.toNat])

/-- `bf_decode_binary`. `max` is the server option `max_list_concat`, `catchable` the option
`max_concat_catchable`. -/
def bfDecodeBinary (max : Nat) (catchable : Bool) (binary : List UInt8) (fully : Bool) :
    ValuePackage (List ByteVar) :=
  match moobinaryToRawBytes binary with
  | none => .error .eInvarg
  | some bytes =>
    if fully then
      if max < bytes.length then makeSpacePack catchable
      else .ret (bytes.map fun c => .int c.toNat)
    else if max < countElements bytes 0 false then makeSpacePack catchable
    else .ret (fillElements bytes [] false [])

/-! ## Encoding -/

mutual
/-- `encode_binary`. -/
def encodeBinary (maximum : Nat) : ByteVar → StreamBuffer → Except EncodeFailure StreamBuffer
  | .int num, s =>
    if num < 0 ∨ num ≥ 256 then .error .invalid else s.addBytes maximum [num.toNat.toUInt8]
  | .str str, s => s.addBytes maximum str
  | .list list, s => encodeBinaries maximum list s
  | .other, _ => .error .invalid

/-- The loop over a list. -/
def encodeBinaries (maximum : Nat) :
    List ByteVar → StreamBuffer → Except EncodeFailure StreamBuffer
  | [], s => .ok s
  | v :: list, s => do encodeBinaries maximum list (← encodeBinary maximum v s)
end

/-- `bf_encode_binary`. -/
def bfEncodeBinary (maximum : Nat) (catchable : Bool) (arglist : List ByteVar) :
    ValuePackage (List UInt8) :=
  let result := do
    let s ← encodeBinary maximum (.list arglist) (newStream 100)
    (newStream 100).addMoobinary maximum s.bytes
  match result with
  | .ok s2 => .ret s2.bytes
  | .error .invalid => .error .eInvarg
  | .error .tooBig => makeSpacePack catchable

/-! ## The round trips -/

/-- The binary string for `bytes` without a limit. -/
def moobinary (bytes : List UInt8) : List UInt8 := streamAddMoobinary bytes []

/-- What there is to say about the bytes of binary strings. -/
structure BinaryStrings (bytes : List UInt8) : Prop where
  decode : moobinaryToRawBytes (moobinary bytes) = some bytes
  printable : ∀ c ∈ moobinary bytes, 32 ≤ c ∧ c ≤ 126
  again : ∀ binary, moobinaryToRawBytes binary = some bytes →
    moobinaryToRawBytes (moobinary bytes) = moobinaryToRawBytes binary
  count : countElements bytes 0 false = (fillElements bytes [] false []).length
  lists : ∀ binary max fully catchable r, moobinaryToRawBytes binary = some bytes →
    bfDecodeBinary max catchable binary fully = .ret r → ∀ maximum,
      bfEncodeBinary maximum catchable [.list r] = .ret (moobinary bytes) ∨
        maximum ≤ (moobinary bytes).length ∧
          bfEncodeBinary maximum catchable [.list r] = makeSpacePack catchable

/-! ## Single bytes -/

lemma hexDigit_cases {n : UInt8} (hn : n < 16) :
    hexValue (hexDigit n) = some n ∧ 32 ≤ hexDigit n ∧ hexDigit n ≤ 126 := by
  have hlt : n.toNat < 16 := UInt8.lt_iff_toNat_lt.mp hn
  have hall : ∀ m < 16, hexValue (hexDigit m.toUInt8) = some m.toUInt8 ∧
      32 ≤ hexDigit m.toUInt8 ∧ hexDigit m.toUInt8 ≤ 126 := by decide
  have hn := hall n.toNat hlt
  rwa [Nat.toUInt8_eq, UInt8.ofNat_toNat] at hn

lemma div_sixteen_lt (c : UInt8) : c / 16 < 16 := by
  have hc := c.toNat_lt
  rw [UInt8.lt_iff_toNat_lt, UInt8.toNat_div]
  exact Nat.div_lt_of_lt_mul hc

lemma mod_sixteen_lt (c : UInt8) : c % 16 < 16 := by
  rw [UInt8.lt_iff_toNat_lt, UInt8.toNat_mod]
  exact Nat.mod_lt _ (by decide)

/-- The two digits make up the byte. -/
lemma shiftLeft_add_mod (c : UInt8) : (c / 16) <<< 4 + c % 16 = c := by
  have hc := c.toNat_lt
  apply UInt8.toNat_inj.mp
  rw [UInt8.toNat_add, UInt8.toNat_shiftLeft, UInt8.toNat_div, UInt8.toNat_mod]
  have hsixteen : UInt8.toNat 16 = 16 := rfl
  have hfour : UInt8.toNat 4 % 8 = 4 := rfl
  rw [hsixteen, hfour, Nat.shiftLeft_eq]
  omega

lemma moobinaryByte_printable {c d : UInt8} (hd : d ∈ moobinaryByte c) : 32 ≤ d ∧ d ≤ 126 := by
  unfold moobinaryByte at hd
  split_ifs at hd with hc
  · obtain rfl := List.mem_singleton.mp hd
    exact ⟨hc.1, UInt8.le_of_lt hc.2⟩
  · simp only [List.mem_cons, List.not_mem_nil, or_false] at hd
    rcases hd with rfl | rfl | rfl
    · decide
    · exact (hexDigit_cases (div_sixteen_lt c)).2
    · exact (hexDigit_cases (mod_sixteen_lt c)).2

lemma moobinaryToRawBytes_cons (c : UInt8) (binary : List UInt8) :
    moobinaryToRawBytes (c :: binary) =
      if c ≠ 126 then (moobinaryToRawBytes binary).map fun bytes => c :: bytes
      else
        match binary with
        | high :: low :: binary => do
          let high ← hexValue high
          let low ← hexValue low
          let bytes ← moobinaryToRawBytes binary
          return (high <<< 4 + low) :: bytes
        | _ => none := by
  conv_lhs => unfold moobinaryToRawBytes

/-- What is written for a byte is read as this byte. -/
lemma moobinaryToRawBytes_byte (c : UInt8) (binary : List UInt8) :
    moobinaryToRawBytes (moobinaryByte c ++ binary)
      = (moobinaryToRawBytes binary).map fun bytes => c :: bytes := by
  unfold moobinaryByte
  split_ifs with hc
  · have hne : c ≠ 126 := UInt8.ne_of_lt hc.2
    rw [List.singleton_append, moobinaryToRawBytes_cons, if_pos hne]
  · have htilde : ¬ (126 : UInt8) ≠ 126 := not_not.mpr rfl
    simp only [List.cons_append, List.nil_append]
    rw [moobinaryToRawBytes_cons, if_neg htilde]
    dsimp only
    rw [(hexDigit_cases (div_sixteen_lt c)).1, (hexDigit_cases (mod_sixteen_lt c)).1]
    simp only [Option.bind_eq_bind, Option.bind_some]
    rw [shiftLeft_add_mod]
    cases moobinaryToRawBytes binary <;> rfl

lemma moobinary_cons (c : UInt8) (bytes : List UInt8) :
    moobinary (c :: bytes) = moobinaryByte c ++ moobinary bytes := by
  simp only [moobinary, streamAddMoobinary, List.nil_append, List.flatMap_cons]

lemma moobinaryToRawBytes_moobinary (bytes : List UInt8) :
    moobinaryToRawBytes (moobinary bytes) = some bytes := by
  induction bytes with
  | nil => rfl
  | cons c bytes ih => rw [moobinary_cons, moobinaryToRawBytes_byte, ih, Option.map_some]

lemma moobinary_printable {bytes : List UInt8} {d : UInt8} (hd : d ∈ moobinary bytes) :
    32 ≤ d ∧ d ≤ 126 := by
  obtain ⟨c, -, hc⟩ := List.mem_flatMap.mp hd
  exact moobinaryByte_printable hc

lemma length_le_moobinary (bytes : List UInt8) : bytes.length ≤ (moobinary bytes).length := by
  induction bytes with
  | nil => exact Nat.le_refl 0
  | cons c bytes ih =>
    have hpos : 1 ≤ (moobinaryByte c).length := by
      unfold moobinaryByte
      split_ifs
      · exact Nat.le_refl 1
      · exact Nat.le_add_left 1 2
    rw [moobinary_cons, List.length_append, List.length_cons]
    omega

/-! ## The two loops over the runs -/

/-- The first loop counts what the second one stores from here on. -/
lemma fillElements_length (bytes s : List UInt8) (inString : Bool) (r : List ByteVar) :
    (fillElements bytes s inString r).length
      = countElements bytes (r.length + if inString then 1 else 0) inString := by
  induction bytes generalizing s inString r with
  | nil => cases inString <;> simp [fillElements, countElements]
  | cons c bytes ih =>
    rw [fillElements, countElements]
    by_cases hrun : isRunChar c = true
    · rw [if_pos hrun, if_pos hrun, ih]
      cases inString <;> rfl
    · rw [if_neg hrun, if_neg hrun]
      cases inString with
      | false =>
        rw [if_neg Bool.false_ne_true, if_neg Bool.false_ne_true, ih, List.length_append]
        rfl
      | true =>
        rw [if_pos rfl, if_pos rfl, ih, List.length_append, List.length_append]
        rfl

mutual
/-- The bytes that a value stands for in the arguments of `encode_binary`. -/
def ByteVar.bytes : ByteVar → Option (List UInt8)
  | .int n => if n < 0 ∨ n ≥ 256 then none else some [n.toNat.toUInt8]
  | .str s => some s
  | .list vs => ByteVar.listBytes vs
  | .other => none

/-- The bytes of a list. -/
def ByteVar.listBytes : List ByteVar → Option (List UInt8)
  | [] => some []
  | v :: vs => do return (← ByteVar.bytes v) ++ (← ByteVar.listBytes vs)
end

namespace ByteVar

lemma bytes_int (c : UInt8) : (ByteVar.int c.toNat).bytes = some [c] := by
  have hc := c.toNat_lt
  rw [bytes, if_neg (by omega), Int.toNat_natCast, Nat.toUInt8_eq, UInt8.ofNat_toNat]

lemma listBytes_append {r vs : List ByteVar} {p q : List UInt8} (hr : listBytes r = some p)
    (hvs : listBytes vs = some q) : listBytes (r ++ vs) = some (p ++ q) := by
  induction r generalizing p with
  | nil =>
    rw [listBytes, Option.some.injEq] at hr
    subst hr
    exact hvs
  | cons v r ih =>
    rw [listBytes] at hr
    obtain ⟨pv, hv, hrest⟩ := Option.bind_eq_some_iff.mp hr
    obtain ⟨pr, hpr, heq⟩ := Option.bind_eq_some_iff.mp hrest
    obtain rfl := Option.some.inj heq
    rw [List.cons_append, listBytes, hv, ih hpr, List.append_assoc]
    rfl

lemma listBytes_concat_int {r : List ByteVar} {p : List UInt8} (hr : listBytes r = some p)
    (c : UInt8) : listBytes (r ++ [.int c.toNat]) = some (p ++ [c]) := by
  apply listBytes_append hr
  rw [listBytes, bytes_int]
  rfl

lemma listBytes_concat_str {r : List ByteVar} {p : List UInt8} (hr : listBytes r = some p)
    (t : List UInt8) : listBytes (r ++ [.str t]) = some (p ++ t) := by
  apply listBytes_append hr
  rw [listBytes, bytes, listBytes]
  exact congrArg some (List.append_nil t)

lemma listBytes_map_int (p : List UInt8) :
    listBytes (p.map fun c => .int c.toNat) = some p := by
  induction p with
  | nil => rw [List.map_nil, listBytes]
  | cons c p ih =>
    rw [List.map_cons, listBytes, bytes_int, ih]
    rfl

/-- The list that is filled stands for the bytes. -/
lemma listBytes_fillElements (t : List UInt8) {s : List UInt8} {inString : Bool}
    {r : List ByteVar} {p : List UInt8} (hr : listBytes r = some p)
    (hs : inString = false → s = []) :
    listBytes (fillElements t s inString r) = some (p ++ s ++ t) := by
  induction t generalizing s inString r p with
  | nil =>
    rw [fillElements, List.append_nil]
    split_ifs with hin
    · exact listBytes_concat_str hr s
    · rw [hs (Bool.eq_false_of_not_eq_true hin), List.append_nil]
      exact hr
  | cons c t ih =>
    rw [fillElements]
    split_ifs with hrun hin
    · rw [ih hr (fun h => absurd h.symm Bool.false_ne_true)]
      simp
    · rw [ih (listBytes_concat_int (listBytes_concat_str hr s) c) (fun _ => rfl)]
      simp
    · obtain rfl := hs (Bool.eq_false_of_not_eq_true hin)
      rw [ih (listBytes_concat_int hr c) (fun _ => rfl)]
      simp

end ByteVar

/-- Either mode of `decode_binary` gives a list that stands for the bytes. -/
lemma bfDecodeBinary_listBytes {binary bytes : List UInt8} {max : Nat} {catchable fully : Bool}
    {r : List ByteVar} (hbytes : moobinaryToRawBytes binary = some bytes)
    (h : bfDecodeBinary max catchable binary fully = .ret r) :
    ByteVar.listBytes r = some bytes := by
  have hspace : makeSpacePack catchable ≠ ValuePackage.ret r := by
    unfold makeSpacePack
    split_ifs <;> rintro ⟨⟩
  unfold bfDecodeBinary at h
  rw [hbytes] at h
  dsimp only at h
  split_ifs at h
  · exact absurd h hspace
  · obtain rfl := ValuePackage.ret.inj h
    exact ByteVar.listBytes_map_int bytes
  · exact absurd h hspace
  · obtain rfl := ValuePackage.ret.inj h
    have hnil : ByteVar.listBytes [] = some [] := by rw [ByteVar.listBytes]
    exact ByteVar.listBytes_fillElements bytes hnil (fun _ => rfl)

/-! ## Streams -/

/-- The operation adds the bytes, or raises the exception where the limit is reached. -/
def Adds (maximum : Nat) (f : StreamBuffer → Except EncodeFailure StreamBuffer)
    (bytes : List UInt8) : Prop :=
  ∀ s, (∃ s', f s = .ok s' ∧ s'.bytes = s.bytes ++ bytes) ∨
    (f s = .error .tooBig ∧ maximum ≤ s.bytes.length + bytes.length)

section

variable {maximum : Nat} {f g : StreamBuffer → Except EncodeFailure StreamBuffer}
  {p q : List UInt8}

lemma Adds.nil : Adds maximum .ok [] :=
  fun s => Or.inl ⟨s, rfl, (List.append_nil _).symm⟩

lemma Adds.bind (hf : Adds maximum f p) (hg : Adds maximum g q) :
    Adds maximum (fun s => f s >>= g) (p ++ q) := by
  intro s
  rcases hf s with ⟨s₁, hs₁, hbytes₁⟩ | ⟨hraise, hmax⟩
  · rcases hg s₁ with ⟨s₂, hs₂, hbytes₂⟩ | ⟨hraise, hmax⟩
    · refine Or.inl ⟨s₂, ?_, ?_⟩
      · change f s >>= g = _
        rw [hs₁]
        exact hs₂
      · rw [hbytes₂, hbytes₁, List.append_assoc]
    · refine Or.inr ⟨?_, ?_⟩
      · change f s >>= g = _
        rw [hs₁]
        exact hraise
      · rw [hbytes₁, List.length_append] at hmax
        rw [List.length_append]
        omega
  · refine Or.inr ⟨?_, ?_⟩
    · change f s >>= g = _
      rw [hraise]
      rfl
    · rw [List.length_append]
      omega

lemma StreamBuffer.adds_addBytes (bytes : List UInt8) :
    Adds maximum (StreamBuffer.addBytes maximum bytes) bytes := by
  intro s
  unfold StreamBuffer.addBytes StreamBuffer.grew
  dsimp only
  split_ifs with hfits hpower hsize
  · exact Or.inl ⟨_, rfl, rfl⟩
  · exact Or.inl ⟨_, rfl, rfl⟩
  · exact Or.inr ⟨rfl, Nat.le_of_not_lt hsize⟩
  · exact Or.inl ⟨_, rfl, rfl⟩

lemma StreamBuffer.adds_addMoobinary (bytes : List UInt8) :
    Adds maximum (StreamBuffer.addMoobinary maximum bytes) (moobinary bytes) := by
  induction bytes with
  | nil => exact Adds.nil
  | cons c bytes ih =>
    rw [moobinary_cons]
    exact (StreamBuffer.adds_addBytes _).bind ih

end

mutual
lemma encodeBinary_adds (maximum : Nat) {v : ByteVar} {bytes : List UInt8}
    (h : v.bytes = some bytes) : Adds maximum (encodeBinary maximum v) bytes := by
  match v with
  | .int num =>
    rw [ByteVar.bytes] at h
    split_ifs at h with hnum
    obtain rfl := Option.some.inj h
    intro s
    rw [encodeBinary, if_neg hnum]
    exact StreamBuffer.adds_addBytes _ s
  | .str str =>
    obtain rfl : str = bytes := by
      rw [ByteVar.bytes] at h
      exact Option.some.inj h
    intro s
    rw [encodeBinary]
    exact StreamBuffer.adds_addBytes _ s
  | .list list =>
    rw [ByteVar.bytes] at h
    intro s
    rw [encodeBinary]
    exact encodeBinaries_adds maximum h s
  | .other =>
    rw [ByteVar.bytes] at h
    cases h

lemma encodeBinaries_adds (maximum : Nat) {list : List ByteVar} {bytes : List UInt8}
    (h : ByteVar.listBytes list = some bytes) :
    Adds maximum (encodeBinaries maximum list) bytes := by
  match list with
  | [] =>
    obtain rfl : [] = bytes := by
      rw [ByteVar.listBytes] at h
      exact Option.some.inj h
    intro s
    rw [encodeBinaries]
    exact Adds.nil s
  | v :: list =>
    rw [ByteVar.listBytes] at h
    obtain ⟨p, hv, h⟩ := Option.bind_eq_some_iff.mp h
    obtain ⟨q, hlist, h⟩ := Option.bind_eq_some_iff.mp h
    obtain rfl := Option.some.inj h
    intro s
    rw [encodeBinaries]
    exact (encodeBinary_adds maximum hv).bind (encodeBinaries_adds maximum hlist) s
end

/-- `encode_binary` makes the binary string for the bytes that its arguments stand for, unless
this reaches the limit. -/
lemma bfEncodeBinary_spec (maximum : Nat) (catchable : Bool) {arglist : List ByteVar}
    {bytes : List UInt8} (h : ByteVar.listBytes arglist = some bytes) :
    bfEncodeBinary maximum catchable arglist = .ret (moobinary bytes) ∨
      maximum ≤ (moobinary bytes).length ∧
        bfEncodeBinary maximum catchable arglist = makeSpacePack catchable := by
  have hlen := length_le_moobinary bytes
  have hlist : (ByteVar.list arglist).bytes = some bytes := by
    rw [ByteVar.bytes]
    exact h
  unfold bfEncodeBinary
  rcases encodeBinary_adds maximum hlist (newStream 100) with ⟨s, hs, hbytes⟩ | ⟨hraise, hmax⟩
  · have hbytes : s.bytes = bytes := hbytes
    rw [hs, ← hbytes]
    rcases StreamBuffer.adds_addMoobinary s.bytes (newStream 100) with
      ⟨s2, hs2, hbytes2⟩ | ⟨hraise, hmax⟩
    · refine Or.inl ?_
      have hbytes2 : s2.bytes = moobinary s.bytes := hbytes2
      change (match (newStream 100).addMoobinary maximum s.bytes with
        | .ok s2 => ValuePackage.ret s2.bytes
        | .error .invalid => .error .eInvarg
        | .error .tooBig => makeSpacePack catchable) = _
      rw [hs2, ← hbytes2]
    · refine Or.inr ⟨by simpa [newStream] using hmax, ?_⟩
      change (match (newStream 100).addMoobinary maximum s.bytes with
        | .ok s2 => ValuePackage.ret s2.bytes
        | .error .invalid => .error .eInvarg
        | .error .tooBig => makeSpacePack catchable) = _
      rw [hraise]
  · have hmax : maximum ≤ 0 + bytes.length := hmax
    refine Or.inr ⟨by omega, ?_⟩
    rw [hraise]
    rfl

/-- Binary strings are decoded to the bytes they were made for, are printable, and go through
the lists of `decode_binary` and back. -/
theorem binaryStrings (bytes : List UInt8) : BinaryStrings bytes := by
  refine ⟨moobinaryToRawBytes_moobinary bytes, fun c => moobinary_printable, ?_, ?_, ?_⟩
  · intro binary h
    rw [h, moobinaryToRawBytes_moobinary]
  · exact (fillElements_length bytes [] false []).symm
  · intro binary max fully catchable r hbytes h maximum
    have hr := bfDecodeBinary_listBytes hbytes h
    apply bfEncodeBinary_spec
    rw [ByteVar.listBytes, ByteVar.bytes, hr, ByteVar.listBytes]
    exact congrArg some (List.append_nil bytes)

end LambdaMOO
