import LambdaMOO.Lib.Blocks
import LambdaMOO.Strings.Binary

/-!
# Hashes of strings

`md5.c`, which takes the bytes in pieces of any length, and the built-in functions that hash a
string with it.
-/

namespace LambdaMOO

/-! ## The transformation -/

/-- `F`. -/
def md5F (x y z : UInt32) : UInt32 := (x &&& y) ||| (~~~x &&& z)

/-- `G`. -/
def md5G (x y z : UInt32) : UInt32 := (x &&& z) ||| (y &&& ~~~z)

/-- `H`. -/
def md5H (x y z : UInt32) : UInt32 := x ^^^ y ^^^ z

/-- `I`. -/
def md5I (x y z : UInt32) : UInt32 := y ^^^ (x ||| ~~~z)

/-- `ROTATE_LEFT`. -/
def rotateLeft (x n : UInt32) : UInt32 := (x <<< n) ||| (x >>> (32 - n))

/-- `FF`, `GG`, `HH` and `II`: the new value of the first argument, with `f` one of the functions
above. -/
def md5Step (f : UInt32 → UInt32 → UInt32 → UInt32) (a b c d x s ac : UInt32) : UInt32 :=
  rotateLeft (a + (f b c d + x + ac)) s + b

/-- `state` of `md5ctx_t`. -/
structure Md5State where
  a : UInt32
  b : UInt32
  c : UInt32
  d : UInt32
  deriving DecidableEq, Repr

/-- Four steps: each assigns to another one of the variables. -/
def md5Four (f : UInt32 → UInt32 → UInt32 → UInt32) (s₁ s₂ s₃ s₄ : UInt32) (v : Md5State)
    (x₁ ac₁ x₂ ac₂ x₃ ac₃ x₄ ac₄ : UInt32) : Md5State :=
  let a := md5Step f v.a v.b v.c v.d x₁ s₁ ac₁
  let d := md5Step f v.d a v.b v.c x₂ s₂ ac₂
  let c := md5Step f v.c d a v.b x₃ s₃ ac₃
  let b := md5Step f v.b c d a x₄ s₄ ac₄
  ⟨a, b, c, d⟩

/-- `md5_Encode` for one word. -/
def md5EncodeWord (w : UInt32) : List UInt8 :=
  [(w &&& 0xff).toUInt8, ((w >>> 8) &&& 0xff).toUInt8, ((w >>> 16) &&& 0xff).toUInt8,
    ((w >>> 24) &&& 0xff).toUInt8]

/-- `md5_Encode`. -/
def md5Encode (input : List UInt32) : List UInt8 := input.flatMap md5EncodeWord

/-- `md5_Decode`. -/
def md5Decode : List UInt8 → List UInt32
  | b₀ :: b₁ :: b₂ :: b₃ :: input =>
    (b₀.toUInt32 ||| (b₁.toUInt32 <<< 8) ||| (b₂.toUInt32 <<< 16) ||| (b₃.toUInt32 <<< 24)) ::
      md5Decode input
  | _ => []

/-- `md5_Transform`. -/
def md5Transform (state : Md5State) (block : List UInt8) : Md5State :=
  let x (i : Nat) : UInt32 := (md5Decode block).getD i 0
  let ff := md5Four md5F 7 12 17 22
  let v := ff state (x 0) 0xd76aa478 (x 1) 0xe8c7b756 (x 2) 0x242070db (x 3) 0xc1bdceee
  let v := ff v (x 4) 0xf57c0faf (x 5) 0x4787c62a (x 6) 0xa8304613 (x 7) 0xfd469501
  let v := ff v (x 8) 0x698098d8 (x 9) 0x8b44f7af (x 10) 0xffff5bb1 (x 11) 0x895cd7be
  let v := ff v (x 12) 0x6b901122 (x 13) 0xfd987193 (x 14) 0xa679438e (x 15) 0x49b40821
  let gg := md5Four md5G 5 9 14 20
  let v := gg v (x 1) 0xf61e2562 (x 6) 0xc040b340 (x 11) 0x265e5a51 (x 0) 0xe9b6c7aa
  let v := gg v (x 5) 0xd62f105d (x 10) 0x2441453 (x 15) 0xd8a1e681 (x 4) 0xe7d3fbc8
  let v := gg v (x 9) 0x21e1cde6 (x 14) 0xc33707d6 (x 3) 0xf4d50d87 (x 8) 0x455a14ed
  let v := gg v (x 13) 0xa9e3e905 (x 2) 0xfcefa3f8 (x 7) 0x676f02d9 (x 12) 0x8d2a4c8a
  let hh := md5Four md5H 4 11 16 23
  let v := hh v (x 5) 0xfffa3942 (x 8) 0x8771f681 (x 11) 0x6d9d6122 (x 14) 0xfde5380c
  let v := hh v (x 1) 0xa4beea44 (x 4) 0x4bdecfa9 (x 7) 0xf6bb4b60 (x 10) 0xbebfbc70
  let v := hh v (x 13) 0x289b7ec6 (x 0) 0xeaa127fa (x 3) 0xd4ef3085 (x 6) 0x4881d05
  let v := hh v (x 9) 0xd9d4d039 (x 12) 0xe6db99e5 (x 15) 0x1fa27cf8 (x 2) 0xc4ac5665
  let ii := md5Four md5I 6 10 15 21
  let v := ii v (x 0) 0xf4292244 (x 7) 0x432aff97 (x 14) 0xab9423a7 (x 5) 0xfc93a039
  let v := ii v (x 12) 0x655b59c3 (x 3) 0x8f0ccc92 (x 10) 0xffeff47d (x 1) 0x85845dd1
  let v := ii v (x 8) 0x6fa87e4f (x 15) 0xfe2ce6e0 (x 6) 0xa3014314 (x 13) 0x4e0811a1
  let v := ii v (x 4) 0xf7537e82 (x 11) 0xbd3af235 (x 2) 0x2ad7d2bb (x 9) 0xeb86d391
  ⟨state.a + v.a, state.b + v.b, state.c + v.c, state.d + v.d⟩

/-! ## The context -/

/-- `md5ctx_t`. The buffer has 64 bytes. -/
structure Md5ctx where
  state : Md5State
  count₀ : UInt32
  count₁ : UInt32
  buffer : List UInt8

/-- The state of `md5_Init`. -/
def md5Start : Md5State := ⟨0x67452301, 0xefcdab89, 0x98badcfe, 0x10325476⟩

/-- `md5_Init`; whatever is in the buffer stays there. -/
def md5Init (buffer : List UInt8) : Md5ctx := ⟨md5Start, 0, 0, buffer⟩

/-- `memcpy` to `&buffer[index]`. -/
def copyTo (buffer : List UInt8) (index : Nat) (bytes : List UInt8) : List UInt8 :=
  buffer.take index ++ bytes ++ buffer.drop (index + bytes.length)

/-- The loop of `md5_Update` over blocks that are not copied; `fuel` is more than the number of
blocks. -/
def md5Blocks (buf : List UInt8) (len : UInt32) : Nat → UInt32 → Md5State → UInt32 × Md5State
  | 0, i, state => (i, state)
  | fuel + 1, i, state =>
    if i + 63 < len then
      md5Blocks buf len fuel (i + 64) (md5Transform state ((buf.drop i.toNat).take 64))
    else (i, state)

/-- `md5_Update`. -/
def md5Update (context : Md5ctx) (buf : List UInt8) (len : UInt32) : Md5ctx :=
  let index := (context.count₀ >>> 3) &&& 0x3F
  let count₀ := context.count₀ + (len <<< 3)
  let count₁ := if count₀ < len <<< 3 then context.count₁ + 1 else context.count₁
  let count₁ := count₁ + (len >>> 29)
  let partLen := 64 - index
  if partLen ≤ len then
    let buffer := copyTo context.buffer index.toNat (buf.take partLen.toNat)
    let state := md5Transform context.state buffer
    let (i, state) := md5Blocks buf len (len.toNat / 64 + 1) partLen state
    ⟨state, count₀, count₁, copyTo buffer 0 ((buf.drop i.toNat).take (len - i).toNat)⟩
  else
    ⟨context.state, count₀, count₁, copyTo context.buffer index.toNat (buf.take len.toNat)⟩

/-- `PADDING`. -/
def md5Padding : List UInt8 := 0x80 :: List.replicate 63 0

/-- `md5_Final`. -/
def md5Final (context : Md5ctx) : List UInt8 :=
  let bits := md5Encode [context.count₀, context.count₁]
  let index := (context.count₀ >>> 3) &&& 0x3f
  let padLen := if index < 56 then 56 - index else 120 - index
  let context := md5Update context md5Padding padLen
  let context := md5Update context bits 8
  md5Encode [context.state.a, context.state.b, context.state.c, context.state.d]

/-- One of the digits of `hash_bytes`. -/
def upperHexDigit (n : UInt8) : UInt8 := if n < 10 then 48 + n else 55 + n

/-- The two digits of a byte. -/
def upperHexByte (b : UInt8) : List UInt8 := [upperHexDigit (b >>> 4), upperHexDigit (b &&& 0xF)]

/-- `hash_bytes`. The length becomes an `unsigned`. -/
def hashBytes (buffer input : List UInt8) : List UInt8 :=
  let context := md5Update (md5Init buffer) input (UInt32.ofNat input.length)
  (md5Final context).flatMap upperHexByte

/-- `bf_string_hash`. -/
def bfStringHash (buffer str : List UInt8) : List UInt8 := hashBytes buffer str

/-- `bf_binary_hash`; `none` is `E_INVARG`. -/
def bfBinaryHash (buffer str : List UInt8) : Option (List UInt8) :=
  (moobinaryToRawBytes str).map (hashBytes buffer)

/-! ## The hash of a message -/

/-- The bits of the message are followed by a one, by as few zeros as give full blocks, and by
their number modulo `2 ^ 64`. -/
def md5Pad (m : List UInt8) : List UInt8 :=
  m ++ 0x80 :: List.replicate ((119 - m.length % 64) % 64) 0 ++
    md5Encode [UInt32.ofNat (8 * m.length), UInt32.ofNat (8 * m.length / 2 ^ 32)]

/-- The state after the full blocks of a message, and the rest of it. -/
def md5Absorb (state : Md5State) (m : List UInt8) : Md5State × List UInt8 :=
  Blocks.absorb (Nat.zero_lt_succ 63 : 0 < 64) md5Transform state m

/-- The hash of a message: the state after the blocks of the padded message. -/
def md5Digest (m : List UInt8) : List UInt8 :=
  let state := (md5Absorb md5Start (md5Pad m)).1
  md5Encode [state.a, state.b, state.c, state.d]

/-- The context after the bytes of `m`. -/
structure Md5ctx.Holds (context : Md5ctx) (m : List UInt8) : Prop where
  state : context.state = (md5Absorb md5Start m).1
  buffer : context.buffer.take (m.length % 64) = (md5Absorb md5Start m).2
  length : context.buffer.length = 64
  count : context.count₀.toNat + 2 ^ 32 * context.count₁.toNat = 8 * m.length % 2 ^ 64

section

variable {context : Md5ctx} {m buf buffer bytes : List UInt8} {len i : UInt32} {state : Md5State}
  {k fuel : Nat}

lemma length_copyTo (h : k + bytes.length ≤ buffer.length) :
    (copyTo buffer k bytes).length = buffer.length := by
  simp only [copyTo, List.length_append, List.length_take, List.length_drop]
  omega

lemma take_copyTo (h : k + bytes.length ≤ buffer.length) :
    (copyTo buffer k bytes).take (k + bytes.length) = buffer.take k ++ bytes := by
  have hlen : (buffer.take k ++ bytes).length = k + bytes.length := by
    rw [List.length_append, List.length_take]
    omega
  rw [copyTo, ← hlen, List.take_left']
  rfl

lemma holds_md5Init (h : buffer.length = 64) : (md5Init buffer).Holds [] where
  state := by
    rw [md5Absorb, Blocks.absorb_of_lt (Nat.zero_lt_succ 63)]
    rfl
  buffer := by
    rw [md5Absorb, Blocks.absorb_of_lt (Nat.zero_lt_succ 63)]
    rfl
  length := h
  count := rfl

lemma toNat_and_mask (w : UInt32) : (w &&& 0x3F).toNat = w.toNat % 64 := by
  rw [UInt32.toNat_and]
  exact Nat.and_two_pow_sub_one_eq_mod w.toNat 6

lemma toNat_shiftRight_three (w : UInt32) : (w >>> 3).toNat = w.toNat / 8 := by
  rw [UInt32.toNat_shiftRight]
  exact Nat.shiftRight_eq_div_pow w.toNat 3

lemma toNat_shiftRight_high (w : UInt32) : (w >>> 29).toNat = w.toNat / 2 ^ 29 := by
  rw [UInt32.toNat_shiftRight]
  exact Nat.shiftRight_eq_div_pow w.toNat 29

lemma toNat_shiftLeft_three (w : UInt32) : (w <<< 3).toNat = w.toNat * 8 % 2 ^ 32 := by
  rw [UInt32.toNat_shiftLeft]
  congr 1
  exact Nat.shiftLeft_eq w.toNat 3

lemma Md5ctx.Holds.index (h : context.Holds m) :
    ((context.count₀ >>> 3) &&& 0x3F).toNat = m.length % 64 := by
  have hcount := h.count
  have hlt := context.count₀.toNat_lt
  rw [toNat_and_mask, toNat_shiftRight_three]
  omega

/-- The bits are counted modulo `2 ^ 64`. -/
lemma count_md5Update {c₀ c₁ len : UInt32} {n : Nat}
    (h : c₀.toNat + 2 ^ 32 * c₁.toNat = 8 * n % 2 ^ 64) :
    (c₀ + (len <<< 3)).toNat + 2 ^ 32 * ((if c₀ + (len <<< 3) < len <<< 3 then c₁ + 1 else c₁) +
      (len >>> 29)).toNat = 8 * (n + len.toNat) % 2 ^ 64 := by
  have hc₀ := c₀.toNat_lt
  have hc₁ := c₁.toNat_lt
  have hlen := len.toNat_lt
  have hone : (1 : UInt32).toNat = 1 := rfl
  split_ifs with hcarry
  · rw [UInt32.lt_iff_toNat_lt, UInt32.toNat_add, toNat_shiftLeft_three] at hcarry
    rw [UInt32.toNat_add, UInt32.toNat_add, UInt32.toNat_add, toNat_shiftLeft_three,
      toNat_shiftRight_high, hone]
    omega
  · rw [UInt32.lt_iff_toNat_lt, UInt32.toNat_add, toNat_shiftLeft_three] at hcarry
    rw [UInt32.toNat_add, UInt32.toNat_add, toNat_shiftLeft_three, toNat_shiftRight_high]
    omega

/-- The loop takes all full blocks, unless `i + 63` wraps around. -/
lemma md5Blocks_spec (state : Md5State) (hlen : len.toNat ≤ buf.length) (hi : i.toNat ≤ len.toNat)
    (hwrap : len.toNat + 63 < 2 ^ 32 ∨ i.toNat % 64 = 0)
    (hfuel : len.toNat - i.toNat < 64 * fuel) :
    (md5Blocks buf len fuel i state).1.toNat ≤ len.toNat ∧
      md5Absorb state ((buf.take len.toNat).drop i.toNat) = ((md5Blocks buf len fuel i state).2,
        (buf.take len.toNat).drop (md5Blocks buf len fuel i state).1.toNat) := by
  induction fuel generalizing i state with
  | zero => omega
  | succ fuel ih =>
    have hlt := len.toNat_lt
    have h63 : (63 : UInt32).toNat = 63 := rfl
    have h64 : (64 : UInt32).toNat = 64 := rfl
    have hadd : (i + 63).toNat = i.toNat + 63 := by
      rw [UInt32.toNat_add, h63]
      omega
    have hleft : ((buf.take len.toNat).drop i.toNat).length = len.toNat - i.toNat := by
      rw [List.length_drop, List.length_take, min_eq_left hlen]
    rw [md5Blocks]
    split_ifs with hmore
    · rw [UInt32.lt_iff_toNat_lt, hadd] at hmore
      have hnext : (i + 64).toNat = i.toNat + 64 := by
        rw [UInt32.toNat_add, h64]
        omega
      have hblock : ((buf.take len.toNat).drop i.toNat).take 64 = (buf.drop i.toNat).take 64 := by
        rw [List.drop_take, List.take_take, min_eq_left (by omega)]
      have hstep : md5Absorb state ((buf.take len.toNat).drop i.toNat)
          = md5Absorb (md5Transform state ((buf.drop i.toNat).take 64))
              ((buf.take len.toNat).drop (i + 64).toNat) := by
        rw [md5Absorb, Blocks.absorb_of_le (by omega), hblock, List.drop_drop, hnext]
        rfl
      rw [hstep]
      exact ih _ (by omega) (by omega) (by omega)
    · rw [UInt32.lt_iff_toNat_lt, hadd] at hmore
      refine ⟨hi, ?_⟩
      rw [md5Absorb, Blocks.absorb_of_lt (by omega)]

/-! ## Pieces of a message -/

namespace Md5ctx.Holds

lemma length_kept (h : context.Holds m) :
    (context.buffer.take (m.length % 64)).length = m.length % 64 := by
  rw [List.length_take, h.length]
  omega

lemma partLen (h : context.Holds m) :
    ((64 : UInt32) - ((context.count₀ >>> 3) &&& 0x3F)).toNat = 64 - m.length % 64 := by
  have h64 : (64 : UInt32).toNat = 64 := rfl
  rw [UInt32.toNat_sub, h.index, h64]
  omega

/-- What is kept in the buffer goes in front of what comes next. -/
lemma absorb_append (h : context.Holds m) (x : List UInt8) :
    md5Absorb md5Start (m ++ x)
      = md5Absorb context.state (context.buffer.take (m.length % 64) ++ x) := by
  rw [h.state, h.buffer]
  exact Blocks.absorb_append _ _ _

/-- A piece that does not fill the block is kept. -/
lemma update_of_lt (h : context.Holds m) (hlen : len.toNat ≤ buf.length)
    (hshort : m.length % 64 + len.toNat < 64) :
    (md5Update context buf len).Holds (m ++ buf.take len.toNat) := by
  have hpart : ¬(64 : UInt32) - ((context.count₀ >>> 3) &&& 0x3F) ≤ len := by
    rw [UInt32.le_iff_toNat_le, h.partLen]
    omega
  have htaken : (buf.take len.toNat).length = len.toNat := by
    rw [List.length_take, min_eq_left hlen]
  have hlast : (m ++ buf.take len.toNat).length % 64
      = m.length % 64 + (buf.take len.toNat).length := by
    rw [List.length_append, htaken]
    omega
  have hfits : m.length % 64 + (buf.take len.toNat).length ≤ context.buffer.length := by
    rw [htaken, h.length]
    omega
  have hkeep : (context.buffer.take (m.length % 64) ++ buf.take len.toNat).length < 64 := by
    rw [List.length_append, h.length_kept, htaken]
    exact hshort
  have habsorb : md5Absorb md5Start (m ++ buf.take len.toNat)
      = (context.state, context.buffer.take (m.length % 64) ++ buf.take len.toNat) :=
    (h.absorb_append _).trans (Blocks.absorb_of_lt hkeep)
  rw [md5Update, if_neg hpart, h.index]
  refine ⟨?_, ?_, ?_, ?_⟩
  · rw [habsorb]
  · rw [habsorb, hlast]
    exact take_copyTo hfits
  · rw [length_copyTo hfits, h.length]
  · rw [List.length_append, htaken]
    exact count_md5Update h.count

/-- A piece that fills the block changes the state with it and with the full blocks behind it. -/
lemma update_of_le (h : context.Holds m) (hlen : len.toNat ≤ buf.length)
    (hwrap : len.toNat + 63 < 2 ^ 32 ∨ m.length % 64 = 0)
    (hfull : 64 ≤ m.length % 64 + len.toNat) :
    (md5Update context buf len).Holds (m ++ buf.take len.toNat) := by
  have hmod := Nat.mod_lt m.length (Nat.zero_lt_succ 63)
  have hpart : (64 : UInt32) - ((context.count₀ >>> 3) &&& 0x3F) ≤ len := by
    rw [UInt32.le_iff_toNat_le, h.partLen]
    omega
  have hx : (buf.take len.toNat).length = len.toNat := by
    rw [List.length_take, min_eq_left hlen]
  have htaken : (buf.take (64 - m.length % 64)).length = 64 - m.length % 64 := by
    rw [List.length_take]
    omega
  have hfill : m.length % 64 + (buf.take (64 - m.length % 64)).length
      = context.buffer.length := by
    rw [htaken, h.length]
    omega
  have hblock : (context.buffer.take (m.length % 64) ++ buf.take len.toNat).take 64
      = copyTo context.buffer (m.length % 64) (buf.take (64 - m.length % 64)) := by
    rw [copyTo, hfill, List.drop_length, List.append_nil, List.take_append, h.length_kept,
      List.take_of_length_le (by rw [h.length_kept]; omega), List.take_take,
      min_eq_left (by omega)]
  have hlength := length_copyTo hfill.le
  rw [h.length] at hlength
  have hrest : (context.buffer.take (m.length % 64) ++ buf.take len.toNat).drop 64
      = (buf.take len.toNat).drop (64 - m.length % 64) := by
    rw [List.drop_append, h.length_kept, List.drop_of_length_le (by rw [h.length_kept]; omega),
      List.nil_append]
  -- the block in the buffer, then the blocks of the loop
  have hfills : 64 ≤ (context.buffer.take (m.length % 64) ++ buf.take len.toNat).length := by
    rw [List.length_append, h.length_kept, hx]
    exact hfull
  have habsorb := (h.absorb_append (buf.take len.toNat)).trans (Blocks.absorb_of_le hfills)
  rw [hblock, hrest] at habsorb
  obtain ⟨hle, hblocks⟩ := md5Blocks_spec (i := (64 : UInt32) - ((context.count₀ >>> 3) &&& 0x3F))
    (md5Transform context.state
      (copyTo context.buffer (m.length % 64) (buf.take (64 - m.length % 64))))
    hlen (by rw [h.partLen]; omega) (by rw [h.partLen]; omega)
    (by rw [h.partLen]; omega : len.toNat - _ < 64 * (len.toNat / 64 + 1))
  rw [h.partLen] at hblocks
  rw [md5Update, if_pos hpart, h.index, h.partLen]
  dsimp only
  generalize md5Blocks _ _ _ _ _ = r at hle hblocks ⊢
  obtain ⟨i, state⟩ := r
  replace habsorb := habsorb.trans hblocks
  have hlast : ((buf.take len.toNat).drop i.toNat).length
      = (m ++ buf.take len.toNat).length % 64 := by
    rw [← congrArg (fun r => r.2.length) habsorb]
    exact Blocks.length_absorb _ _
  have hleft : (buf.drop i.toNat).take (len - i).toNat = (buf.take len.toNat).drop i.toNat := by
    rw [List.drop_take, UInt32.toNat_sub_of_le _ _ (UInt32.le_iff_toNat_le.mpr hle)]
  have hfits : 0 + ((buf.take len.toNat).drop i.toNat).length ≤ (copyTo context.buffer
      (m.length % 64) (buf.take (64 - m.length % 64))).length := by
    rw [hlength, hlast]
    omega
  refine ⟨?_, ?_, ?_, ?_⟩
  · rw [habsorb]
  · rw [habsorb, hleft, ← hlast]
    simpa using take_copyTo hfits
  · rw [hleft, length_copyTo hfits, hlength]
  · rw [List.length_append, hx]
    exact count_md5Update h.count

/-- A piece is taken as if it came right behind what has been taken before. Only a piece that is
within 63 bytes of the greatest `unsigned` and does not begin a block is too long for the loop. -/
lemma update (h : context.Holds m) (buf : List UInt8) (len : UInt32) (hlen : len.toNat ≤ buf.length)
    (hwrap : len.toNat + 63 < 2 ^ 32 ∨ m.length % 64 = 0) :
    (md5Update context buf len).Holds (m ++ buf.take len.toNat) := by
  by_cases hfull : 64 ≤ m.length % 64 + len.toNat
  · exact h.update_of_le hlen hwrap hfull
  · exact h.update_of_lt hlen (not_le.mp hfull)

lemma counts (h : context.Holds m) : context.count₀ = UInt32.ofNat (8 * m.length) ∧
    context.count₁ = UInt32.ofNat (8 * m.length / 2 ^ 32) := by
  have hcount := h.count
  have h₀ := context.count₀.toNat_lt
  have h₁ := context.count₁.toNat_lt
  constructor
  · apply UInt32.toNat_inj.mp
    rw [UInt32.toNat_ofNat']
    omega
  · apply UInt32.toNat_inj.mp
    rw [UInt32.toNat_ofNat']
    omega

/-- The end of the message is padded, and what is padded is hashed. -/
lemma final (h : context.Holds m) : md5Final context = md5Digest m := by
  have hindex := h.index
  obtain ⟨hcount₀, hcount₁⟩ := h.counts
  rw [md5Final]
  generalize hpadLen : (if ((context.count₀ >>> 3) &&& 0x3f) < 56
    then (56 : UInt32) - ((context.count₀ >>> 3) &&& 0x3f)
    else (120 : UInt32) - ((context.count₀ >>> 3) &&& 0x3f)) = padLen
  have hpad : padLen.toNat = (119 - m.length % 64) % 64 + 1 := by
    have h56 : (56 : UInt32).toNat = 56 := rfl
    have h120 : (120 : UInt32).toNat = 120 := rfl
    rw [← hpadLen]
    split_ifs with hlt
    · rw [UInt32.lt_iff_toNat_lt, hindex] at hlt
      rw [UInt32.toNat_sub, hindex, h56]
      omega
    · rw [UInt32.lt_iff_toNat_lt, hindex] at hlt
      rw [UInt32.toNat_sub, hindex, h120]
      omega
  have hpadding : md5Padding.take padLen.toNat
      = 0x80 :: List.replicate ((119 - m.length % 64) % 64) 0 := by
    rw [hpad, md5Padding, List.take_succ_cons, List.take_replicate, min_eq_left (by omega)]
  have hpadded : (md5Update context md5Padding padLen).Holds (m ++ md5Padding.take padLen.toNat) :=
    h.update _ _ (by rw [hpad, md5Padding, List.length_cons, List.length_replicate]; omega)
      (.inl (by rw [hpad]; omega))
  have hbits : (md5Update (md5Update context md5Padding padLen)
      (md5Encode [context.count₀, context.count₁]) 8).Holds (md5Pad m) := by
    rw [md5Pad, ← hpadding, ← hcount₀, ← hcount₁]
    exact hpadded.update _ _ le_rfl (.inl (by decide))
  rw [md5Digest, ← hbits.state]

lemma pieces (h : context.Holds m) {pieces : List (List UInt8)}
    (hpieces : ∀ p ∈ pieces, p.length + 63 < 2 ^ 32) :
    (pieces.foldl (fun context p => md5Update context p (UInt32.ofNat p.length)) context).Holds
      (m ++ pieces.flatten) := by
  induction pieces generalizing context m with
  | nil =>
    rw [List.flatten_nil, List.append_nil]
    exact h
  | cons p pieces ih =>
    have hp := hpieces p List.mem_cons_self
    have hlen : (UInt32.ofNat p.length).toNat = p.length :=
      UInt32.toNat_ofNat_of_lt' (by change p.length < 2 ^ 32; omega)
    have hnext := h.update p _ hlen.le (.inl (by rw [hlen]; exact hp))
    rw [hlen, List.take_length] at hnext
    rw [List.flatten_cons, ← List.append_assoc]
    exact ih hnext fun q hq => hpieces q (List.mem_cons_of_mem _ hq)

end Md5ctx.Holds

/-- The padding fills the last block. -/
lemma md5Absorb_md5Pad (state : Md5State) (m : List UInt8) :
    (md5Absorb state (md5Pad m)).2 = [] := by
  have hlength : (md5Absorb state (md5Pad m)).2.length = (md5Pad m).length % 64 :=
    Blocks.length_absorb _ _
  have hbits (a b : UInt32) : (md5Encode [a, b]).length = 8 := rfl
  rw [md5Pad, List.length_append, List.length_append, List.length_cons, List.length_replicate,
    hbits] at hlength
  exact List.eq_nil_of_length_eq_zero (hlength.trans (by omega))

end

/-- The hash of a message is the same however it is cut into pieces, and whatever is in the buffer
at the beginning. -/
theorem md5_pieces {buffer : List UInt8} (hbuffer : buffer.length = 64)
    (pieces : List (List UInt8)) (hpieces : ∀ p ∈ pieces, p.length + 63 < 2 ^ 32) :
    md5Final (pieces.foldl (fun context p => md5Update context p (UInt32.ofNat p.length))
        (md5Init buffer))
      = md5Digest pieces.flatten ∧ (md5Absorb md5Start (md5Pad pieces.flatten)).2 = [] :=
  ⟨((holds_md5Init hbuffer).pieces hpieces).final, md5Absorb_md5Pad _ _⟩

theorem md5_pieces_abc :
    md5Final ([[97], [98, 99]].foldl
        (fun context p => md5Update context p (UInt32.ofNat p.length))
        (md5Init (List.replicate 64 0)))
      = md5Digest [97, 98, 99] :=
  (md5_pieces List.length_replicate [[97], [98, 99]] (by decide)).1

/-- `string_hash()` is the hash of the bytes of the string, up to `2 ^ 32` of them, in digits, and
`binary_hash()` of a binary string is the same hash of the bytes it stands for. -/
theorem stringHash_eq {buffer : List UInt8} (hbuffer : buffer.length = 64) (str : List UInt8) :
    bfStringHash buffer str
      = (md5Digest (str.take (str.length % 2 ^ 32))).flatMap upperHexByte ∧
    bfBinaryHash buffer (moobinary str) = some (bfStringHash buffer str) := by
  have hlen : (UInt32.ofNat str.length).toNat = str.length % 2 ^ 32 := UInt32.toNat_ofNat'
  have hstr := (holds_md5Init hbuffer).update str (UInt32.ofNat str.length)
    (hlen ▸ Nat.mod_le _ _) (.inr rfl)
  rw [hlen, List.nil_append] at hstr
  constructor
  · exact congrArg (List.flatMap upperHexByte) hstr.final
  · rw [bfBinaryHash, moobinaryToRawBytes_moobinary]
    rfl

theorem stringHash_eq_abc :
    bfStringHash (List.replicate 64 0) [97, 98, 99]
      = (md5Digest [97, 98, 99]).flatMap upperHexByte :=
  (stringHash_eq List.length_replicate [97, 98, 99]).1

example : bfStringHash (List.replicate 64 0) "abc".toUTF8.toList
    = "900150983CD24FB0D6963F7D28E17F72".toUTF8.toList := by
  decide +kernel

end LambdaMOO
