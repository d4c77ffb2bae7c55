import BismarkPassive.Target

namespace bismark_passive.polarssl

/-! `sha1.c`, for an `unsigned long` of `w` bits -/

variable {w : Nat}

/-- Five words: the array `state` of a context, or the variables `A` to `E`. -/
structure sha1_words (w : Nat) where
  A : BitVec w
  B : BitVec w
  C : BitVec w
  D : BitVec w
  E : BitVec w

/-- The elements of `total` are `total0` and `total1`. -/
structure sha1_context (w : Nat) where
  total0 : BitVec w
  total1 : BitVec w
  state : sha1_words w
  buffer : Vector UInt8 64
  ipad : Vector UInt8 64
  opad : Vector UInt8 64

def GET_ULONG_BE (data : List UInt8) (i : Nat) : BitVec w :=
  (data.getD i 0).toBitVec.setWidth w <<< 24 ||| (data.getD (i + 1) 0).toBitVec.setWidth w <<< 16 |||
    (data.getD (i + 2) 0).toBitVec.setWidth w <<< 8 ||| (data.getD (i + 3) 0).toBitVec.setWidth w

def PUT_ULONG_BE (n : BitVec w) : List UInt8 :=
  [.ofBitVec ((n >>> 24).setWidth 8), .ofBitVec ((n >>> 16).setWidth 8), .ofBitVec ((n >>> 8).setWidth 8),
    .ofBitVec (n.setWidth 8)]

def sha1_starts (ctx : sha1_context w) : sha1_context w :=
  { ctx with
    total0 := 0
    total1 := 0
    state :=
      { A := .ofNat w 0x67452301
        B := .ofNat w 0xEFCDAB89
        C := .ofNat w 0x98BADCFE
        D := .ofNat w 0x10325476
        E := .ofNat w 0xC3D2E1F0 } }

@[simp] theorem sha1_starts_ipad (ctx : sha1_context w) : (sha1_starts ctx).ipad = ctx.ipad := rfl

@[simp] theorem sha1_starts_opad (ctx : sha1_context w) : (sha1_starts ctx).opad = ctx.opad := rfl

/-! The macros of `sha1_process`; `F` and `K` are redefined every 20 rounds. -/

def S (x : BitVec w) (n : Nat) : BitVec w := x <<< n ||| (x &&& .ofNat w 0xFFFFFFFF) >>> (32 - n)

def F (t : Nat) (x y z : BitVec w) : BitVec w :=
  if t < 20 then z ^^^ (x &&& (y ^^^ z))
  else if t < 40 then x ^^^ y ^^^ z
  else if t < 60 then x &&& y ||| z &&& (x ||| y)
  else x ^^^ y ^^^ z

def K (w t : Nat) : BitVec w :=
  .ofNat w (if t < 20 then 0x5A827999 else if t < 40 then 0x6ED9EBA1 else if t < 60 then 0x8F1BBCDC else 0xCA62C1D6)

/-- What becomes of `e` and of `b`. -/
def P (t : Nat) (a b c d e x : BitVec w) : BitVec w × BitVec w :=
  (e + (S a 5 + F t b c d + K w t + x), S b 30)

/-- An index of `W`, masked by `0x0F`. -/
def W_index (t : Nat) : Fin 16 := ⟨t % 16, Nat.mod_lt t (Nat.zero_lt_succ 15)⟩

def W_at (W : Vector (BitVec w) 16) (t : Nat) : BitVec w := W.get (W_index t)

def R (t : Nat) (W : Vector (BitVec w) 16) : BitVec w :=
  S (W_at W (t - 3) ^^^ W_at W (t - 8) ^^^ W_at W (t - 14) ^^^ W_at W t) 1

/-- The array `W` when the round uses its element, which `R` has assigned. -/
def W_next (t : Nat) (W : Vector (BitVec w) 16) : Vector (BitVec w) 16 :=
  if t < 16 then W else W.set (W_index t) (R t W) (W_index t).isLt

/-- The calls of `P` name the variables in turn. -/
def sha1_round (v : sha1_words w) (W : Vector (BitVec w) 16) (t : Nat) : sha1_words w :=
  let x := W_at W t
  match t % 5 with
  | 0 => let (e, b) := P t v.A v.B v.C v.D v.E x
         { v with E := e, B := b }
  | 1 => let (e, b) := P t v.E v.A v.B v.C v.D x
         { v with D := e, A := b }
  | 2 => let (e, b) := P t v.D v.E v.A v.B v.C x
         { v with C := e, E := b }
  | 3 => let (e, b) := P t v.C v.D v.E v.A v.B x
         { v with B := e, D := b }
  | _ => let (e, b) := P t v.B v.C v.D v.E v.A x
         { v with A := e, C := b }

def sha1_rounds (count : Nat) (v : sha1_words w) (W : Vector (BitVec w) 16) : sha1_words w × Vector (BitVec w) 16 :=
  (List.range count).foldl (fun (v, W) t => (sha1_round v (W_next t W) t, W_next t W)) (v, W)

/-- The last five statements of `sha1_process`. -/
def sha1_words.add (state v : sha1_words w) : sha1_words w where
  A := state.A + v.A
  B := state.B + v.B
  C := state.C + v.C
  D := state.D + v.D
  E := state.E + v.E

def sha1_process (ctx : sha1_context w) (data : List UInt8) : sha1_context w :=
  { ctx with state := ctx.state.add (sha1_rounds 80 ctx.state (.ofFn fun i => GET_ULONG_BE data (4 * i))).1 }

/-- An array with these elements. -/
def array_of {n : Nat} (elements : List UInt8) : Vector UInt8 n := .ofFn fun i => elements.getD i 0

/-- `memcpy(buffer + position, input, input.length)` -/
def memcpy_at (buffer : Vector UInt8 64) (position : Nat) (input : List UInt8) : Vector UInt8 64 :=
  array_of (buffer.toList.take position ++ input ++ buffer.toList.drop (position + input.length))

@[simp] theorem sha1_process_total0 (ctx : sha1_context w) (data : List UInt8) :
    (sha1_process ctx data).total0 = ctx.total0 := by
  rw [sha1_process]

@[simp] theorem sha1_process_total1 (ctx : sha1_context w) (data : List UInt8) :
    (sha1_process ctx data).total1 = ctx.total1 := by
  rw [sha1_process]

@[simp] theorem sha1_process_buffer (ctx : sha1_context w) (data : List UInt8) :
    (sha1_process ctx data).buffer = ctx.buffer := by
  rw [sha1_process]

@[simp] theorem sha1_process_ipad (ctx : sha1_context w) (data : List UInt8) :
    (sha1_process ctx data).ipad = ctx.ipad := by
  rw [sha1_process]

@[simp] theorem sha1_process_opad (ctx : sha1_context w) (data : List UInt8) :
    (sha1_process ctx data).opad = ctx.opad := by
  rw [sha1_process]

/-- The loop over complete blocks, at most this many times: the context and
what is left of the input. -/
def process_blocks : Nat → sha1_context w → List UInt8 → sha1_context w × List UInt8
  | 0, ctx, input => (ctx, input)
  | count + 1, ctx, input =>
    if 64 ≤ input.length then process_blocks count (sha1_process ctx (input.take 64)) (input.drop 64) else (ctx, input)

/-- `total` after this many more bytes. -/
def add_total (ctx : sha1_context w) (ilen : BitVec w) : sha1_context w :=
  let total0 := (ctx.total0 + ilen) &&& .ofNat w 0xFFFFFFFF
  { ctx with
    total0 := total0
    total1 := if total0 < ilen then ctx.total1 + 1 else ctx.total1 }

/-- The loop and the last `memcpy`, with the number of bytes that wait in the buffer. -/
def process_input (ctx : sha1_context w) (left : Nat) (input : List UInt8) : sha1_context w :=
  let (ctx, input) := process_blocks input.length ctx input
  if 0 < input.length then { ctx with buffer := memcpy_at ctx.buffer left input } else ctx

def sha1_update (ctx : sha1_context w) (input : List UInt8) : sha1_context w :=
  if input.length = 0 then ctx
  else
    let left := (ctx.total0 &&& 0x3F).toNat
    let fill := 64 - left
    let ctx := add_total ctx (.ofNat w input.length)
    if left ≠ 0 ∧ fill ≤ input.length then
      let ctx := { ctx with buffer := memcpy_at ctx.buffer left (input.take fill) }
      process_input (sha1_process ctx ctx.buffer.toList) 0 (input.drop fill)
    else process_input ctx left input

def sha1_padding : List UInt8 := 0x80 :: List.replicate 63 0

/-- The bytes of `msglen`. -/
def msglen (ctx : sha1_context w) : List UInt8 :=
  PUT_ULONG_BE (ctx.total0 >>> 29 ||| ctx.total1 <<< 3) ++ PUT_ULONG_BE (ctx.total0 <<< 3)

def padn (ctx : sha1_context w) : Nat :=
  let last := (ctx.total0 &&& 0x3F).toNat
  if last < 56 then 56 - last else 120 - last

/-- The output, with the context as it is left. -/
def sha1_finish (ctx : sha1_context w) : List UInt8 × sha1_context w :=
  let padded := sha1_update ctx (sha1_padding.take (padn ctx))
  let ctx := sha1_update padded (msglen ctx)
  (PUT_ULONG_BE ctx.state.A ++ PUT_ULONG_BE ctx.state.B ++ PUT_ULONG_BE ctx.state.C ++ PUT_ULONG_BE ctx.state.D ++
    PUT_ULONG_BE ctx.state.E, ctx)

/-- `ctx` is what the local variable happens to hold. -/
def sha1 (ctx : sha1_context w) (input : List UInt8) : List UInt8 :=
  (sha1_finish (sha1_update (sha1_starts ctx) input)).1

/-- A pad whose first bytes the key has changed. -/
def xor_key (pad : UInt8) (key : List UInt8) : Vector UInt8 64 :=
  .ofFn fun i => if i.val < key.length then pad ^^^ key.getD i 0 else pad

/-- `local_ctx` is the context of the call of `sha1` that shortens a long key. -/
def sha1_hmac_starts (ctx local_ctx : sha1_context w) (key : List UInt8) : sha1_context w :=
  let key := if 64 < key.length then sha1 local_ctx key else key
  let ctx := sha1_starts { ctx with ipad := xor_key 0x36 key, opad := xor_key 0x5C key }
  sha1_update ctx ctx.ipad.toList

def sha1_hmac_update (ctx : sha1_context w) (input : List UInt8) : sha1_context w := sha1_update ctx input

def sha1_hmac_finish (ctx : sha1_context w) : List UInt8 × sha1_context w :=
  let (tmpbuf, ctx) := sha1_finish ctx
  sha1_finish (sha1_update (sha1_update (sha1_starts ctx) ctx.opad.toList) tmpbuf)

def sha1_hmac_reset (ctx : sha1_context w) : sha1_context w := sha1_update (sha1_starts ctx) ctx.ipad.toList

def sha1_hmac (ctx local_ctx : sha1_context w) (key input : List UInt8) : List UInt8 :=
  (sha1_hmac_finish (sha1_hmac_update (sha1_hmac_starts ctx local_ctx key) input)).1

end bismark_passive.polarssl
