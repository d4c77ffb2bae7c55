import BismarkPassive.Hashing.Blocks
import Mathlib.Algebra.Group.Nat.Defs
import Mathlib.Data.List.Range

namespace sha1_standard

open hashing

/-! The Secure Hash Standard's SHA-1, and the keyed hash made from it -/

abbrev Word := BitVec 32

/-- The five words of a hash value, and of the working v. -/
structure words where
  A : Word
  B : Word
  C : Word
  D : Word
  E : Word
  deriving DecidableEq

def initial : words := ⟨0x67452301, 0xEFCDAB89, 0x98BADCFE, 0x10325476, 0xC3D2E1F0⟩

/-- The word of a block at a byte offset, the most significant byte first. -/
def word_at (block : List UInt8) (offset : Nat) : Word :=
  (block.getD offset 0).toBitVec ++ (block.getD (offset + 1) 0).toBitVec ++ (block.getD (offset + 2) 0).toBitVec ++
    (block.getD (offset + 3) 0).toBitVec

/-- The bytes of a word. -/
def word_bytes (word : Word) : List UInt8 :=
  [.ofBitVec (word.extractLsb' 24 8), .ofBitVec (word.extractLsb' 16 8), .ofBitVec (word.extractLsb' 8 8),
    .ofBitVec (word.extractLsb' 0 8)]

/-- The word that a round uses of a block. -/
def schedule (block : List UInt8) (t : Nat) : Word :=
  if t < 16 then word_at block (4 * t)
  else (schedule block (t - 3) ^^^ schedule block (t - 8) ^^^ schedule block (t - 14) ^^^
    schedule block (t - 16)).rotateLeft 1

def f (t : Nat) (x y z : Word) : Word :=
  if t < 20 then x &&& y ||| ~~~x &&& z
  else if t < 40 then x ^^^ y ^^^ z
  else if t < 60 then x &&& y ||| x &&& z ||| y &&& z
  else x ^^^ y ^^^ z

def K (t : Nat) : Word :=
  if t < 20 then 0x5A827999 else if t < 40 then 0x6ED9EBA1 else if t < 60 then 0x8F1BBCDC else 0xCA62C1D6

def round (block : List UInt8) (v : words) (t : Nat) : words where
  A := v.A.rotateLeft 5 + f t v.B v.C v.D + v.E + K t + schedule block t
  B := v.A
  C := v.B.rotateLeft 30
  D := v.C
  E := v.D

def rounds (block : List UInt8) (count : Nat) (v : words) : words :=
  (List.range count).foldl (round block) v

def words.add (first second : words) : words :=
  ⟨first.A + second.A, first.B + second.B, first.C + second.C, first.D + second.D, first.E + second.E⟩

def compress (hash : words) (block : List UInt8) : words := hash.add (rounds block 80 hash)

/-- What follows a message of this length: a one bit, zeros up to the last
eight bytes of a block, and the length in bits. -/
def padding (length : Nat) : List UInt8 :=
  0x80 :: List.replicate ((119 - length % 64) % 64) 0 ++
    word_bytes (.ofNat 32 (8 * length / 2 ^ 32)) ++ word_bytes (.ofNat 32 (8 * length))

def words.bytes (hash : words) : List UInt8 :=
  word_bytes hash.A ++ word_bytes hash.B ++ word_bytes hash.C ++ word_bytes hash.D ++ word_bytes hash.E

def sha1 (message : List UInt8) : List UInt8 :=
  (absorb compress 64 initial (message ++ padding message.length)).bytes

/-- The key, or its hash where it is longer than a block, filled up with zeros. -/
def block_key (key : List UInt8) : List UInt8 :=
  let key := if 64 < key.length then sha1 key else key
  key ++ List.replicate (64 - key.length) 0

def inner_pad (key : List UInt8) : List UInt8 := (block_key key).map (0x36 ^^^ ·)

def outer_pad (key : List UInt8) : List UInt8 := (block_key key).map (0x5C ^^^ ·)

def hmac (key message : List UInt8) : List UInt8 := sha1 (outer_pad key ++ sha1 (inner_pad key ++ message))

theorem schedule_of_lt (block : List UInt8) {t : Nat} (h : t < 16) : schedule block t = word_at block (4 * t) := by
  rw [schedule, if_pos h]

theorem schedule_of_not_lt (block : List UInt8) {t : Nat} (h : ¬ t < 16) :
    schedule block t = (schedule block (t - 3) ^^^ schedule block (t - 8) ^^^ schedule block (t - 14) ^^^
      schedule block (t - 16)).rotateLeft 1 := by
  rw [schedule, if_neg h]

@[simp] theorem word_bytes_length (word : Word) : (word_bytes word).length = 4 := rfl

@[simp] theorem words.bytes_length (hash : words) : hash.bytes.length = 20 := rfl

@[simp] theorem sha1_length (message : List UInt8) : (sha1 message).length = 20 := rfl

end sha1_standard
