import BismarkPassive.Constants
import Mathlib.Data.Rat.Floor

namespace bismark_passive

/-- The bytes of a C string before its terminating NUL. -/
abbrev cstring := List UInt8

abbrev mac_address_t := Vector UInt8 ETH_ALEN

abbrev digest_t := Vector UInt8 ANONYMIZATION_DIGEST_LENGTH

/-- What the compiler and the Makefile's switches fix before the program runs.
A conversion of a double that `uint32_t` cannot represent is undefined in C,
so all that is known of the conversion is its value on representable ones. -/
structure Target where
  disable_anonymization : Bool
  disable_flow_thresholding : Bool
  enable_frequent_updates : Bool
  enable_http_url : Bool
  big_endian : Bool
  sizeof_pointer : Nat
  sizeof_pointer_cases : sizeof_pointer = 4 ∨ sizeof_pointer = 8
  u32_of_double : Rat → UInt32
  u32_of_double_of_lt : ∀ v : Rat, 0 ≤ v → v < 2 ^ 32 → (u32_of_double v).toNat = v.floor.toNat

/-- The bytes of a word in the order they have in memory. -/
def Target.bytes32 (target : Target) (word : UInt32) : List UInt8 :=
  let little := [word.toUInt8, (word >>> 8).toUInt8, (word >>> 16).toUInt8, (word >>> 24).toUInt8]
  if target.big_endian then little.reverse else little

def Target.bytes16 (target : Target) (word : UInt16) : List UInt8 :=
  let little := [word.toUInt8, (word >>> 8).toUInt8]
  if target.big_endian then little.reverse else little

/-- Reading eight bytes of memory through a `uint64_t *`. -/
def Target.u64_of_bytes (target : Target) (bytes : List UInt8) : UInt64 :=
  let little := if target.big_endian then bytes.reverse else bytes
  little.foldr (fun byte word => word <<< 8 ||| byte.toUInt64) 0

/-- Conversion of an integer to the nearest double, ties to even. -/
def double_of_int (value : Int) : Int :=
  let magnitude := value.natAbs
  if magnitude < 2 ^ 53 then value
  else
    let unit := 2 ^ (magnitude.log2 - 52)
    let quotient := magnitude / unit
    let remainder := magnitude % unit
    let up := unit < 2 * remainder ∨ unit = 2 * remainder ∧ quotient % 2 = 1
    value.sign * ((if up then quotient + 1 else quotient) * unit : Nat)

structure timeval where
  tv_sec : Int
  tv_usec : Int
  deriving DecidableEq

/-- `tv_sec * NUM_MICROS_PER_SECOND + tv_usec`, computed in doubles. -/
def timeval.microseconds (timestamp : timeval) : Int64 :=
  Int64.ofInt (double_of_int
    (double_of_int (double_of_int timestamp.tv_sec * NUM_MICROS_PER_SECOND) + double_of_int timestamp.tv_usec))

/-- The keyed hash of `sha1.c` and the resolver library's name expansion.
`dn_expand msg offset` is the call with the message `msg` and its end as
bounds: the name and the number of bytes it occupies at `offset`. -/
structure Externals where
  sha1_hmac : List UInt8 → List UInt8 → digest_t
  dn_expand : List UInt8 → Nat → Option (cstring × Nat)

/-- The static variables of `anonymization.c`. -/
structure anonymization_t where
  seed : List UInt8
  seed_hex_digest : cstring
  initialized : Bool

/-- What stays the same from the end of `main`'s initialisation on. -/
structure Session where
  target : Target
  externals : Externals
  build_id : cstring
  bismark_id : cstring
  start_timestamp_microseconds : Int64
  anonymization : anonymization_t

end bismark_passive
