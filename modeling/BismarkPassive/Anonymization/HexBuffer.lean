import BismarkPassive.Anonymization
import BismarkPassive.Bytes.Access
import BismarkPassive.Bytes.Bounds
import BismarkPassive.Reference

namespace bismark_passive

open bytes

/-! `buffer_to_hex` with the stores into its static buffer. -/

def sizeof_output_buffer : Nat := 1024

/-- Conversion of an `int` to `size_t`. -/
def Target.size_of_int (target : Target) (value : Int32) : Nat :=
  (value.toInt % 2 ^ (8 * target.sizeof_pointer)).toNat

/-- What `sprintf` stores for `%02x`. -/
def sprintf_text (byte : UInt8) : List UInt8 := hex_digits [byte] ++ [0]

/-- A call that fails has stored this many bytes of its text. -/
def sprintf_hex (failure : Option Nat) (address : Nat) (byte : UInt8) : Access Int :=
  match failure with
  | none => do
    store_bytes address (sprintf_text byte)
    pure 2
  | some stored => do
    store_bytes address ((sprintf_text byte).take stored)
    pure (-1)

section output

variable (failures : Nat → Option Nat) (buffer : Nat → UInt8)

/-- The loop over the bytes, for the remaining count. Returns whether all of
them are converted. -/
def sprintf_bytes : Nat → Nat → Access Bool
  | 0, _ => pure true
  | count + 1, idx => do
    let printed ← sprintf_hex (failures idx) (2 * idx) (buffer idx)
    if printed < 2 then pure false else sprintf_bytes count (idx + 1)

/-- Addresses are relative to `output_buffer`, whose own address is returned
unless it is `NULL`. The bytes are those of another object, and the failures
those of the calls of `sprintf`, by index. -/
def buffer_to_hex_memory (target : Target) (len : Int32) : Access (Option Nat) :=
  if sizeof_output_buffer - 1 < target.size_of_int len then pure none
  else do
    if ← sprintf_bytes failures buffer len.toInt.toNat 0 then
      store8 (2 * len.toInt.toNat) 0
      pure (some 0)
    else pure none

/-- What is returned is `NULL`, or a string of two lower-case digits a byte that
decodes to the bytes. -/
def Encoded (len : Int32) (result : Option Nat) (output : List UInt8) : Prop :=
  result = none ∨ result = some 0 ∧ ∃ digits, digits ++ [0] <+: output ∧ (digits.length : Int) = 2 * len.toInt ∧
    (∀ digit ∈ digits, LowerHex digit) ∧ hex_decode digits = some ((load_bytes 0 len.toInt.toNat).run buffer)

/-- The call stores nothing outside the buffer, and returns such a result. -/
structure EncodesInside (target : Target) (len : Int32) (output : List UInt8) : Prop where
  inside : ∀ behind, (buffer_to_hex_memory failures buffer target len).Within output.length (output ++ behind)
  returns : ∃ result output', (buffer_to_hex_memory failures buffer target len).run output = some (result, output') ∧
    Encoded buffer len result output'

end output

variable {failures : Nat → Option Nat} {buffer : Nat → UInt8} {before rest : List UInt8}

theorem sprintf_text_length (byte : UInt8) : (sprintf_text byte).length = 3 := rfl

/-- The guard compares sizes, so that negative lengths do not pass it. -/
theorem guard_iff (target : Target) (len : Int32) :
    sizeof_output_buffer - 1 < target.size_of_int len ↔ len.toInt < 0 ∨ 1023 < len.toInt := by
  have hlow := len.le_toInt
  have hhigh := len.toInt_lt
  rw [sizeof_output_buffer, Target.size_of_int]
  obtain hpointer | hpointer := target.sizeof_pointer_cases
  · rw [hpointer]
    omega
  · rw [hpointer]
    omega

theorem run_sprintf_hex (hroom : 3 ≤ rest.length) (byte : UInt8) :
    (sprintf_hex none before.length byte).run (before ++ rest) =
      some (2, before ++ hex_digits [byte] ++ 0 :: rest.drop 3) := by
  have hstored : (sprintf_text byte).length ≤ rest.length := hroom
  rw [sprintf_hex, Access.run_bind, run_store_bytes hstored, Option.bind_some, sprintf_text_length, sprintf_text,
    ← List.append_assoc, List.append_assoc _ [0]]
  rfl

theorem run_sprintf_hex_failure (hroom : 3 ≤ rest.length) (stored : Nat) (byte : UInt8) :
    ∃ memory', (sprintf_hex (some stored) before.length byte).run (before ++ rest) = some (-1, memory') := by
  have hstored : ((sprintf_text byte).take stored).length ≤ rest.length :=
    (List.length_take_le' _ _).trans hroom
  rw [sprintf_hex, Access.run_bind, run_store_bytes hstored]
  exact ⟨_, rfl⟩

theorem run_sprintf_hex_end (hroom : rest.length < 3) (byte : UInt8) :
    (sprintf_hex none before.length byte).run (before ++ rest) = none := by
  have hstored : rest.length < (sprintf_text byte).length := hroom
  rw [sprintf_hex, Access.run_bind, run_store_bytes_end hstored, Option.bind_none]

/-- With room for all digits and a NUL the loop stays inside, and converts all
bytes unless a call fails. -/
theorem run_sprintf_bytes (failures : Nat → Option Nat) (buffer : Nat → UInt8) {count idx : Nat}
    (hidx : before.length = 2 * idx) (hroom : 2 * count < rest.length) :
    (∃ i stored memory', failures i = some stored ∧
      (sprintf_bytes failures buffer count idx).run (before ++ rest) = some (false, memory')) ∨
    ∃ rest', rest'.length + 2 * count = rest.length ∧
      (sprintf_bytes failures buffer count idx).run (before ++ rest) =
        some (true, before ++ hex_digits ((load_bytes idx count).run buffer) ++ rest') := by
  induction count generalizing idx before rest with
  | zero =>
    refine .inr ⟨rest, rfl, ?_⟩
    rw [sprintf_bytes, Access.run_pure, load_bytes, Reader.run_pure, hex_digits_nil, List.append_nil]
  | succ count ih =>
    cases hfailure : failures idx with
    | some stored =>
      obtain ⟨memory', hprinted⟩ := @run_sprintf_hex_failure before rest (by omega) stored (buffer idx)
      refine .inl ⟨idx, stored, memory', hfailure, ?_⟩
      rw [sprintf_bytes, Access.run_bind, hfailure, ← hidx, hprinted]
      rfl
    | none =>
      have hprinted := @run_sprintf_hex before rest (by omega) (buffer idx)
      have hbefore : (before ++ hex_digits [buffer idx]).length = 2 * (idx + 1) := by
        rw [List.length_append, hidx]
        rfl
      have hstep : (sprintf_bytes failures buffer (count + 1) idx).run (before ++ rest) =
          (sprintf_bytes failures buffer count (idx + 1)).run
            (before ++ hex_digits [buffer idx] ++ 0 :: rest.drop 3) := by
        rw [sprintf_bytes, Access.run_bind, hfailure, ← hidx, hprinted]
        rfl
      rw [hstep]
      obtain hfalse | ⟨rest', hrest', htrue⟩ := @ih _ (0 :: rest.drop 3) (idx + 1) hbefore (by simp; omega)
      · exact .inl hfalse
      · refine .inr ⟨rest', ?_, ?_⟩
        · rw [List.length_cons, List.length_drop] at hrest'
          omega
        · have hloaded : (load_bytes idx (count + 1)).run buffer =
              buffer idx :: (load_bytes (idx + 1) count).run buffer := by
            simp only [load_bytes, Reader.run_bind, Reader.run_pure, run_load8]
          rw [htrue, hloaded, List.append_assoc before]
          rfl

/-- Without room for the last NUL the loop leaves the memory, if no call fails. -/
theorem run_sprintf_bytes_end (hsucceed : ∀ idx, failures idx = none) {count idx : Nat}
    (hidx : before.length = 2 * idx) (hcount : 0 < count) (hroom : rest.length ≤ 2 * count) :
    (sprintf_bytes failures buffer count idx).run (before ++ rest) = none := by
  induction count generalizing idx before rest with
  | zero => exact absurd hcount (Nat.lt_irrefl 0)
  | succ count ih =>
    rw [sprintf_bytes, Access.run_bind, hsucceed, ← hidx]
    by_cases hthree : rest.length < 3
    · rw [run_sprintf_hex_end hthree, Option.bind_none]
    · have hbefore : (before ++ hex_digits [buffer idx]).length = 2 * (idx + 1) := by
        rw [List.length_append, hidx]
        rfl
      rw [run_sprintf_hex (not_lt.mp hthree)]
      exact ih hbefore (by omega) (by simp; omega)

/-- A call that the guard refuses stores nothing. -/
theorem run_buffer_to_hex_memory_null {target : Target} {len : Int32} (h : len.toInt < 0 ∨ 1023 < len.toInt)
    (output : List UInt8) :
    (buffer_to_hex_memory failures buffer target len).run output = some (none, output) := by
  rw [buffer_to_hex_memory, if_pos ((guard_iff target len).mpr h), Access.run_pure]

/-- With room for the string the call returns the digits, unless a call of
`sprintf` fails. -/
theorem run_buffer_to_hex_memory (failures : Nat → Option Nat) (buffer : Nat → UInt8) {target : Target} {len : Int32}
    (hlen : 0 ≤ len.toInt) (hguard : len.toInt ≤ 1023) {output : List UInt8}
    (hroom : 2 * len.toInt.toNat < output.length) :
    (∃ i stored output', failures i = some stored ∧
      (buffer_to_hex_memory failures buffer target len).run output = some (none, output')) ∨
    ∃ rest, (buffer_to_hex_memory failures buffer target len).run output =
      some (some 0, hex_digits ((load_bytes 0 len.toInt.toNat).run buffer) ++ 0 :: rest) := by
  have hpasses : ¬ sizeof_output_buffer - 1 < target.size_of_int len := by
    rw [guard_iff]
    omega
  rw [buffer_to_hex_memory, if_neg hpasses, Access.run_bind]
  obtain ⟨i, stored, output', hfailure, hfalse⟩ | ⟨rest, hrest, htrue⟩ :=
    @run_sprintf_bytes [] output failures buffer len.toInt.toNat 0 rfl hroom
  · rw [List.nil_append] at hfalse
    rw [hfalse]
    exact .inl ⟨i, stored, output', hfailure, rfl⟩
  · rw [List.nil_append, List.nil_append] at htrue
    cases rest with
    | nil =>
      rw [List.length_nil] at hrest
      omega
    | cons byte rest =>
      have hdigits : (hex_digits ((load_bytes 0 len.toInt.toNat).run buffer)).length = 2 * len.toInt.toNat := by
        rw [hex_digits_length, load_bytes_length, Nat.mul_comm]
      refine .inr ⟨rest, ?_⟩
      rw [htrue, Option.bind_some, if_pos rfl, ← hdigits, Access.run_bind, run_store8]
      rfl

/-- Then it is the string that `buffer_to_hex` stands for. -/
theorem run_buffer_to_hex_memory_eq (hsucceed : ∀ idx, failures idx = none) {target : Target} {len : Int32}
    (hlen : 0 ≤ len.toInt) (hroom : len.toInt ≤ 511) {output : List UInt8}
    (houtput : output.length = sizeof_output_buffer) :
    ∃ hex rest, buffer_to_hex ((load_bytes 0 len.toInt.toNat).run buffer) = some hex ∧
      (buffer_to_hex_memory failures buffer target len).run output = some (some 0, hex ++ 0 :: rest) := by
  rw [sizeof_output_buffer] at houtput
  obtain ⟨i, stored, output', hfailure, -⟩ | ⟨rest, hrun⟩ := @run_buffer_to_hex_memory failures buffer target len
    hlen (by omega) output (by omega)
  · rw [hsucceed] at hfailure
    cases hfailure
  · refine ⟨_, rest, buffer_to_hex_eq_some_iff.mpr ⟨?_, rfl⟩, hrun⟩
    rw [load_bytes_length]
    omega

/-- Without room for the string the call leaves the buffer, if no call of
`sprintf` fails. -/
theorem run_buffer_to_hex_memory_end (hsucceed : ∀ idx, failures idx = none) {target : Target} {len : Int32}
    (hlen : 0 < len.toInt) (hguard : len.toInt ≤ 1023) {output : List UInt8}
    (hroom : output.length ≤ 2 * len.toInt.toNat) :
    (buffer_to_hex_memory failures buffer target len).run output = none := by
  have hpasses : ¬ sizeof_output_buffer - 1 < target.size_of_int len := by
    rw [guard_iff]
    omega
  have hend := @run_sprintf_bytes_end failures buffer [] output hsucceed len.toInt.toNat 0 rfl (by omega) hroom
  rw [List.nil_append] at hend
  rw [buffer_to_hex_memory, if_neg hpasses, Access.run_bind, hend, Option.bind_none]

/-- Nothing is stored outside the buffer when the digits fit, or none are made. -/
theorem encodesInside_of_room {target : Target} {len : Int32} {output : List UInt8}
    (houtput : output.length = sizeof_output_buffer) (hlen : len.toInt ≤ 511 ∨ 1023 < len.toInt) :
    EncodesInside failures buffer target len output := by
  have hreturns : ∃ result output', (buffer_to_hex_memory failures buffer target len).run output =
      some (result, output') ∧ Encoded buffer len result output' := by
    by_cases hnull : len.toInt < 0 ∨ 1023 < len.toInt
    · exact ⟨none, output, run_buffer_to_hex_memory_null hnull output, .inl rfl⟩
    · rw [sizeof_output_buffer] at houtput
      obtain ⟨i, stored, output', -, hfails⟩ | ⟨rest, hrun⟩ := @run_buffer_to_hex_memory failures buffer target len
        (by omega) (by omega) output (by omega)
      · exact ⟨none, output', hfails, .inl rfl⟩
      · refine ⟨some 0, _, hrun, .inr ⟨rfl, _, ⟨rest, ?_⟩, ?_, lowerHex_hex_digits, hex_decode_hex_digits _⟩⟩
        · rw [List.append_assoc, List.singleton_append]
        · rw [hex_digits_length, load_bytes_length]
          omega
  obtain ⟨result, output', hrun, -⟩ := id hreturns
  refine ⟨fun behind => ?_, hreturns⟩
  rw [Access.within_iff_run, hrun]
  rfl

/-- Whatever becomes of the calls of `sprintf`, the bytes are encoded inside the
output buffer, exactly if their number is at most 511 or refused by the guard. -/
theorem buffer_to_hex_encodes_iff (target : Target) (buffer : Nat → UInt8) (len : Int32) :
    (∀ failures output, output.length = sizeof_output_buffer → EncodesInside failures buffer target len output) ↔
      len.toInt ≤ 511 ∨ 1023 < len.toInt := by
  constructor
  · intro hencodes
    by_contra hlen
    obtain ⟨result, output', hrun, -⟩ := (hencodes (fun _ => none) (List.replicate sizeof_output_buffer 0)
      List.length_replicate).returns
    have hend := @run_buffer_to_hex_memory_end _ buffer (fun _ => rfl) target len (by omega) (by omega)
      (List.replicate sizeof_output_buffer 0) (by rw [List.length_replicate, sizeof_output_buffer]; omega)
    rw [hend] at hrun
    cases hrun
  · exact fun hlen failures output houtput => encodesInside_of_room houtput hlen

/-- The guard accepts 512 bytes, and their last NUL is stored behind the buffer. -/
theorem buffer_to_hex_stores_outside :
    ¬ (buffer_to_hex_memory (fun _ => none) (fun _ => 0) reference_target 512).Within sizeof_output_buffer
      (List.replicate sizeof_output_buffer 0 ++ [1]) ∧
    ¬ EncodesInside (fun _ => none) (fun _ => 0) reference_target 512 (List.replicate sizeof_output_buffer 0) := by
  have hlen : (512 : Int32).toInt = 512 := by decide
  have hoverrun : (List.replicate sizeof_output_buffer (0 : UInt8)).length ≤ 2 * (512 : Int32).toInt.toNat := by
    rw [List.length_replicate, hlen, sizeof_output_buffer]
    omega
  have houtside := Access.within_iff_run (buffer_to_hex_memory (fun _ => none) (fun _ => 0) reference_target 512)
    (List.replicate sizeof_output_buffer 0) [1]
  rw [run_buffer_to_hex_memory_end (fun _ => rfl) (by omega) (by omega) hoverrun] at houtside
  constructor
  · rw [List.length_replicate] at houtside
    exact fun hwithin => absurd (houtside.mp hwithin) Bool.false_ne_true
  · exact fun hencodes => absurd (houtside.mp (hencodes.inside [1])) Bool.false_ne_true

/-- No call of the program leaves the buffer: they are about hardware addresses
and digests. -/
theorem encodesInside_called (target : Target) (failures : Nat → Option Nat) (buffer : Nat → UInt8)
    {length : Nat} (hcalled : length = ETH_ALEN ∨ length = ANONYMIZATION_DIGEST_LENGTH) {output : List UInt8}
    (houtput : output.length = sizeof_output_buffer) :
    EncodesInside failures buffer target (.ofNat length) output := by
  apply encodesInside_of_room houtput
  obtain rfl | rfl := hcalled
  · exact .inl (by decide)
  · exact .inl (by decide)

end bismark_passive
