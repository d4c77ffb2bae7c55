import BismarkPassive.Text.Scan
import Mathlib.Algebra.Group.Nat.Defs
import Mathlib.Data.List.Forall2

namespace text

/-! The conversion `%hhx` -/

def isxdigit (byte : UInt8) : Bool :=
  isdigit byte || (decide (97 ≤ byte) && decide (byte ≤ 102)) || (decide (65 ≤ byte) && decide (byte ≤ 70))

def xdigit_value (byte : UInt8) : Nat :=
  if isdigit byte then byte.toNat - 48 else if 97 ≤ byte then byte.toNat - 87 else byte.toNat - 55

/-- Hexadecimal digits behind an optional sign. -/
structure hex_integer where
  negative : Bool
  digits : List UInt8

def hex_magnitude (digits : List UInt8) : Nat := digits.foldl (fun value byte => 16 * value + xdigit_value byte) 0

/-- What is left to the library: whether it takes `0x` without digits for zero,
and what it stores for a number that the byte cannot represent. -/
structure scan_library where
  bare_base : Bool
  overflow : hex_integer → UInt8

def scan_library.converted (library : scan_library) (literal : hex_integer) : UInt8 :=
  let magnitude := hex_magnitude literal.digits
  if magnitude < 2 ^ 8 ∧ (literal.negative = true → magnitude = 0) then UInt8.ofNat magnitude
  else library.overflow literal

/-- Whether there is a `0x`, and what is behind it. -/
def scan_base : List UInt8 → Bool × List UInt8
  | 48 :: byte :: rest => if byte = 120 ∨ byte = 88 then (true, rest) else (false, 48 :: byte :: rest)
  | body => (false, body)

/-- `%hhx` with a width and what it leaves of the text. -/
def scan_byte (library : scan_library) (width : Nat) (text : List UInt8) : Option UInt8 × List UInt8 :=
  let body := text.dropWhile isspace
  let (negative, unsigned) := scan_sign (body.take width)
  let (based, numeral) := scan_base unsigned
  let digits := numeral.takeWhile isxdigit
  (if digits = [] ∧ ¬ (based = true ∧ library.bare_base = true) then none
    else some (library.converted ⟨negative, digits⟩), numeral.dropWhile isxdigit ++ body.drop width)

/-- The bytes that `sscanf` converts before it stops, for this many conversions
with one character between each two of them. -/
def scan_bytes (library : scan_library) (separator : UInt8) : Nat → List UInt8 → List UInt8
  | 0, _ => []
  | count + 1, text =>
    match scan_byte library text.length text with
    | (none, _) => []
    | (some value, rest) =>
      value :: if rest.head? = some separator then scan_bytes library separator count rest.tail else []

/-- The same for conversions `%2hhx` one behind another. -/
def scan_pairs (library : scan_library) : Nat → List UInt8 → List UInt8
  | 0, _ => []
  | count + 1, text =>
    match scan_byte library 2 text with
    | (none, _) => []
    | (some value, rest) => value :: scan_pairs library count rest

/-! Numbers that are read as they were meant -/

/-- The digits spell the byte. -/
structure Spells (digits : List UInt8) (byte : UInt8) : Prop where
  ne_nil : digits ≠ []
  value : hex_magnitude digits = byte.toNat
  digits : ∀ digit ∈ digits, isxdigit digit = true

/-- No number goes on with this text. -/
def Ends (rest : List UInt8) : Prop := ∀ byte ∈ rest.head?, isxdigit byte = false ∧ byte ≠ 120 ∧ byte ≠ 88

variable {library : scan_library} {digits rest : List UInt8} {byte digit separator : UInt8}

theorem isxdigit_apart (h : isxdigit digit = true) : isspace digit = false ∧ digit ≠ 45 ∧ digit ≠ 43 := by
  have hall : ∀ n : Fin 256, isxdigit (UInt8.ofNat n) = true →
      isspace (UInt8.ofNat n) = false ∧ UInt8.ofNat n ≠ 45 ∧ UInt8.ofNat n ≠ 43 := by decide +kernel
  have hdigit := hall ⟨digit.toNat, digit.toNat_lt⟩
  rw [UInt8.ofNat_toNat] at hdigit
  exact hdigit h

/-- The digits of a byte have no sign before them. -/
theorem Spells.scan_sign (h : Spells digits byte) (rest : List UInt8) :
    text.scan_sign (digits ++ rest) = (false, digits ++ rest) := by
  obtain ⟨first, digits, rfl⟩ := List.exists_cons_of_ne_nil h.ne_nil
  obtain ⟨-, hminus, hplus⟩ := isxdigit_apart (h.digits first List.mem_cons_self)
  rw [List.cons_append]
  unfold text.scan_sign
  split
  · rename_i heq
    exact absurd (List.cons.inj heq).1 hminus
  · rename_i heq
    exact absurd (List.cons.inj heq).1 hplus
  · rfl

theorem Spells.dropWhile_isspace (h : Spells digits byte) (rest : List UInt8) :
    (digits ++ rest).dropWhile isspace = digits ++ rest := by
  obtain ⟨first, digits, rfl⟩ := List.exists_cons_of_ne_nil h.ne_nil
  have hfirst := (isxdigit_apart (h.digits first List.mem_cons_self)).1
  rw [List.cons_append, List.dropWhile_cons_of_neg (by simp [hfirst])]

/-- The digits of a byte have no base before them. -/
theorem Spells.scan_base (h : Spells digits byte) (hrest : Ends rest) :
    text.scan_base (digits ++ rest) = (false, digits ++ rest) := by
  have hmark (second : UInt8) (hsecond : second = 120 ∨ second = 88) : isxdigit second = false := by
    rcases hsecond with rfl | rfl <;> decide
  unfold text.scan_base
  split
  · rename_i second tail hbody
    rw [hbody]
    refine if_neg fun hsecond => ?_
    match digits, h.ne_nil with
    | [_], _ =>
      obtain ⟨-, rfl⟩ := List.cons.inj hbody
      obtain ⟨-, hx, hX⟩ := hrest second rfl
      exact hsecond.elim hx hX
    | _ :: other :: _, _ =>
      obtain ⟨-, hother⟩ := List.cons.inj hbody
      obtain ⟨rfl, -⟩ := List.cons.inj hother
      have hdigit := h.digits other (by simp)
      rw [hmark other hsecond] at hdigit
      cases hdigit
  · rfl

theorem ends_nil : Ends [] := fun _ hbyte => absurd hbyte (Option.not_mem_none _)

theorem Ends.take (hrest : Ends rest) (width : Nat) : Ends (rest.take width) := by
  intro byte hbyte
  cases width with
  | zero => cases hbyte
  | succ width =>
    rw [List.head?_take, if_neg (Nat.succ_ne_zero width)] at hbyte
    exact hrest byte hbyte

theorem Ends.takeWhile (hrest : Ends rest) : rest.takeWhile isxdigit = [] := by
  cases rest with
  | nil => rfl
  | cons byte rest => exact List.takeWhile_cons_of_neg (by simp [(hrest byte rfl).1])

theorem Ends.dropWhile (hrest : Ends rest) : rest.dropWhile isxdigit = rest := by
  cases rest with
  | nil => rfl
  | cons byte rest => exact List.dropWhile_cons_of_neg (by simp [(hrest byte rfl).1])

/-- A byte that is spelled out is read, and nothing behind it. -/
theorem scan_byte_spelled (library : scan_library) (h : Spells digits byte) {width : Nat}
    (hwidth : digits.length ≤ width) (hends : Ends (rest.take (width - digits.length))) :
    scan_byte library width (digits ++ rest) = (some byte, rest) := by
  have htake : (digits ++ rest).take width = digits ++ rest.take (width - digits.length) := by
    rw [List.take_append, List.take_of_length_le hwidth]
  have hdrop : (digits ++ rest).drop width = rest.drop (width - digits.length) := by
    rw [List.drop_append, List.drop_of_length_le hwidth, List.nil_append]
  have hdigits : (digits ++ rest.take (width - digits.length)).takeWhile isxdigit = digits := by
    rw [List.takeWhile_append_of_pos h.digits, hends.takeWhile, List.append_nil]
  have hbehind : (digits ++ rest.take (width - digits.length)).dropWhile isxdigit =
      rest.take (width - digits.length) := by
    rw [List.dropWhile_append_of_pos h.digits, hends.dropWhile]
  have hvalue : library.converted ⟨false, digits⟩ = byte := by
    have hlt := byte.toNat_lt
    rw [scan_library.converted, h.value, if_pos ⟨hlt, by simp⟩, UInt8.ofNat_toNat]
  simp only [scan_byte, h.dropWhile_isspace, htake, hdrop, h.scan_sign, h.scan_base hends, hdigits, hbehind, h.ne_nil,
    false_and, if_false, hvalue, List.take_append_drop]

/-- Bytes that are spelled out with one separator between each two of them. -/
def separated (separator : UInt8) : List (List UInt8) → List UInt8
  | [] => []
  | [digits] => digits
  | digits :: others => digits ++ separator :: separated separator others

/-- Bytes are read back from between their separators. -/
theorem scan_bytes_separated (library : scan_library) (hseparator : Ends [separator]) {spelled : List (List UInt8)}
    {bytes : List UInt8} (h : List.Forall₂ Spells spelled bytes) :
    scan_bytes library separator bytes.length (separated separator spelled) = bytes := by
  induction h with
  | nil => rfl
  | @cons digits byte others bytes hdigits hothers ih =>
    cases others with
    | nil =>
      obtain rfl := List.forall₂_nil_left_iff.mp hothers
      have hread := scan_byte_spelled library hdigits (le_refl digits.length) (ends_nil.take _)
      rw [List.append_nil] at hread
      rw [separated, List.length_singleton, scan_bytes, hread]
      rfl
    | cons second others =>
      have hrest : Ends (separator :: separated separator (second :: others)) := hseparator
      have hlength : digits.length ≤ (digits ++ separator :: separated separator (second :: others)).length := by
        rw [List.length_append]
        omega
      have hread := scan_byte_spelled library hdigits hlength (hrest.take _)
      rw [separated, List.length_cons, scan_bytes, hread]
      simp only [List.head?_cons, if_true, List.tail_cons, ih]
      exact List.cons_ne_nil _ _

end text
