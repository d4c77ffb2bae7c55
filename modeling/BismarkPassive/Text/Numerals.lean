import Mathlib.Data.Nat.Digits.Defs
import Mathlib.Data.List.Basic

namespace text

abbrev newline : UInt8 := 10

abbrev space : UInt8 := 32

abbrev minus : UInt8 := 45

/-! Digits -/

/-- The digits of bases up to 16, in lower case. -/
def digit (value : Nat) : UInt8 := if value < 10 then .ofNat (48 + value) else .ofNat (87 + value)

def digit_value (byte : UInt8) : Option Nat :=
  if 48 ≤ byte ∧ byte ≤ 57 then some (byte.toNat - 48)
  else if 97 ≤ byte ∧ byte ≤ 122 then some (byte.toNat - 87)
  else none

theorem digit_value_digit {value : Nat} (h : value < 16) : digit_value (digit value) = some value := by
  have hall : ∀ value < 16, digit_value (digit value) = some value := by decide
  exact hall value h

theorem le_digit {value : Nat} (h : value < 16) : 48 ≤ digit value := by
  have hall : ∀ value < 16, 48 ≤ digit value := by decide
  exact hall value h

/-! Numerals -/

/-- The numeral of a number, most significant digit first. -/
def numeral (base number : Nat) : List UInt8 :=
  if number = 0 then [digit 0] else (Nat.digits base number).reverse.map digit

/-- One more digit at the end of a number. -/
def read_digit (base number : Nat) (byte : UInt8) : Option Nat := do
  let value ← (digit_value byte).filter fun value => decide (value < base)
  pure (number * base + value)

/-- The number that the bytes are a numeral of. -/
def number_of (base : Nat) (bytes : List UInt8) : Option Nat :=
  if bytes = [] then none else bytes.foldlM (read_digit base) 0

variable {base : Nat}

theorem numeral_ne_nil (number : Nat) : numeral base number ≠ [] := by
  unfold numeral
  split
  · simp
  · rename_i h
    simpa using Nat.digits_ne_nil_iff_ne_zero.mpr h

/-- The digits of a number read back to it. -/
theorem read_digits (hbase : base ≤ 16) {values : List Nat} (hvalues : ∀ value ∈ values, value < base) :
    (values.reverse.map digit).foldlM (read_digit base) 0 = some (Nat.ofDigits base values) := by
  induction values with
  | nil => rfl
  | cons value values ih =>
    obtain ⟨hvalue, hvalues⟩ := List.forall_mem_cons.mp hvalues
    have hread (number : Nat) : read_digit base number (digit value) = some (value + base * number) := by
      rw [read_digit, digit_value_digit (hvalue.trans_le hbase), Option.filter_some_pos (by simpa using hvalue),
        Nat.mul_comm, Nat.add_comm]
      rfl
    rw [List.reverse_cons, List.map_append, List.foldlM_append, ih hvalues, Nat.ofDigits_cons]
    simp [hread]

/-- A numeral is read as the number it was printed for. -/
theorem number_of_numeral (hone : 1 < base) (hbase : base ≤ 16) (number : Nat) :
    number_of base (numeral base number) = some number := by
  rw [number_of, if_neg (numeral_ne_nil number), numeral]
  by_cases hzero : number = 0
  · subst hzero
    simp [read_digit, digit_value_digit, Nat.zero_lt_of_lt hone]
  · rw [if_neg hzero, read_digits hbase fun value h => Nat.digits_lt_base hone h, Nat.ofDigits_digits]

theorem numeral_injective (hone : 1 < base) (hbase : base ≤ 16) : Function.Injective (numeral base) := by
  intro first second heq
  have hread := congrArg (number_of base) heq
  rw [number_of_numeral hone hbase, number_of_numeral hone hbase] at hread
  exact Option.some.inj hread

/-- No digit comes before `0`. -/
theorem le_of_mem_numeral (hone : 1 < base) (hbase : base ≤ 16) {number : Nat} {byte : UInt8}
    (h : byte ∈ numeral base number) : 48 ≤ byte := by
  unfold numeral at h
  split at h
  · obtain rfl := List.mem_singleton.mp h
    exact le_digit (by decide)
  · obtain ⟨value, hvalue, rfl⟩ := List.mem_map.mp h
    exact le_digit ((Nat.digits_lt_base hone (List.mem_reverse.mp hvalue)).trans_le hbase)

/-! Signed decimals -/

def decimal (number : Int) : List UInt8 :=
  if number < 0 then minus :: numeral 10 number.natAbs else numeral 10 number.natAbs

def integer_of (bytes : List UInt8) : Option Int :=
  if bytes.head? = some minus then (number_of 10 bytes.tail).map fun number : Nat => -(number : Int)
  else (number_of 10 bytes).map fun number : Nat => (number : Int)

theorem numeral_head {number : Nat} : (numeral 10 number).head? ≠ some minus := by
  intro h
  have hle := le_of_mem_numeral (by decide) (by decide) (List.mem_of_head? h)
  exact absurd hle (by decide)

theorem integer_of_decimal (number : Int) : integer_of (decimal number) = some number := by
  unfold integer_of decimal
  by_cases hnegative : number < 0
  · rw [if_pos hnegative, List.head?_cons, if_pos rfl, List.tail_cons, number_of_numeral (by decide) (by decide),
      Option.map_some, Int.ofNat_natAbs_of_nonpos hnegative.le, Int.neg_neg]
  · rw [if_neg hnegative, if_neg numeral_head, number_of_numeral (by decide) (by decide), Option.map_some,
      Int.natAbs_of_nonneg (not_lt.mp hnegative)]

/-- The field has neither spaces nor newlines nor other bytes before the digits. -/
def Plain (field : List UInt8) : Prop := ∀ byte ∈ field, 45 ≤ byte

theorem plain_numeral (hone : 1 < base) (hbase : base ≤ 16) (number : Nat) : Plain (numeral base number) :=
  fun _ h => UInt8.le_trans (by decide) (le_of_mem_numeral hone hbase h)

theorem plain_decimal (number : Int) : Plain (decimal number) := by
  have hdigits := @plain_numeral 10 (by decide) (by decide) number.natAbs
  unfold decimal
  split
  · exact List.forall_mem_cons.mpr ⟨UInt8.le_refl _, hdigits⟩
  · exact hdigits

theorem Plain.not_mem {field : List UInt8} (h : Plain field) {byte : UInt8} (hbyte : byte < 45) : byte ∉ field :=
  fun hmem => absurd (h byte hmem) (UInt8.not_le.mpr hbyte)

/-! Lines and fields -/

/-- The fields with single spaces between them. -/
def joined (fields : List (List UInt8)) : List UInt8 := [space].intercalate fields

def line (fields : List (List UInt8)) : List UInt8 := joined fields ++ [newline]

theorem splitOn_of_not_mem {separator : UInt8} {word : List UInt8} (h : separator ∉ word) :
    word.splitOn separator = [word] := by
  rw [List.splitOn_eq_splitOnP]
  refine List.splitOnP_eq_singleton fun byte hbyte => ?_
  rw [beq_eq_false_iff_ne]
  rintro rfl
  exact h hbyte

/-- The first word ends at the first separator. -/
theorem splitOn_append_separator {separator : UInt8} {word : List UInt8} (h : separator ∉ word)
    (rest : List UInt8) : (word ++ separator :: rest).splitOn separator = word :: rest.splitOn separator := by
  rw [List.splitOn_eq_splitOnP, List.splitOn_eq_splitOnP]
  apply List.splitOnP_append_cons_of_forall_mem
  · intro byte hbyte
    rw [beq_eq_false_iff_ne]
    rintro rfl
    exact h hbyte
  · exact beq_self_eq_true separator

theorem joined_cons_cons (first second : List UInt8) (rest : List (List UInt8)) :
    joined (first :: second :: rest) = first ++ space :: joined (second :: rest) := by
  simp [joined, List.intercalate]

theorem joined_singleton (field : List UInt8) : joined [field] = field := by
  simp [joined, List.intercalate]

/-- Joined fields are split at the spaces between them. -/
theorem splitOn_joined {fields : List (List UInt8)} (hne : fields ≠ []) (hfields : ∀ field ∈ fields, space ∉ field) :
    (joined fields).splitOn space = fields := by
  induction fields with
  | nil => exact absurd rfl hne
  | cons first rest ih =>
    obtain ⟨hfirst, hrest⟩ := List.forall_mem_cons.mp hfields
    cases rest with
    | nil => rw [joined_singleton, splitOn_of_not_mem hfirst]
    | cons second rest =>
      rw [joined_cons_cons, splitOn_append_separator hfirst, ih (List.cons_ne_nil _ _) hrest]

/-- A joined line has only spaces besides its fields. -/
theorem mem_joined {byte : UInt8} {fields : List (List UInt8)} (h : byte ∈ joined fields) :
    byte = space ∨ ∃ field ∈ fields, byte ∈ field := by
  induction fields with
  | nil => simp [joined, List.intercalate] at h
  | cons first rest ih =>
    cases rest with
    | nil =>
      rw [joined_singleton] at h
      exact .inr ⟨first, List.mem_singleton_self first, h⟩
    | cons second rest =>
      rw [joined_cons_cons, List.mem_append, List.mem_cons] at h
      obtain h | rfl | h := h
      · exact .inr ⟨first, List.mem_cons_self, h⟩
      · exact .inl rfl
      · obtain hspace | ⟨field, hmem, hbyte⟩ := ih h
        · exact .inl hspace
        · exact .inr ⟨field, List.mem_cons_of_mem _ hmem, hbyte⟩

theorem splitOn_plain {fields : List (List UInt8)} (hne : fields ≠ []) (h : ∀ field ∈ fields, Plain field) :
    (joined fields).splitOn space = fields :=
  splitOn_joined hne fun field hfield => (h field hfield).not_mem (by decide)

theorem newline_not_mem_plain {fields : List (List UInt8)} (h : ∀ field ∈ fields, Plain field) :
    newline ∉ joined fields := by
  intro hmem
  obtain hspace | ⟨field, hfield, hmem⟩ := mem_joined hmem
  · exact absurd hspace (by decide)
  · exact (h field hfield).not_mem (by decide) hmem

/-- The lines of a text of lines are these, and the empty one behind the last newline. -/
theorem splitOn_lines {lines : List (List UInt8)} (hlines : ∀ line ∈ lines, newline ∉ line) :
    (lines.flatMap fun line => line ++ [newline]).splitOn newline = lines ++ [[]] := by
  induction lines with
  | nil => rfl
  | cons first rest ih =>
    obtain ⟨hfirst, hrest⟩ := List.forall_mem_cons.mp hlines
    rw [List.flatMap_cons, List.append_assoc, List.singleton_append, splitOn_append_separator hfirst, ih hrest,
      List.cons_append]

end text
