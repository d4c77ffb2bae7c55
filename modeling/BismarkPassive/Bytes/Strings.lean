import BismarkPassive.Bytes.Bounds
import Mathlib.Data.List.TakeWhile

namespace bytes

/-- The string from the address on, in memory that ends after so many bytes.
Without a zero byte before it the load behind the end comes to nothing. -/
def read_string : Nat → Nat → Reader (Option (List UInt8))
  | 0, address => do
    let _ ← load8 address
    pure none
  | mapped + 1, address => do
    let byte ← load8 address
    if byte = 0 then pure (some [])
    else do
      let rest ← read_string mapped (address + 1)
      pure (rest.map (byte :: ·))

variable {memory : Nat → UInt8} {address : Nat} {content : List UInt8}

/-- A string is read up to its terminator, which has to be there. -/
theorem run_read_string (h : Holds memory address content) :
    (read_string content.length address).run memory =
      if 0 ∈ content then some (content.takeWhile (· ≠ 0)) else none := by
  induction content generalizing address with
  | nil => rfl
  | cons byte content ih =>
    obtain ⟨hbyte, hcontent⟩ := h
    simp only [List.length_cons, read_string, Reader.run_bind, run_load8, hbyte, Reader.run_ite, Reader.run_pure]
    by_cases hzero : byte = 0
    · subst hzero
      simp
    · rw [if_neg hzero, ih hcontent, List.takeWhile_cons_of_pos (by simpa using hzero)]
      simp only [List.mem_cons, Ne.symm hzero, false_or]
      split <;> rfl

/-- What lies behind the end of a string does not belong to it. -/
theorem takeWhile_append_of_zero_mem (hzero : 0 ∈ content) (rest : List UInt8) :
    (content ++ rest).takeWhile (· ≠ 0) = content.takeWhile (· ≠ 0) := by
  induction content with
  | nil => simp at hzero
  | cons byte content ih =>
    rw [List.cons_append, List.takeWhile_cons, List.takeWhile_cons]
    split
    · rename_i hbyte
      rw [ih ((List.mem_cons.mp hzero).resolve_left fun h => absurd h.symm (by simpa using hbyte))]
    · rfl

/-- A string is at least as long as the first bytes that are not zero. -/
theorem le_length_takeWhile {count : Nat} (hcount : count ≤ content.length) :
    count ≤ (content.takeWhile (· ≠ 0)).length ↔ 0 ∉ content.take count := by
  induction content generalizing count with
  | nil => simp [Nat.le_zero.mp hcount]
  | cons byte content ih =>
    cases count with
    | zero => simp
    | succ count =>
      by_cases hzero : byte = 0
      · subst hzero
        simp
      · have hrest := ih (Nat.le_of_succ_le_succ hcount)
        rw [List.takeWhile_cons_of_pos (by simpa using hzero), List.take_succ_cons, List.length_cons,
          Nat.add_le_add_iff_right, hrest, List.mem_cons, not_or]
        exact ⟨fun h => ⟨Ne.symm hzero, h⟩, fun h => h.2⟩

/-- A string and its terminator are the first bytes of what it was read from. -/
theorem string_starts (hzero : 0 ∈ content) : content.takeWhile (· ≠ 0) ++ [0] <+: content := by
  induction content with
  | nil => simp at hzero
  | cons byte content ih =>
    by_cases hbyte : byte = 0
    · subst hbyte
      simp
    · rw [List.takeWhile_cons_of_pos (by simpa using hbyte), List.cons_append, List.prefix_cons_inj]
      exact ih ((List.mem_cons.mp hzero).resolve_left (Ne.symm hbyte))

/-- A string is read without looking behind these bytes exactly if it ends in them. -/
theorem within_read_string {mapped : Nat} (h : Holds memory address content) (hmapped : content.length ≤ mapped) :
    (read_string mapped address).Within memory (address + content.length) ↔ 0 ∈ content := by
  induction content generalizing address mapped with
  | nil =>
    have hbehind : ¬ address + 1 ≤ address + ([] : List UInt8).length := by simp
    cases mapped <;> simp only [read_string, Reader.within_bind, within_load8, hbehind, false_and, List.not_mem_nil]
  | cons byte content ih =>
    obtain ⟨mapped, rfl⟩ := Nat.exists_eq_add_of_le' (Nat.le_trans (Nat.succ_le_succ (Nat.zero_le _)) hmapped)
    obtain ⟨hbyte, hcontent⟩ := h
    have hlimit : address + (byte :: content).length = address + 1 + content.length := by
      rw [List.length_cons]
      omega
    simp only [hlimit, read_string, Reader.within_bind, within_load8, run_load8, hbyte, Reader.within_ite,
      Reader.within_pure, and_true]
    by_cases hzero : byte = 0
    · subst hzero
      simp
    · rw [if_neg hzero, ih hcontent (Nat.le_of_succ_le_succ hmapped), List.mem_cons]
      simp [Ne.symm hzero]

end bytes
