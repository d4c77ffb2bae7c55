import BismarkPassive.Bytes.Bounds
import Mathlib.Data.List.TakeWhile

namespace bytes

variable {memory : Nat → UInt8}

/-- Memory after these bytes were stored from the address on. -/
def store (memory : Nat → UInt8) (address : Nat) (content : List UInt8) : Nat → UInt8 := fun location =>
  if address ≤ location then content.getD (location - address) (memory location) else memory location

/-- Memory after some of its bytes were put to another use. -/
def reuse (memory : Nat → UInt8) (reused : Nat → Bool) (garbage : Nat → UInt8) : Nat → UInt8 := fun location =>
  if reused location then garbage location else memory location

/-- The string from the address on, up to the end of memory after this many bytes. -/
def load_string (memory : Nat → UInt8) (address size : Nat) : List UInt8 :=
  ((load_bytes address size).run memory).takeWhile (· ≠ 0)

/-- The cells of some bytes hold them one by one. -/
theorem Holds.getElem {address : Nat} {content : List UInt8} (h : Holds memory address content) {i : Nat}
    (hi : i < content.length) : memory (address + i) = content[i] := by
  induction content generalizing address i with
  | nil => exact absurd hi (Nat.not_lt_zero i)
  | cons byte content ih =>
    cases i with
    | zero => exact h.1
    | succ i =>
      have hrest := ih h.2 (Nat.lt_of_succ_lt_succ hi)
      rwa [Nat.add_right_comm] at hrest

/-- What was stored is there. -/
theorem holds_store (memory : Nat → UInt8) (address : Nat) (content : List UInt8) :
    Holds (store memory address content) address content := by
  refine holds_of_getElem fun i hi => ?_
  rw [store, if_pos (Nat.le_add_right address i), Nat.add_sub_cancel_left]
  exact List.getD_eq_getElem content _ hi

/-- Everything outside is as before. -/
theorem store_outside {address location : Nat} {content : List UInt8}
    (h : location < address ∨ address + content.length ≤ location) :
    store memory address content location = memory location := by
  unfold store
  split
  · exact List.getD_eq_default _ _ (by omega)
  · rfl

theorem store_inside {address i : Nat} {content : List UInt8} (hi : i < content.length) :
    store memory address content (address + i) = content[i] := (holds_store memory address content).getElem hi

theorem Holds.store {address other : Nat} {content stored : List UInt8} (h : Holds memory address content)
    (hdisjoint : address + content.length ≤ other ∨ other + stored.length ≤ address) :
    Holds (store memory other stored) address content := by
  refine holds_of_getElem fun i hi => ?_
  rw [store_outside (by omega)]
  exact h.getElem hi

theorem Holds.reuse {address : Nat} {content : List UInt8} {reused : Nat → Bool} {garbage : Nat → UInt8}
    (h : Holds memory address content) (hspared : ∀ i < content.length, reused (address + i) = false) :
    Holds (reuse memory reused garbage) address content := by
  refine holds_of_getElem fun i hi => ?_
  rw [bytes.reuse, hspared i hi]
  exact h.getElem hi

/-- A string is read exactly where it is stored with its terminator. -/
theorem load_string_eq_iff {address size : Nat} {text : List UInt8} (hsize : text.length < size)
    (htext : ∀ byte ∈ text, byte ≠ 0) :
    load_string memory address size = text ↔ Holds memory address (text ++ [0]) := by
  have hlength : ((load_bytes address size).run memory).length = size := load_bytes_length address size
  have hheld := @holds_load_bytes memory address size
  unfold load_string
  generalize (load_bytes address size).run memory = content at hlength hheld ⊢
  constructor
  · intro hread
    have hsplit : text ++ content.dropWhile (· ≠ 0) = content := by
      rw [← hread]
      exact List.takeWhile_append_dropWhile
    cases hrest : content.dropWhile (· ≠ 0) with
    | nil =>
      rw [hrest, List.append_nil] at hsplit
      rw [hsplit, hlength] at hsize
      exact absurd hsize (lt_irrefl size)
    | cons byte rest =>
      have hzero : byte = 0 := by
        have hhead := List.head?_dropWhile_not (p := fun byte : UInt8 => decide (byte ≠ 0)) content
        rw [hrest] at hhead
        simpa using hhead
      rw [hrest, hzero] at hsplit
      refine hheld.of_prefix ⟨rest, ?_⟩
      rw [List.append_assoc, List.singleton_append, hsplit]
  · intro hstored
    have hprefix : text ++ [0] = content.take (text.length + 1) := by
      refine List.ext_getElem (by simp; omega) fun i hi hi' => ?_
      rw [List.getElem_take, ← hstored.getElem hi, hheld.getElem]
    rw [← List.take_append_drop (text.length + 1) content, ← hprefix, List.append_assoc,
      List.takeWhile_append_of_pos (by simpa using htext), List.singleton_append, List.takeWhile_cons_of_neg (by simp),
      List.append_nil]

end bytes
