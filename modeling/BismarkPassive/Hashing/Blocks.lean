import Mathlib.Data.List.Basic

namespace hashing

variable {σ α : Type} {compress : σ → List α → σ} {size : Nat}

/-! Hash functions that compress their input block by block -/

/-- The state after this many blocks from the front of the input. -/
def absorb_blocks (compress : σ → List α → σ) (size : Nat) : Nat → σ → List α → σ
  | 0, state, _ => state
  | count + 1, state, input => absorb_blocks compress size count (compress state (input.take size)) (input.drop size)

/-- The state after all complete blocks of the input. -/
def absorb (compress : σ → List α → σ) (size : Nat) (state : σ) (input : List α) : σ :=
  absorb_blocks compress size (input.length / size) state input

/-- What follows the complete blocks. -/
def leftover (size : Nat) (input : List α) : List α := input.drop (input.length / size * size)

theorem leftover_length (input : List α) : (leftover size input).length = input.length % size := by
  rw [leftover, List.length_drop, Nat.mod_eq_sub_div_mul]

theorem leftover_length_lt (hsize : 0 < size) (input : List α) : (leftover size input).length < size := by
  rw [leftover_length]
  exact Nat.mod_lt _ hsize

theorem leftover_of_lt {input : List α} (h : input.length < size) : leftover size input = input := by
  rw [leftover, Nat.div_eq_of_lt h, Nat.zero_mul, List.drop_zero]

theorem absorb_of_lt {state : σ} {input : List α} (h : input.length < size) :
    absorb compress size state input = state := by
  rw [absorb, Nat.div_eq_of_lt h, absorb_blocks]

variable (compress)

theorem absorb_block {state : σ} {block rest : List α} (hsize : 0 < size) (hblock : block.length = size) :
    absorb compress size state (block ++ rest) = absorb compress size (compress state block) rest := by
  have hcount : (block ++ rest).length / size = rest.length / size + 1 := by
    rw [List.length_append, hblock, Nat.add_div_left _ hsize]
  rw [absorb, hcount, absorb_blocks, List.take_left' hblock, List.drop_left' hblock, absorb]

theorem leftover_block {block rest : List α} (hsize : 0 < size) (hblock : block.length = size) :
    leftover size (block ++ rest) = leftover size rest := by
  have hcount : (block ++ rest).length / size = rest.length / size + 1 := by
    rw [List.length_append, hblock, Nat.add_div_left _ hsize]
  rw [leftover, hcount, Nat.succ_mul, Nat.add_comm, ← List.drop_drop, List.drop_left' hblock, leftover]

/-- Absorbing can stop anywhere, if what is left over then is put in front of
the rest. -/
theorem absorb_append (hsize : 0 < size) (state : σ) (first second : List α) :
    absorb compress size state (first ++ second) =
        absorb compress size (absorb compress size state first) (leftover size first ++ second) ∧
      leftover size (first ++ second) = leftover size (leftover size first ++ second) := by
  induction hlength : first.length using Nat.strongRecOn generalizing first state with
  | ind length ih =>
    by_cases hshort : first.length < size
    · rw [leftover_of_lt hshort, absorb_of_lt hshort]
      exact ⟨rfl, rfl⟩
    · have hblock : (first.take size).length = size := List.length_take_of_le (Nat.le_of_not_lt hshort)
      have hrest : (first.drop size).length < length := by
        rw [List.length_drop]
        omega
      obtain ⟨habsorb, hleftover⟩ := ih _ hrest (compress state (first.take size)) (first.drop size) rfl
      rw [← List.take_append_drop size first, List.append_assoc, absorb_block compress hsize hblock,
        absorb_block compress hsize hblock, leftover_block hsize hblock, leftover_block hsize hblock]
      exact ⟨habsorb, hleftover⟩

/-- Between two pieces of input a hash function keeps its state and an
incomplete block. -/
structure buffered (σ α : Type) (size : Nat) where
  state : σ
  pending : List α
  pending_lt : pending.length < size

/-- One more piece of input. -/
def buffered.feed (hsize : 0 < size) (hash : buffered σ α size) (input : List α) : buffered σ α size where
  state := absorb compress size hash.state (hash.pending ++ input)
  pending := leftover size (hash.pending ++ input)
  pending_lt := leftover_length_lt hsize _

theorem buffered.feed_append (hsize : 0 < size) (hash : buffered σ α size) (first second : List α) :
    hash.feed compress hsize (first ++ second) = (hash.feed compress hsize first).feed compress hsize second := by
  obtain ⟨habsorb, hleftover⟩ := absorb_append compress hsize hash.state (hash.pending ++ first) second
  unfold feed
  rw [buffered.mk.injEq, ← List.append_assoc]
  exact ⟨habsorb, hleftover⟩

end hashing
