import Mathlib.Data.List.Basic

namespace containers

variable {α : Type} {capacity : Nat}

/-- A sequence that grows at its end up to a fixed capacity. -/
@[ext] structure Bounded (α : Type) (capacity : Nat) where
  items : List α
  length_le : items.length ≤ capacity
  deriving DecidableEq

namespace Bounded

def empty : Bounded α capacity := ⟨[], Nat.zero_le capacity⟩

@[simp] theorem empty_items : (empty : Bounded α capacity).items = [] := rfl

def push (sequence : Bounded α capacity) (item : α) : Option (Bounded α capacity) :=
  if h : sequence.items.length < capacity then
    some ⟨sequence.items ++ [item], by rw [List.length_append, List.length_singleton]; exact h⟩
  else none

variable {sequence sequence' : Bounded α capacity} {item : α}

/-- An item is taken exactly while there is room. -/
theorem push_eq_some_iff :
    sequence.push item = some sequence' ↔
      sequence.items.length < capacity ∧ sequence'.items = sequence.items ++ [item] := by
  unfold push
  by_cases h : sequence.items.length < capacity
  · rw [dif_pos h, Option.some.injEq, Bounded.ext_iff]
    exact ⟨fun heq => ⟨h, heq.symm⟩, fun heq => heq.2.symm⟩
  · simp [h]

theorem push_eq_none_iff : sequence.push item = none ↔ sequence.items.length = capacity := by
  have hbound := sequence.length_le
  by_cases h : sequence.items.length < capacity
  · simp [push, h, Nat.ne_of_lt h]
  · simp only [push, dif_neg h, true_iff]
    omega

/-- Pushes the items one by one; the second component are those refused. -/
def push_all (sequence : Bounded α capacity) : List α → Bounded α capacity × List α
  | [] => (sequence, [])
  | item :: rest =>
    match sequence.push item with
    | some sequence' => push_all sequence' rest
    | none => ((push_all sequence rest).1, item :: (push_all sequence rest).2)

@[simp] theorem push_all_nil (sequence : Bounded α capacity) : sequence.push_all [] = (sequence, []) := rfl

theorem push_all_cons_of_some (h : sequence.push item = some sequence') (rest : List α) :
    sequence.push_all (item :: rest) = sequence'.push_all rest := by
  simp only [push_all, h]

theorem push_all_cons_of_none (h : sequence.push item = none) (rest : List α) :
    sequence.push_all (item :: rest) = ((sequence.push_all rest).1, item :: (sequence.push_all rest).2) := by
  simp only [push_all, h]

/-- Pushing two lists is pushing the first and then the second. -/
theorem push_all_append (sequence : Bounded α capacity) (first second : List α) :
    sequence.push_all (first ++ second) =
      (((sequence.push_all first).1.push_all second).1,
        (sequence.push_all first).2 ++ ((sequence.push_all first).1.push_all second).2) := by
  induction first generalizing sequence with
  | nil => rfl
  | cons item first ih =>
    rw [List.cons_append]
    cases h : sequence.push item with
    | some sequence' => rw [push_all_cons_of_some h, push_all_cons_of_some h, ih]
    | none => rw [push_all_cons_of_none h, push_all_cons_of_none h, ih, List.cons_append]

/-- The first items are taken, as many as there is room for. -/
theorem push_all_items (sequence : Bounded α capacity) (items : List α) :
    (sequence.push_all items).1.items = (sequence.items ++ items).take capacity := by
  induction items generalizing sequence with
  | nil => simp [push_all, List.take_of_length_le sequence.length_le]
  | cons item rest ih =>
    cases h : sequence.push item with
    | some sequence' =>
      obtain ⟨_, hitems⟩ := push_eq_some_iff.mp h
      rw [push_all_cons_of_some h, ih, hitems, List.append_assoc, List.singleton_append]
    | none =>
      have hfull := push_eq_none_iff.mp h
      rw [push_all_cons_of_none h, ih, List.take_left' hfull, List.take_left' hfull]

/-- The others are refused. -/
theorem push_all_refused (sequence : Bounded α capacity) (items : List α) :
    (sequence.push_all items).2 = items.drop (capacity - sequence.items.length) := by
  induction items generalizing sequence with
  | nil => simp [push_all]
  | cons item rest ih =>
    cases h : sequence.push item with
    | some sequence' =>
      obtain ⟨hroom, hitems⟩ := push_eq_some_iff.mp h
      have hleft : capacity - sequence.items.length = (capacity - sequence'.items.length) + 1 := by
        rw [hitems, List.length_append, List.length_singleton]
        omega
      rw [push_all_cons_of_some h, ih, hleft, List.drop_succ_cons]
    | none =>
      have hfull := push_eq_none_iff.mp h
      rw [push_all_cons_of_none h, ih, hfull, Nat.sub_self, List.drop_zero, List.drop_zero]

end Bounded

end containers
