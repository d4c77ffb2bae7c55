import Mathlib.Algebra.Ring.Nat
import Mathlib.Data.List.Induction
import Mathlib.Data.List.Nodup
import Mathlib.Order.Basic

namespace counting

variable {K : Type} [DecidableEq K]

/-- The keys that get a counter of their own when there are counters for this
many keys: the first different ones. -/
def first_keys (capacity : Nat) (keys : List K) : List K := keys.eraseDups.take capacity

variable {capacity : Nat} {keys : List K} {key : K}

@[simp] theorem first_keys_nil : first_keys capacity ([] : List K) = [] := by
  rw [first_keys, List.eraseDups_nil, List.take_nil]

/-- A key seen before changes nothing, a new one comes last. -/
theorem eraseDups_snoc :
    (keys ++ [key]).eraseDups = if key ∈ keys then keys.eraseDups else keys.eraseDups ++ [key] := by
  rw [List.eraseDups_append]
  by_cases hkey : key ∈ keys
  · have hnothing : [key].removeAll keys = [] := by simp [List.removeAll, hkey]
    rw [hnothing, List.eraseDups_nil, List.append_nil, if_pos hkey]
  · have hkey_only : [key].removeAll keys = [key] := by simp [List.removeAll, hkey]
    rw [hkey_only, if_neg hkey]
    simp [List.eraseDups_cons]

theorem mem_eraseDups : key ∈ keys.eraseDups ↔ key ∈ keys := by
  induction keys using List.reverseRecOn with
  | nil => simp
  | append_singleton keys last ih =>
    rw [eraseDups_snoc]
    by_cases hlast : last ∈ keys
    · rw [if_pos hlast, ih, List.mem_append, List.mem_singleton]
      refine ⟨.inl, fun h => h.elim id fun heq => ?_⟩
      subst heq
      exact hlast
    · rw [if_neg hlast, List.mem_append, List.mem_append, ih]

theorem eraseDups_nodup : keys.eraseDups.Nodup := by
  induction keys using List.reverseRecOn with
  | nil => simp
  | append_singleton keys last ih =>
    rw [eraseDups_snoc]
    by_cases hlast : last ∈ keys
    · rwa [if_pos hlast]
    · rw [if_neg hlast, List.nodup_append]
      refine ⟨ih, List.nodup_singleton last, fun first hfirst other hother heq => hlast ?_⟩
      rw [List.mem_singleton] at hother
      subst hother heq
      exact mem_eraseDups.mp hfirst

theorem first_keys_nodup : (first_keys capacity keys).Nodup := eraseDups_nodup.sublist (List.take_sublist _ _)

theorem first_keys_snoc_known (hknown : key ∈ first_keys capacity keys) :
    first_keys capacity (keys ++ [key]) = first_keys capacity keys := by
  have hseen : key ∈ keys := mem_eraseDups.mp (List.mem_of_mem_take hknown)
  rw [first_keys, eraseDups_snoc, if_pos hseen, first_keys]

theorem first_keys_snoc_full (hfull : capacity ≤ (first_keys capacity keys).length) :
    first_keys capacity (keys ++ [key]) = first_keys capacity keys := by
  rw [first_keys, List.length_take, Nat.le_min] at hfull
  rw [first_keys, first_keys, eraseDups_snoc]
  by_cases hseen : key ∈ keys
  · rw [if_pos hseen]
  · rw [if_neg hseen, List.take_append_of_le_length hfull.2]

/-- A new key gets a place while there is one. -/
theorem first_keys_snoc_new (hnew : key ∉ first_keys capacity keys)
    (hroom : (first_keys capacity keys).length < capacity) :
    first_keys capacity (keys ++ [key]) = first_keys capacity keys ++ [key] := by
  rw [first_keys, List.length_take] at hroom
  have hshort : keys.eraseDups.length < capacity := by omega
  have hall : first_keys capacity keys = keys.eraseDups := List.take_of_length_le (Nat.le_of_lt hshort)
  rw [hall] at hnew ⊢
  have hunseen : key ∉ keys := fun h => hnew (mem_eraseDups.mpr h)
  rw [first_keys, eraseDups_snoc, if_neg hunseen]
  refine List.take_of_length_le ?_
  rw [List.length_append, List.length_singleton]
  exact hshort

/-- A key with a place is an earlier one, or the last. -/
theorem mem_first_keys_snoc {other : K} (h : other ∈ first_keys capacity (keys ++ [key])) :
    other ∈ first_keys capacity keys ∨ other = key := by
  by_cases hknown : key ∈ first_keys capacity keys
  · rw [first_keys_snoc_known hknown] at h
    exact .inl h
  · by_cases hroom : (first_keys capacity keys).length < capacity
    · rw [first_keys_snoc_new hknown hroom, List.mem_append, List.mem_singleton] at h
      exact h
    · rw [first_keys_snoc_full (Nat.le_of_not_lt hroom)] at h
      exact .inl h

/-- A key that gets a counter now is seen for the first time. -/
theorem not_mem_of_enters (hbefore : key ∉ first_keys capacity keys)
    (hafter : key ∈ first_keys capacity (keys ++ [key])) : key ∉ keys := by
  intro hseen
  rw [first_keys, eraseDups_snoc, if_pos hseen] at hafter
  exact hbefore hafter

/-- Whether a key that was seen has a counter does not change any more. -/
theorem mem_first_keys_append {more : List K} (hseen : key ∈ keys) :
    key ∈ first_keys capacity (keys ++ more) ↔ key ∈ first_keys capacity keys := by
  induction more using List.reverseRecOn with
  | nil => rw [List.append_nil]
  | append_singleton more last ih =>
    rw [← ih, ← List.append_assoc]
    by_cases hlast : last ∈ first_keys capacity (keys ++ more)
    · rw [first_keys_snoc_known hlast]
    · by_cases hroom : (first_keys capacity (keys ++ more)).length < capacity
      · rw [first_keys_snoc_new hlast hroom, List.mem_append, List.mem_singleton]
        refine ⟨fun h => h.elim id fun heq => ?_, .inl⟩
        -- With room left every key seen has a counter.
        subst heq
        rw [first_keys, List.length_take] at hroom
        rw [first_keys, List.take_of_length_le (by omega)]
        exact mem_eraseDups.mpr (List.mem_append_left more hseen)
      · rw [first_keys_snoc_full (Nat.le_of_not_lt hroom)]

/-- What the records of this key add up to. -/
def amount (records : List (K × Nat)) (key : K) : Nat :=
  ((records.filter fun record => record.1 = key).map Prod.snd).sum

@[simp] theorem amount_nil : amount [] key = 0 := rfl

theorem amount_append (first second : List (K × Nat)) :
    amount (first ++ second) key = amount first key + amount second key := by
  rw [amount, List.filter_append, List.map_append, List.sum_append, amount, amount]

theorem amount_singleton (record : K × Nat) :
    amount [record] key = if record.1 = key then record.2 else 0 := by
  by_cases h : record.1 = key <;> simp [amount, h]

/-- A key without records has counted nothing. -/
theorem amount_of_not_mem {records : List (K × Nat)} (h : ∀ record ∈ records, record.1 ≠ key) :
    amount records key = 0 := by
  have hnone : records.filter (fun record => record.1 = key) = [] := by
    rw [List.filter_eq_nil_iff]
    intro record hrecord
    simpa using h record hrecord
  rw [amount, hnone]
  rfl

end counting
