import Mathlib.Algebra.BigOperators.Group.List.Basic
import Mathlib.Algebra.GroupWithZero.Nat
import Mathlib.Data.List.DropRight
import Mathlib.Logic.Function.Basic

namespace counting

variable {K R : Type} [DecidableEq K]

section tally

variable [AddMonoid R] (unit : R)

/-- One more at this key. -/
def count_up (counters : K → R) (key : K) : K → R := Function.update counters key (counters key + unit)

/-- The counters after all these keys were counted. -/
def tally (counters : K → R) (keys : List K) : K → R := keys.foldl (count_up unit) counters

@[simp] theorem tally_nil (counters : K → R) : tally unit counters [] = counters := rfl

theorem tally_snoc (counters : K → R) (keys : List K) (last : K) :
    tally unit counters (keys ++ [last]) = count_up unit (tally unit counters keys) last := by
  rw [tally, List.foldl_append]
  rfl

/-- Counting adds to each counter the number of times that its key occurs. -/
theorem tally_apply (counters : K → R) (keys : List K) (key : K) :
    tally unit counters keys key = counters key + keys.count key • unit := by
  induction keys using List.reverseRecOn with
  | nil => rw [tally_nil, List.count_nil, zero_nsmul, add_zero]
  | append_singleton keys last ih =>
    rw [tally_snoc, count_up, List.count_append, List.count_singleton]
    by_cases hlast : last = key
    · subst hlast
      rw [Function.update_self, ih, beq_self_eq_true, if_pos rfl, succ_nsmul, add_assoc]
    · rw [Function.update_of_ne (Ne.symm hlast), ih, beq_false_of_ne hlast, if_neg (by decide), Nat.add_zero]

end tally

theorem sum_map_indicator (keys : List K) (item : K) :
    (keys.map fun key => if item = key then 1 else 0).sum = keys.count item := by
  induction keys with
  | nil => rfl
  | cons key keys ih =>
    rw [List.map_cons, List.sum_cons, ih, List.count_cons, Nat.add_comm]
    simp only [beq_iff_eq, @eq_comm _ key item]

/-- The counts of different keys sum to the number of items with these keys. -/
theorem sum_map_count {keys : List K} (hnodup : keys.Nodup) (items : List K) :
    (keys.map fun key => items.count key).sum = items.countP fun item => decide (item ∈ keys) := by
  induction items with
  | nil => simp
  | cons item items ih =>
    have hsplit : (keys.map fun key => (item :: items).count key) =
        keys.map fun key => items.count key + if item = key then 1 else 0 := by
      refine List.map_congr_left fun key _ => ?_
      rw [List.count_cons]
      simp only [beq_iff_eq]
    rw [hsplit, List.sum_map_add, ih, sum_map_indicator, hnodup.count, List.countP_cons]
    simp only [decide_eq_true_eq]

end counting
