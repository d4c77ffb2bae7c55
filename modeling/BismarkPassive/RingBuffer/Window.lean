import Mathlib.Data.List.Basic
import Mathlib.Data.List.Induction
import Mathlib.Data.List.Nodup

namespace ring_buffer

variable {α : Type}

/-- The items of a log that a ring of this capacity still holds, oldest first. -/
def window (capacity : Nat) (log : List α) : List α := log.drop (log.length - capacity)

variable {capacity : Nat} {log : List α} {item : α}

theorem length_window : (window capacity log).length = min log.length capacity := by
  rw [window, List.length_drop]
  omega

theorem map_window {β : Type} (f : α → β) : (window capacity log).map f = window capacity (log.map f) := by
  rw [window, window, List.map_drop, List.length_map]

/-- The window holds the last items of the log, as many as the ring has room for. -/
theorem mem_window_iff : item ∈ window capacity log ↔
    ∃ index : Nat, log[index]? = some item ∧ log.length ≤ index + capacity := by
  rw [window, List.mem_iff_getElem?]
  constructor
  · rintro ⟨i, hi⟩
    rw [List.getElem?_drop] at hi
    exact ⟨_, hi, by omega⟩
  · rintro ⟨index, hindex, hrecent⟩
    refine ⟨index - (log.length - capacity), ?_⟩
    have hposition : log.length - capacity + (index - (log.length - capacity)) = index := by omega
    rw [List.getElem?_drop, hposition]
    exact hindex

/-- A new item pushes the oldest one out of a full ring, and no other. -/
theorem window_snoc (hpositive : 0 < capacity) : window capacity (log ++ [item]) =
    (if (window capacity log).length = capacity then (window capacity log).tail else window capacity log) ++
      [item] := by
  have hlength : (window capacity log).length = min log.length capacity := length_window
  rw [window, List.length_append, List.length_singleton, List.drop_append_of_le_length (by omega)]
  congr 1
  split
  · have hoffset : log.length + 1 - capacity = log.length - capacity + 1 := by omega
    rw [window, List.tail_drop, hoffset]
  · have hoffset : log.length + 1 - capacity = log.length - capacity := by omega
    rw [window, hoffset]

/-- An item of a window without duplicates has one position. -/
theorem window_position_unique (hdistinct : (window capacity log).Nodup) {first second : Nat}
    (hfirst : log[first]? = some item) (hsecond : log[second]? = some item)
    (hfirst_recent : log.length ≤ first + capacity) (hsecond_recent : log.length ≤ second + capacity) :
    first = second := by
  have hget {index : Nat} (hindex : log[index]? = some item) (hrecent : log.length ≤ index + capacity) :
      (window capacity log)[index - (log.length - capacity)]? = some item := by
    have hposition : log.length - capacity + (index - (log.length - capacity)) = index := by omega
    rw [window, List.getElem?_drop, hposition, hindex]
  have hlt := (List.getElem?_eq_some_iff.mp (hget hfirst hfirst_recent)).1
  have hequal := (List.getElem?_inj hlt hdistinct).mp
    ((hget hfirst hfirst_recent).trans (hget hsecond hsecond_recent).symm)
  omega

variable [DecidableEq α]

/-- The insertions into a FIFO cache after one more request: an item that the
cache still holds is not inserted again. -/
def request (capacity : Nat) (log : List α) (item : α) : List α :=
  if item ∈ window capacity log then log else log ++ [item]

/-- The insertions that these requests cause. -/
def requests (capacity : Nat) (items : List α) : List α := items.foldl (request capacity) []

theorem requests_snoc (items : List α) (item : α) :
    requests capacity (items ++ [item]) = request capacity (requests capacity items) item := by
  rw [requests, List.foldl_append, List.foldl_cons, List.foldl_nil, requests]

/-- Insertions are never taken back. -/
theorem requests_append (first second : List α) : requests capacity first <+: requests capacity (first ++ second) := by
  induction second using List.reverseRecOn with
  | nil => simp
  | append_singleton second item ih =>
    rw [← List.append_assoc, requests_snoc, request]
    split
    · exact ih
    · exact ih.trans (List.prefix_append _ _)

/-- Only what was requested is in the log. -/
theorem mem_of_mem_requests {items : List α} (h : item ∈ requests capacity items) : item ∈ items := by
  induction items using List.reverseRecOn with
  | nil => exact h
  | append_singleton items last ih =>
    rw [requests_snoc, request] at h
    split at h
    · exact List.mem_append_left _ (ih h)
    · obtain hold | hlast := List.mem_append.mp h
      · exact List.mem_append_left _ (ih hold)
      · exact List.mem_append_right _ hlast

/-- Requests for different items are all inserted. -/
theorem requests_of_nodup {items : List α} (h : items.Nodup) : requests capacity items = items := by
  induction items using List.reverseRecOn with
  | nil => rfl
  | append_singleton items item ih =>
    rw [← List.concat_eq_append, List.nodup_concat] at h
    have hnew : item ∉ window capacity items := fun hheld => h.1 (List.mem_of_mem_drop hheld)
    rw [requests_snoc, ih h.2, request, if_neg hnew]

/-- The cache never holds an item twice. -/
theorem nodup_window_requests (hpositive : 0 < capacity) (items : List α) :
    (window capacity (requests capacity items)).Nodup := by
  induction items using List.reverseRecOn with
  | nil => simp [requests, window]
  | append_singleton items item ih =>
    rw [requests_snoc, request]
    split
    · exact ih
    · rename_i hnew
      rw [window_snoc hpositive, ← List.concat_eq_append]
      split
      · exact List.Nodup.concat (fun h => hnew (List.mem_of_mem_tail h)) ih.tail
      · exact List.Nodup.concat hnew ih

end ring_buffer
