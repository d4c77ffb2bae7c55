import Mathlib.Data.Fin.Basic
import Mathlib.Data.List.Basic
import Mathlib.Data.List.Induction
import Mathlib.Data.Nat.ModEq
import Mathlib.Logic.Function.Basic

namespace ring_buffer

variable {α : Type} {capacity : Nat} [NeZero capacity]

/-- Stores items into consecutive slots of a ring, from a slot on that may lie
any number of turns ahead. -/
def replay (ring : Fin capacity → Option α) : Nat → List α → Fin capacity → Option α
  | _, [] => ring
  | start, item :: items =>
    replay (Function.update ring (Fin.ofNat capacity start) (some item)) (start + 1) items

/-- The ring after all items of a log, the first of them in slot 0. -/
def ring_of (log : List α) : Fin capacity → Option α := replay (fun _ => none) 0 log

variable {ring ring' : Fin capacity → Option α} {start : Nat} {slot : Fin capacity}

theorem replay_append (ring : Fin capacity → Option α) (start : Nat) (first second : List α) :
    replay ring start (first ++ second) = replay (replay ring start first) (start + first.length) second := by
  induction first generalizing ring start with
  | nil => rfl
  | cons item first ih =>
    rw [List.cons_append, replay, replay, ih, List.length_cons, Nat.add_assoc, Nat.add_comm 1]

theorem replay_snoc (ring : Fin capacity → Option α) (start : Nat) (items : List α) (item : α) :
    replay ring start (items ++ [item]) =
      Function.update (replay ring start items) (Fin.ofNat capacity (start + items.length)) (some item) := by
  rw [replay_append, replay, replay]

/-- Only the slot the replay starts from matters, not the turn. -/
theorem replay_mod (ring : Fin capacity → Option α) (start : Nat) (items : List α) :
    replay ring (start % capacity) items = replay ring start items := by
  induction items using List.reverseRecOn with
  | nil => rfl
  | append_singleton items item ih =>
    have hslot : Fin.ofNat capacity (start % capacity + items.length) =
        Fin.ofNat capacity (start + items.length) := by
      apply Fin.ext
      simp [Nat.add_mod]
    rw [replay_snoc, replay_snoc, ih, hslot]

/-- A slot that the replay stores into, or on which the rings agree, holds the
same afterwards. -/
theorem replay_congr {items : List α}
    (h : (∃ i < items.length, Fin.ofNat capacity (start + i) = slot) ∨ ring slot = ring' slot) :
    replay ring start items slot = replay ring' start items slot := by
  induction items using List.reverseRecOn with
  | nil =>
    obtain ⟨i, hi, _⟩ | hsame := h
    · simp at hi
    · exact hsame
  | append_singleton items item ih =>
    rw [replay_snoc, replay_snoc]
    by_cases hslot : slot = Fin.ofNat capacity (start + items.length)
    · simp [hslot]
    · rw [Function.update_of_ne hslot, Function.update_of_ne hslot]
      apply ih
      obtain ⟨i, hi, hstored⟩ | hsame := h
      · rw [List.length_append, List.length_singleton] at hi
        have hne : i ≠ items.length := fun heq => hslot (heq ▸ hstored.symm)
        exact .inl ⟨i, by omega, hstored⟩
      · exact .inr hsame

/-- A whole turn of items overwrites the ring. -/
theorem replay_overwrites {items : List α} (h : capacity ≤ items.length) :
    replay ring start items = replay ring' start items := by
  funext slot
  apply replay_congr
  refine .inl ⟨(slot.val + (capacity - start % capacity)) % capacity, ?_, ?_⟩
  · exact lt_of_lt_of_le (Nat.mod_lt _ (Nat.pos_of_neZero capacity)) h
  · apply Fin.ext
    have hstart := Nat.mod_lt start (Nat.pos_of_neZero capacity)
    have hturn : start % capacity + (slot.val + (capacity - start % capacity)) = slot.val + capacity := by omega
    rw [Fin.val_ofNat, Nat.add_mod_mod, ← Nat.mod_add_mod, hturn, Nat.add_mod_right]
    exact Nat.mod_eq_of_lt slot.isLt

/-- The last items of a log, as many as fit, are found in the ring. -/
theorem replay_recent (ring : Fin capacity → Option α) (start : Nat) {items : List α} {i : Nat}
    (hi : i < items.length) (hrecent : items.length ≤ i + capacity) :
    replay ring start items (Fin.ofNat capacity (start + i)) = items[i]? := by
  induction items using List.reverseRecOn with
  | nil => simp at hi
  | append_singleton items item ih =>
    rw [List.length_append, List.length_singleton] at hi hrecent
    rw [replay_snoc]
    by_cases hlast : i = items.length
    · subst hlast
      simp
    · have hslot : Fin.ofNat capacity (start + i) ≠ Fin.ofNat capacity (start + items.length) := by
        intro heq
        have hmod : (start + i) % capacity = (start + items.length) % capacity := congrArg Fin.val heq
        have hdvd := (Nat.modEq_iff_dvd' (by omega)).mp hmod
        have := Nat.le_of_dvd (by omega) hdvd
        omega
      rw [Function.update_of_ne hslot, ih (by omega) (by omega), List.getElem?_append_left (by omega)]

theorem ring_of_append (old new : List α) :
    (ring_of (old ++ new) : Fin capacity → Option α) = replay (ring_of old) old.length new := by
  rw [ring_of, replay_append, Nat.zero_add, ring_of]

/-- Replaying the new items of a log, or the last turn of them if there are
more, brings a copy of the ring up to date. -/
theorem replay_catches_up (old new : List α) :
    replay (ring_of old) (old.length + (new.length - capacity)) (new.drop (new.length - capacity)) =
      (ring_of (old ++ new) : Fin capacity → Option α) := by
  rw [ring_of_append]
  by_cases hfits : new.length ≤ capacity
  · rw [Nat.sub_eq_zero_of_le hfits, Nat.add_zero, List.drop_zero]
  · have hturn : capacity ≤ (new.drop (new.length - capacity)).length := by
      rw [List.length_drop]
      omega
    have hskipped : (new.take (new.length - capacity)).length = new.length - capacity := by
      rw [List.length_take]
      omega
    calc replay (ring_of old) (old.length + (new.length - capacity)) (new.drop (new.length - capacity))
        = replay (replay (ring_of old) old.length (new.take (new.length - capacity)))
            (old.length + (new.take (new.length - capacity)).length) (new.drop (new.length - capacity)) := by
          rw [hskipped]
          exact replay_overwrites hturn
      _ = replay (ring_of old) old.length new := by
          rw [← replay_append, List.take_append_drop]

/-- Replaying what a partial function makes of the items is applying it to the replayed ring. -/
theorem replay_bind {β : Type} (f : α → Option β) (ring : Fin capacity → Option α) (start : Nat)
    {items : List α} {images : List β} (himages : items.map f = images.map some) :
    replay (fun slot => (ring slot).bind f) start images = fun slot => (replay ring start items slot).bind f := by
  induction items generalizing ring start images with
  | nil =>
    obtain rfl : images = [] := by simpa using himages.symm
    rfl
  | cons item items ih =>
    cases images with
    | nil => simp at himages
    | cons image images =>
      simp only [List.map_cons, List.cons.injEq] at himages
      rw [replay, replay, ← ih _ _ himages.2]
      congr 1
      funext slot
      by_cases hslot : slot = Fin.ofNat capacity start
      · simp [hslot, himages.1]
      · rw [Function.update_of_ne hslot, Function.update_of_ne hslot]

/-- The slots of a ring that have been used. -/
theorem ring_of_isSome_iff {log : List α} :
    ((ring_of log : Fin capacity → Option α) slot).isSome ↔ slot.val < log.length := by
  induction log using List.reverseRecOn with
  | nil => simp [ring_of, replay]
  | append_singleton log item ih =>
    rw [ring_of, replay_snoc, Nat.zero_add, ← ring_of, List.length_append, List.length_singleton]
    by_cases hslot : slot = Fin.ofNat capacity log.length
    · have hle := Nat.mod_le log.length capacity
      subst hslot
      simp only [Function.update_self, Option.isSome_some, Fin.val_ofNat, true_iff]
      omega
    · have hne : slot.val ≠ log.length := by
        intro heq
        apply hslot
        apply Fin.ext
        rw [Fin.val_ofNat, ← heq, Nat.mod_eq_of_lt slot.isLt]
      rw [Function.update_of_ne hslot, ih]
      omega

end ring_buffer
