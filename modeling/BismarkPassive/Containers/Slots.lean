import Mathlib.Data.Fintype.Card
import Mathlib.Data.Fintype.BigOperators

namespace slots

variable {ι α T : Type} [DecidableEq ι]

/-- A loop whose body rewrites only the slot it visits rewrites each slot of
its range once, with the value the slot had before the loop. -/
theorem foldl_get (get : T → ι → α) (body : T → ι → T) (rewrite : α → α)
    (hbody : ∀ t i j, get (body t i) j = if j = i then rewrite (get t i) else get t j)
    {range : List ι} (hnodup : range.Nodup) (t : T) (j : ι) :
    get (range.foldl body t) j = if j ∈ range then rewrite (get t j) else get t j := by
  induction range generalizing t with
  | nil => simp
  | cons i range ih =>
    obtain ⟨hnotmem, hnodup⟩ := List.nodup_cons.mp hnodup
    rw [List.foldl_cons, ih hnodup, hbody]
    by_cases hj : j = i
    · subst hj
      simp [hnotmem]
    · simp [hj]

/-- Where rewriting a slot twice is rewriting it once, the range may repeat slots. -/
theorem foldl_get_idem (get : T → ι → α) (body : T → ι → T) (rewrite : α → α)
    (hbody : ∀ t i j, get (body t i) j = if j = i then rewrite (get t i) else get t j)
    (hidem : ∀ a, rewrite (rewrite a) = rewrite a) (range : List ι) (t : T) (j : ι) :
    get (range.foldl body t) j = if j ∈ range then rewrite (get t j) else get t j := by
  induction range generalizing t with
  | nil => simp
  | cons i range ih =>
    rw [List.foldl_cons, ih, hbody]
    by_cases hj : j = i
    · subst hj
      simp [hidem]
    · simp [hj]

omit [DecidableEq ι] in
theorem foldl_preserves (P : T → Prop) (body : T → ι → T) (hbody : ∀ t i, P t → P (body t i))
    (range : List ι) {t : T} (h : P t) : P (range.foldl body t) := by
  induction range generalizing t with
  | nil => exact h
  | cons i range ih => exact ih (hbody t i h)

variable [Fintype ι] (p : α → Prop) [DecidablePred p]

/-- The number of slots whose content satisfies `p`. -/
@[irreducible] def count (f : ι → α) : Nat := (Finset.univ.filter fun i => p (f i)).card

omit [DecidableEq ι] in
theorem count_eq_sum (f : ι → α) : count p f = ∑ i, if p (f i) then 1 else 0 := by
  unfold count
  rw [Finset.card_filter]

/-- One store changes the count by what it does to the stored slot. -/
theorem count_update (f : ι → α) (i : ι) (a : α) :
    count p (Function.update f i a) + (if p (f i) then 1 else 0) =
      count p f + (if p a then 1 else 0) := by
  rw [count_eq_sum, count_eq_sum, ← Finset.add_sum_erase _ _ (Finset.mem_univ i),
    ← Finset.add_sum_erase Finset.univ (fun j => if p (f j) then 1 else 0) (Finset.mem_univ i)]
  have hrest : ∑ j ∈ Finset.univ.erase i, (if p (Function.update f i a j) then 1 else 0) =
      ∑ j ∈ Finset.univ.erase i, if p (f j) then 1 else 0 := by
    apply Finset.sum_congr rfl
    intro j hj
    rw [Function.update_of_ne (Finset.ne_of_mem_erase hj)]
  rw [hrest, Function.update_self]
  omega

variable {p}

theorem count_update_gain {f : ι → α} {i : ι} {a : α} (hold : ¬ p (f i)) (hnew : p a) :
    count p (Function.update f i a) = count p f + 1 := by
  simpa [hold, hnew] using count_update p f i a

theorem count_update_lose {f : ι → α} {i : ι} {a : α} (hold : p (f i)) (hnew : ¬ p a) :
    count p (Function.update f i a) + 1 = count p f := by
  simpa [hold, hnew] using count_update p f i a

theorem count_update_keep {f : ι → α} {i : ι} {a : α} (hsame : p a ↔ p (f i)) :
    count p (Function.update f i a) = count p f := by
  have h := count_update p f i a
  simp only [hsame] at h
  omega

omit [DecidableEq ι] in
theorem count_congr {f g : ι → α} (h : ∀ i, p (f i) ↔ p (g i)) : count p f = count p g := by
  unfold count
  simp only [h]

omit [DecidableEq ι] in
theorem count_pos {f : ι → α} {i : ι} (h : p (f i)) : 0 < count p f := by
  unfold count
  exact Finset.card_pos.mpr ⟨i, by simpa using h⟩

omit [DecidableEq ι] in
theorem count_eq_zero_iff {f : ι → α} : count p f = 0 ↔ ∀ i, ¬ p (f i) := by
  unfold count
  simp [Finset.filter_eq_empty_iff]

omit [DecidableEq ι] in
theorem count_le_card (f : ι → α) : count p f ≤ Fintype.card ι := by
  unfold count
  exact Finset.card_le_univ _

omit [DecidableEq ι] in
theorem count_mono {f g : ι → α} (h : ∀ i, p (f i) → p (g i)) : count p f ≤ count p g := by
  unfold count
  exact Finset.card_le_card (Finset.monotone_filter_right _ fun i _ => h i)

omit [DecidableEq ι] in
/-- Where contents only stop to satisfy `p`, the count stays if none does. -/
theorem count_eq_iff {f g : ι → α} (h : ∀ i, p (f i) → p (g i)) :
    count p f = count p g ↔ ∀ i, p (g i) → p (f i) := by
  constructor
  · intro hcount i hi
    unfold count at hcount
    have hsame := Finset.eq_of_subset_of_card_le (Finset.monotone_filter_right _ fun i _ => h i) hcount.ge
    have hmem : i ∈ Finset.univ.filter fun i => p (f i) := by
      rw [hsame]
      simpa using hi
    simpa using hmem
  · exact fun hback => count_congr fun i => ⟨h i, hback i⟩

end slots
