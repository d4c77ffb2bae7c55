import BismarkPassive.Whitelist

namespace bismark_passive.dns

/-! The rule for whitelisting a name -/

/-- The name is a domain or ends with a dot and the domain. -/
def Matches (name domain : cstring) : Prop := name = domain ∨ ∃ start, name = start ++ 46 :: domain

/-- The comparison from the end is the rule. -/
theorem whitelisted_by_iff {name domain : cstring} : whitelisted_by name domain = true ↔ Matches name domain := by
  unfold whitelisted_by Matches
  simp only [Bool.and_eq_true, Bool.or_eq_true, decide_eq_true_eq, beq_iff_eq]
  constructor
  · rintro ⟨⟨hle, hdrop⟩, hdot⟩
    obtain ⟨offset, hoffset⟩ := Int.eq_ofNat_of_zero_le hle
    rw [hoffset, Int.toNat_natCast] at hdrop hdot
    cases offset with
    | zero => exact .inl hdrop
    | succ offset =>
      right
      have hbyte : name[offset]? = some 46 := hdot.resolve_left (by omega)
      obtain ⟨hlt, hbyte⟩ := List.getElem?_eq_some_iff.mp hbyte
      refine ⟨name.take offset, ?_⟩
      rw [← hdrop, ← hbyte, ← List.drop_eq_getElem_cons hlt, List.take_append_drop]
  · rintro (rfl | ⟨start, rfl⟩)
    · simp
    · have hoffset : ((start ++ 46 :: domain).length : Int) - domain.length = (start.length + 1 : Nat) := by
        rw [List.length_append, List.length_cons]
        omega
      rw [hoffset, Int.toNat_natCast]
      refine ⟨⟨Int.natCast_nonneg _, ?_⟩, .inr ?_⟩
      · rw [← List.drop_drop, List.drop_left]
        rfl
      · rw [Nat.add_sub_cancel, List.getElem?_append_right (le_refl _), Nat.sub_self]
        rfl

end bismark_passive.dns
