import Mathlib.Data.List.Nodup
import Mathlib.Data.List.Perm.Basic
import Mathlib.Data.List.Range

namespace containers

/-- The resources handed out, which are numbered from zero on, and those given
back, in this order. -/
structure Ledger where
  issued : Nat
  released : List Nat

namespace Ledger

def empty : Ledger := ⟨0, []⟩

def issue (ledger : Ledger) : Nat × Ledger := (ledger.issued, { ledger with issued := ledger.issued + 1 })

def release (ledger : Ledger) (resource : Nat) : Ledger := { ledger with released := ledger.released ++ [resource] }

def release_all (ledger : Ledger) (resources : List Nat) : Ledger := resources.foldl release ledger

/-- Every resource handed out was given back exactly once, and nothing else was. -/
def Settled (ledger : Ledger) : Prop :=
  ∀ resource, ledger.released.count resource = if resource < ledger.issued then 1 else 0

/-- Every resource handed out was given back, is held or is lost, and only one
of these. -/
def Accounts (ledger : Ledger) (held lost : List Nat) : Prop :=
  (ledger.released ++ (held ++ lost)).Perm (List.range ledger.issued)

variable {ledger : Ledger} {held held' lost : List Nat}

theorem empty_accounts : empty.Accounts [] [] := List.Perm.refl []

theorem Accounts.perm (h : ledger.Accounts held lost) (hheld : held.Perm held') : ledger.Accounts held' lost :=
  ((hheld.symm.append_right lost).append_left ledger.released).trans h

/-- An item that has just been issued is held. -/
theorem Accounts.issue (h : ledger.Accounts held lost) :
    ledger.issue.2.Accounts (held ++ [ledger.issue.1]) lost := by
  unfold Accounts
  have hlast : (ledger.released ++ (held ++ [ledger.issued] ++ lost)).Perm
      (ledger.released ++ (held ++ lost) ++ [ledger.issued]) := by
    rw [List.append_assoc ledger.released]
    apply List.Perm.append_left
    rw [List.append_assoc, List.append_assoc]
    exact List.perm_append_comm.append_left held
  rw [Ledger.issue, List.range_succ]
  exact hlast.trans (h.append_right _)

theorem Accounts.lose {resource : Nat} (h : ledger.Accounts (held ++ [resource]) lost) :
    ledger.Accounts held ([resource] ++ lost) := by
  unfold Accounts at h ⊢
  rwa [List.append_assoc] at h

theorem Accounts.release {resource : Nat} (h : ledger.Accounts (resource :: held) lost) :
    (ledger.release resource).Accounts held lost := by
  unfold Accounts at h ⊢
  rwa [Ledger.release, List.append_assoc, List.singleton_append]

theorem Accounts.release_all {resources : List Nat} (h : ledger.Accounts (resources ++ held) lost) :
    (ledger.release_all resources).Accounts held lost := by
  induction resources generalizing ledger with
  | nil => exact h
  | cons resource resources ih => exact ih h.release

/-- Nothing is given back twice. -/
theorem Accounts.released_nodup (h : ledger.Accounts held lost) : ledger.released.Nodup :=
  (List.nodup_append.mp (h.nodup_iff.mpr List.nodup_range)).1

/-- Resources are given back at most once, after they were handed out, and are
not held any more. -/
structure Sound (ledger : Ledger) (held : List Nat) : Prop where
  nodup : ledger.released.Nodup
  issued : ∀ resource ∈ ledger.released, resource < ledger.issued
  not_held : ∀ resource ∈ ledger.released, resource ∉ held
  held_issued : ∀ resource ∈ held, resource < ledger.issued

/-- Accounts that balance leave nothing released twice or released while held. -/
theorem Accounts.sound (h : ledger.Accounts held lost) : ledger.Sound held := by
  obtain ⟨-, -, hdisjoint⟩ := List.nodup_append.mp (h.nodup_iff.mpr List.nodup_range)
  have hissued (resource : Nat) (hmem : resource ∈ ledger.released ++ (held ++ lost)) : resource < ledger.issued :=
    List.mem_range.mp (h.subset hmem)
  refine ⟨h.released_nodup, fun resource hreleased => hissued resource (List.mem_append_left _ hreleased), ?_,
    fun resource hheld => hissued resource (List.mem_append_right _ (List.mem_append_left _ hheld))⟩
  intro resource hreleased hheld
  exact hdisjoint resource hreleased resource (List.mem_append_left _ hheld) rfl

/-- The resources that were handed out and not given back. -/
def outstanding (ledger : Ledger) : Nat := ledger.issued - ledger.released.length

theorem Accounts.outstanding (h : ledger.Accounts held lost) : ledger.outstanding = held.length + lost.length := by
  have hlength := h.length_eq
  rw [List.length_append, List.length_append, List.length_range] at hlength
  unfold Ledger.outstanding
  omega

/-- When nothing is held any more, nothing lost is all that is missing. -/
theorem Accounts.settled_iff (h : ledger.Accounts [] lost) : ledger.Settled ↔ lost = [] := by
  unfold Accounts at h
  rw [List.nil_append] at h
  constructor
  · intro hsettled
    rw [List.eq_nil_iff_forall_not_mem]
    intro resource hresource
    have hissued : resource < ledger.issued := List.mem_range.mp (h.subset (List.mem_append_right _ hresource))
    have hcount := hsettled resource
    rw [if_pos hissued] at hcount
    have hreleased : resource ∈ ledger.released := List.count_pos_iff.mp (by omega)
    obtain ⟨-, -, hdisjoint⟩ := List.nodup_append.mp (h.nodup_iff.mpr List.nodup_range)
    exact hdisjoint resource hreleased resource hresource rfl
  · rintro rfl resource
    rw [List.append_nil] at h
    rw [h.count_eq]
    by_cases hissued : resource < ledger.issued
    · rw [if_pos hissued]
      exact List.count_eq_one_of_mem List.nodup_range (List.mem_range.mpr hissued)
    · rw [if_neg hissued]
      exact List.count_eq_zero_of_not_mem fun hmem => hissued (List.mem_range.mp hmem)

end Ledger

end containers
