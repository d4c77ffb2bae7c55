import Mathlib.Logic.Function.Basic
import Mathlib.Logic.Relation

namespace probing

/-- A cell of an open-addressed table. A deleted cell keeps the probe paths
that lead past it intact. -/
inductive Cell (κ : Type) where
  | empty
  | deleted
  | live (key : κ)
  deriving DecidableEq

/-- Whether the cell can take a key. -/
def Cell.free {κ : Type} : Cell κ → Bool
  | .live _ => false
  | _ => true

variable {κ σ : Type} {path : κ → List σ} {cells cells' : σ → Cell κ}

/-- The slot lies on the key's probe path and no empty cell comes before it. -/
def Reaches (path : κ → List σ) (cells : σ → Cell κ) (key : κ) (slot : σ) : Prop :=
  ∃ before after, path key = before ++ slot :: after ∧ ∀ other ∈ before, cells other ≠ .empty

/-- Every key is stored at most once and can be found from its first probe. -/
structure WellProbed (path : κ → List σ) (cells : σ → Cell κ) : Prop where
  unique : ∀ {slot slot' : σ} {key : κ}, cells slot = .live key → cells slot' = .live key → slot = slot'
  reached : ∀ {slot : σ} {key : κ}, cells slot = .live key → Reaches path cells key slot

theorem wellProbed_of_no_live (h : ∀ slot key, cells slot ≠ .live key) : WellProbed path cells where
  unique hlive _ := absurd hlive (h _ _)
  reached hlive := absurd hlive (h _ _)

theorem Reaches.mono {key : κ} {slot : σ} (h : Reaches path cells key slot)
    (hkeep : ∀ other, cells other ≠ .empty → cells' other ≠ .empty) : Reaches path cells' key slot := by
  obtain ⟨before, after, hpath, hbefore⟩ := h
  exact ⟨before, after, hpath, fun other hother => hkeep other (hbefore other hother)⟩

/-- Probing for a stored key meets its slot before any empty cell and before
any other cell holding the key. -/
theorem WellProbed.probe {key : κ} {slot : σ} (h : WellProbed path cells)
    (hlive : cells slot = .live key) :
    ∃ before after, path key = before ++ slot :: after ∧
      ∀ other ∈ before, cells other ≠ .empty ∧ cells other ≠ .live key := by
  obtain ⟨before, after, hpath, hbefore⟩ := h.reached hlive
  have hmem : slot ∈ before ++ [slot] := by simp
  obtain ⟨first, second, hsplit, hnotmem⟩ := List.eq_append_cons_of_mem hmem
  refine ⟨first, second ++ after, ?_, ?_⟩
  · calc path key = (before ++ [slot]) ++ after := by simp [hpath]
      _ = first ++ slot :: (second ++ after) := by simp [hsplit]
  · intro other hother
    have hne : other ≠ slot := fun heq => hnotmem (heq ▸ hother)
    have hold : other ∈ before := by
      have : other ∈ before ++ [slot] := by rw [hsplit]; exact List.mem_append_left _ hother
      simpa [hne] using this
    exact ⟨hbefore other hold, fun hlive' => hne (h.unique hlive' hlive)⟩

/-- What a table operation does to the cells, one cell at a time. -/
inductive Step [DecidableEq σ] (path : κ → List σ) : (σ → Cell κ) → (σ → Cell κ) → Prop where
  | delete {cells : σ → Cell κ} {slot : σ} {key : κ} (hlive : cells slot = .live key) :
      Step path cells (Function.update cells slot .deleted)
  | insert {cells : σ → Cell κ} {slot : σ} {key : κ} (hfree : ∀ other, cells slot ≠ .live other)
      (hnew : ∀ other, cells other ≠ .live key) (hreach : Reaches path cells key slot) :
      Step path cells (Function.update cells slot (.live key))

abbrev Steps [DecidableEq σ] (path : κ → List σ) : (σ → Cell κ) → (σ → Cell κ) → Prop :=
  Relation.ReflTransGen (Step path)

variable [DecidableEq σ]

/-- No operation turns a cell back into an empty one. -/
theorem Step.nonempty (h : Step path cells cells') {slot : σ} (hslot : cells slot ≠ .empty) :
    cells' slot ≠ .empty := by
  cases h with
  | @delete changed key hlive =>
    by_cases hchanged : slot = changed <;> simp [hchanged, Function.update_of_ne, hslot]
  | @insert changed key hfree hnew hreach =>
    by_cases hchanged : slot = changed <;> simp [hchanged, Function.update_of_ne, hslot]

/-- A step keeps every key within reach of its path. -/
theorem WellProbed.step (h : WellProbed path cells) (hstep : Step path cells cells') :
    WellProbed path cells' := by
  have hmono {key : κ} {slot : σ} (hreach : Reaches path cells key slot) : Reaches path cells' key slot :=
    hreach.mono fun _ => hstep.nonempty
  cases hstep with
  | @delete changed key hlive =>
    have hold {slot : σ} {k : κ} (hslot : Function.update cells changed .deleted slot = .live k) :
        cells slot = .live k := by
      by_cases hchanged : slot = changed
      · simp [hchanged] at hslot
      · rwa [Function.update_of_ne hchanged] at hslot
    exact ⟨fun h₁ h₂ => h.unique (hold h₁) (hold h₂), fun hslot => hmono (h.reached (hold hslot))⟩
  | @insert changed key hfree hnew hreach =>
    have hold {slot : σ} {k : κ} (hslot : Function.update cells changed (.live key) slot = .live k) :
        (slot = changed ∧ k = key) ∨ (slot ≠ changed ∧ cells slot = .live k) := by
      by_cases hchanged : slot = changed
      · subst hchanged
        simp only [Function.update_self, Cell.live.injEq] at hslot
        exact .inl ⟨rfl, hslot.symm⟩
      · rw [Function.update_of_ne hchanged] at hslot
        exact .inr ⟨hchanged, hslot⟩
    refine ⟨fun h₁ h₂ => ?_, fun hslot => ?_⟩
    · rcases hold h₁ with ⟨rfl, rfl⟩ | ⟨_, hlive₁⟩ <;> rcases hold h₂ with ⟨rfl, hkey⟩ | ⟨_, hlive₂⟩
      · rfl
      · exact absurd hlive₂ (hnew _)
      · exact absurd (hkey ▸ hlive₁) (hnew _)
      · exact h.unique hlive₁ hlive₂
    · obtain ⟨rfl, rfl⟩ | ⟨_, hlive⟩ := hold hslot
      · exact hmono hreach
      · exact hmono (h.reached hlive)

theorem WellProbed.steps (h : WellProbed path cells) (hsteps : Steps path cells cells') :
    WellProbed path cells' := by
  induction hsteps with
  | refl => exact h
  | tail _ hstep ih => exact ih.step hstep

/-- The partial map from keys to slots that the cells spell out. -/
def Represents (cells : σ → Cell κ) (map : κ → Option σ) : Prop :=
  ∀ key slot, map key = some slot ↔ cells slot = .live key

/-- The operations of a partial map whose bindings are never overwritten. -/
inductive MapStep [DecidableEq κ] : (κ → Option σ) → (κ → Option σ) → Prop where
  | erase {map : κ → Option σ} {key : κ} {slot : σ} (hbound : map key = some slot) :
      MapStep map (Function.update map key none)
  | bind {map : κ → Option σ} {key : κ} {slot : σ} (hunbound : map key = none)
      (hunused : ∀ other, map other ≠ some slot) : MapStep map (Function.update map key (some slot))

/-- Every step of the table is one operation of the partial map it represents. -/
theorem Step.refines_map [DecidableEq κ] {map : κ → Option σ} (hrep : Represents cells map)
    (hprobed : WellProbed path cells) (hstep : Step path cells cells') :
    ∃ map', MapStep map map' ∧ Represents cells' map' := by
  cases hstep with
  | @delete changed key hlive =>
    refine ⟨_, .erase ((hrep key changed).mpr hlive), fun k slot => ?_⟩
    by_cases hkey : k = key
    · subst hkey
      by_cases hslot : slot = changed
      · simp [hslot]
      · have hother : cells slot ≠ .live k := fun h => hslot (hprobed.unique h hlive)
        simp [Function.update_of_ne hslot, hother]
    · rw [Function.update_of_ne hkey, hrep]
      by_cases hslot : slot = changed
      · subst hslot
        simp [hlive, Ne.symm hkey]
      · rw [Function.update_of_ne hslot]
  | @insert changed key hfree hnew hreach =>
    have hunbound : map key = none := by
      cases hmap : map key with
      | none => rfl
      | some slot => exact absurd ((hrep key slot).mp hmap) (hnew slot)
    refine ⟨_, .bind hunbound fun other h => hfree other ((hrep other changed).mp h), fun k slot => ?_⟩
    by_cases hkey : k = key
    · subst hkey
      by_cases hslot : slot = changed
      · simp [hslot]
      · simp [Function.update_of_ne hslot, hnew slot, Ne.symm hslot]
    · rw [Function.update_of_ne hkey, hrep]
      by_cases hslot : slot = changed
      · subst hslot
        simp [hfree k, Ne.symm hkey]
      · rw [Function.update_of_ne hslot]

/-- A run of table steps is a run of operations on the partial map. -/
theorem Steps.refines_map [DecidableEq κ] {map : κ → Option σ} (hrep : Represents cells map)
    (hprobed : WellProbed path cells) (hsteps : Steps path cells cells') :
    ∃ map', Relation.ReflTransGen MapStep map map' ∧ Represents cells' map' := by
  induction hsteps with
  | refl => exact ⟨map, .refl, hrep⟩
  | tail hsteps hstep ih =>
    obtain ⟨map₁, hmap₁, hrep₁⟩ := ih
    obtain ⟨map₂, hmap₂, hrep₂⟩ := hstep.refines_map hrep₁ (hprobed.steps hsteps)
    exact ⟨map₂, hmap₁.tail hmap₂, hrep₂⟩

end probing
