import BismarkPassive.Probing.Cells

namespace probing

variable {κ σ : Type} [DecidableEq κ]

/-- Where a probe loop ends: at the slot that holds the key, or without the
key, with the first free slot it passed. -/
inductive Outcome (σ : Type) where
  | found (slot : σ)
  | absent (available : Option σ)
  deriving DecidableEq

/-- One probe loop over unchanging cells. It remembers the first free slot,
stops at the key or at an empty cell, and reports the slots it visited. -/
def scan (cells : σ → Cell κ) (key : κ) : List σ → Option σ → List σ × Outcome σ
  | [], available => ([], .absent available)
  | slot :: rest, available =>
    match cells slot with
    | .empty => ([slot], .absent (available.or (some slot)))
    | .deleted =>
      let (visited, outcome) := scan cells key rest (available.or (some slot))
      (slot :: visited, outcome)
    | .live other =>
      if other = key then ([slot], .found slot)
      else
        let (visited, outcome) := scan cells key rest available
        (slot :: visited, outcome)

variable {cells : σ → Cell κ} {key : κ}

section cons

variable {slot : σ} (rest : List σ) (available : Option σ)

theorem scan_cons_empty (hcell : cells slot = .empty) :
    scan cells key (slot :: rest) available = ([slot], .absent (available.or (some slot))) := by
  simp [scan, hcell]

theorem scan_cons_deleted (hcell : cells slot = .deleted) :
    scan cells key (slot :: rest) available =
      (slot :: (scan cells key rest (available.or (some slot))).1,
        (scan cells key rest (available.or (some slot))).2) := by
  simp [scan, hcell]

theorem scan_cons_key (hcell : cells slot = .live key) :
    scan cells key (slot :: rest) available = ([slot], .found slot) := by
  simp [scan, hcell]

theorem scan_cons_other {other : κ} (hcell : cells slot = .live other) (hkey : other ≠ key) :
    scan cells key (slot :: rest) available =
      (slot :: (scan cells key rest available).1, (scan cells key rest available).2) := by
  simp [scan, hcell, hkey]

end cons

/-- The loop depends on the cells it visits only. -/
theorem scan_congr {cells' : σ → Cell κ} {slots : List σ} {available : Option σ}
    (h : ∀ slot ∈ (scan cells key slots available).1, cells' slot = cells slot) :
    scan cells' key slots available = scan cells key slots available := by
  induction slots generalizing available with
  | nil => rfl
  | cons slot rest ih =>
    cases hcell : cells slot with
    | empty =>
      rw [scan_cons_empty rest available hcell] at h ⊢
      exact scan_cons_empty rest available ((h slot (by simp)).trans hcell)
    | deleted =>
      rw [scan_cons_deleted rest available hcell] at h ⊢
      obtain ⟨hslot, hrest⟩ := List.forall_mem_cons.mp h
      rw [scan_cons_deleted rest available (hslot.trans hcell), ih hrest]
    | live other =>
      by_cases hkey : other = key
      · subst hkey
        rw [scan_cons_key rest available hcell] at h ⊢
        exact scan_cons_key rest available ((h slot (by simp)).trans hcell)
      · rw [scan_cons_other rest available hcell hkey] at h ⊢
        obtain ⟨hslot, hrest⟩ := List.forall_mem_cons.mp h
        rw [scan_cons_other rest available (hslot.trans hcell) hkey, ih hrest]

/-- A loop that finds the key has found a cell that holds it. -/
theorem scan_found {slots : List σ} {available : Option σ} {slot : σ}
    (h : (scan cells key slots available).2 = .found slot) :
    cells slot = .live key ∧ slot ∈ (scan cells key slots available).1 := by
  induction slots generalizing available with
  | nil => simp [scan] at h
  | cons first rest ih =>
    cases hcell : cells first with
    | empty => simp [scan_cons_empty rest available hcell] at h
    | deleted =>
      rw [scan_cons_deleted rest available hcell] at h ⊢
      exact (ih h).imp_right (List.mem_cons_of_mem first)
    | live other =>
      by_cases hkey : other = key
      · subst hkey
        rw [scan_cons_key rest available hcell] at h ⊢
        simp only [Outcome.found.injEq] at h
        subst h
        simp [hcell]
      · rw [scan_cons_other rest available hcell hkey] at h ⊢
        exact (ih h).imp_right (List.mem_cons_of_mem first)

/-- The loop walks to the key's slot when neither the key nor an empty cell
comes before it. -/
theorem scan_finds {before after : List σ} {slot : σ} (available : Option σ)
    (hlive : cells slot = .live key)
    (hbefore : ∀ other ∈ before, cells other ≠ .empty ∧ cells other ≠ .live key) :
    scan cells key (before ++ slot :: after) available = (before ++ [slot], .found slot) := by
  induction before generalizing available with
  | nil => exact scan_cons_key after available hlive
  | cons first before ih =>
    obtain ⟨hfirst, hrest⟩ := List.forall_mem_cons.mp hbefore
    rw [List.cons_append]
    cases hcell : cells first with
    | empty => exact absurd hcell hfirst.1
    | deleted => rw [scan_cons_deleted _ _ hcell, ih _ hrest, List.cons_append]
    | live other =>
      have hkey : other ≠ key := by
        rintro rfl
        exact hfirst.2 hcell
      rw [scan_cons_other _ _ hcell hkey, ih _ hrest, List.cons_append]

/-- In a well-probed table the loop finds the key exactly where it is stored. -/
theorem WellProbed.scan_found_iff {path : κ → List σ} (h : WellProbed path cells) {slot : σ} :
    (scan cells key (path key) none).2 = .found slot ↔ cells slot = .live key := by
  constructor
  · exact fun hscan => (scan_found hscan).1
  · intro hlive
    obtain ⟨before, after, hpath, hbefore⟩ := h.probe hlive
    rw [hpath, scan_finds none hlive hbefore]

theorem WellProbed.scan_absent {path : κ → List σ} (h : WellProbed path cells) {available : Option σ}
    (hscan : (scan cells key (path key) none).2 = .absent available) (slot : σ) :
    cells slot ≠ .live key := by
  intro hlive
  have hfound := h.scan_found_iff.mpr hlive
  simp [hscan] at hfound

/-- A loop that misses the key offers the slot it was given, or else the first
free slot of its path. -/
theorem scan_offer {slots : List σ} {available offer : Option σ}
    (h : (scan cells key slots available).2 = .absent offer) :
    offer = available.or (slots.find? fun slot => (cells slot).free) := by
  induction slots generalizing available with
  | nil =>
    simp only [scan, Outcome.absent.injEq] at h
    simp [h]
  | cons first rest ih =>
    cases hcell : cells first with
    | empty =>
      rw [scan_cons_empty rest available hcell, Outcome.absent.injEq] at h
      simp [hcell, Cell.free, h]
    | deleted =>
      rw [scan_cons_deleted rest available hcell] at h
      rw [ih h, List.find?_cons]
      cases available <;> simp [hcell, Cell.free]
    | live other =>
      by_cases hkey : other = key
      · subst hkey
        simp [scan_cons_key rest available hcell] at h
      · rw [scan_cons_other rest available hcell hkey] at h
        rw [ih h, List.find?_cons]
        simp [hcell, Cell.free]

/-- A free slot offered for a key may take it: no empty cell comes before. -/
theorem scan_available_reaches {path : κ → List σ} {slot : σ}
    (h : (scan cells key (path key) none).2 = .absent (some slot)) :
    Reaches path cells key slot ∧ ∀ other, cells slot ≠ .live other := by
  have hoffer := scan_offer h
  rw [Option.none_or, eq_comm, List.find?_eq_some_iff_append] at hoffer
  obtain ⟨hfree, before, after, hpath, hbefore⟩ := hoffer
  refine ⟨⟨before, after, hpath, fun other hother hempty => ?_⟩, fun other hlive => ?_⟩
  · have := hbefore other hother
    simp [hempty, Cell.free] at this
  · simp [hlive, Cell.free] at hfree

/-- A loop without an offer has passed over live cells of other keys only. -/
theorem scan_full_iff {slots : List σ} :
    (scan cells key slots none).2 = .absent none ↔ ∀ slot ∈ slots, ∃ k, cells slot = .live k ∧ k ≠ key := by
  induction slots with
  | nil => simp [scan]
  | cons first rest ih =>
    simp only [List.forall_mem_cons, ← ih]
    cases hcell : cells first with
    | empty => simp [scan_cons_empty rest none hcell]
    | deleted =>
      have hoffer : (scan cells key rest (some first)).2 ≠ .absent none := fun h => by simpa using scan_offer h
      simpa [scan_cons_deleted rest none hcell] using hoffer
    | live other =>
      by_cases hkey : other = key
      · subst hkey
        simp [scan_cons_key rest none hcell]
      · simp [scan_cons_other rest none hcell hkey, hkey]

theorem scan_full_visited {slots : List σ} (h : (scan cells key slots none).2 = .absent none) :
    (scan cells key slots none).1 = slots := by
  induction slots with
  | nil => simp [scan]
  | cons first rest ih =>
    obtain ⟨⟨other, hcell, hkey⟩, hrest⟩ := List.forall_mem_cons.mp (scan_full_iff.mp h)
    rw [scan_cons_other rest none hcell hkey, ih (scan_full_iff.mpr hrest)]

end probing
