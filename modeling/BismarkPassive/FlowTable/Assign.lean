import BismarkPassive.FlowTable.Run

namespace bismark_passive.flow_table

open probing

variable {target : Target} {hash_function : flow_key → UInt32} {table : flow_table_t}

/-- The slot holds the flow, and a packet at this time does not find it expired. -/
def flow_table_t.Holds (table : flow_table_t) (timestamp_seconds : Int) (key : flow_key) (idx : Slot) : Prop :=
  (table.entries idx).Live ∧ (table.entries idx).key = key ∧
    ¬ (table.entries idx).Expired table.base_timestamp_seconds timestamp_seconds

instance (timestamp_seconds : Int) (key : flow_key) (idx : Slot) :
    Decidable (table.Holds timestamp_seconds key idx) :=
  inferInstanceAs (Decidable (_ ∧ _ ∧ _))

/-- The slot can take a flow: it is unused, or a packet at this time finds its
flow expired. -/
def flow_table_t.Available (table : flow_table_t) (timestamp_seconds : Int) (idx : Slot) : Prop :=
  ¬ (table.entries idx).Live ∨ (table.entries idx).Expired table.base_timestamp_seconds timestamp_seconds

instance (timestamp_seconds : Int) (idx : Slot) : Decidable (table.Available timestamp_seconds idx) :=
  inferInstanceAs (Decidable (_ ∨ _))

/-- The slot a flow belongs in: the one that holds it, or else the first
available one of its probe path. -/
def flow_table_t.Assigns (table : flow_table_t) (target : Target) (hash_function : flow_key → UInt32)
    (timestamp_seconds : Int) (key : flow_key) (idx : Slot) : Prop :=
  table.Holds timestamp_seconds key idx ∨
    (∀ other, ¬ table.Holds timestamp_seconds key other) ∧
      (probes target hash_function key).find? (fun other => decide (table.Available timestamp_seconds other)) =
        some idx

/-- A cell is live where the slot holds the flow and the flow has not expired. -/
theorem lapsed_live_iff {timestamp_seconds : Int} {key : flow_key} {idx : Slot} :
    table.lapsed timestamp_seconds idx = .live key ↔ table.Holds timestamp_seconds key idx := by
  unfold flow_table_t.lapsed flow_table_t.Holds
  rw [flow_table_entry_t.cell_live_iff, flow_table_entry_t.lapse_key]
  constructor
  · rintro ⟨hlive, hkey⟩
    have hfresh := flow_table_entry_t.not_expired_of_lapse_live hlive
    rw [flow_table_entry_t.lapse_of_not_expired hfresh] at hlive
    exact ⟨hlive, hkey, hfresh⟩
  · rintro ⟨hlive, hkey, hfresh⟩
    rw [flow_table_entry_t.lapse_of_not_expired hfresh]
    exact ⟨hlive, hkey⟩

/-- It is free where an insertion may go. -/
theorem lapsed_free_iff {timestamp_seconds : Int} {idx : Slot} :
    (table.lapsed timestamp_seconds idx).free = decide (table.Available timestamp_seconds idx) := by
  cases hcell : table.lapsed timestamp_seconds idx with
  | live key =>
    obtain ⟨hlive, _, hfresh⟩ := lapsed_live_iff.mp hcell
    simp [Cell.free, flow_table_t.Available, hlive, hfresh]
  | _ =>
    have hnone (key : flow_key) : ¬ table.Holds timestamp_seconds key idx := by
      rw [← lapsed_live_iff, hcell]
      simp
    have havailable : table.Available timestamp_seconds idx := by
      by_contra h
      simp only [flow_table_t.Available, not_or, not_not] at h
      exact hnone _ ⟨h.1, rfl, h.2⟩
    simp [Cell.free, havailable]

/-- The lapsed table is what expiring every slot would leave. -/
theorem lapsed_wellProbed (hprobed : WellProbed (probes target hash_function) table.cells)
    (timestamp_seconds : Int) : WellProbed (probes target hash_function) (table.lapsed timestamp_seconds) := by
  have hlapsed : table.lapsed timestamp_seconds =
      (expire_entries timestamp_seconds table all_slots).cells := by
    funext idx
    rw [flow_table_t.cells, expire_entries_entries, if_pos (mem_all_slots idx), flow_table_t.lapsed]
  rw [hlapsed]
  exact hprobed.steps (expire_entries_steps timestamp_seconds table all_slots)

/-- A search ends where the flow is, or with the first available slot of its path. -/
theorem search_outcome_iff (hprobed : WellProbed (probes target hash_function) table.cells)
    {timestamp_seconds : Int} {key : flow_key} {idx : Slot} :
    ((table.search target hash_function key timestamp_seconds).2 = .found idx ↔
      table.Holds timestamp_seconds key idx) ∧
    ((table.search target hash_function key timestamp_seconds).2 = .absent (some idx) ↔
      (∀ other, ¬ table.Holds timestamp_seconds key other) ∧
        (probes target hash_function key).find? (fun other => decide (table.Available timestamp_seconds other)) =
          some idx) := by
  have hlapsed := lapsed_wellProbed hprobed timestamp_seconds
  have hfound (slot : Slot) : (table.search target hash_function key timestamp_seconds).2 = .found slot ↔
      table.Holds timestamp_seconds key slot := hlapsed.scan_found_iff.trans lapsed_live_iff
  have hoffer {offer : Option Slot}
      (h : (table.search target hash_function key timestamp_seconds).2 = .absent offer) :
      offer = (probes target hash_function key).find? fun other =>
        decide (table.Available timestamp_seconds other) := by
    simpa only [lapsed_free_iff, Option.none_or] using scan_offer h
  refine ⟨hfound idx, fun h => ⟨fun other hholds => ?_, (hoffer h).symm⟩, ?_⟩
  · rw [(hfound other).mpr hholds] at h
    cases h
  · rintro ⟨hnone, hfirst⟩
    cases houtcome : (table.search target hash_function key timestamp_seconds).2 with
    | found slot => exact absurd ((hfound slot).mp houtcome) (hnone slot)
    | absent offer => rw [hoffer houtcome, hfirst]

theorem flow_id_injective {idx other : Slot} (h : flow_id idx = flow_id other) : idx = other := by
  simp only [flow_id] at h
  exact Fin.ext (by omega)

theorem flow_id_lt (idx : Slot) : flow_id idx < 65536 := by
  have hidx : idx.val < 65529 := idx.isLt
  rw [flow_id, FLOW_ID_FIRST_UNRESERVED_eq]
  omega

/-- The other live entries after an insertion are of other flows. -/
theorem Processed.other_key {table' : flow_table_t} {new_entry : flow_table_entry_t} {timestamp_seconds : Int}
    {id : Nat} {insertion : Option Slot} (hprobed : WellProbed (probes target hash_function) table.cells)
    (h : Processed target hash_function table new_entry timestamp_seconds id insertion table') {slot idx : Slot}
    (hnew : insertion = some slot) (hne : idx ≠ slot) (hlive : (table'.entries idx).Live) :
    (table'.entries idx).key ≠ new_entry.key := by
  intro hsame
  have hprobed' := hprobed.steps (h.steps hprobed)
  obtain ⟨_, hunsent, hrecord⟩ := h.arrives hnew
  apply hne
  apply hprobed'.unique (flow_table_entry_t.cell_of_live hlive)
  exact flow_table_entry_t.cell_live_iff.mpr ⟨.inr hunsent, hrecord.key.trans hsame.symm⟩

/-- Every id fits into 16 bits. -/
theorem Processed.id_lt {table' : flow_table_t} {new_entry : flow_table_entry_t} {timestamp_seconds : Int}
    {id : Nat} {insertion : Option Slot}
    (h : Processed target hash_function table new_entry timestamp_seconds id insertion table') : id < 65536 := by
  cases h with
  | refused => decide
  | full => decide
  | matched visited idx => exact flow_id_lt idx
  | inserted visited idx => exact flow_id_lt idx

/-- A call returns the id of a slot exactly if the time is admitted and the
flow belongs in that slot. -/
theorem flow_table_process_flow_id_iff (hprobed : WellProbed (probes target hash_function) table.cells)
    {new_entry : flow_table_entry_t} {timestamp_seconds : Int} {idx : Slot} :
    (flow_table_process_flow target hash_function table new_entry timestamp_seconds).1 = flow_id idx ↔
      ¬ table.RefusesTime timestamp_seconds ∧
        table.Assigns target hash_function timestamp_seconds new_entry.key idx := by
  obtain ⟨hfound, habsent⟩ := @search_outcome_iff target hash_function table hprobed timestamp_seconds
    new_entry.key idx
  rw [flow_table_t.Assigns, ← hfound, ← habsent]
  have hspec := flow_table_process_flow_spec target hash_function table new_entry timestamp_seconds
  generalize (flow_table_process_flow target hash_function table new_entry timestamp_seconds).1 = id,
    (flow_table_process_flow target hash_function table new_entry timestamp_seconds).2 = table',
    flow_table_insertion target hash_function table new_entry timestamp_seconds = insertion at hspec ⊢
  cases hspec with
  | refused hrefused => simp [hrefused, (flow_id_ne_error idx).symm]
  | full hadmitted hsearch => simp [hadmitted, hsearch, (flow_id_ne_error idx).symm]
  | matched visited slot hadmitted hsearch =>
    rw [hsearch]
    simp only [hadmitted, not_false_eq_true, true_and, Outcome.found.injEq, reduceCtorEq, or_false]
    exact ⟨flow_id_injective, fun h => h ▸ rfl⟩
  | inserted visited slot hadmitted hsearch =>
    rw [hsearch]
    simp only [hadmitted, not_false_eq_true, true_and, Outcome.absent.injEq, Option.some.injEq, reduceCtorEq,
      false_or]
    exact ⟨flow_id_injective, fun h => h ▸ rfl⟩

end bismark_passive.flow_table
