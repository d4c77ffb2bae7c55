import BismarkPassive.FlowTable.Table
import BismarkPassive.Probing.Scan

namespace bismark_passive.flow_table

open probing

/-- The entry as the probe loop leaves it when it comes past. -/
def flow_table_entry_t.lapse (base timestamp_seconds : Int) (entry : flow_table_entry_t) : flow_table_entry_t :=
  if entry.Expired base timestamp_seconds then { entry with occupied := .ENTRY_DELETED } else entry

@[simp] theorem flow_table_entry_t.lapse_key (base timestamp_seconds : Int) (entry : flow_table_entry_t) :
    (entry.lapse base timestamp_seconds).key = entry.key := by
  unfold flow_table_entry_t.lapse
  split <;> rfl

theorem flow_table_entry_t.lapse_of_not_expired {base timestamp_seconds : Int} {entry : flow_table_entry_t}
    (h : ¬ entry.Expired base timestamp_seconds) : entry.lapse base timestamp_seconds = entry :=
  if_neg h

theorem flow_table_entry_t.not_expired_of_lapse_live {base timestamp_seconds : Int}
    {entry : flow_table_entry_t} (h : (entry.lapse base timestamp_seconds).Live) :
    ¬ entry.Expired base timestamp_seconds := by
  intro hexpired
  simp [flow_table_entry_t.lapse, hexpired, flow_table_entry_t.Live] at h

theorem flow_table_entry_t.lapse_lapse (base timestamp_seconds : Int) (entry : flow_table_entry_t) :
    (entry.lapse base timestamp_seconds).lapse base timestamp_seconds = entry.lapse base timestamp_seconds := by
  by_cases h : entry.Expired base timestamp_seconds
  · have hlapse : entry.lapse base timestamp_seconds = { entry with occupied := .ENTRY_DELETED } := if_pos h
    rw [hlapse]
    exact lapse_of_not_expired (by simp [flow_table_entry_t.Expired])
  · rw [lapse_of_not_expired h, lapse_of_not_expired h]

/-- What open addressing sees of an entry. -/
def flow_table_entry_t.cell (entry : flow_table_entry_t) : Cell flow_key :=
  match entry.occupied with
  | .ENTRY_EMPTY => .empty
  | .ENTRY_DELETED => .deleted
  | .ENTRY_OCCUPIED_BUT_UNSENT | .ENTRY_OCCUPIED => .live entry.key

def flow_table_t.cells (table : flow_table_t) (idx : Slot) : Cell flow_key := (table.entries idx).cell

theorem flow_table_entry_t.cell_live_iff {entry : flow_table_entry_t} {key : flow_key} :
    entry.cell = .live key ↔ entry.Live ∧ entry.key = key := by
  cases h : entry.occupied <;> simp [flow_table_entry_t.cell, flow_table_entry_t.Live, h]

theorem flow_table_entry_t.cell_of_live {entry : flow_table_entry_t} (h : entry.Live) :
    entry.cell = .live entry.key :=
  flow_table_entry_t.cell_live_iff.mpr ⟨h, rfl⟩

theorem flow_table_entry_t.cell_empty_iff {entry : flow_table_entry_t} :
    entry.cell = .empty ↔ entry.occupied = .ENTRY_EMPTY := by
  cases h : entry.occupied <;> simp [flow_table_entry_t.cell, h]

/-- The cells of the table with every entry lapsed. Visiting a slot does not
change them, so the loop searches this one unchanging table. -/
def flow_table_t.lapsed (table : flow_table_t) (timestamp_seconds : Int) (idx : Slot) : Cell flow_key :=
  ((table.entries idx).lapse table.base_timestamp_seconds timestamp_seconds).cell

@[simp] theorem flow_table_t.store_entries (table : flow_table_t) (idx other : Slot)
    (entry : flow_table_entry_t) :
    (table.store idx entry).entries other = if other = idx then entry else table.entries other := by
  simp only [flow_table_t.store, Function.update_apply]

/-- Expiring touches the slot it is asked about only. -/
theorem expire_entry_entries (timestamp_seconds : Int) (table : flow_table_t) (idx other : Slot) :
    (expire_entry timestamp_seconds table idx).entries other =
      if other = idx then (table.entries idx).lapse table.base_timestamp_seconds timestamp_seconds
      else table.entries other := by
  by_cases h : (table.entries idx).Expired table.base_timestamp_seconds timestamp_seconds
  · simp only [expire_entry, if_pos h, flow_table_entry_t.lapse, flow_table_t.store_entries]
  · rw [expire_entry, if_neg h, flow_table_entry_t.lapse_of_not_expired h]
    split
    · rename_i hother
      rw [hother]
    · rfl

@[simp] theorem expire_entry_base (timestamp_seconds : Int) (table : flow_table_t) (idx : Slot) :
    (expire_entry timestamp_seconds table idx).base_timestamp_seconds = table.base_timestamp_seconds := by
  simp only [expire_entry]
  split <;> rfl

/-- What has lapsed before it has lapsed after it. -/
theorem lapsed_expire_entry (timestamp_seconds : Int) (table : flow_table_t) (idx : Slot) :
    (expire_entry timestamp_seconds table idx).lapsed timestamp_seconds = table.lapsed timestamp_seconds := by
  funext other
  unfold flow_table_t.lapsed
  rw [expire_entry_entries, expire_entry_base]
  split
  · rename_i hother
    rw [hother, flow_table_entry_t.lapse_lapse]
  · rfl

def expire_entries (timestamp_seconds : Int) (table : flow_table_t) (visited : List Slot) : flow_table_t :=
  visited.foldl (expire_entry timestamp_seconds) table

/-- Expiring the visited slots one after another is expiring each of them once. -/
theorem expire_entries_get (timestamp_seconds : Int) (table : flow_table_t) (visited : List Slot) (idx : Slot) :
    ((expire_entries timestamp_seconds table visited).entries idx,
        (expire_entries timestamp_seconds table visited).base_timestamp_seconds) =
      (if idx ∈ visited then (table.entries idx).lapse table.base_timestamp_seconds timestamp_seconds
        else table.entries idx, table.base_timestamp_seconds) := by
  have h := slots.foldl_get_idem
    (fun (t : flow_table_t) i => (t.entries i, t.base_timestamp_seconds)) (expire_entry timestamp_seconds)
    (fun eb => (eb.1.lapse eb.2 timestamp_seconds, eb.2))
    (by
      intro t i j
      rw [expire_entry_entries, expire_entry_base]
      split <;> rfl)
    (by
      intro eb
      simp only [flow_table_entry_t.lapse_lapse])
    visited table idx
  rw [expire_entries, h]
  split <;> rfl

theorem expire_entries_entries (timestamp_seconds : Int) (table : flow_table_t) (visited : List Slot)
    (idx : Slot) :
    (expire_entries timestamp_seconds table visited).entries idx =
      if idx ∈ visited then (table.entries idx).lapse table.base_timestamp_seconds timestamp_seconds
      else table.entries idx :=
  congrArg Prod.fst (expire_entries_get timestamp_seconds table visited idx)

@[simp] theorem expire_entries_base (timestamp_seconds : Int) (table : flow_table_t) (visited : List Slot) :
    (expire_entries timestamp_seconds table visited).base_timestamp_seconds = table.base_timestamp_seconds :=
  congrArg Prod.snd (expire_entries_get timestamp_seconds table visited 0)

/-- How the probe loop ends when it visits these slots and the search of the
lapsed table ends this way. -/
def scan_result (target : Target) (timestamp_seconds : Int) (table : flow_table_t) (visited : List Slot) :
    Outcome Slot → probe_result
  | .found idx =>
    .matched idx (touch_entry target timestamp_seconds (expire_entries timestamp_seconds table visited) idx)
  | .absent available => .exhausted available (expire_entries timestamp_seconds table visited)

theorem scan_result_cons (target : Target) (timestamp_seconds : Int) (table : flow_table_t) (idx : Slot)
    (visited : List Slot) (outcome : Outcome Slot) :
    scan_result target timestamp_seconds (expire_entry timestamp_seconds table idx) visited outcome =
      scan_result target timestamp_seconds table (idx :: visited) outcome := by
  cases outcome <;> rfl

/-- The probe loop is the search of the lapsed table, with the visited slots
lapsed on the way. -/
theorem probe_loop_eq_scan (target : Target) (new_entry : flow_table_entry_t) (timestamp_seconds : Int)
    (slots : List Slot) (first_available : Option Slot) (table : flow_table_t) :
    probe_loop target new_entry timestamp_seconds slots first_available table =
      scan_result target timestamp_seconds table
        (scan (table.lapsed timestamp_seconds) new_entry.key slots first_available).1
        (scan (table.lapsed timestamp_seconds) new_entry.key slots first_available).2 := by
  induction slots generalizing first_available table with
  | nil => rfl
  | cons idx rest ih =>
    have hentry : (expire_entry timestamp_seconds table idx).entries idx =
        (table.entries idx).lapse table.base_timestamp_seconds timestamp_seconds := by
      simp [expire_entry_entries]
    rw [probe_loop]
    simp only [hentry, flow_entry_compare_iff, flow_table_entry_t.lapse_key]
    rw [ih, ih, lapsed_expire_entry, scan_result_cons, scan_result_cons]
    generalize hlapse : (table.entries idx).lapse table.base_timestamp_seconds timestamp_seconds = entry at *
    have hcell : table.lapsed timestamp_seconds idx = entry.cell := by rw [flow_table_t.lapsed, hlapse]
    have hkey : (table.entries idx).key = entry.key := by rw [← hlapse, flow_table_entry_t.lapse_key]
    by_cases hlive : entry.Live
    · have hlivecell := hcell.trans (flow_table_entry_t.cell_of_live hlive)
      by_cases hmatch : entry.key = new_entry.key
      · rw [if_pos ⟨hlive, hkey.trans hmatch⟩, scan_cons_key rest _ (hlivecell.trans (by rw [hmatch]))]
        rfl
      · rw [if_neg (fun h => hmatch (hkey.symm.trans h.2)), if_neg (fun h => h hlive),
          scan_cons_other rest _ hlivecell hmatch]
    · rw [if_neg (fun h => hlive h.1), if_pos hlive]
      by_cases hempty : entry.occupied = .ENTRY_EMPTY
      · rw [if_pos hempty, scan_cons_empty rest _ (hcell.trans (flow_table_entry_t.cell_empty_iff.mpr hempty))]
        rfl
      · have hdeleted : entry.cell = .deleted := by
          cases hoccupied : entry.occupied <;>
            simp_all [flow_table_entry_t.cell, flow_table_entry_t.Live]
        rw [if_neg hempty, scan_cons_deleted rest _ (hcell.trans hdeleted)]

end bismark_passive.flow_table
