import BismarkPassive.FlowTable.ProcessFlow
import BismarkPassive.FlowTable.Update

namespace bismark_passive.flow_table

open probing

variable {target : Target} {hash_function : flow_key → UInt32} {path : flow_key → List Slot}

theorem flow_table_t.store_cells (table : flow_table_t) (idx : Slot) (entry : flow_table_entry_t) :
    (table.store idx entry).cells = Function.update table.cells idx entry.cell := by
  funext other
  rw [flow_table_t.cells, flow_table_t.store_entries, Function.update_apply]
  split <;> rfl

theorem flow_table_t.store_cells_keep {table : flow_table_t} {idx : Slot} {entry : flow_table_entry_t}
    (h : entry.cell = (table.entries idx).cell) : (table.store idx entry).cells = table.cells := by
  rw [flow_table_t.store_cells, h]
  exact Function.update_eq_self idx table.cells

/-- Overwriting a live entry with a deleted one is a deletion of open addressing. -/
theorem delete_steps {table : flow_table_t} {idx : Slot} (hlive : (table.entries idx).Live) :
    Steps path table.cells
      (table.store idx { table.entries idx with occupied := .ENTRY_DELETED }).cells := by
  rw [flow_table_t.store_cells]
  exact .single (.delete (flow_table_entry_t.cell_of_live hlive))

theorem keep_steps {table : flow_table_t} {idx : Slot} {entry : flow_table_entry_t}
    (h : entry.cell = (table.entries idx).cell) : Steps path table.cells (table.store idx entry).cells := by
  rw [flow_table_t.store_cells_keep h]

theorem expire_entry_steps (timestamp_seconds : Int) (table : flow_table_t) (idx : Slot) :
    Steps path table.cells (expire_entry timestamp_seconds table idx).cells := by
  by_cases h : (table.entries idx).Expired table.base_timestamp_seconds timestamp_seconds
  · simp only [expire_entry, if_pos h]
    exact delete_steps (.inl h.1)
  · simp only [expire_entry, if_neg h]
    exact .refl

theorem expire_entries_steps (timestamp_seconds : Int) (table : flow_table_t) (visited : List Slot) :
    Steps path table.cells (expire_entries timestamp_seconds table visited).cells :=
  slots.foldl_preserves (fun t => Steps path table.cells t.cells) _
    (fun t idx h => h.trans (expire_entry_steps timestamp_seconds t idx)) visited .refl

theorem touch_entry_cells (timestamp_seconds : Int) (table : flow_table_t) (idx : Slot) :
    (touch_entry target timestamp_seconds table idx).cells = table.cells := by
  obtain ⟨num_packets, htouch⟩ := touch_entry_spec target timestamp_seconds table idx
  rw [htouch]
  exact flow_table_t.store_cells_keep rfl

theorem insert_entry_cells (new_entry : flow_table_entry_t) (timestamp_seconds : Int) (table : flow_table_t)
    (idx : Slot) :
    (insert_entry target new_entry timestamp_seconds table idx).cells =
      Function.update table.cells idx (.live new_entry.key) :=
  flow_table_t.store_cells table idx _

/-- A call on a well-probed table deletes some cells and inserts at most one,
each as open addressing allows it. -/
theorem Processed.steps {table table' : flow_table_t} {new_entry : flow_table_entry_t}
    {timestamp_seconds : Int} {id : Nat} {insertion : Option Slot}
    (hprobed : WellProbed (probes target hash_function) table.cells)
    (h : Processed target hash_function table new_entry timestamp_seconds id insertion table') :
    Steps (probes target hash_function) table.cells table'.cells := by
  cases h with
  | refused => exact .refl
  | matched visited idx =>
    rw [touch_entry_cells]
    exact expire_entries_steps timestamp_seconds table visited
  | full => exact .refl
  | inserted visited idx hadmitted hsearch =>
    have hexpire : Steps (probes target hash_function) table.cells
        (expire_entries timestamp_seconds table visited).cells :=
      expire_entries_steps timestamp_seconds table visited
    have hscan := congrArg Prod.snd (search_eq_scan_cells hsearch)
    obtain ⟨hreach, hfree⟩ := scan_available_reaches hscan
    rw [insert_entry_cells]
    exact hexpire.tail (.insert hfree ((hprobed.steps hexpire).scan_absent hscan) hreach)

theorem advance_entry_steps (offset : Int) (table : flow_table_t) (idx : Slot) :
    Steps path table.cells (advance_entry offset table idx).cells := by
  by_cases hlive : (table.entries idx).Live
  · simp only [advance_entry, if_pos hlive]
    split
    · exact delete_steps hlive
    · exact keep_steps rfl
  · simp only [advance_entry, if_neg hlive]
    exact .refl

theorem set_base_cells (table : flow_table_t) (new_timestamp : Int) :
    (table.set_base new_timestamp).cells = table.cells := rfl

theorem flow_table_advance_base_timestamp_steps (table : flow_table_t) (new_timestamp : Int) :
    Steps path table.cells (flow_table_advance_base_timestamp table new_timestamp).cells := by
  rw [flow_table_advance_base_timestamp, set_base_cells]
  exact slots.foldl_preserves (fun t => Steps path table.cells t.cells) _
    (fun t idx h => h.trans (advance_entry_steps _ t idx)) all_slots .refl

theorem mark_sent_cells (table : flow_table_t) (written : List Slot) :
    (table.mark_sent written).cells = table.cells := by
  funext idx
  simp only [flow_table_t.cells, flow_table_t.mark_sent]
  split
  · exact flow_table_entry_t.sent_cell _
  · rfl

theorem flow_table_init_wellProbed : WellProbed path flow_table_init.cells :=
  wellProbed_of_no_live fun _ _ h => by
    simp [flow_table_t.cells, flow_table_init, flow_table_entry_init, flow_table_entry_t.cell] at h

end bismark_passive.flow_table
