import BismarkPassive.FlowTable.Probe

namespace bismark_passive.flow_table

/-! `flow_table_advance_base_timestamp` -/

/-- What moving the base by `offset` makes of an entry. -/
def flow_table_entry_t.rebase (offset : Int) (entry : flow_table_entry_t) : flow_table_entry_t :=
  if entry.Live then
    if entry.last_update_time_seconds.toInt - offset < FLOW_TABLE_MIN_UPDATE_OFFSET then
      { entry with occupied := .ENTRY_DELETED }
    else
      { entry with
        last_update_time_seconds := Int16.ofInt (entry.last_update_time_seconds.toInt - offset) }
  else entry

theorem flow_table_entry_t.rebase_of_not_live {offset : Int} {entry : flow_table_entry_t} (h : ¬ entry.Live) :
    entry.rebase offset = entry :=
  if_neg h

theorem flow_table_entry_t.rebase_of_too_old {offset : Int} {entry : flow_table_entry_t} (hlive : entry.Live)
    (h : entry.last_update_time_seconds.toInt - offset < FLOW_TABLE_MIN_UPDATE_OFFSET) :
    entry.rebase offset = { entry with occupied := .ENTRY_DELETED } := by
  rw [flow_table_entry_t.rebase, if_pos hlive, if_pos h]

theorem flow_table_entry_t.rebase_of_kept {offset : Int} {entry : flow_table_entry_t} (hlive : entry.Live)
    (h : FLOW_TABLE_MIN_UPDATE_OFFSET ≤ entry.last_update_time_seconds.toInt - offset) :
    entry.rebase offset = { entry with
      last_update_time_seconds := Int16.ofInt (entry.last_update_time_seconds.toInt - offset) } := by
  rw [flow_table_entry_t.rebase, if_pos hlive, if_neg (not_lt.mpr h)]

/-- Rebasing touches one slot. -/
theorem advance_entry_entries (offset : Int) (table : flow_table_t) (idx other : Slot) :
    (advance_entry offset table idx).entries other =
      if other = idx then (table.entries idx).rebase offset else table.entries other := by
  unfold advance_entry flow_table_entry_t.rebase
  by_cases hlive : (table.entries idx).Live
  · simp only [if_pos hlive]
    split <;> simp only [flow_table_t.store_entries]
  · simp only [if_neg hlive]
    split
    · rename_i hother
      rw [hother]
    · rfl

@[simp] theorem flow_table_t.set_base_entries (table : flow_table_t) (new_timestamp : Int) :
    (table.set_base new_timestamp).entries = table.entries := rfl

theorem flow_table_advance_base_timestamp_entries (table : flow_table_t) (new_timestamp : Int) (idx : Slot) :
    (flow_table_advance_base_timestamp table new_timestamp).entries idx =
      (table.entries idx).rebase (new_timestamp - table.base_timestamp_seconds) := by
  rw [flow_table_advance_base_timestamp, flow_table_t.set_base_entries,
    slots.foldl_get flow_table_t.entries _ _ (advance_entry_entries _) nodup_all_slots,
    if_pos (mem_all_slots idx)]

@[simp] theorem flow_table_advance_base_timestamp_base (table : flow_table_t) (new_timestamp : Int) :
    (flow_table_advance_base_timestamp table new_timestamp).base_timestamp_seconds = new_timestamp := rfl

/-! `flow_table_write_update` -/

/-- The entry once its record has been sent. -/
def flow_table_entry_t.sent (entry : flow_table_entry_t) : flow_table_entry_t :=
  if entry.occupied = .ENTRY_OCCUPIED_BUT_UNSENT then { entry with occupied := .ENTRY_OCCUPIED } else entry

theorem flow_table_entry_t.sent_live_iff {entry : flow_table_entry_t} : entry.sent.Live ↔ entry.Live := by
  unfold flow_table_entry_t.sent flow_table_entry_t.Live
  split <;> simp_all

@[simp] theorem flow_table_entry_t.sent_last (entry : flow_table_entry_t) :
    entry.sent.last_update_time_seconds = entry.last_update_time_seconds := by
  unfold flow_table_entry_t.sent
  split <;> rfl

theorem flow_table_entry_t.sent_cell (entry : flow_table_entry_t) : entry.sent.cell = entry.cell := by
  unfold flow_table_entry_t.sent
  split
  · rename_i h
    simp only [flow_table_entry_t.cell, h]
    rfl
  · rfl

/-- The table after a write that got past some of the slots. -/
def flow_table_t.mark_sent (table : flow_table_t) (written : List Slot) : flow_table_t :=
  { table with entries := fun idx => if idx ∈ written then (table.entries idx).sent else table.entries idx }

/-- An unsent entry that was written is marked. -/
theorem flow_table_t.mark_sent_cons_of_unsent {table : flow_table_t} {idx : Slot}
    (h : (table.entries idx).occupied = .ENTRY_OCCUPIED_BUT_UNSENT) (written : List Slot) :
    (table.store idx { table.entries idx with occupied := .ENTRY_OCCUPIED }).mark_sent written =
      table.mark_sent (idx :: written) := by
  simp only [flow_table_t.mark_sent, flow_table_t.store, flow_table_t.mk.injEq, and_self, and_true]
  funext other
  by_cases hother : other = idx
  · subst hother
    simp [flow_table_entry_t.sent, h]
  · simp [hother, Function.update_of_ne]

/-- Marking an entry that is not unsent does nothing. -/
theorem flow_table_t.mark_sent_cons_of_other {table : flow_table_t} {idx : Slot}
    (h : (table.entries idx).occupied ≠ .ENTRY_OCCUPIED_BUT_UNSENT) (written : List Slot) :
    table.mark_sent written = table.mark_sent (idx :: written) := by
  simp only [flow_table_t.mark_sent, flow_table_t.mk.injEq, and_self, and_true]
  funext other
  by_cases hother : other = idx
  · subst hother
    simp [flow_table_entry_t.sent, h]
  · simp [hother]

theorem flow_table_t.mark_sent_nil (table : flow_table_t) : table.mark_sent [] = table := by
  simp [flow_table_t.mark_sent]

theorem flow_table_t.mark_sent_all (table : flow_table_t) (idx : Slot) :
    (table.mark_sent all_slots).entries idx = (table.entries idx).sent :=
  if_pos (mem_all_slots idx)

/-- However the calls end, the write only marks entries as sent. -/
theorem write_entries_marks (s : Session) (range : List Slot) (table : flow_table_t) (handle : gzFile) :
    ∃ written, (write_entries s range table handle).2.1 = table.mark_sent written := by
  induction range generalizing table handle with
  | nil => exact ⟨[], table.mark_sent_nil.symm⟩
  | cons idx rest ih =>
    rw [write_entries]
    by_cases h : (table.entries idx).occupied = .ENTRY_OCCUPIED_BUT_UNSENT
    · simp only [if_pos h]
      cases flow_line s idx (table.entries idx) with
      | none => exact ⟨[], table.mark_sent_nil.symm⟩
      | some line =>
        simp only
        split
        · exact ⟨[], table.mark_sent_nil.symm⟩
        · obtain ⟨written, hwritten⟩ := ih
            (table.store idx { table.entries idx with occupied := .ENTRY_OCCUPIED }) (gzprintf handle line).2
          exact ⟨idx :: written, hwritten.trans (flow_table_t.mark_sent_cons_of_unsent h written)⟩
    · simp only [if_neg h]
      obtain ⟨written, hwritten⟩ := ih table handle
      exact ⟨written, hwritten⟩

theorem write_end_table (end_of_loop : writer_result × flow_table_t × gzFile) :
    (write_end end_of_loop).2.1 = end_of_loop.2.1 := by
  unfold write_end
  split <;> rfl

theorem flow_table_write_update_marks (s : Session) (table : flow_table_t) (handle : gzFile) :
    ∃ written, (flow_table_write_update s table handle).2.1 = table.mark_sent written := by
  simp only [flow_table_write_update]
  split
  · exact ⟨[], table.mark_sent_nil.symm⟩
  · rw [write_end_table]
    exact write_entries_marks s all_slots table _

/-- The records of the unsent entries among these slots, in slot order. -/
def flow_lines (s : Session) (table : flow_table_t) (range : List Slot) : List Line :=
  range.filterMap fun idx =>
    if (table.entries idx).occupied = .ENTRY_OCCUPIED_BUT_UNSENT then flow_line s idx (table.entries idx)
    else none

theorem flow_lines_store {s : Session} {table : flow_table_t} {idx : Slot} {range : List Slot}
    (hnotmem : idx ∉ range) (entry : flow_table_entry_t) :
    flow_lines s (table.store idx entry) range = flow_lines s table range := by
  apply List.filterMap_congr
  intro other hother
  have hne : other ≠ idx := fun h => hnotmem (h ▸ hother)
  rw [flow_table_t.store_entries, if_neg hne]

/-- A write whose calls all succeed prints the record of every unsent entry
and marks exactly these as sent. -/
theorem write_entries_healthy (s : Session) {range : List Slot} (hnodup : range.Nodup) (table : flow_table_t)
    {handle : gzFile} (hhandle : handle.Healthy) {table' : flow_table_t} {handle' : gzFile} {result : Int}
    (hwrite : write_entries s range table handle = (some result, table', handle')) :
    result = 0 ∧ table' = table.mark_sent range ∧ handle' = handle.append (flow_lines s table range) ∧
      ∀ idx ∈ range, (table.entries idx).occupied = .ENTRY_OCCUPIED_BUT_UNSENT →
        ∃ line, flow_line s idx (table.entries idx) = some line := by
  induction range generalizing table handle with
  | nil =>
    simp only [write_entries, Prod.mk.injEq, Option.some.injEq] at hwrite
    obtain ⟨rfl, rfl, rfl⟩ := hwrite
    simp [flow_lines, table.mark_sent_nil]
  | cons idx rest ih =>
    obtain ⟨hnotmem, hrest⟩ := List.nodup_cons.mp hnodup
    rw [write_entries] at hwrite
    by_cases h : (table.entries idx).occupied = .ENTRY_OCCUPIED_BUT_UNSENT
    · simp only [if_pos h] at hwrite
      cases hline : flow_line s idx (table.entries idx) with
      | none => simp [hline] at hwrite
      | some line =>
        obtain ⟨hreturned, happend⟩ := gzprintf_healthy hhandle line
        simp only [hline, if_neg hreturned, happend] at hwrite
        obtain ⟨hresult, htable, hhandle', hlines⟩ := ih hrest _ (hhandle.append [line]) hwrite
        refine ⟨hresult, ?_, ?_, ?_⟩
        · rw [htable, flow_table_t.mark_sent_cons_of_unsent h]
        · rw [hhandle', gzFile.append_append, flow_lines_store hnotmem]
          simp [flow_lines, h, hline]
        · intro other hother hunsent
          obtain rfl | hmem := List.mem_cons.mp hother
          · exact ⟨line, hline⟩
          · have hne : other ≠ idx := fun heq => hnotmem (heq ▸ hmem)
            have := hlines other hmem
            rw [flow_table_t.store_entries, if_neg hne] at this
            exact this hunsent
    · simp only [if_neg h] at hwrite
      obtain ⟨hresult, htable, hhandle', hlines⟩ := ih hrest table hhandle hwrite
      refine ⟨hresult, ?_, ?_, ?_⟩
      · rw [htable, flow_table_t.mark_sent_cons_of_other h]
      · simp [hhandle', flow_lines, h]
      · intro other hother hunsent
        obtain rfl | hmem := List.mem_cons.mp hother
        · exact absurd hunsent h
        · exact hlines other hmem hunsent

def flow_section (s : Session) (table : flow_table_t) : List Line :=
  .flows table.base_timestamp_seconds table.num_elements table.num_expired_flows table.num_dropped_flows ::
    flow_lines s table all_slots ++ [.blank]

theorem write_end_healthy {table table' : flow_table_t} {handle handle' : gzFile} {result : Int}
    (hhandle : handle.Healthy)
    (hend : write_end (some 0, table, handle) = (some result, table', handle')) :
    result = 0 ∧ table' = table ∧ handle' = handle.append [.blank] := by
  obtain ⟨hblank, hblank'⟩ := gzprintf_healthy hhandle .blank
  simp only [write_end, if_neg hblank, hblank', Prod.mk.injEq, Option.some.injEq] at hend
  exact ⟨hend.1.symm, hend.2.1.symm, hend.2.2.symm⟩

/-- A file that takes every line gets the whole section, and every entry is marked. -/
theorem flow_table_write_update_healthy (s : Session) (table : flow_table_t) {handle : gzFile}
    (hhandle : handle.Healthy) {table' : flow_table_t} {handle' : gzFile} {result : Int}
    (hwrite : flow_table_write_update s table handle = (some result, table', handle')) :
    result = 0 ∧ table' = table.mark_sent all_slots ∧ handle' = handle.append (flow_section s table) ∧
      ∀ idx, (table.entries idx).occupied = .ENTRY_OCCUPIED_BUT_UNSENT →
        ∃ line, flow_line s idx (table.entries idx) = some line := by
  obtain ⟨hreturned, happend⟩ := gzprintf_healthy hhandle (.flows table.base_timestamp_seconds
    table.num_elements table.num_expired_flows table.num_dropped_flows)
  rw [flow_table_write_update] at hwrite
  simp only [if_neg hreturned, happend] at hwrite
  rcases hentries : write_entries s all_slots table (handle.append [.flows table.base_timestamp_seconds
    table.num_elements table.num_expired_flows table.num_dropped_flows]) with ⟨status, table₁, handle₁⟩
  rw [hentries] at hwrite
  cases status with
  | none => simp [write_end] at hwrite
  | some status =>
    obtain ⟨rfl, htable, hhandle₁, hlines⟩ := write_entries_healthy s nodup_all_slots table
      (hhandle.append _) hentries
    have hhealthy : handle₁.Healthy := hhandle₁ ▸ (hhandle.append _).append _
    obtain ⟨hresult, htable', hhandle'⟩ := write_end_healthy hhealthy hwrite
    refine ⟨hresult, htable'.trans htable, ?_, fun idx => hlines idx (mem_all_slots idx)⟩
    rw [hhandle', hhandle₁, gzFile.append_append, gzFile.append_append, flow_section,
      List.singleton_append, List.cons_append]

end bismark_passive.flow_table
