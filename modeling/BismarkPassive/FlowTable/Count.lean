import BismarkPassive.FlowTable.ProcessFlow
import BismarkPassive.FlowTable.Update

namespace bismark_passive.flow_table

def flow_table_t.live_count (table : flow_table_t) : Nat := slots.count flow_table_entry_t.Live table.entries

/-- The element counter is the number of live entries. -/
def flow_table_t.Counted (table : flow_table_t) : Prop := table.num_elements.toNat = table.live_count

theorem flow_table_t.live_count_le (table : flow_table_t) : table.live_count ≤ FLOW_TABLE_ENTRIES := by
  have h : table.live_count ≤ Fintype.card Slot := slots.count_le_card table.entries
  rwa [Fintype.card_fin] at h

theorem flow_table_t.Counted.pos {table : flow_table_t} (h : table.Counted) {idx : Slot}
    (hlive : (table.entries idx).Live) : 0 < table.num_elements := by
  rw [UInt32.lt_iff_toNat_lt, h]
  exact slots.count_pos hlive

theorem flow_table_t.Counted.no_live {table : flow_table_t} (h : table.Counted)
    (hzero : table.num_elements = 0) (idx : Slot) : ¬ (table.entries idx).Live := by
  apply slots.count_eq_zero_iff.mp
  rw [flow_table_t.Counted, hzero] at h
  exact h.symm

theorem flow_table_init_counted : flow_table_init.Counted := by
  have hzero : slots.count flow_table_entry_t.Live flow_table_init.entries = 0 :=
    slots.count_eq_zero_iff.mpr fun idx => by
      simp [flow_table_init, flow_table_entry_init, flow_table_entry_t.Live]
  rw [flow_table_t.Counted, flow_table_t.live_count, hzero]
  rfl

section store

variable {table : flow_table_t} {idx : Slot} {entry : flow_table_entry_t}

theorem live_count_store_lose (hold : (table.entries idx).Live) (hnew : ¬ entry.Live) :
    (table.store idx entry).live_count + 1 = table.live_count :=
  slots.count_update_lose hold hnew

theorem live_count_store_gain (hold : ¬ (table.entries idx).Live) (hnew : entry.Live) :
    (table.store idx entry).live_count = table.live_count + 1 :=
  slots.count_update_gain hold hnew

theorem flow_table_t.Counted.store_keep (h : table.Counted) (hkeep : entry.Live ↔ (table.entries idx).Live) :
    (table.store idx entry).Counted :=
  h.trans (slots.count_update_keep hkeep).symm

/-- Deleting a live entry and decrementing the counter keeps it exact. -/
theorem flow_table_t.Counted.delete (h : table.Counted) (hold : (table.entries idx).Live) (hnew : ¬ entry.Live) :
    (table.num_elements - 1).toNat = (table.store idx entry).live_count := by
  have hpos : (1 : UInt32) ≤ table.num_elements := by
    have := h.pos hold
    rw [UInt32.lt_iff_toNat_lt] at this
    rw [UInt32.le_iff_toNat_le]
    exact this
  have hcount := live_count_store_lose hold hnew
  rw [UInt32.toNat_sub_of_le _ _ hpos, h, ← hcount, UInt32.toNat_one, Nat.add_sub_cancel]

end store

theorem deleted_not_live (entry : flow_table_entry_t) :
    ¬ flow_table_entry_t.Live { entry with occupied := .ENTRY_DELETED } := by
  simp [flow_table_entry_t.Live]

/-- Expiring an entry takes it off the count. -/
theorem expire_entry_counted (timestamp_seconds : Int) {table : flow_table_t} (idx : Slot) (h : table.Counted) :
    (expire_entry timestamp_seconds table idx).Counted := by
  unfold expire_entry
  simp only
  split
  · rename_i hexpired
    rw [flow_table_t.Counted]
    exact h.delete (.inl hexpired.1) (deleted_not_live _)
  · exact h

theorem expire_entries_counted (timestamp_seconds : Int) {table : flow_table_t} (visited : List Slot)
    (h : table.Counted) : (expire_entries timestamp_seconds table visited).Counted :=
  slots.foldl_preserves _ _ (fun _ idx => expire_entry_counted timestamp_seconds idx) visited h

theorem touch_entry_counted (target : Target) (timestamp_seconds : Int) {table : flow_table_t} (idx : Slot)
    (h : table.Counted) : (touch_entry target timestamp_seconds table idx).Counted := by
  obtain ⟨num_packets, htouch⟩ := touch_entry_spec target timestamp_seconds table idx
  rw [htouch]
  exact h.store_keep Iff.rfl

theorem insert_entry_live_count (target : Target) (new_entry : flow_table_entry_t) (timestamp_seconds : Int)
    {table : flow_table_t} {idx : Slot} (hfree : ¬ (table.entries idx).Live) :
    (insert_entry target new_entry timestamp_seconds table idx).live_count = table.live_count + 1 := by
  simp only [insert_entry]
  exact live_count_store_gain hfree (.inr rfl)

/-- Inserting one into a free slot adds it. -/
theorem insert_entry_counted (target : Target) (new_entry : flow_table_entry_t) (timestamp_seconds : Int)
    {table : flow_table_t} {idx : Slot} (h : table.Counted) (hfree : ¬ (table.entries idx).Live) :
    (insert_entry target new_entry timestamp_seconds table idx).Counted := by
  have hlive : ((insert_entry target new_entry timestamp_seconds table idx).entries idx).Live :=
    .inr (insert_entry_occupied ..)
  have hcount := insert_entry_live_count target new_entry timestamp_seconds hfree
  have hbound := (insert_entry target new_entry timestamp_seconds table idx).live_count_le
  have hnum : (insert_entry target new_entry timestamp_seconds table idx).num_elements =
      table.num_elements + 1 := rfl
  rw [hcount, FLOW_TABLE_ENTRIES_eq] at hbound
  rw [flow_table_t.Counted, hnum, UInt32.toNat_add, h, hcount, UInt32.toNat_one]
  exact Nat.mod_eq_of_lt (by omega)

/-- Processing a packet keeps the count right. -/
theorem Processed.counted {target : Target} {hash_function : flow_key → UInt32} {table table' : flow_table_t}
    {new_entry : flow_table_entry_t} {timestamp_seconds : Int} {id : Nat} {insertion : Option Slot}
    (hcounted : table.Counted)
    (h : Processed target hash_function table new_entry timestamp_seconds id insertion table') : table'.Counted := by
  cases h with
  | refused => exact hcounted
  | matched visited idx => exact touch_entry_counted _ _ _ (expire_entries_counted _ _ hcounted)
  | full => exact hcounted
  | inserted visited idx hadmitted hsearch =>
    exact insert_entry_counted _ _ _ (expire_entries_counted _ _ hcounted) (search_available hsearch)

/-- Moving the base keeps it right entry by entry. -/
theorem advance_entry_counted (offset : Int) {table : flow_table_t} (idx : Slot) (h : table.Counted) :
    (advance_entry offset table idx).Counted := by
  unfold advance_entry
  simp only
  split
  · rename_i hlive
    split
    · rw [flow_table_t.Counted]
      exact h.delete hlive (deleted_not_live _)
    · exact h.store_keep Iff.rfl
  · exact h

theorem set_base_counted {table : flow_table_t} (new_timestamp : Int) (h : table.Counted) :
    (table.set_base new_timestamp).Counted := h

theorem flow_table_advance_base_timestamp_counted {table : flow_table_t} (new_timestamp : Int)
    (h : table.Counted) : (flow_table_advance_base_timestamp table new_timestamp).Counted := by
  rw [flow_table_advance_base_timestamp]
  apply set_base_counted
  exact slots.foldl_preserves flow_table_t.Counted _ (fun _ idx => advance_entry_counted _ idx) all_slots h

theorem flow_table_t.mark_sent_live_iff (table : flow_table_t) (written : List Slot) (idx : Slot) :
    ((table.mark_sent written).entries idx).Live ↔ (table.entries idx).Live := by
  simp only [flow_table_t.mark_sent]
  split
  · exact flow_table_entry_t.sent_live_iff
  · exact Iff.rfl

theorem mark_sent_counted {table : flow_table_t} (written : List Slot) (h : table.Counted) :
    (table.mark_sent written).Counted :=
  h.trans (slots.count_congr (table.mark_sent_live_iff written)).symm

end bismark_passive.flow_table
