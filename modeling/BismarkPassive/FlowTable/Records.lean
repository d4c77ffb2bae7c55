import BismarkPassive.FlowTable.Run

namespace bismark_passive.flow_table

variable {s : Session} {target : Target} {hash_function : flow_key → UInt32} {table table' : flow_table_t}

/-- The flows inserted since the last update wait in their slots to be sent,
and no other entry does. -/
structure flow_table_t.Pending (table : flow_table_t) (inserted : List (Slot × flow_table_entry_t)) : Prop where
  nodup : (inserted.map Prod.fst).Nodup
  unsent_iff : ∀ idx, (table.entries idx).occupied = .ENTRY_OCCUPIED_BUT_UNSENT ↔ idx ∈ inserted.map Prod.fst
  stored : ∀ idx entry, (idx, entry) ∈ inserted → (table.entries idx).SameRecord entry

theorem flow_table_init_pending : flow_table_init.Pending [] where
  nodup := List.nodup_nil
  unsent_iff idx := by simp [flow_table_init, flow_table_entry_init]
  stored idx entry h := absurd h List.not_mem_nil

theorem unsent_live {entry : flow_table_entry_t} (h : entry.occupied = .ENTRY_OCCUPIED_BUT_UNSENT) : entry.Live :=
  .inr h

/-- Only entries that have been sent expire. -/
theorem unsent_not_expired {entry : flow_table_entry_t} (h : entry.occupied = .ENTRY_OCCUPIED_BUT_UNSENT)
    (base timestamp_seconds : Int) : ¬ entry.Expired base timestamp_seconds := by
  rintro ⟨hoccupied, _⟩
  rw [h] at hoccupied
  cases hoccupied

section processed

variable {new_entry : flow_table_entry_t} {timestamp_seconds : Int} {id : Nat} {insertion : Option Slot}
  {inserted : List (Slot × flow_table_entry_t)}

/-- After a call an entry is unsent if it was before or has just been inserted. -/
theorem Processed.unsent_iff
    (h : Processed target hash_function table new_entry timestamp_seconds id insertion table') (idx : Slot) :
    (table'.entries idx).occupied = .ENTRY_OCCUPIED_BUT_UNSENT ↔
      (table.entries idx).occupied = .ENTRY_OCCUPIED_BUT_UNSENT ∨ insertion = some idx := by
  constructor
  · intro hunsent
    by_cases hnew : insertion = some idx
    · exact .inr hnew
    · obtain ⟨_, hoccupied, _⟩ := h.survivor hnew (unsent_live hunsent)
      exact .inl (hoccupied.symm.trans hunsent)
  · rintro (hunsent | hnew)
    · obtain ⟨_, hoccupied, _⟩ := h.stays (unsent_live hunsent) (unsent_not_expired hunsent _ _)
      exact hoccupied.trans hunsent
    · exact (h.arrives hnew).2.1

/-- A call neither expires nor overwrites a waiting flow. -/
theorem Processed.pending
    (h : Processed target hash_function table new_entry timestamp_seconds id insertion table')
    (hpending : table.Pending inserted) :
    table'.Pending (inserted ++ insertion.toList.map fun idx => (idx, new_entry)) := by
  have hslots : (inserted ++ insertion.toList.map fun idx => (idx, new_entry)).map Prod.fst =
      inserted.map Prod.fst ++ insertion.toList := by
    simp [Function.comp_def]
  refine ⟨?_, fun idx => ?_, fun idx entry hmem => ?_⟩
  · rw [hslots, List.nodup_append]
    refine ⟨hpending.nodup, by cases insertion <;> simp, fun idx hold other hnew heq => ?_⟩
    subst heq
    have hunsent := (hpending.unsent_iff idx).mpr hold
    obtain ⟨hother, _⟩ := h.stays (unsent_live hunsent) (unsent_not_expired hunsent _ _)
    exact hother (Option.mem_toList.mp hnew)
  · rw [h.unsent_iff, hpending.unsent_iff, hslots, List.mem_append, Option.mem_toList]
  · obtain hold | hnew := List.mem_append.mp hmem
    · have hunsent := (hpending.unsent_iff idx).mpr (List.mem_map_of_mem hold)
      obtain ⟨_, _, hrecord⟩ := h.stays (unsent_live hunsent) (unsent_not_expired hunsent _ _)
      exact hrecord.trans (hpending.stored idx entry hold)
    · obtain ⟨slot, hslot, heq⟩ := List.mem_map.mp hnew
      simp only [Prod.mk.injEq] at heq
      obtain ⟨rfl, rfl⟩ := heq
      exact (h.arrives (Option.mem_toList.mp hslot)).2.2

end processed

theorem flow_table_entry_t.sent_occupied_ne (entry : flow_table_entry_t) :
    entry.sent.occupied ≠ .ENTRY_OCCUPIED_BUT_UNSENT := by
  unfold flow_table_entry_t.sent
  split
  · simp
  · rename_i h
    exact h

theorem flow_table_entry_t.rebase_unsent {offset : Int} {entry : flow_table_entry_t}
    (h : (entry.rebase offset).occupied = .ENTRY_OCCUPIED_BUT_UNSENT) :
    entry.occupied = .ENTRY_OCCUPIED_BUT_UNSENT := by
  unfold flow_table_entry_t.rebase at h
  split at h
  · split at h
    · simp at h
    · exact h
  · exact h

/-- An entry that is live after an update was live before, with the same flow. -/
theorem advance_mark_sent_survivor {table : flow_table_t} {new_timestamp : Int} {idx : Slot}
    (hlive : ((flow_table_advance_base_timestamp (table.mark_sent all_slots) new_timestamp).entries idx).Live) :
    (table.entries idx).Live ∧
      ((flow_table_advance_base_timestamp (table.mark_sent all_slots) new_timestamp).entries idx).SameRecord
        (table.entries idx) := by
  rw [flow_table_advance_base_timestamp_entries, flow_table_t.mark_sent_all] at hlive ⊢
  refine ⟨flow_table_entry_t.sent_live_iff.mp (flow_table_entry_t.rebase_live hlive).1, ?_⟩
  exact (flow_table_entry_t.rebase_record _ _).trans (flow_table_entry_t.sent_record _)

/-- The update that has sent everything leaves nothing to wait. -/
theorem advance_mark_sent_pending (table : flow_table_t) (new_timestamp : Int) :
    (flow_table_advance_base_timestamp (table.mark_sent all_slots) new_timestamp).Pending [] := by
  refine ⟨List.nodup_nil, fun idx => ?_, fun idx entry h => absurd h List.not_mem_nil⟩
  rw [List.map_nil, iff_false_right List.not_mem_nil]
  intro hunsent
  rw [flow_table_advance_base_timestamp_entries] at hunsent
  have hsent := flow_table_entry_t.rebase_unsent hunsent
  rw [flow_table_t.mark_sent_all] at hsent
  exact flow_table_entry_t.sent_occupied_ne _ hsent

/-- The records of the unsent entries, if they can all be composed. -/
theorem flow_lines_map_some (range : List Slot)
    (hcomposed : ∀ idx, (table.entries idx).occupied = .ENTRY_OCCUPIED_BUT_UNSENT →
      ∃ line, flow_line s idx (table.entries idx) = some line) :
    (flow_lines s table range).map some =
      (range.filter fun idx => (table.entries idx).occupied = .ENTRY_OCCUPIED_BUT_UNSENT).map fun idx =>
        flow_line s idx (table.entries idx) := by
  induction range with
  | nil => rfl
  | cons idx range ih =>
    by_cases hunsent : (table.entries idx).occupied = .ENTRY_OCCUPIED_BUT_UNSENT
    · obtain ⟨line, hline⟩ := hcomposed idx hunsent
      have hfirst : flow_lines s table (idx :: range) = line :: flow_lines s table range := by
        simp [flow_lines, hunsent, hline]
      rw [hfirst, List.map_cons, ih, List.filter_cons_of_pos (by simpa using hunsent), List.map_cons, hline]
    · have hfirst : flow_lines s table (idx :: range) = flow_lines s table range := by
        simp [flow_lines, hunsent]
      rw [hfirst, ih, List.filter_cons_of_neg (by simpa using hunsent)]

/-- The records of an update are those of the waiting flows, each once. -/
theorem flow_table_t.Pending.flow_lines_perm {inserted : List (Slot × flow_table_entry_t)}
    (hpending : table.Pending inserted)
    (hcomposed : ∀ idx, (table.entries idx).occupied = .ENTRY_OCCUPIED_BUT_UNSENT →
      ∃ line, flow_line s idx (table.entries idx) = some line) :
    ((flow_lines s table all_slots).map some).Perm
      (inserted.map fun insertion => flow_line s insertion.1 insertion.2) := by
  have hslots : (all_slots.filter fun idx => (table.entries idx).occupied = .ENTRY_OCCUPIED_BUT_UNSENT).Perm
      (inserted.map Prod.fst) := by
    rw [List.perm_ext_iff_of_nodup (nodup_all_slots.filter _) hpending.nodup]
    intro idx
    rw [List.mem_filter, decide_eq_true_eq, hpending.unsent_iff, and_iff_right (mem_all_slots idx)]
  have hrecords : (inserted.map Prod.fst).map (fun idx => flow_line s idx (table.entries idx)) =
      inserted.map fun insertion => flow_line s insertion.1 insertion.2 := by
    rw [List.map_map]
    apply List.map_congr_left
    intro insertion hinsertion
    exact flow_line_congr s insertion.1 (hpending.stored _ _ hinsertion)
  rw [flow_lines_map_some all_slots hcomposed, ← hrecords]
  exact hslots.map _

end bismark_passive.flow_table
