import BismarkPassive.Machine.Execution
import BismarkPassive.Machine.History
import BismarkPassive.FlowTable.Count
import BismarkPassive.FlowTable.Cells

namespace bismark_passive.flow_table

open machine probing

/-- The calls that change a flow table. The update may be written to a file
whose calls fail anywhere. -/
inductive flow_op where
  | process_flow (new_entry : flow_table_entry_t) (timestamp_seconds : Int)
  | write_update (handle : gzFile)
  | advance_base_timestamp (new_timestamp : Int)

inductive flow_output where
  | processed (id : Nat) (insertion : Option Slot)
  | done

/-- One call on the table; `none` when the process dies in it. -/
def flow_step (s : Session) (hash_function : flow_key → UInt32) (table : flow_table_t) :
    flow_op → Option (flow_table_t × flow_output)
  | .process_flow new_entry timestamp_seconds =>
    let (id, table') := flow_table_process_flow s.target hash_function table new_entry timestamp_seconds
    some (table', .processed id
      (flow_table_insertion s.target hash_function table new_entry timestamp_seconds))
  | .write_update handle =>
    let (result, table', _) := flow_table_write_update s table handle
    result.map fun _ => (table', .done)
  | .advance_base_timestamp new_timestamp =>
    some (flow_table_advance_base_timestamp table new_timestamp, .done)

abbrev flow_run (s : Session) (hash_function : flow_key → UInt32) :
    List (flow_op × flow_output) → flow_table_t → Prop :=
  Execution (flow_step s hash_function) flow_table_init

variable {s : Session} {hash_function : flow_key → UInt32}

/-- The three ways a step of the flow table goes. -/
theorem flow_step_cases {table table' : flow_table_t} {op : flow_op} {output : flow_output}
    (h : flow_step s hash_function table op = some (table', output)) :
    (∃ new_entry timestamp_seconds id insertion, op = .process_flow new_entry timestamp_seconds ∧
      output = .processed id insertion ∧
      Processed s.target hash_function table new_entry timestamp_seconds id insertion table') ∨
    (∃ handle written, op = .write_update handle ∧ output = .done ∧ table' = table.mark_sent written) ∨
    (∃ new_timestamp, op = .advance_base_timestamp new_timestamp ∧ output = .done ∧
      table' = flow_table_advance_base_timestamp table new_timestamp) := by
  cases op with
  | process_flow new_entry timestamp_seconds =>
    simp only [flow_step, Option.some.injEq, Prod.mk.injEq] at h
    obtain ⟨rfl, rfl⟩ := h
    exact .inl ⟨_, _, _, _, rfl, rfl, flow_table_process_flow_spec ..⟩
  | write_update handle =>
    obtain ⟨written, hwritten⟩ := flow_table_write_update_marks s table handle
    simp only [flow_step, Option.map_eq_some_iff, Prod.mk.injEq] at h
    obtain ⟨_, _, rfl, rfl⟩ := h
    exact .inr (.inl ⟨handle, written, rfl, rfl, hwritten⟩)
  | advance_base_timestamp new_timestamp =>
    simp only [flow_step, Option.some.injEq, Prod.mk.injEq] at h
    obtain ⟨rfl, rfl⟩ := h
    exact .inr (.inr ⟨new_timestamp, rfl, rfl, rfl⟩)

/-- Each call takes the cells through steps that keep the probe paths intact. -/
theorem flow_step_steps {table table' : flow_table_t} {op : flow_op} {output : flow_output}
    (hprobed : WellProbed (probes s.target hash_function) table.cells)
    (h : flow_step s hash_function table op = some (table', output)) :
    Steps (probes s.target hash_function) table.cells table'.cells := by
  obtain ⟨_, _, _, _, rfl, rfl, hprocessed⟩ | ⟨_, written, rfl, rfl, rfl⟩ | ⟨_, rfl, rfl, rfl⟩ := flow_step_cases h
  · exact hprocessed.steps hprobed
  · rw [mark_sent_cells]
  · exact flow_table_advance_base_timestamp_steps table _

theorem flow_step_counted {table table' : flow_table_t} {op : flow_op} {output : flow_output}
    (hcounted : table.Counted) (h : flow_step s hash_function table op = some (table', output)) :
    table'.Counted := by
  obtain ⟨_, _, _, _, rfl, rfl, hprocessed⟩ | ⟨_, written, rfl, rfl, rfl⟩ | ⟨_, rfl, rfl, rfl⟩ := flow_step_cases h
  · exact hprocessed.counted hcounted
  · exact mark_sent_counted written hcounted
  · exact flow_table_advance_base_timestamp_counted _ hcounted

/-- What holds of a flow table in every reachable state. -/
structure flow_table_t.Sound (target : Target) (hash_function : flow_key → UInt32) (table : flow_table_t) :
    Prop where
  counted : table.Counted
  probed : WellProbed (probes target hash_function) table.cells

theorem flow_table_init_sound (target : Target) (hash_function : flow_key → UInt32) :
    flow_table_init.Sound target hash_function :=
  ⟨flow_table_init_counted, flow_table_init_wellProbed⟩

theorem flow_step_sound {table table' : flow_table_t} {op : flow_op} {output : flow_output}
    (hsound : table.Sound s.target hash_function)
    (h : flow_step s hash_function table op = some (table', output)) : table'.Sound s.target hash_function :=
  ⟨flow_step_counted hsound.counted h, hsound.probed.steps (flow_step_steps hsound.probed h)⟩

/-- A table stays sound in every run that goes on from it. -/
theorem flow_table_t.Sound.run {table table' : flow_table_t} (hsound : table.Sound s.target hash_function)
    {trace : List (flow_op × flow_output)} (run : Execution (flow_step s hash_function) table trace table') :
    table'.Sound s.target hash_function :=
  run.invariant (fun _ table => table.Sound s.target hash_function) hsound
    fun _ _ _ _ _ _ hsound hstep => flow_step_sound hsound hstep

theorem flow_run_sound {trace : List (flow_op × flow_output)} {table : flow_table_t}
    (run : flow_run s hash_function trace table) : table.Sound s.target hash_function :=
  (flow_table_init_sound _ _).run run

theorem flow_table_t.Sound.unique {target : Target} {table : flow_table_t}
    (hsound : table.Sound target hash_function) {idx other : Slot} (hidx : (table.entries idx).Live)
    (hother : (table.entries other).Live) (hkey : (table.entries idx).key = (table.entries other).key) :
    idx = other :=
  hsound.probed.unique (flow_table_entry_t.cell_of_live hidx)
    (flow_table_entry_t.cell_live_iff.mpr ⟨hother, hkey.symm⟩)

/-- An entry that survives was live and is not too old. -/
theorem flow_table_entry_t.rebase_live {offset : Int} {entry : flow_table_entry_t}
    (h : (entry.rebase offset).Live) :
    entry.Live ∧ FLOW_TABLE_MIN_UPDATE_OFFSET ≤ entry.last_update_time_seconds.toInt - offset := by
  by_cases hlive : entry.Live
  · refine ⟨hlive, ?_⟩
    by_contra hold
    rw [flow_table_entry_t.rebase_of_too_old hlive (not_le.mp hold)] at h
    simp [flow_table_entry_t.Live] at h
  · rw [flow_table_entry_t.rebase_of_not_live hlive] at h
    exact absurd h hlive

theorem flow_table_entry_t.sent_record (entry : flow_table_entry_t) : entry.sent.SameRecord entry := by
  unfold flow_table_entry_t.sent
  split <;> exact ⟨rfl, rfl, rfl⟩

theorem flow_table_entry_t.rebase_record (offset : Int) (entry : flow_table_entry_t) :
    (entry.rebase offset).SameRecord entry := by
  unfold flow_table_entry_t.rebase
  split
  · split <;> exact ⟨rfl, rfl, rfl⟩
  · exact .refl _

theorem flow_table_t.mark_sent_record (table : flow_table_t) (written : List Slot) (idx : Slot) :
    ((table.mark_sent written).entries idx).SameRecord (table.entries idx) := by
  simp only [flow_table_t.mark_sent]
  split
  · exact (table.entries idx).sent_record
  · exact .refl _

end bismark_passive.flow_table
