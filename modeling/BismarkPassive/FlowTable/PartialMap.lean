import BismarkPassive.FlowTable.Assign
import BismarkPassive.Reference

namespace bismark_passive.flow_table

open machine probing

/-- The id that a call returned when it inserted the flow. -/
def inserts (key : flow_key) : flow_op × flow_output → Option Nat
  | (.process_flow new_entry _, .processed id (some _)) => if new_entry.key = key then some id else none
  | _ => none

/-- The id returned by the most recent insertion of the flow. -/
def inserted_id (trace : List (flow_op × flow_output)) (key : flow_key) : Option Nat := latest (inserts key) trace

variable {s : Session} {target : Target} {hash_function : flow_key → UInt32}

/-- A packet of a stored flow inserts nothing and gets the flow's id. -/
theorem flow_table_process_flow_stored {table : flow_table_t} {new_entry : flow_table_entry_t}
    {timestamp_seconds : Int} {idx : Slot}
    (hprobed : WellProbed (probes target hash_function) table.cells) (hlive : (table.entries idx).Live)
    (hkey : (table.entries idx).key = new_entry.key) (hadmitted : ¬ table.RefusesTime timestamp_seconds)
    (hfresh : ¬ (table.entries idx).Expired table.base_timestamp_seconds timestamp_seconds) :
    flow_table_insertion target hash_function table new_entry timestamp_seconds = none ∧
      (flow_table_process_flow target hash_function table new_entry timestamp_seconds).1 = flow_id idx := by
  have hfound := (search_outcome_iff hprobed).1.mpr ⟨hlive, hkey, hfresh⟩
  refine ⟨?_, (flow_table_process_flow_id_iff hprobed).mpr ⟨hadmitted, .inl ⟨hlive, hkey, hfresh⟩⟩⟩
  unfold flow_table_insertion
  rw [flow_table_t.search] at hfound
  simp only [if_neg hadmitted, probe_loop_eq_scan, hfound, scan_result]

/-- Each call on a table is a run of operations on the partial map it represents. -/
theorem flow_step_refines_map {table table' : flow_table_t} {op : flow_op} {output : flow_output}
    {map : flow_key → Option Slot} (hprobed : WellProbed (probes s.target hash_function) table.cells)
    (hrep : Represents table.cells map) (h : flow_step s hash_function table op = some (table', output)) :
    ∃ map', Relation.ReflTransGen MapStep map map' ∧ Represents table'.cells map' :=
  (flow_step_steps hprobed h).refines_map hrep hprobed

theorem flow_table_init_represents : Represents flow_table_init.cells fun _ => none := by
  intro key slot
  simp [flow_table_t.cells, flow_table_init, flow_table_entry_init, flow_table_entry_t.cell]

/-- The cells of a table that is reached represent a map that the map's own steps reach. -/
theorem flow_run_refines_map {trace : List (flow_op × flow_output)} {table : flow_table_t}
    (run : flow_run s hash_function trace table) :
    ∃ map, Relation.ReflTransGen MapStep (fun _ => none) map ∧ Represents table.cells map := by
  refine run.invariant
    (fun _ table => ∃ map, Relation.ReflTransGen MapStep (fun _ => none) map ∧ Represents table.cells map)
    ⟨_, .refl, flow_table_init_represents⟩ ?_
  rintro trace table op table' output run ⟨map, hmap, hrep⟩ hstep
  obtain ⟨map', hmap', hrep'⟩ := flow_step_refines_map (flow_run_sound run).probed hrep hstep
  exact ⟨map', hmap.trans hmap', hrep'⟩

/-- Every live entry sits where the last insertion of its flow put it. -/
def flow_table_t.Placed (trace : List (flow_op × flow_output)) (table : flow_table_t) : Prop :=
  ∀ idx, (table.entries idx).Live → inserted_id trace (table.entries idx).key = some (flow_id idx)

/-- Calls that insert nothing keep entries placed. -/
theorem flow_table_t.Placed.keep {trace : List (flow_op × flow_output)} {table table' : flow_table_t}
    {event : flow_op × flow_output} (h : table.Placed trace) (hquiet : ∀ key, inserts key event = none)
    (hold : ∀ idx, (table'.entries idx).Live →
      (table.entries idx).Live ∧ (table'.entries idx).key = (table.entries idx).key) :
    table'.Placed (trace ++ [event]) := by
  intro idx hlive
  obtain ⟨hlive, hkey⟩ := hold idx hlive
  rw [inserted_id, latest_snoc, hquiet, Option.none_or, hkey]
  exact h idx hlive

/-- A packet places its flow where its id says. -/
theorem Processed.placed {trace : List (flow_op × flow_output)} {table table' : flow_table_t}
    {new_entry : flow_table_entry_t} {timestamp_seconds : Int} {id : Nat} {insertion : Option Slot}
    (hprobed : WellProbed (probes target hash_function) table.cells) (hplaced : table.Placed trace)
    (h : Processed target hash_function table new_entry timestamp_seconds id insertion table') :
    table'.Placed (trace ++ [(.process_flow new_entry timestamp_seconds, .processed id insertion)]) := by
  have hother : ∀ slot idx, insertion = some slot → idx ≠ slot → (table'.entries idx).Live →
      (table'.entries idx).key ≠ new_entry.key := fun _ _ => h.other_key hprobed
  have hold {idx : Slot} (hne : insertion ≠ some idx) (hlive : (table'.entries idx).Live) :
      (table.entries idx).Live ∧ (table'.entries idx).key = (table.entries idx).key :=
    (h.survivor hne hlive).imp_right fun hsame => hsame.2.key
  cases h with
  | refused => exact hplaced.keep (fun _ => rfl) fun idx hlive => hold (by simp) hlive
  | matched => exact hplaced.keep (fun _ => rfl) fun idx hlive => hold (by simp) hlive
  | full => exact hplaced.keep (fun _ => rfl) fun idx hlive => hold (by simp) hlive
  | inserted visited slot hadmitted hsearch =>
    intro idx hlive
    by_cases hslot : idx = slot
    · subst hslot
      rw [insert_entry_key, inserted_id, latest_snoc]
      simp [inserts]
    · have hne := (hother slot idx rfl hslot hlive).symm
      obtain ⟨hlive', hkey'⟩ := hold (fun h => hslot (Option.some.inj h).symm) hlive
      rw [inserted_id, latest_snoc]
      simp only [inserts, if_neg hne, Option.none_or]
      rw [hkey']
      exact hplaced idx hlive'

theorem flow_run_placed {trace : List (flow_op × flow_output)} {table : flow_table_t}
    (run : flow_run s hash_function trace table) : table.Placed trace := by
  refine run.invariant (fun trace table => table.Placed trace) ?_ ?_
  · intro idx hlive
    simp [flow_table_init, flow_table_entry_init, flow_table_entry_t.Live] at hlive
  · intro trace table op table' output run hplaced hstep
    rcases flow_step_cases hstep with
      ⟨_, _, _, _, rfl, rfl, hprocessed⟩ | ⟨_, written, rfl, rfl, rfl⟩ | ⟨_, rfl, rfl, rfl⟩
    · exact hprocessed.placed (flow_run_sound run).probed hplaced
    · refine hplaced.keep (fun _ => rfl) fun idx hlive => ?_
      exact ⟨(table.mark_sent_live_iff written idx).mp hlive, (table.mark_sent_record written idx).key⟩
    · refine hplaced.keep (fun _ => rfl) fun idx hlive => ?_
      rw [flow_table_advance_base_timestamp_entries] at hlive ⊢
      exact ⟨(flow_table_entry_t.rebase_live hlive).1, (flow_table_entry_t.rebase_record _ _).key⟩

/-- Whatever calls were made with whatever arguments and hash function, the
table represents a partial map from flows to slots, keeps every live entry
findable on its own probe path, and finds it there. -/
theorem flow_run_partial_map {trace : List (flow_op × flow_output)} {table : flow_table_t}
    (run : flow_run s hash_function trace table) :
    (∃ map, Relation.ReflTransGen MapStep (fun _ => none) map ∧ Represents table.cells map) ∧
    (∀ idx other, (table.entries idx).Live → (table.entries other).Live →
      (table.entries idx).key = (table.entries other).key → idx = other) ∧
    (∀ idx, (table.entries idx).Live →
      ∃ before after, probes s.target hash_function (table.entries idx).key = before ++ idx :: after ∧
        ∀ other ∈ before, (table.entries other).occupied ≠ .ENTRY_EMPTY) ∧
    ∀ idx new_entry timestamp_seconds, (table.entries idx).Live →
      (table.entries idx).key = new_entry.key → ¬ table.RefusesTime timestamp_seconds →
      ¬ (table.entries idx).Expired table.base_timestamp_seconds timestamp_seconds →
      flow_table_insertion s.target hash_function table new_entry timestamp_seconds = none ∧
        (flow_table_process_flow s.target hash_function table new_entry timestamp_seconds).1 = flow_id idx ∧
        inserted_id trace new_entry.key = some (flow_id idx) := by
  have hsound := flow_run_sound run
  refine ⟨flow_run_refines_map run, fun _ _ => hsound.unique, fun idx hlive => ?_, ?_⟩
  · obtain ⟨before, after, hpath, hbefore⟩ := hsound.probed.reached (flow_table_entry_t.cell_of_live hlive)
    refine ⟨before, after, hpath, fun other hother hempty => ?_⟩
    exact hbefore other hother (flow_table_entry_t.cell_empty_iff.mpr hempty)
  · intro idx new_entry timestamp_seconds hlive hkey hadmitted hfresh
    obtain ⟨hquiet, hid⟩ := flow_table_process_flow_stored hsound.probed hlive hkey hadmitted hfresh
    exact ⟨hquiet, hid, hkey ▸ flow_run_placed run idx hlive⟩

/-- The second packet of a flow gets the id that its first one was inserted with. -/
theorem flow_run_partial_map_second_packet :
    flow_table_insertion reference_target (fun _ => 0)
        (flow_table_process_flow reference_target (fun _ => 0) flow_table_init flow_table_entry_init 100).2
        flow_table_entry_init 101 = none ∧
      inserted_id [(.process_flow flow_table_entry_init 100, .processed (flow_id 0) (some 0))]
        flow_table_entry_init.key = some (flow_id 0) := by
  have hid : (flow_table_process_flow reference_target (fun _ => 0) flow_table_init flow_table_entry_init 100).1 =
      flow_id 0 := by decide +kernel
  have hinsertion : flow_table_insertion reference_target (fun _ => 0) flow_table_init flow_table_entry_init 100 =
      some 0 := by decide +kernel
  have run : flow_run reference_session (fun _ => 0)
      [(.process_flow flow_table_entry_init 100, .processed (flow_id 0) (some 0))]
      (flow_table_process_flow reference_target (fun _ => 0) flow_table_init flow_table_entry_init 100).2 :=
    Execution.nil.snoc (by rw [flow_step, ← hid, ← hinsertion]; rfl)
  obtain ⟨_, _, _, hstored⟩ := flow_run_partial_map run
  obtain ⟨hnone, _, hinserted⟩ := hstored 0 flow_table_entry_init 101 (by decide +kernel) (by decide +kernel)
    (by decide +kernel) (by decide +kernel)
  exact ⟨hnone, hinserted⟩

end bismark_passive.flow_table
