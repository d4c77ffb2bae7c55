import BismarkPassive.FlowTable.Times

namespace bismark_passive.flow_table

open machine

variable {s : Session} {hash_function : flow_key → UInt32}

/-! The element counter -/

/-- A call that moves the base stores its flow in a table without live entries. -/
theorem flow_table_process_flow_base {target : Target} {table : flow_table_t} (hcounted : table.Counted)
    {new_entry : flow_table_entry_t} {timestamp_seconds : Int}
    (hbase : (flow_table_process_flow target hash_function table new_entry
      timestamp_seconds).2.base_timestamp_seconds ≠ table.base_timestamp_seconds) :
    ∃ idx emptied,
      probe_loop target new_entry timestamp_seconds (probes target hash_function new_entry.key) none table =
        .exhausted (some idx) emptied ∧
      ∀ other, ¬ (emptied.entries other).Live := by
  by_cases hrefused : table.RefusesTime timestamp_seconds
  · simp [flow_table_process_flow, hrefused, flow_table_t.drop_flow] at hbase
  · simp only [flow_table_process_flow, if_neg hrefused, probe_loop_eq_scan] at hbase ⊢
    generalize probing.scan (table.lapsed timestamp_seconds) new_entry.key
      (probes target hash_function new_entry.key) none = search at hbase ⊢
    obtain ⟨visited, outcome⟩ := search
    have hexpired := expire_entries_counted timestamp_seconds visited hcounted
    cases outcome with
    | found idx => simp [scan_result] at hbase
    | absent available =>
      cases available with
      | none => simp [scan_result, flow_table_t.drop_flow] at hbase
      | some idx =>
        refine ⟨idx, _, rfl, fun other hlive => hbase ?_⟩
        simp only [scan_result]
        rw [insert_entry_base hexpired hlive, expire_entries_base]

/-- In every reachable state the counter is the number of live entries, it is
positive wherever one of the two loops decrements it, and a packet moves the
base only once no entry is live any more. -/
theorem flow_run_num_elements {trace : List (flow_op × flow_output)} {table : flow_table_t}
    (run : flow_run s hash_function trace table) :
    table.num_elements.toNat = table.live_count ∧
    table.num_elements.toNat ≤ FLOW_TABLE_ENTRIES ∧
    (∀ timestamp_seconds visited idx,
      ((expire_entries timestamp_seconds table visited).entries idx).Expired
          (expire_entries timestamp_seconds table visited).base_timestamp_seconds timestamp_seconds →
        0 < (expire_entries timestamp_seconds table visited).num_elements) ∧
    (∀ offset (visited : List Slot) idx, ((visited.foldl (advance_entry offset) table).entries idx).Live →
      0 < (visited.foldl (advance_entry offset) table).num_elements) ∧
    ∀ new_entry timestamp_seconds,
      (flow_table_process_flow s.target hash_function table new_entry
        timestamp_seconds).2.base_timestamp_seconds ≠ table.base_timestamp_seconds →
      ∃ idx emptied,
        probe_loop s.target new_entry timestamp_seconds (probes s.target hash_function new_entry.key) none table =
          .exhausted (some idx) emptied ∧
        ∀ other, ¬ (emptied.entries other).Live := by
  have hcounted := (flow_run_sound run).counted
  refine ⟨hcounted, hcounted.trans_le table.live_count_le, ?_, ?_, ?_⟩
  · intro timestamp_seconds visited idx hexpired
    exact (expire_entries_counted timestamp_seconds visited hcounted).pos (.inl hexpired.1)
  · intro offset visited idx hlive
    exact (slots.foldl_preserves flow_table_t.Counted _ (fun _ idx => advance_entry_counted offset idx) visited
      hcounted).pos hlive
  · intro new_entry timestamp_seconds hbase
    exact flow_table_process_flow_base hcounted hbase

theorem flow_run_num_elements_first_packet :
    first_packet_table.num_elements.toNat = first_packet_table.live_count ∧
      first_packet_table.num_elements.toNat ≤ FLOW_TABLE_ENTRIES :=
  ⟨(flow_run_num_elements first_packet_run).1, (flow_run_num_elements first_packet_run).2.1⟩

/-! The flow counters -/

/-- The call stored a new entry. -/
def stores_flow : flow_op × flow_output → Bool
  | (_, .processed _ insertion) => insertion.isSome
  | (_, .done) => false

/-- The call returned `FLOW_ID_ERROR`. -/
def refuses_flow : flow_op × flow_output → Bool
  | (_, .processed id _) => id == FLOW_ID_ERROR
  | (_, .done) => false

/-- The live entries and the flows counted as expired. -/
def flow_table_t.accounted (table : flow_table_t) : Int := table.live_count + table.num_expired_flows

theorem flow_table_t.accounted_congr {table table' : flow_table_t}
    (hlive : ∀ idx, (table'.entries idx).Live ↔ (table.entries idx).Live)
    (hexpired : table'.num_expired_flows = table.num_expired_flows) : table'.accounted = table.accounted := by
  rw [flow_table_t.accounted, flow_table_t.accounted, hexpired, flow_table_t.live_count, flow_table_t.live_count,
    slots.count_congr hlive]

/-- Expiring an entry moves it from one summand to the other. -/
theorem expire_entry_accounted (timestamp_seconds : Int) (table : flow_table_t) (idx : Slot) :
    (expire_entry timestamp_seconds table idx).accounted = table.accounted := by
  unfold expire_entry
  simp only
  split
  · rename_i hexpired
    have hcount : (table.store idx { table.entries idx with occupied := .ENTRY_DELETED }).live_count + 1 =
        table.live_count :=
      live_count_store_lose (.inl hexpired.1) (deleted_not_live _)
    change ((table.store idx { table.entries idx with occupied := .ENTRY_DELETED }).live_count : Int) +
      (table.num_expired_flows + 1) = table.live_count + table.num_expired_flows
    omega
  · rfl

theorem expire_entries_accounted (timestamp_seconds : Int) (table : flow_table_t) (visited : List Slot) :
    (expire_entries timestamp_seconds table visited).accounted = table.accounted :=
  slots.foldl_preserves (fun t => t.accounted = table.accounted) _
    (fun t idx h => (expire_entry_accounted timestamp_seconds t idx).trans h) visited rfl

theorem expire_entries_dropped (timestamp_seconds : Int) (table : flow_table_t) (visited : List Slot) :
    (expire_entries timestamp_seconds table visited).num_dropped_flows = table.num_dropped_flows := by
  apply slots.foldl_preserves (fun t : flow_table_t => t.num_dropped_flows = table.num_dropped_flows)
  · intro t idx h
    rw [← h, expire_entry]
    simp only
    split <;> rfl
  · rfl

/-- A call adds its insertion to the account and its refusal to the drops. -/
theorem Processed.accounted {target : Target} {table table' : flow_table_t} {new_entry : flow_table_entry_t}
    {timestamp_seconds : Int} {id : Nat} {insertion : Option Slot}
    (h : Processed target hash_function table new_entry timestamp_seconds id insertion table') :
    table'.accounted = table.accounted + (if insertion.isSome then 1 else 0 : Nat) ∧
      table'.num_dropped_flows = table.num_dropped_flows + (if id = FLOW_ID_ERROR then 1 else 0 : Nat) := by
  cases h with
  | refused => exact ⟨(Int.add_zero _).symm, rfl⟩
  | full => exact ⟨(Int.add_zero _).symm, rfl⟩
  | matched visited idx =>
    have htouch :
        (touch_entry target timestamp_seconds (expire_entries timestamp_seconds table visited) idx).accounted =
        (expire_entries timestamp_seconds table visited).accounted :=
      flow_table_t.accounted_congr (fun other => by rw [flow_table_entry_t.Live, touch_entry_occupied]; rfl) rfl
    refine ⟨?_, ?_⟩
    · rw [htouch, expire_entries_accounted, Option.isSome_none, if_neg Bool.false_ne_true, Nat.cast_zero, Int.add_zero]
    · rw [if_neg (flow_id_ne_error idx), Nat.cast_zero, Int.add_zero]
      exact expire_entries_dropped timestamp_seconds table visited
  | inserted visited idx hadmitted hsearch =>
    have hcount := insert_entry_live_count target new_entry timestamp_seconds (search_available hsearch)
    have haccounted := expire_entries_accounted timestamp_seconds table visited
    refine ⟨?_, ?_⟩
    · rw [flow_table_t.accounted] at haccounted ⊢
      rw [hcount, ← haccounted, Option.isSome_some, if_pos rfl, Nat.cast_one]
      change _ + (expire_entries timestamp_seconds table visited).num_expired_flows = _
      omega
    · rw [if_neg (flow_id_ne_error idx), Nat.cast_zero, Int.add_zero]
      exact expire_entries_dropped timestamp_seconds table visited

/-- No live entry comes to lie too far before the new base for its offset. -/
def flow_table_t.AdvanceKeeps (table : flow_table_t) (new_timestamp : Int) : Prop :=
  ∀ idx, (table.entries idx).Live → FLOW_TABLE_MIN_UPDATE_OFFSET ≤ table.last_seen idx - new_timestamp

/-- The condition on the calls of a run. -/
def KeepsFlows (table : flow_table_t) : flow_op → Prop
  | .advance_base_timestamp new_timestamp => table.AdvanceKeeps new_timestamp
  | _ => True

theorem set_base_counters (table : flow_table_t) (new_timestamp : Int) :
    (table.set_base new_timestamp).num_expired_flows = table.num_expired_flows ∧
      (table.set_base new_timestamp).num_dropped_flows = table.num_dropped_flows := ⟨rfl, rfl⟩

/-- Moving the base counts neither expired nor dropped flows, whatever it deletes. -/
theorem advance_counters (table : flow_table_t) (new_timestamp : Int) :
    (flow_table_advance_base_timestamp table new_timestamp).num_expired_flows = table.num_expired_flows ∧
      (flow_table_advance_base_timestamp table new_timestamp).num_dropped_flows = table.num_dropped_flows := by
  rw [flow_table_advance_base_timestamp, (set_base_counters _ _).1, (set_base_counters _ _).2]
  apply slots.foldl_preserves (fun t : flow_table_t => t.num_expired_flows = table.num_expired_flows ∧
    t.num_dropped_flows = table.num_dropped_flows)
  · intro t idx h
    unfold advance_entry
    simp only
    split
    · split <;> exact h
    · exact h
  · exact ⟨rfl, rfl⟩

/-- An advance takes the flows it deletes out of the account. -/
theorem advance_accounted (table : flow_table_t) (new_timestamp : Int) :
    (flow_table_advance_base_timestamp table new_timestamp).accounted ≤ table.accounted ∧
      ((flow_table_advance_base_timestamp table new_timestamp).accounted = table.accounted ↔
        table.AdvanceKeeps new_timestamp) := by
  have hsurvives : ∀ idx, ((flow_table_advance_base_timestamp table new_timestamp).entries idx).Live →
      (table.entries idx).Live := by
    intro idx hlive
    rw [flow_table_advance_base_timestamp_entries] at hlive
    exact (flow_table_entry_t.rebase_live hlive).1
  have hmono := slots.count_mono hsurvives
  have hsame := slots.count_eq_iff hsurvives
  rw [flow_table_t.accounted, flow_table_t.accounted, (advance_counters table new_timestamp).1,
    flow_table_t.live_count, flow_table_t.live_count, add_left_inj, Nat.cast_inj, hsame]
  refine ⟨by omega, forall_congr' fun idx => ?_⟩
  exact forall_congr' fun hlive => advance_live_iff hlive

/-- In every run the flows stored so far are those accounted for and, unless
no advance has deleted any, more; the drops are the refused calls. -/
theorem flow_run_accounted {trace : List (flow_op × flow_output)} {table : flow_table_t}
    (run : flow_run s hash_function trace table) :
    table.accounted ≤ trace.countP stores_flow ∧
      (table.accounted = trace.countP stores_flow ↔
        Along (flow_step s hash_function) flow_table_init KeepsFlows trace) ∧
      table.num_dropped_flows = trace.countP refuses_flow := by
  induction run with
  | nil =>
    have hzero : flow_table_init.accounted = 0 := by
      rw [flow_table_t.accounted, ← flow_table_init_counted]
      rfl
    rw [hzero]
    exact ⟨le_refl _, iff_of_true rfl Along.nil, rfl⟩
  | @snoc trace table table' op output run hstep ih =>
    obtain ⟨hle, hiff, hdropped⟩ := ih
    have hkeeps : KeepsFlows table op ∧ Along (flow_step s hash_function) flow_table_init KeepsFlows trace ↔
        Along (flow_step s hash_function) flow_table_init KeepsFlows (trace ++ [(op, output)]) :=
      ⟨fun h => h.2.snoc fun other run' => run.deterministic run' ▸ h.1, fun h => ⟨h.last run, h.init⟩⟩
    rw [List.countP_append, List.countP_append, ← hkeeps, ← hiff]
    rcases flow_step_cases hstep with
      ⟨_, _, id, insertion, rfl, rfl, hprocessed⟩ | ⟨_, written, rfl, rfl, rfl⟩ | ⟨new_timestamp, rfl, rfl, rfl⟩
    · obtain ⟨haccounted, hdrops⟩ := hprocessed.accounted
      have hstores (op : flow_op) : [(op, .processed id insertion)].countP stores_flow =
          if insertion.isSome then 1 else 0 := List.countP_singleton
      have hrefuses (op : flow_op) : [(op, .processed id insertion)].countP refuses_flow =
          if id = FLOW_ID_ERROR then 1 else 0 := by simp [refuses_flow]
      rw [haccounted, hdrops, hdropped, hstores, hrefuses]
      simp only [KeepsFlows, true_and]
      exact ⟨by omega, by omega, by omega⟩
    · have hsame : (table.mark_sent written).accounted = table.accounted :=
        flow_table_t.accounted_congr (table.mark_sent_live_iff written) rfl
      rw [hsame]
      simpa [KeepsFlows, stores_flow, refuses_flow] using ⟨hle, hdropped⟩
    · obtain ⟨hlost, hkept⟩ := advance_accounted table new_timestamp
      have hdrops := (advance_counters table new_timestamp).2
      simp only [KeepsFlows, ← hkept, List.countP_singleton, stores_flow, refuses_flow, Bool.false_eq_true, if_false,
        Nat.add_zero, hdrops]
      exact ⟨by omega, by omega, hdropped⟩

/-- The insertions of a run are the live and the expired flows, and its refused
calls the dropped ones, if and only if no advance of the run found a live entry
too old for the new base: such entries are deleted without being counted. -/
theorem flow_accounting_balances_iff {trace : List (flow_op × flow_output)} {table : flow_table_t}
    (run : flow_run s hash_function trace table) :
    ((trace.countP stores_flow : Int) = table.num_elements.toNat + table.num_expired_flows ∧
      (trace.countP refuses_flow : Int) = table.num_dropped_flows) ↔
    Along (flow_step s hash_function) flow_table_init KeepsFlows trace := by
  obtain ⟨_, hkeeps, hdropped⟩ := flow_run_accounted run
  have hcounted : table.num_elements.toNat = table.live_count := (flow_run_sound run).counted
  rw [flow_table_t.accounted] at hkeeps
  rw [← hkeeps, hcounted, hdropped, and_iff_left rfl, eq_comm]

/-- The base moves back by 10000 seconds, which the offset of the flow can take. -/
theorem flow_accounting_balances_iff_short_advance :
    ((advance_trace 90000).countP stores_flow : Int) =
        (flow_table_advance_base_timestamp first_packet_table 90000).num_elements.toNat +
          (flow_table_advance_base_timestamp first_packet_table 90000).num_expired_flows ∧
      ((advance_trace 90000).countP refuses_flow : Int) =
        (flow_table_advance_base_timestamp first_packet_table 90000).num_dropped_flows := by
  apply (flow_accounting_balances_iff (advance_run 90000)).mpr
  have hfirst : Along (flow_step reference_session (fun _ => 0)) flow_table_init KeepsFlows
      [(.process_flow flow_table_entry_init 100000, .processed (flow_id 0) (some 0))] :=
    Along.snoc Along.nil fun _ _ => trivial
  apply Along.snoc hfirst
  intro table run idx hlive
  obtain rfl := run.deterministic first_packet_run
  rw [(first_packet_live_iff idx).mp hlive, first_packet_last_seen]
  decide

/-- A flow that was silent for 40000 seconds is neither live nor counted as
expired after the advance. -/
theorem flow_accounting_long_silence :
    flow_run reference_session (fun _ => 0) (advance_trace 140000)
        (flow_table_advance_base_timestamp first_packet_table 140000) ∧
      (advance_trace 140000).countP stores_flow = 1 ∧
      (flow_table_advance_base_timestamp first_packet_table 140000).num_elements = 0 ∧
      (flow_table_advance_base_timestamp first_packet_table 140000).num_expired_flows = 0 := by
  have hlive : ∀ idx, ¬ ((flow_table_advance_base_timestamp first_packet_table 140000).entries idx).Live := by
    intro idx hlive
    have hold : (first_packet_table.entries idx).Live := by
      rw [flow_table_advance_base_timestamp_entries] at hlive
      exact (flow_table_entry_t.rebase_live hlive).1
    have hkept := (advance_live_iff hold).mp hlive
    rw [(first_packet_live_iff idx).mp hold, first_packet_last_seen] at hkept
    exact absurd hkept (by decide)
  have hcounted := (flow_run_sound (advance_run 140000)).counted
  rw [flow_table_t.Counted, flow_table_t.live_count, slots.count_eq_zero_iff.mpr hlive] at hcounted
  refine ⟨advance_run 140000, by decide, UInt32.toNat_inj.mp hcounted, ?_⟩
  rw [(advance_counters _ _).1]
  decide +kernel

end bismark_passive.flow_table
