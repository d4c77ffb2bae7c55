import BismarkPassive.FlowTable.Assign
import BismarkPassive.Reference

namespace bismark_passive.flow_table

open machine

/-- The absolute time that an entry stands for. -/
def flow_table_t.last_seen (table : flow_table_t) (idx : Slot) : Int :=
  table.base_timestamp_seconds + (table.entries idx).last_update_time_seconds.toInt

/-- The time of a packet that the call counted towards the flow. -/
def packet_time (key : flow_key) : flow_op × flow_output → Option Int
  | (.process_flow new_entry timestamp_seconds, .processed id _) =>
    if new_entry.key = key ∧ id ≠ FLOW_ID_ERROR then some timestamp_seconds else none
  | _ => none

def last_packet_time (trace : List (flow_op × flow_output)) (key : flow_key) : Option Int :=
  latest (packet_time key) trace

variable {s : Session} {target : Target} {hash_function : flow_key → UInt32}

/-- Times that the guard admits fit the stored offset. -/
theorem offset_of_admitted {table : flow_table_t} {timestamp_seconds : Int}
    (hnonempty : 0 < table.num_elements) (hadmitted : ¬ table.RefusesTime timestamp_seconds) :
    (Int16.ofInt (timestamp_seconds - table.base_timestamp_seconds)).toInt =
      timestamp_seconds - table.base_timestamp_seconds := by
  simp only [flow_table_t.RefusesTime, FLOW_TABLE_MAX_UPDATE_OFFSET, FLOW_TABLE_MIN_UPDATE_OFFSET, not_and,
    not_or, not_lt] at hadmitted
  obtain ⟨hmax, hmin⟩ := hadmitted hnonempty
  exact Int16.toInt_ofInt_of_le (by omega) (by omega)

/-- Expiring entries leaves some in the table only if there were some before. -/
theorem expire_entries_nonempty {table : flow_table_t} (hcounted : table.Counted) {timestamp_seconds : Int}
    {visited : List Slot} (h : (expire_entries timestamp_seconds table visited).num_elements ≠ 0) :
    0 < table.num_elements := by
  by_contra hzero
  have hnum : table.num_elements = 0 := UInt32.le_zero_iff.mp (UInt32.not_lt.mp hzero)
  have hcounted' := expire_entries_counted timestamp_seconds visited hcounted
  apply h
  apply UInt32.toNat_inj.mp
  rw [hcounted']
  refine slots.count_eq_zero_iff.mpr fun idx hlive => hcounted.no_live hnum idx ?_
  rwa [expire_entries_of_live hlive] at hlive

/-- A new entry stands for the time of its packet, with or without a new base. -/
theorem insert_entry_last_seen {table : flow_table_t} {timestamp_seconds : Int} {visited : List Slot}
    (new_entry : flow_table_entry_t) (idx : Slot) (hcounted : table.Counted)
    (hadmitted : ¬ table.RefusesTime timestamp_seconds) :
    (insert_entry target new_entry timestamp_seconds
      (expire_entries timestamp_seconds table visited) idx).last_seen idx = timestamp_seconds := by
  simp only [flow_table_t.last_seen, insert_entry, flow_table_t.store_entries, if_pos]
  by_cases hnum : (expire_entries timestamp_seconds table visited).num_elements = 0
  · simp [hnum]
  · rw [if_neg hnum, expire_entries_base,
      offset_of_admitted (expire_entries_nonempty hcounted hnum) hadmitted]
    omega

/-- An insertion next to a live entry keeps the base. -/
theorem insert_entry_base {table : flow_table_t} (hcounted : table.Counted) {other : Slot}
    (hlive : (table.entries other).Live) (target : Target) (new_entry : flow_table_entry_t)
    (timestamp_seconds : Int) (idx : Slot) :
    (insert_entry target new_entry timestamp_seconds table idx).base_timestamp_seconds =
      table.base_timestamp_seconds :=
  if_neg fun hnum => hcounted.no_live hnum other hlive

/-- A live entry after a call either belongs to the packet's flow and stands
for the packet's time, or is as it was before under the same base. -/
theorem Processed.live_cases {table table' : flow_table_t} {new_entry : flow_table_entry_t}
    {timestamp_seconds : Int} {id : Nat} {insertion : Option Slot}
    (hsound : table.Sound target hash_function)
    (h : Processed target hash_function table new_entry timestamp_seconds id insertion table') {idx : Slot}
    (hlive : (table'.entries idx).Live) :
    (id = flow_id idx ∧ (table'.entries idx).key = new_entry.key ∧ table'.last_seen idx = timestamp_seconds) ∨
    ((table.entries idx).Live ∧ table'.entries idx = table.entries idx ∧
      table'.base_timestamp_seconds = table.base_timestamp_seconds ∧
      (id = FLOW_ID_ERROR ∨ new_entry.key ≠ (table.entries idx).key)) := by
  have hother : ∀ slot, insertion = some slot → idx ≠ slot → (table'.entries idx).key ≠ new_entry.key :=
    fun _ hnew hne => h.other_key hsound.probed hnew hne hlive
  cases h with
  | refused => exact .inr ⟨hlive, rfl, rfl, .inl rfl⟩
  | full => exact .inr ⟨hlive, rfl, rfl, .inl rfl⟩
  | matched visited slot hadmitted hsearch =>
    obtain ⟨hslot, hkey, hfresh, hsame⟩ := search_found hsearch
    by_cases heq : idx = slot
    · subst heq
      refine .inl ⟨rfl, by rw [(touch_entry_record ..).key, hsame, hkey], ?_⟩
      rw [flow_table_t.last_seen, touch_entry_last, touch_entry_base, expire_entries_base,
        offset_of_admitted (hsound.counted.pos hslot) hadmitted]
      omega
    · rw [touch_entry_other _ _ _ _ heq] at hlive ⊢
      have hkept := expire_entries_of_live hlive
      rw [hkept] at hlive ⊢
      refine .inr ⟨hlive, rfl, by simp, .inr fun hsamekey => heq ?_⟩
      exact hsound.unique hlive hslot (hsamekey.symm.trans hkey.symm)
  | inserted visited slot hadmitted hsearch =>
    by_cases heq : idx = slot
    · subst heq
      exact .inl ⟨rfl, insert_entry_key .., insert_entry_last_seen _ _ hsound.counted hadmitted⟩
    · have hne := hother slot rfl heq
      rw [insert_entry_other _ _ _ _ _ heq] at hlive hne ⊢
      have hbase := insert_entry_base (expire_entries_counted timestamp_seconds visited hsound.counted) hlive
        target new_entry timestamp_seconds slot
      have hkept := expire_entries_of_live hlive
      rw [hkept] at hlive hne ⊢
      exact .inr ⟨hlive, rfl, hbase.trans (by simp), .inr hne.symm⟩

/-- A packet that gets an id leaves its flow live in the id's slot, with its time. -/
theorem Processed.accepted {table table' : flow_table_t} {new_entry : flow_table_entry_t}
    {timestamp_seconds : Int} {id : Nat} {insertion : Option Slot}
    (hsound : table.Sound target hash_function)
    (h : Processed target hash_function table new_entry timestamp_seconds id insertion table')
    (hid : id ≠ FLOW_ID_ERROR) :
    ∃ idx, id = flow_id idx ∧ (table'.entries idx).Live ∧ (table'.entries idx).key = new_entry.key ∧
      table'.last_seen idx = timestamp_seconds := by
  have hslot : ∃ idx, id = flow_id idx ∧ (table'.entries idx).Live ∧
      (table'.entries idx).key = new_entry.key := by
    cases h with
    | refused => exact absurd rfl hid
    | full => exact absurd rfl hid
    | matched visited idx hadmitted hsearch =>
      obtain ⟨hlive, hkey, _, hsame⟩ := search_found hsearch
      refine ⟨idx, rfl, ?_, ?_⟩
      · rw [flow_table_entry_t.Live, touch_entry_occupied, hsame]
        exact hlive
      · rw [(touch_entry_record ..).key, hsame, hkey]
    | inserted visited idx hadmitted hsearch =>
      exact ⟨idx, rfl, .inr (insert_entry_occupied ..), insert_entry_key ..⟩
  obtain ⟨idx, rfl, hlive, hkey⟩ := hslot
  refine ⟨idx, rfl, hlive, hkey, ?_⟩
  obtain ⟨_, _, htime⟩ | ⟨_, hsame, _, herror | hother⟩ := h.live_cases hsound hlive
  · exact htime
  · exact absurd herror hid
  · exact absurd (hkey.symm.trans (by rw [hsame])) hother

/-- Every live entry stands for the time of its flow's last packet. -/
def flow_table_t.Timely (trace : List (flow_op × flow_output)) (table : flow_table_t) : Prop :=
  ∀ idx, (table.entries idx).Live →
    last_packet_time trace (table.entries idx).key = some (table.last_seen idx)

/-- A packet leaves the table with the time of each flow's last packet. -/
theorem Processed.timely {trace : List (flow_op × flow_output)} {table table' : flow_table_t}
    {new_entry : flow_table_entry_t} {timestamp_seconds : Int} {id : Nat} {insertion : Option Slot}
    (hsound : table.Sound target hash_function) (htimely : table.Timely trace)
    (h : Processed target hash_function table new_entry timestamp_seconds id insertion table') :
    table'.Timely (trace ++ [(.process_flow new_entry timestamp_seconds, .processed id insertion)]) := by
  intro idx hlive
  rw [last_packet_time, latest_snoc]
  obtain ⟨rfl, hkey, htime⟩ | ⟨hlive, hsame, hbase, hother⟩ := h.live_cases hsound hlive
  · rw [hkey, htime]
    simp [packet_time, flow_id_ne_error]
  · have hquiet : packet_time (table.entries idx).key
        (.process_flow new_entry timestamp_seconds, .processed id insertion) = none := by
      obtain rfl | hkey := hother
      · simp [packet_time]
      · simp [packet_time, hkey]
    rw [hsame, hquiet, Option.none_or, flow_table_t.last_seen, hsame, hbase]
    exact htimely idx hlive

/-- No live entry comes to lie further after the new base than its offset can say. -/
def flow_table_t.AdvanceFits (table : flow_table_t) (new_timestamp : Int) : Prop :=
  ∀ idx, (table.entries idx).Live → table.last_seen idx - new_timestamp ≤ FLOW_TABLE_MAX_UPDATE_OFFSET

/-- The condition on the calls of a run. -/
def FitsAdvances (table : flow_table_t) : flow_op → Prop
  | .advance_base_timestamp new_timestamp => table.AdvanceFits new_timestamp
  | _ => True

/-- What the header promises of an advance, for one entry: it survives exactly
if its new offset fits, and then it stands for the same time. -/
def flow_table_t.KeepsTime (table : flow_table_t) (new_timestamp : Int) (idx : Slot) : Prop :=
  let table' := flow_table_advance_base_timestamp table new_timestamp
  ((table'.entries idx).Live ↔ FLOW_TABLE_MIN_UPDATE_OFFSET ≤ table.last_seen idx - new_timestamp ∧
      table.last_seen idx - new_timestamp ≤ FLOW_TABLE_MAX_UPDATE_OFFSET) ∧
    ((table'.entries idx).Live → table'.last_seen idx = table.last_seen idx)

section advance

variable {table : flow_table_t} {new_timestamp : Int} {idx : Slot}

/-- The time since the new base, from the offset to the old one. -/
theorem last_seen_sub (table : flow_table_t) (new_timestamp : Int) (idx : Slot) :
    table.last_seen idx - new_timestamp = (table.entries idx).last_update_time_seconds.toInt -
      (new_timestamp - table.base_timestamp_seconds) := by
  rw [flow_table_t.last_seen]
  omega

/-- An advance deletes the entries that come to lie too far before the new base. -/
theorem advance_live_iff (hlive : (table.entries idx).Live) :
    ((flow_table_advance_base_timestamp table new_timestamp).entries idx).Live ↔
      FLOW_TABLE_MIN_UPDATE_OFFSET ≤ table.last_seen idx - new_timestamp := by
  rw [flow_table_advance_base_timestamp_entries, last_seen_sub]
  constructor
  · exact fun h => (flow_table_entry_t.rebase_live h).2
  · intro hkept
    rw [flow_table_entry_t.rebase_of_kept hlive hkept]
    exact hlive

/-- The base moves without moving the time of an entry whose offset still fits. -/
theorem advance_last_seen (hlive : (table.entries idx).Live)
    (hmin : FLOW_TABLE_MIN_UPDATE_OFFSET ≤ table.last_seen idx - new_timestamp)
    (hmax : table.last_seen idx - new_timestamp ≤ FLOW_TABLE_MAX_UPDATE_OFFSET) :
    (flow_table_advance_base_timestamp table new_timestamp).last_seen idx = table.last_seen idx := by
  rw [flow_table_t.last_seen, flow_table_advance_base_timestamp_base,
    flow_table_advance_base_timestamp_entries,
    flow_table_entry_t.rebase_of_kept hlive (last_seen_sub table new_timestamp idx ▸ hmin)]
  simp only [FLOW_TABLE_MAX_UPDATE_OFFSET, FLOW_TABLE_MIN_UPDATE_OFFSET] at hmin hmax
  rw [← last_seen_sub, Int16.toInt_ofInt_of_le (by omega) (by omega)]
  omega

/-- An advance does what the header promises exactly if no entry has to be
deleted for lying too far after the new base. -/
theorem advance_keeps_time_iff :
    (∀ idx, (table.entries idx).Live → table.KeepsTime new_timestamp idx) ↔ table.AdvanceFits new_timestamp := by
  constructor
  · intro hkeeps idx hlive
    by_contra hmax
    have hmin : FLOW_TABLE_MIN_UPDATE_OFFSET ≤ table.last_seen idx - new_timestamp := by
      simp only [FLOW_TABLE_MAX_UPDATE_OFFSET, FLOW_TABLE_MIN_UPDATE_OFFSET] at hmax ⊢
      omega
    exact hmax ((hkeeps idx hlive).1.mp ((advance_live_iff hlive).mpr hmin)).2
  · intro hfits idx hlive
    have hmax := hfits idx hlive
    refine ⟨(advance_live_iff hlive).trans ⟨fun hmin => ⟨hmin, hmax⟩, And.left⟩, fun hlive' => ?_⟩
    exact advance_last_seen hlive ((advance_live_iff hlive).mp hlive') hmax

end advance

/-- In a run whose advances all fit, every live entry stands for the time of
its flow's last packet; a further advance deletes exactly the entries whose
offsets do not fit, and moves no other one, if and only if it fits too. -/
theorem flow_run_times {trace : List (flow_op × flow_output)} {table : flow_table_t}
    (run : flow_run s hash_function trace table)
    (hfits : Along (flow_step s hash_function) flow_table_init FitsAdvances trace) :
    (∀ idx, (table.entries idx).Live →
      last_packet_time trace (table.entries idx).key = some (table.last_seen idx)) ∧
    ∀ new_timestamp, (∀ idx, (table.entries idx).Live → table.KeepsTime new_timestamp idx) ↔
      table.AdvanceFits new_timestamp := by
  refine ⟨?_, fun _ => advance_keeps_time_iff⟩
  refine run.invariant_along FitsAdvances (fun trace table => table.Timely trace) ?_ ?_ hfits
  · intro idx hlive
    simp [flow_table_init, flow_table_entry_init, flow_table_entry_t.Live] at hlive
  · intro trace table op table' output run htimely hcond hstep
    rcases flow_step_cases hstep with
      ⟨_, _, _, _, rfl, rfl, hprocessed⟩ | ⟨_, written, rfl, rfl, rfl⟩ | ⟨new_timestamp, rfl, rfl, rfl⟩
    · exact hprocessed.timely (flow_run_sound run) htimely
    · intro idx hlive
      have hlast : (table.mark_sent written).last_seen idx = table.last_seen idx := by
        simp only [flow_table_t.last_seen, flow_table_t.mark_sent]
        split <;> simp
      rw [last_packet_time, latest_snoc, (table.mark_sent_record _ _).key, hlast]
      exact htimely idx ((table.mark_sent_live_iff written idx).mp hlive)
    · intro idx hlive'
      have hlive : (table.entries idx).Live := by
        rw [flow_table_advance_base_timestamp_entries] at hlive'
        exact (flow_table_entry_t.rebase_live hlive').1
      rw [advance_last_seen hlive ((advance_live_iff hlive).mp hlive') (hcond idx hlive),
        flow_table_advance_base_timestamp_entries, (flow_table_entry_t.rebase_record _ _).key, last_packet_time,
        latest_snoc]
      exact htimely idx hlive

/-! One packet, then an advance under a clock that was set back. -/

/-- The table after the first packet of a flow, at second 100000. -/
def first_packet_table : flow_table_t :=
  (flow_table_process_flow reference_target (fun _ => 0) flow_table_init flow_table_entry_init 100000).2

theorem first_packet_run : flow_run reference_session (fun _ => 0)
    [(.process_flow flow_table_entry_init 100000, .processed (flow_id 0) (some 0))] first_packet_table := by
  have hid : (flow_table_process_flow reference_target (fun _ => 0) flow_table_init flow_table_entry_init
      100000).1 = flow_id 0 := by decide +kernel
  have hinsertion : flow_table_insertion reference_target (fun _ => 0) flow_table_init flow_table_entry_init
      100000 = some 0 := by decide +kernel
  exact Execution.nil.snoc (by rw [flow_step, ← hid, ← hinsertion]; rfl)

theorem first_packet_live_iff (idx : Slot) : (first_packet_table.entries idx).Live ↔ idx = 0 := by
  constructor
  · intro hlive
    by_contra hidx
    have hprocessed := flow_table_process_flow_spec reference_target (fun _ => 0) flow_table_init
      flow_table_entry_init 100000
    have hinsertion : flow_table_insertion reference_target (fun _ => 0) flow_table_init flow_table_entry_init
        100000 ≠ some idx := by
      have hzero : flow_table_insertion reference_target (fun _ => 0) flow_table_init flow_table_entry_init
          100000 = some 0 := by decide +kernel
      rw [hzero]
      exact fun h => hidx (Option.some.inj h).symm
    obtain ⟨hold, _⟩ := hprocessed.survivor hinsertion hlive
    simp [flow_table_init, flow_table_entry_init, flow_table_entry_t.Live] at hold
  · rintro rfl
    decide +kernel

theorem first_packet_last_seen : first_packet_table.last_seen 0 = 100000 := by decide +kernel

/-- The first packet, then an advance. -/
def advance_trace (new_timestamp : Int) : List (flow_op × flow_output) :=
  [(.process_flow flow_table_entry_init 100000, .processed (flow_id 0) (some 0)),
    (.advance_base_timestamp new_timestamp, .done)]

theorem advance_run (new_timestamp : Int) : flow_run reference_session (fun _ => 0) (advance_trace new_timestamp)
    (flow_table_advance_base_timestamp first_packet_table new_timestamp) :=
  Execution.snoc first_packet_run rfl

theorem first_packet_advance_key (new_timestamp : Int) :
    ((flow_table_advance_base_timestamp first_packet_table new_timestamp).entries 0).key =
      flow_table_entry_init.key := by
  rw [flow_table_advance_base_timestamp_entries, (flow_table_entry_t.rebase_record _ _).key]
  decide +kernel

/-- The offset takes a base that moves back by 10000 seconds. -/
theorem flow_run_times_short_advance :
    last_packet_time (advance_trace 90000) flow_table_entry_init.key =
        some ((flow_table_advance_base_timestamp first_packet_table 90000).last_seen 0) ∧
      first_packet_table.KeepsTime 90000 0 := by
  have hlive : (first_packet_table.entries 0).Live := (first_packet_live_iff 0).mpr rfl
  have hfits : first_packet_table.AdvanceFits 90000 := by
    intro idx hlive
    rw [(first_packet_live_iff idx).mp hlive, first_packet_last_seen]
    decide
  have hfirst : Along (flow_step reference_session (fun _ => 0)) flow_table_init FitsAdvances
      [(.process_flow flow_table_entry_init 100000, .processed (flow_id 0) (some 0))] :=
    Along.snoc Along.nil fun _ _ => trivial
  have hboth : Along (flow_step reference_session (fun _ => 0)) flow_table_init FitsAdvances
      (advance_trace 90000) :=
    Along.snoc hfirst fun table run => run.deterministic first_packet_run ▸ hfits
  have hkeeps := ((flow_run_times first_packet_run hfirst).2 90000).mpr hfits 0 hlive
  refine ⟨?_, hkeeps⟩
  rw [← first_packet_advance_key 90000]
  refine (flow_run_times (advance_run 90000) hboth).1 0 ((advance_live_iff hlive).mpr ?_)
  rw [first_packet_last_seen]
  decide

/-- Setting the clock back by 40000 seconds makes a flow 65536 seconds older. -/
theorem flow_run_times_long_advance :
    flow_run reference_session (fun _ => 0) (advance_trace 60000)
        (flow_table_advance_base_timestamp first_packet_table 60000) ∧
      ((flow_table_advance_base_timestamp first_packet_table 60000).entries 0).Live ∧
      last_packet_time (advance_trace 60000) flow_table_entry_init.key = some 100000 ∧
      (flow_table_advance_base_timestamp first_packet_table 60000).last_seen 0 = 34464 := by
  have hlive : (first_packet_table.entries 0).Live := (first_packet_live_iff 0).mpr rfl
  refine ⟨advance_run 60000, (advance_live_iff hlive).mpr ?_, by decide +kernel, ?_⟩
  · rw [first_packet_last_seen]
    decide
  · rw [flow_table_t.last_seen, flow_table_advance_base_timestamp_base, flow_table_advance_base_timestamp_entries]
    decide +kernel

end bismark_passive.flow_table
