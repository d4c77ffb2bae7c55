import BismarkPassive.DropStatistics.Histogram
import BismarkPassive.Main.Completion

namespace bismark_passive.main

open machine packet_series drop_statistics

variable {s : Session} {state₀ state : state_t} {trace : main_trace} {frames : List frame_t}

/-- The steps of the trace are the processing of these packets, without an update. -/
def Processes (frames : List frame_t) (trace : main_trace) : Prop :=
  trace.map Prod.fst = frames.map main_event.process_packet

theorem Processes.nil : Processes [] [] := rfl

theorem Processes.eq_nil (h : Processes [] trace) : trace = [] := List.map_eq_nil_iff.mp h

theorem Processes.snoc (h : Processes frames trace) (frame : frame_t) (output : main_output) :
    Processes (frames ++ [frame]) (trace ++ [(.process_packet frame, output)]) := by
  rw [Processes, List.map_append, List.map_append, h]
  rfl

/-- The last packet of an execution. -/
theorem Processes.last {frame : frame_t} (h : Processes (frames ++ [frame]) trace)
    (run : Execution (main_step s) state₀ trace state) :
    ∃ trace' capture state', trace = trace' ++ [(.process_packet frame, .processed capture)] ∧
      capture.frame = frame ∧ Processes frames trace' ∧ Execution (main_step s) state₀ trace' state' ∧
      ProcessedPacket s state' frame state capture.locals := by
  rw [Processes, List.map_append, List.map_singleton] at h
  obtain ⟨trace', last, rfl, hevents, hlast⟩ := List.map_eq_append_iff.mp h
  obtain ⟨⟨event, output⟩, rfl, rfl⟩ := List.map_eq_singleton_iff.mp hlast
  obtain ⟨state', run', hstep⟩ := Execution.snoc_iff.mp run
  cases output with
  | processed capture =>
    obtain ⟨hframe, hpacket, _⟩ := main_step_packet hstep
    exact ⟨trace', capture, state', rfl, hframe, hevents, run', hpacket⟩
  | written update =>
    obtain ⟨_, _, houtput, _⟩ | ⟨_, _, _, hevent, _⟩ := main_step_cases hstep
    · cases houtput
    · cases hevent

/-- The sizes of the packets that the packet series had no room for. -/
def refused_sizes (trace : main_trace) : List UInt32 :=
  ((trace.filterMap captured).filter fun capture => decide (capture.locals.packet_id < 0)).map
    fun capture => capture.frame.len

theorem refused_sizes_snoc (trace : main_trace) (event : main_event) (capture : capture_t) :
    refused_sizes (trace ++ [(event, .processed capture)]) =
      refused_sizes trace ++ if capture.locals.packet_id < 0 then [capture.frame.len] else [] := by
  rw [refused_sizes, List.filterMap_append, List.filter_append, List.map_append, refused_sizes]
  by_cases hrefused : capture.locals.packet_id < 0 <;> simp [captured, hrefused]

/-- The drop statistics count the refused packets, on top of what was in them. -/
theorem period_drop_statistics (run : Execution (main_step s) state₀ trace state) (hframes : Processes frames trace) :
    state.drop_statistics = state₀.drop_statistics.process_all (refused_sizes trace) := by
  induction frames using List.reverseRecOn generalizing trace state with
  | nil =>
    obtain rfl := hframes.eq_nil
    rw [Execution.nil_iff.mp run]
    rfl
  | append_singleton frames frame ih =>
    obtain ⟨trace, capture, state', rfl, rfl, hframes', run', hpacket⟩ := hframes.last run
    rw [hpacket.drops, ih run' hframes', refused_sizes_snoc]
    split
    · rw [drop_statistics_t.process_all_snoc]
    · rw [List.append_nil]

section fresh_series

variable (hempty : state₀.packet_data = packet_series_init)

include hempty

/-- The packets that a fresh packet series refuses are those after the first
`PACKET_DATA_BUFFER_ENTRIES`. -/
theorem period_refused (run : Execution (main_step s) state₀ trace state) (hframes : Processes frames trace) :
    state.packet_data.length = min frames.length PACKET_DATA_BUFFER_ENTRIES ∧
      refused_sizes trace = (frames.drop PACKET_DATA_BUFFER_ENTRIES).map frame_t.len := by
  induction frames using List.reverseRecOn generalizing trace state with
  | nil =>
    obtain rfl := hframes.eq_nil
    rw [Execution.nil_iff.mp run, hempty]
    exact ⟨rfl, rfl⟩
  | append_singleton frames frame ih =>
    obtain ⟨trace, capture, state', rfl, rfl, hframes', run', hpacket⟩ := hframes.last run
    obtain ⟨hlength, hrefused⟩ := ih run' hframes'
    rw [refused_sizes_snoc, hrefused, List.length_append, List.length_singleton]
    obtain ⟨hroom, hid, hlength', _⟩ | ⟨hfull, hid, hdiscard⟩ := hpacket.series_cases
    · rw [if_neg (by omega), List.append_nil, List.drop_eq_nil_of_le (by omega),
        List.drop_eq_nil_of_le (by simp; omega)]
      exact ⟨by omega, rfl⟩
    · have hlength' : state.packet_data.length = state'.packet_data.length := by
        rw [hdiscard, packet_series_t.length, packet_series_t.discard_packet_data, packet_series_t.length]
      rw [if_pos (by omega), List.drop_append_of_le_length (by omega), List.map_append]
      exact ⟨by omega, rfl⟩

/-- The series counts them, as long as they are fewer than 2^32. -/
theorem period_discarded (run : Execution (main_step s) state₀ trace state) (hframes : Processes frames trace)
    (hfew : frames.length < 2 ^ 32) :
    state.packet_data.discarded_by_overflow.toNat = (refused_sizes trace).length := by
  induction frames using List.reverseRecOn generalizing trace state with
  | nil =>
    obtain rfl := hframes.eq_nil
    rw [Execution.nil_iff.mp run, hempty]
    rfl
  | append_singleton frames frame ih =>
    obtain ⟨trace, capture, state', rfl, rfl, hframes', run', hpacket⟩ := hframes.last run
    rw [List.length_append, List.length_singleton] at hfew
    have hdiscarded := ih run' hframes' (by omega)
    obtain ⟨_, hrefused⟩ := period_refused hempty run' hframes'
    rw [refused_sizes_snoc]
    obtain ⟨_, hid, _, hsame⟩ | ⟨_, hid, hdiscard⟩ := hpacket.series_cases
    · rw [if_neg (by omega), List.append_nil, hsame, hdiscarded]
    · have hcount : (refused_sizes trace).length ≤ frames.length := by
        rw [hrefused, List.length_map, List.length_drop]
        omega
      have hnext : (state'.packet_data.discarded_by_overflow + 1).toNat = (refused_sizes trace).length + 1 := by
        rw [UInt32.toNat_add, hdiscarded, UInt32.toNat_one]
        omega
      have hcounted : state'.packet_data.discarded_by_overflow < state'.packet_data.discarded_by_overflow + 1 := by
        rw [UInt32.lt_iff_toNat_lt, hnext, hdiscarded]
        omega
      rw [if_pos (by omega), hdiscard, packet_series_t.discard, if_pos hcounted, hnext, List.length_append,
        List.length_singleton]

end fresh_series

/-- Every run goes on with any packets. -/
theorem main_run_goes_on_packets (hinitialized : s.anonymization.initialized = true)
    {domain_whitelist : domain_whitelist_t} {bloom_whitelist : bloom_whitelist_t}
    (run : main_run s domain_whitelist bloom_whitelist trace state) (frames : List frame_t) :
    ∃ packets state', Processes frames packets ∧ Execution (main_step s) state packets state' ∧
      main_run s domain_whitelist bloom_whitelist (trace ++ packets) state' := by
  induction frames using List.reverseRecOn with
  | nil => exact ⟨[], state, .nil, .nil, by simpa using run⟩
  | append_singleton frames frame ih =>
    obtain ⟨packets, state', hframes, hpackets, run'⟩ := ih
    obtain ⟨capture, state'', _, hstep, run''⟩ := main_run_goes_on_packet hinitialized run' frame
    exact ⟨_, state'', hframes.snoc frame _, hpackets.snoc hstep, by simpa using run''⟩

/-- Packets that are not IP leave the flow table and the address table alone. -/
theorem period_other_packets (run : Execution (main_step s) state₀ trace state) (hframes : Processes frames trace)
    (hother : ∀ frame ∈ frames, frame.ether_type ≠ ETHERTYPE_IP) :
    state.flow_table = state₀.flow_table ∧ state.address_table = state₀.address_table ∧
      state.sequence_number = state₀.sequence_number := by
  induction frames using List.reverseRecOn generalizing trace state with
  | nil =>
    obtain rfl := hframes.eq_nil
    rw [Execution.nil_iff.mp run]
    exact ⟨rfl, rfl, rfl⟩
  | append_singleton frames frame ih =>
    obtain ⟨trace, capture, state', rfl, rfl, hframes', run', hpacket⟩ := hframes.last run
    obtain ⟨hflow, haddress, hsequence⟩ := ih run' hframes' fun frame hframe => hother frame (by simp [hframe])
    have htype : capture.locals.ether_type ≠ ETHERTYPE_IP := by
      rw [run_get_flow_entry_for_packet_ether_type _ _ _ _ hpacket.found]
      exact hother _ (by simp)
    rw [← hflow, ← haddress, ← hsequence]
    refine ⟨?_, ?_, hpacket.sequence_number⟩
    · obtain ⟨_, _, hsame⟩ | ⟨hip, _⟩ := hpacket.flow_cases
      · exact hsame
      · exact absurd hip htype
    · obtain ⟨_, _, hsame⟩ | ⟨hip, _⟩ := hpacket.dissected
      · exact hsame
      · exact absurd hip htype

end bismark_passive.main
