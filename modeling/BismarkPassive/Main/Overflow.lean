import BismarkPassive.Main.Period

namespace bismark_passive.main

open machine packet_series drop_statistics

variable {s : Session} {state₀ state state' : state_t} {trace : main_trace} {frames : List frame_t}

def Line.discarded_by_overflow : Line → Option UInt32
  | .packets _ discarded_by_overflow => some discarded_by_overflow
  | _ => none

/-- The number of discarded packets that the packet section of an update reports. -/
def update_t.discarded_by_overflow (update : update_t) : Option UInt32 :=
  update.packets.findSome? Line.discarded_by_overflow

theorem Updated.discarded_by_overflow {io : update_io} {update : update_t} (h : Updated s state io state' update) :
    update.discarded_by_overflow = some state.packet_data.discarded_by_overflow := by
  rw [update_t.discarded_by_overflow, h.packets]
  rfl

/-- What a packet series and drop statistics that start empty are after a period. -/
theorem fresh_period (hzero : state₀.drop_statistics = drop_statistics_zero)
    (hempty : state₀.packet_data = packet_series_init) (run : Execution (main_step s) state₀ trace state)
    (hframes : Processes frames trace) (hfew : frames.length < 2 ^ 32) :
    (refused_sizes trace).length < 2 ^ 32 ∧
      state.drop_statistics = drop_statistics_zero.process_all (refused_sizes trace) ∧
      state.packet_data.discarded_by_overflow.toNat = (refused_sizes trace).length := by
  obtain ⟨_, hrefused⟩ := period_refused hempty run hframes
  refine ⟨?_, ?_, period_discarded hempty run hframes hfew⟩
  · rw [hrefused, List.length_map, List.length_drop]
    omega
  · rw [← hzero]
    exact period_drop_statistics run hframes

/-- The drop section of an update is the histogram of the packets that the
packet series refused, and adds up to the reported number of discarded packets,
exactly if all packets after the first `PACKET_DATA_BUFFER_ENTRIES` are shorter
than `DROP_STATISTICS_MAXIMUM_PACKET_SIZE`: the loop that writes the section
ends before the counter of that size. -/
theorem drops_accounted_iff (hzero : state₀.drop_statistics = drop_statistics_zero)
    (hempty : state₀.packet_data = packet_series_init) (run : Execution (main_step s) state₀ trace state)
    (hframes : Processes frames trace) (hfew : frames.length < 2 ^ 32) {io : update_io} {healthy : io.Healthy}
    {update : update_t} (hupdate : main_step s state (.write_update io healthy) = some (state', .written update)) :
    (update.drops = histogram_section (refused_sizes trace) ∧
      update.discarded_by_overflow.map UInt32.toNat = some (section_count update.drops)) ↔
    ∀ frame ∈ frames.drop PACKET_DATA_BUFFER_ENTRIES, frame.len.toNat < DROP_STATISTICS_MAXIMUM_PACKET_SIZE := by
  obtain ⟨_, hrefused⟩ := period_refused hempty run hframes
  obtain ⟨hlength, hstatistics, hdiscarded⟩ := fresh_period hzero hempty run hframes hfew
  have hupdated := main_step_update hupdate
  have hhistogram : update.drops = histogram_section (refused_sizes trace) ↔
      ∀ frame ∈ frames.drop PACKET_DATA_BUFFER_ENTRIES, frame.len.toNat < DROP_STATISTICS_MAXIMUM_PACKET_SIZE := by
    rw [hupdated.drops, hstatistics, drop_section_eq_histogram_iff hlength, hrefused, List.forall_mem_map]
  have htotal : update.discarded_by_overflow.map UInt32.toNat = some (section_count update.drops) ↔
      ∀ frame ∈ frames.drop PACKET_DATA_BUFFER_ENTRIES, frame.len.toNat < DROP_STATISTICS_MAXIMUM_PACKET_SIZE := by
    rw [hupdated.discarded_by_overflow, Option.map_some, hdiscarded, Option.some.injEq, hupdated.drops, hstatistics,
      eq_comm, section_count_eq_iff hlength, hrefused, List.forall_mem_map]
  rw [hhistogram, htotal, and_self]

/-- A packet of an unknown protocol. -/
def other_frame (len : UInt32) : frame_t where
  ts := ⟨0, 0⟩
  caplen := 0
  len := len
  bytes := []

/-- The first period of a run with these packets, and the update that ends it. -/
theorem first_update (frames : List frame_t) :
    ∃ trace state state' update, Processes frames trace ∧
      Execution (main_step initialized_session)
        (initial_state initialized_session.target domain_whitelist_init empty_bloom) trace state ∧
      main_step initialized_session state (.write_update (healthy_io 100) (healthy_io_healthy 100)) =
        some (state', .written update) := by
  obtain ⟨trace, state, hframes, run, _⟩ :=
    @main_run_goes_on_packets initialized_session _ _ rfl domain_whitelist_init empty_bloom .nil frames
  obtain ⟨update, state', run'⟩ := main_run_goes_on_update rfl run empty_bloom_lookup (healthy_io_healthy 100) rfl rfl
  obtain ⟨state₁, run₁, hstep⟩ := Execution.snoc_iff.mp run'
  obtain rfl := run.deterministic run₁
  exact ⟨trace, state, state', update, hframes, run, hstep⟩

theorem initial_drop_statistics (target : Target) :
    drop_statistics_init target drop_statistics_zero = drop_statistics_zero := by
  rw [drop_statistics_init, drop_statistics_zero]
  simp

/-- The one packet too many that is short is accounted for. -/
theorem drops_accounted_short :
    ∃ trace state state' update, Processes (List.replicate 65537 (other_frame 100)) trace ∧
      Execution (main_step initialized_session)
        (initial_state initialized_session.target domain_whitelist_init empty_bloom) trace state ∧
      main_step initialized_session state (.write_update (healthy_io 100) (healthy_io_healthy 100)) =
        some (state', .written update) ∧
      update.drops = histogram_section (refused_sizes trace) := by
  obtain ⟨trace, state, state', update, hframes, run, hstep⟩ := first_update (List.replicate 65537 (other_frame 100))
  refine ⟨trace, state, state', update, hframes, run, hstep, ?_⟩
  refine ((drops_accounted_iff (initial_drop_statistics _) rfl run hframes
    (by rw [List.length_replicate]; omega) hstep).mpr ?_).1
  intro frame hframe
  rw [List.eq_of_mem_replicate (List.mem_of_mem_drop hframe)]
  decide

/-- The one packet too many that has full size is not: the section is empty,
while the update reports one discarded packet. -/
theorem drops_unaccounted_full_size :
    ∃ trace state state' update, Processes (List.replicate 65537 (other_frame 1500)) trace ∧
      Execution (main_step initialized_session)
        (initial_state initialized_session.target domain_whitelist_init empty_bloom) trace state ∧
      main_step initialized_session state (.write_update (healthy_io 100) (healthy_io_healthy 100)) =
        some (state', .written update) ∧
      refused_sizes trace = [1500] ∧ update.drops ≠ histogram_section (refused_sizes trace) ∧
      update.discarded_by_overflow = some 1 ∧ section_count update.drops ≠ 1 := by
  obtain ⟨trace, state, state', update, hframes, run, hstep⟩ := first_update (List.replicate 65537 (other_frame 1500))
  obtain ⟨_, hrefused⟩ := period_refused rfl run hframes
  obtain ⟨hlength, hstatistics, hdiscarded⟩ :=
    fresh_period (initial_drop_statistics _) rfl run hframes (by rw [List.length_replicate]; omega)
  have hupdated := main_step_update hstep
  have hone : refused_sizes trace = [1500] := by
    rw [hrefused, List.drop_replicate, List.map_replicate]
    rfl
  have hfull : ¬∀ size ∈ refused_sizes trace, size.toNat < DROP_STATISTICS_MAXIMUM_PACKET_SIZE := by
    rw [hone]
    intro hshort
    exact absurd (hshort 1500 List.mem_cons_self) (by decide)
  rw [hone] at hdiscarded
  refine ⟨trace, state, state', update, hframes, run, hstep, hone, fun heq => hfull ?_, ?_, fun heq => hfull ?_⟩
  · rw [hupdated.drops, hstatistics] at heq
    exact (drop_section_eq_histogram_iff hlength).mp heq
  · rw [hupdated.discarded_by_overflow, Option.some.injEq]
    exact UInt32.toNat_inj.mp hdiscarded
  · rw [hupdated.drops, hstatistics] at heq
    refine (section_count_eq_iff hlength).mp ?_
    rw [heq, hone]
    rfl

end bismark_passive.main
