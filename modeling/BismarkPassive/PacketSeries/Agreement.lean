import BismarkPassive.PacketSeries.Series

namespace bismark_passive

/-- The line without what it tells about the flow. -/
def Line.without_flow_id : Line → Line
  | .packet timestamp size _ => .packet timestamp size 0
  | .url _ name => .url 0 name
  | line => line

namespace packet_series

open containers

/-! Series that agree except for the flow ids. The proposition `same` stands
for the flow ids agreeing as well. -/

variable {same : Prop}

def packet_data_t.without_flow (data : packet_data_t) : packet_data_t := { data with flow := 0 }

structure packet_series_t.Agrees (same : Prop) (series other : packet_series_t) : Prop where
  start_time : other.start_time_microseconds = series.start_time_microseconds
  last_time : other.last_time_microseconds = series.last_time_microseconds
  discarded : other.discarded_by_overflow = series.discarded_by_overflow
  packets : other.packet_data.items.map packet_data_t.without_flow =
    series.packet_data.items.map packet_data_t.without_flow
  eq_of_same : same → other = series

theorem packet_series_init_agrees : packet_series_init.Agrees same packet_series_init :=
  ⟨rfl, rfl, rfl, rfl, fun _ => rfl⟩

theorem packet_series_t.Agrees.length {series other : packet_series_t} (h : series.Agrees same other) :
    other.length = series.length := by
  have hlength := congrArg List.length h.packets
  rwa [List.length_map, List.length_map] at hlength

/-- A packet keeps the series agreeing. -/
theorem packet_series_add_packet_agrees {series other : packet_series_t} (h : series.Agrees same other)
    (timestamp : timeval) (size : UInt32) {flow flow' : Int} (hflow : same → flow' = flow) :
    (packet_series_add_packet other timestamp size flow').1 = (packet_series_add_packet series timestamp size flow).1 ∧
      (packet_series_add_packet series timestamp size flow).2.Agrees same
        (packet_series_add_packet other timestamp size flow').2 := by
  have hlength := h.length
  have hnext : (other.next timestamp size flow').without_flow = (series.next timestamp size flow).without_flow := by
    simp only [packet_data_t.without_flow, packet_series_t.next, hlength, h.last_time]
  unfold packet_series_add_packet
  cases hpush : series.packet_data.push (series.next timestamp size flow) with
  | none =>
    have hpush' : other.packet_data.push (other.next timestamp size flow') = none :=
      Bounded.push_eq_none_iff.mpr (hlength.trans (Bounded.push_eq_none_iff.mp hpush))
    rw [hpush']
    refine ⟨rfl, ?_⟩
    simp only [packet_series_t.discard, h.discarded]
    split
    · refine ⟨h.start_time, h.last_time, rfl, h.packets, fun hsame => ?_⟩
      rw [h.eq_of_same hsame]
    · exact h
  | some packet_data =>
    obtain ⟨hroom, hitems⟩ := Bounded.push_eq_some_iff.mp hpush
    have hroom' : other.packet_data.items.length < PACKET_DATA_BUFFER_ENTRIES := by
      rw [packet_series_t.length, packet_series_t.length] at hlength
      omega
    obtain ⟨packet_data', hpush'⟩ : ∃ packet_data', other.packet_data.push (other.next timestamp size flow') =
        some packet_data' := ⟨_, dif_pos hroom'⟩
    obtain ⟨-, hitems'⟩ := Bounded.push_eq_some_iff.mp hpush'
    rw [hpush']
    refine ⟨congrArg Nat.cast hlength, ?_, rfl, h.discarded, ?_, fun hsame => ?_⟩
    · simp only [hlength, h.start_time]
    · simp only [hitems, hitems', List.map_append, h.packets, List.map_singleton, hnext]
    · have hother := h.eq_of_same hsame
      rw [hother, hflow hsame, hpush, Option.some.injEq] at hpush'
      simp only [hother, hpush']

/-- The sections agree apart from flow ids. -/
theorem packet_section_agrees {series other : packet_series_t} (h : series.Agrees same other) :
    (packet_section other).map Line.without_flow_id = (packet_section series).map Line.without_flow_id ∧
      (same → packet_section other = packet_section series) := by
  have hlines (series : packet_series_t) : (packet_lines series).map Line.without_flow_id =
      (series.packet_data.items.map packet_data_t.without_flow).map
        fun data => .packet data.timestamp data.size 0 := by
    rw [packet_lines, List.map_map, List.map_map]
    rfl
  refine ⟨?_, fun hsame => by rw [h.eq_of_same hsame]⟩
  simp only [packet_section, List.map_append, List.map_cons, hlines, h.packets, h.start_time, h.discarded]

end packet_series

end bismark_passive
