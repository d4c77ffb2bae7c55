import BismarkPassive.Containers.Bounded
import BismarkPassive.Output

namespace bismark_passive.packet_series

open containers

structure packet_data_t where
  timestamp : Int32
  size : UInt16
  flow : UInt16
  deriving DecidableEq

/-- The field `length` is the length of `packet_data`. -/
structure packet_series_t where
  start_time_microseconds : Int64
  last_time_microseconds : Int64
  packet_data : Bounded packet_data_t PACKET_DATA_BUFFER_ENTRIES
  discarded_by_overflow : UInt32

def packet_series_t.length (series : packet_series_t) : Nat := series.packet_data.items.length

def packet_series_init : packet_series_t where
  start_time_microseconds := 0
  last_time_microseconds := 0
  packet_data := .empty
  discarded_by_overflow := 0

/-- The entry of the next packet. -/
def packet_series_t.next (series : packet_series_t) (timestamp : timeval) (size : UInt32) (flow : Int) :
    packet_data_t where
  timestamp :=
    if series.length = 0 then 0 else (timestamp.microseconds - series.last_time_microseconds).toInt32
  size := size.toUInt16
  flow := UInt16.ofInt flow

/-- The counter of discarded packets stops at its largest value. -/
def packet_series_t.discard (series : packet_series_t) : packet_series_t :=
  if series.discarded_by_overflow < series.discarded_by_overflow + 1 then
    { series with discarded_by_overflow := series.discarded_by_overflow + 1 }
  else series

def packet_series_add_packet (series : packet_series_t) (timestamp : timeval) (size : UInt32) (flow : Int) :
    Int × packet_series_t :=
  match series.packet_data.push (series.next timestamp size flow) with
  | none => (-1, series.discard)
  | some packet_data =>
    (series.length,
      { series with
        start_time_microseconds :=
          if series.length = 0 then timestamp.microseconds else series.start_time_microseconds
        last_time_microseconds := timestamp.microseconds
        packet_data := packet_data })

/-- The line of a packet. -/
def packet_line (data : packet_data_t) : Line :=
  let flow_id : Int := data.flow.toNat
  .packet data.timestamp data.size (if (FLOW_TABLE_ENTRIES : Int) ≤ flow_id then -1 else flow_id)

def packet_series_write_update (series : packet_series_t) : gzFile → writer_result × gzFile :=
  write_line (.packets series.start_time_microseconds series.discarded_by_overflow)
    (write_lines write_blank (series.packet_data.items.map fun data => some (packet_line data)))

def packet_lines (series : packet_series_t) : List Line := series.packet_data.items.map packet_line

def packet_section (series : packet_series_t) : List Line :=
  .packets series.start_time_microseconds series.discarded_by_overflow :: packet_lines series ++ [.blank]

/-- On a healthy file the whole section is written. -/
theorem packet_series_write_update_healthy (series : packet_series_t) {handle : gzFile} (h : handle.Healthy) :
    packet_series_write_update series handle = (some 0, handle.append (packet_section series)) := by
  have hlines : (series.packet_data.items.map fun data => some (packet_line data)) =
      (packet_lines series).map some := by
    rw [packet_lines, List.map_map]
    rfl
  have hheader := h.append [.packets series.start_time_microseconds series.discarded_by_overflow]
  rw [packet_series_write_update, write_line_healthy h, hlines, write_lines_healthy hheader,
    write_blank_healthy (hheader.append _), gzFile.append_append, gzFile.append_append]
  rfl

/-- What one call does: either the packet takes the next place in the series
and its index is returned, or the series is full and the packet is counted. -/
theorem packet_series_add_packet_cases (series : packet_series_t) (timestamp : timeval) (size : UInt32)
    (flow : Int) :
    (series.length < PACKET_DATA_BUFFER_ENTRIES ∧
      (packet_series_add_packet series timestamp size flow).1 = series.length ∧
      (packet_series_add_packet series timestamp size flow).2.packet_data.items =
        series.packet_data.items ++ [series.next timestamp size flow] ∧
      (packet_series_add_packet series timestamp size flow).2.discarded_by_overflow =
        series.discarded_by_overflow ∧
      (packet_series_add_packet series timestamp size flow).2.last_time_microseconds = timestamp.microseconds) ∨
    (series.length = PACKET_DATA_BUFFER_ENTRIES ∧
      packet_series_add_packet series timestamp size flow = (-1, series.discard)) := by
  unfold packet_series_add_packet
  cases hpush : series.packet_data.push (series.next timestamp size flow) with
  | none => exact .inr ⟨Bounded.push_eq_none_iff.mp hpush, rfl⟩
  | some packet_data =>
    obtain ⟨hroom, hitems⟩ := Bounded.push_eq_some_iff.mp hpush
    exact .inl ⟨hroom, rfl, hitems, rfl, rfl⟩

@[simp] theorem packet_series_t.discard_packet_data (series : packet_series_t) :
    series.discard.packet_data = series.packet_data := by
  unfold packet_series_t.discard
  split <;> rfl

/-- Later packets leave the entries of earlier ones in place. -/
theorem packet_series_add_packet_extends (series : packet_series_t) (timestamp : timeval) (size : UInt32)
    (flow : Int) :
    series.packet_data.items <+: (packet_series_add_packet series timestamp size flow).2.packet_data.items := by
  obtain ⟨_, _, hitems, _⟩ | ⟨_, hfull⟩ := packet_series_add_packet_cases series timestamp size flow
  · exact hitems ▸ List.prefix_append _ _
  · have hsame : (packet_series_add_packet series timestamp size flow).2.packet_data = series.packet_data := by
      rw [hfull]
      exact series.discard_packet_data
    exact hsame ▸ List.prefix_rfl

end bismark_passive.packet_series
