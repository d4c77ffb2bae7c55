import BismarkPassive.FlowTable.Assign
import BismarkPassive.PacketSeries.Series
import BismarkPassive.Reference

namespace bismark_passive

/-- The flow id that a packet line or a flow record shows. -/
def Line.shown_flow_id : Line → Option Int
  | .packet _ _ flow_id => some flow_id
  | .flow id .. => some id
  | _ => none

namespace packet_series

open flow_table machine

variable {s : Session} {hash_function : flow_key → UInt32}

/-- The packets that follow within the update period. -/
def add_packets (series : packet_series_t) (packets : List (timeval × UInt32 × Int)) : packet_series_t :=
  packets.foldl (fun series packet => (packet_series_add_packet series packet.1 packet.2.1 packet.2.2).2) series

theorem add_packets_extends (series : packet_series_t) (packets : List (timeval × UInt32 × Int)) :
    series.packet_data.items <+: (add_packets series packets).packet_data.items := by
  induction packets generalizing series with
  | nil => exact List.prefix_rfl
  | cons packet packets ih => exact (packet_series_add_packet_extends series _ _ _).trans (ih _)

/-- The line of a stored packet stays where the packet was put. -/
theorem packet_lines_stored {series : packet_series_t} (hroom : series.length < PACKET_DATA_BUFFER_ENTRIES)
    (timestamp : timeval) (size : UInt32) (flow : Int) (packets : List (timeval × UInt32 × Int)) :
    (packet_lines (add_packets (packet_series_add_packet series timestamp size flow).2 packets))[
        (packet_series_add_packet series timestamp size flow).1.toNat]? =
      some (packet_line (series.next timestamp size flow)) := by
  obtain ⟨_, hid, hitems, _⟩ | ⟨hfull, _⟩ := packet_series_add_packet_cases series timestamp size flow
  · obtain ⟨rest, hrest⟩ := add_packets_extends (packet_series_add_packet series timestamp size flow).2 packets
    rw [packet_lines, ← hrest, hitems, hid, Int.toNat_natCast, List.getElem?_map, packet_series_t.length]
    simp
  · omega

/-- The id of a slot survives the narrowing to 16 bits. -/
theorem next_flow (series : packet_series_t) (timestamp : timeval) (size : UInt32) (idx : Slot) :
    (series.next timestamp size (flow_id idx)).flow.toNat = flow_id idx := by
  have hlt := flow_id_lt idx
  rw [packet_series_t.next, UInt16.ofInt, UInt16.toNat_ofNat']
  omega

/-- A packet line shows the slot's id below the number of table entries, and -1
from there on. -/
theorem packet_line_flow_id (series : packet_series_t) (timestamp : timeval) (size : UInt32) (idx : Slot) :
    (packet_line (series.next timestamp size (flow_id idx))).shown_flow_id =
      some (if FLOW_TABLE_ENTRIES ≤ flow_id idx then -1 else (flow_id idx : Int)) := by
  simp only [packet_line, Line.shown_flow_id, next_flow, Nat.cast_le]

theorem flow_line_flow_id {idx : Slot} {entry : flow_table_entry_t} {record : Line}
    (h : flow_line s idx entry = some record) : record.shown_flow_id = some (flow_id idx : Int) := by
  simp only [flow_line, Option.bind_eq_bind, Option.bind_eq_some_iff, Option.pure_def, Option.some.injEq] at h
  obtain ⟨_, _, _, _, rfl⟩ := h
  rfl

/-- The flow belongs in one of the slots whose ids are below the number of
table entries, that is in any slot but the last seven. -/
def AssignsSmallId (s : Session) (hash_function : flow_key → UInt32) (table : flow_table_t)
    (timestamp_seconds : Int) (key : flow_key) : Prop :=
  ∃ idx, table.Assigns s.target hash_function timestamp_seconds key idx ∧ flow_id idx < FLOW_TABLE_ENTRIES

/-- A packet that is stored with the id of a slot is printed with the id that
the flow records of the slot show, and not with -1, exactly if the flow
belongs in a slot with a small id. -/
theorem packet_flow_id_agrees_iff {trace : List (flow_op × flow_output)} {table : flow_table_t}
    (run : flow_run s hash_function trace table) {new_entry : flow_table_entry_t} {timestamp_seconds : Int}
    {idx : Slot}
    (hid : (flow_table_process_flow s.target hash_function table new_entry timestamp_seconds).1 = flow_id idx)
    {series : packet_series_t} (hroom : series.length < PACKET_DATA_BUFFER_ENTRIES) (timestamp : timeval)
    (size : UInt32) (packets : List (timeval × UInt32 × Int)) {handle : gzFile} (hhandle : handle.Healthy) :
    let stored := packet_series_add_packet series timestamp size (flow_id idx)
    let updated := add_packets stored.2 packets
    packet_series_write_update updated handle = (some 0, handle.append (packet_section updated)) ∧
      (∀ entry record, flow_line s idx entry = some record → record.shown_flow_id = some (flow_id idx : Int)) ∧
      ∃ line, (packet_lines updated)[stored.1.toNat]? = some line ∧
        (line.shown_flow_id = some (flow_id idx : Int) ∧ line.shown_flow_id ≠ some (-1) ↔
          AssignsSmallId s hash_function table timestamp_seconds new_entry.key) := by
  intro stored updated
  have hprobed := (flow_run_sound run).probed
  obtain ⟨hadmitted, hassigned⟩ := (flow_table_process_flow_id_iff hprobed).mp hid
  refine ⟨packet_series_write_update_healthy updated hhandle, fun _ _ => flow_line_flow_id,
    packet_line (series.next timestamp size (flow_id idx)), packet_lines_stored hroom .., ?_⟩
  rw [packet_line_flow_id]
  constructor
  · rintro ⟨hsame, hshown⟩
    refine ⟨idx, hassigned, ?_⟩
    by_contra hlarge
    rw [if_pos (not_lt.mp hlarge)] at hshown
    exact hshown rfl
  · rintro ⟨slot, hslot, hsmall⟩
    obtain rfl : slot = idx :=
      flow_id_injective (((flow_table_process_flow_id_iff hprobed).mpr ⟨hadmitted, hslot⟩).symm.trans hid)
    rw [if_neg (not_le.mpr hsmall)]
    refine ⟨rfl, fun h => ?_⟩
    simp only [Option.some.injEq] at h
    omega

/-- A TCP flow from 192.168.1.2 to 8.8.8.8. -/
def tcp_entry (port_source : UInt16) : flow_table_entry_t :=
  { flow_table_entry_init with
    ip_source := 0xc0a80102
    ip_destination := 0x08080808
    port_source := port_source
    port_destination := 80
    transport_protocol := IPPROTO_TCP }

theorem tcp_entry_slots :
    (flow_table_process_flow reference_target (fnv_hash reference_target) flow_table_init (tcp_entry 40000)
        0).1 = flow_id 16779 ∧
      (flow_table_process_flow reference_target (fnv_hash reference_target) flow_table_init (tcp_entry 15549)
        0).1 = flow_id 65527 := by
  decide +kernel

/-- One packet, with an id that fits. -/
theorem packet_flow_id_agrees_iff_port_40000 :
    ∃ line, (packet_lines (packet_series_add_packet packet_series_init ⟨0, 0⟩ 60 (flow_id 16779)).2)[0]? =
        some line ∧ line.shown_flow_id = some (flow_id 16779 : Int) := by
  have run : flow_run reference_session (fnv_hash reference_target) [] flow_table_init := Execution.nil
  have hroom : packet_series_init.length < PACKET_DATA_BUFFER_ENTRIES := by decide
  obtain ⟨_, hassigned⟩ := (flow_table_process_flow_id_iff (flow_run_sound run).probed).mp tcp_entry_slots.1
  obtain ⟨_, _, line, hline, hiff⟩ :=
    packet_flow_id_agrees_iff run tcp_entry_slots.1 hroom ⟨0, 0⟩ 60 [] healthy_file_healthy
  exact ⟨line, hline, (hiff.mpr ⟨16779, hassigned, by decide⟩).1⟩

/-- The packets of a flow in slot 65527 are printed as if they had no flow. -/
theorem packet_flow_id_agrees_iff_port_15549 :
    (flow_table_process_flow reference_target (fnv_hash reference_target) flow_table_init (tcp_entry 15549)
        0).1 = flow_id 65527 ∧
      (packet_lines (packet_series_add_packet packet_series_init ⟨0, 0⟩ 60 (flow_id 65527)).2).map
        Line.shown_flow_id = [some (-1)] :=
  ⟨tcp_entry_slots.2, by decide +kernel⟩

end packet_series

end bismark_passive
