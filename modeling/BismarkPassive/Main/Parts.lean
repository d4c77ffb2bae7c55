import BismarkPassive.Main.Publication
import BismarkPassive.Main.Signals

namespace bismark_passive.main

open machine files flow_table address_table packet_series dns http drop_statistics

/-! What each part of an update prints and does to the tables -/

/-- The calls that print a part; `none` stands for a line in the composition of
which the process dies. -/
def part_t.lines (s : Session) (tables : state_t) (io : update_io) : part_t → List (Option Line)
  | .header => header_lines s tables io
  | .whitelist => whitelist_lines tables
  | .anonymization => anonymization_lines s
  | .packets => packet_series_lines tables.packet_data
  | .flow_header => [some (.flows tables.flow_table.base_timestamp_seconds tables.flow_table.num_elements
      tables.flow_table.num_expired_flows tables.flow_table.num_dropped_flows)]
  | .flow_end => [some .blank]
  | .dns => dns_table_lines s tables.dns_table
  | .addresses => address_table_lines s tables.address_table
  | .drops => drop_statistics_lines tables.drop_statistics
  | .urls => url_lines s tables io

/-- The tables once the part has been printed. -/
def part_t.leaves (tables : state_t) : part_t → state_t
  | .addresses => { tables with address_table := tables.address_table.reset_added }
  | _ => tables

theorem printing_writes {writer : gzFile → writer_result × gzFile} {lines : List (Option Line)}
    (hwrites : Writes writer lines) (tables : state_t) {stream : gzFile} (hstream : stream.Healthy)
    {composed : List Line} (hcomposed : lines = composed.map some) :
    printing tables writer stream = (some 0, tables, stream.append composed) := by
  rw [printing, hwrites stream hstream composed hcomposed]

/-- A part prints its lines and leaves its table sent. -/
theorem part_t.write_spec (s : Session) (tables : state_t) (io : update_io) (part : part_t) {stream : gzFile}
    (hstream : stream.Healthy) {composed : List Line} (hcomposed : part.lines s tables io = composed.map some) :
    part.write s tables io stream = (some 0, part.leaves tables, stream.append composed) := by
  cases part with
  | header => exact printing_writes (writes_lines writes_blank _) tables hstream hcomposed
  | whitelist =>
    refine printing_writes ?_ tables hstream hcomposed
    unfold write_whitelist part_t.lines whitelist_lines
    split
    · exact writes_lines writes_blank _
    · exact writes_blank
  | anonymization =>
    refine printing_writes ?_ tables hstream hcomposed
    unfold write_anonymization part_t.lines anonymization_lines
    split
    · exact writes_line writes_done _
    · exact writes_line writes_done _
  | packets => exact printing_writes (writes_line (writes_lines writes_blank _) _) tables hstream hcomposed
  | flow_header => exact printing_writes (writes_line writes_done _) tables hstream hcomposed
  | flow_end => exact printing_writes writes_blank tables hstream hcomposed
  | dns =>
    exact printing_writes (writes_line (writes_lines (writes_line (writes_lines writes_blank _) _) _) _) tables hstream
      hcomposed
  | addresses =>
    have hwrite := writes_line (writes_lines writes_blank
      (tables.address_table.added_ids.map fun mac_id =>
        address_line s (tables.address_table.entries (mac_slot mac_id))))
      (.addresses (NORM (tables.address_table.last - tables.address_table.added_since_last_update + 1))
        MAC_TABLE_ENTRIES) stream hstream composed hcomposed
    simp only [part_t.write, address_table_write_update, hwrite, if_true]
    rfl
  | drops => exact printing_writes (writes_lines writes_blank _) tables hstream hcomposed
  | urls =>
    refine printing_writes ?_ tables hstream hcomposed
    unfold write_urls part_t.lines url_lines
    split
    · exact writes_line (writes_lines writes_blank _) _
    · exact writes_done

/-! The packet lines and the flow records among them -/

theorem a_line_shows {s : Session} {table : dns_table_t} {entry : dns_a_entry_t} {line : Line}
    (h : a_line s table entry = some line) : Line.is_packet line = false ∧ Line.is_flow line = false := by
  unfold a_line at h
  split at h <;>
    simp only [Option.bind_eq_bind, Option.bind_eq_some_iff, Option.pure_def, Option.some.injEq] at h <;>
    obtain ⟨_, _, _, _, rfl⟩ := h <;> exact ⟨rfl, rfl⟩

theorem cname_line_shows {s : Session} {table : dns_table_t} {entry : dns_cname_entry_t} {line : Line}
    (h : cname_line s table entry = some line) : Line.is_packet line = false ∧ Line.is_flow line = false := by
  simp only [cname_line, Option.bind_eq_bind, Option.bind_eq_some_iff, Option.pure_def, Option.some.injEq] at h
  obtain ⟨_, _, _, _, rfl⟩ := h
  exact ⟨rfl, rfl⟩

/-- An address line is neither a packet nor a flow record. -/
theorem address_line_shows {s : Session} {entry : address_table_entry_t} {line : Line}
    (h : address_line s entry = some line) : Line.is_packet line = false ∧ Line.is_flow line = false := by
  unfold address_line at h
  split at h
  · simp only [Option.bind_eq_bind, Option.bind_eq_some_iff, Option.pure_def, Option.some.injEq] at h
    obtain ⟨_, _, rfl⟩ := h
    exact ⟨rfl, rfl⟩
  · simp only [Option.bind_eq_bind, Option.bind_eq_some_iff, Option.pure_def, Option.some.injEq] at h
    obtain ⟨_, _, _, _, _, _, rfl⟩ := h
    exact ⟨rfl, rfl⟩

theorem url_line_shows {heap : heap_t} {idx : Nat} {entry : http_url_entry} {line : Line}
    (h : url_line heap idx entry = some line) : Line.is_packet line = false ∧ Line.is_flow line = false := by
  simp only [url_line, Option.bind_eq_bind, Option.bind_eq_some_iff, Option.pure_def, Option.some.injEq] at h
  obtain ⟨_, _, rfl⟩ := h
  exact ⟨rfl, rfl⟩

/-- Neither a packet nor a flow is shown in any part but that of the packets. -/
theorem part_t.lines_show {s : Session} {tables : state_t} {io : update_io} {part : part_t} (hpart : part ≠ .packets)
    {line : Line} (h : some line ∈ part.lines s tables io) :
    Line.is_packet line = false ∧ Line.is_flow line = false := by
  cases part with
  | header =>
    simp only [part_t.lines, header_lines, List.cons_append, List.mem_cons, List.mem_append, List.mem_map,
      Option.some.injEq, List.not_mem_nil, or_false] at h
    rcases h with rfl | rfl | ⟨_, _, rfl⟩ | rfl <;> exact ⟨rfl, rfl⟩
  | whitelist =>
    simp only [part_t.lines, whitelist_lines] at h
    split at h
    · simp only [List.mem_append, List.mem_map, Option.some.injEq, List.mem_singleton] at h
      rcases h with ⟨_, _, rfl⟩ | rfl <;> exact ⟨rfl, rfl⟩
    · simp only [Option.some.injEq, List.mem_singleton] at h
      subst h
      exact ⟨rfl, rfl⟩
  | anonymization =>
    simp only [part_t.lines, anonymization_lines] at h
    split at h <;> simp only [Option.some.injEq, List.mem_singleton] at h <;> subst h <;> exact ⟨rfl, rfl⟩
  | packets => exact absurd rfl hpart
  | flow_header =>
    simp only [part_t.lines, Option.some.injEq, List.mem_singleton] at h
    subst h
    exact ⟨rfl, rfl⟩
  | flow_end =>
    simp only [part_t.lines, Option.some.injEq, List.mem_singleton] at h
    subst h
    exact ⟨rfl, rfl⟩
  | dns =>
    simp only [part_t.lines, dns_table_lines, List.mem_cons, List.mem_append, List.mem_map, Option.some.injEq,
      List.not_mem_nil, or_false] at h
    obtain rfl | ⟨_, _, hline⟩ | rfl | ⟨_, _, hline⟩ | rfl := h
    · exact ⟨rfl, rfl⟩
    · exact a_line_shows hline
    · exact ⟨rfl, rfl⟩
    · exact cname_line_shows hline
    · exact ⟨rfl, rfl⟩
  | addresses =>
    simp only [part_t.lines, address_table_lines, List.mem_cons, List.mem_append, List.mem_map, Option.some.injEq,
      List.not_mem_nil, or_false] at h
    obtain rfl | ⟨_, _, hline⟩ | rfl := h
    · exact ⟨rfl, rfl⟩
    · exact address_line_shows hline
    · exact ⟨rfl, rfl⟩
  | drops =>
    simp only [part_t.lines, drop_statistics_lines, List.mem_append, List.mem_map, Option.some.injEq,
      List.mem_singleton, exists_eq_right] at h
    obtain hline | rfl := h
    · obtain ⟨_, _, hdrop⟩ := List.mem_filterMap.mp hline
      split at hdrop
      · obtain rfl := Option.some.inj hdrop
        exact ⟨rfl, rfl⟩
      · cases hdrop
    · exact ⟨rfl, rfl⟩
  | urls =>
    simp only [part_t.lines, url_lines] at h
    split at h
    · simp only [List.mem_cons, List.mem_append, List.mem_mapIdx, Option.some.injEq, List.not_mem_nil, or_false] at h
      obtain rfl | ⟨_, _, hline⟩ | rfl := h
      · exact ⟨rfl, rfl⟩
      · exact url_line_shows hline
      · exact ⟨rfl, rfl⟩
    · cases h

/-- Only the part of the packets composes packet records. -/
theorem part_t.composed_show {s : Session} {tables : state_t} {io : update_io} {part : part_t}
    (hpart : part ≠ .packets) {composed : List Line} (hcomposed : part.lines s tables io = composed.map some) :
    composed.filter Line.is_packet = [] ∧ composed.filter Line.is_flow = [] := by
  have hshow (line : Line) (hline : line ∈ composed) :
      Line.is_packet line = false ∧ Line.is_flow line = false :=
    part_t.lines_show hpart (hcomposed ▸ List.mem_map_of_mem hline)
  rw [List.filter_eq_nil_iff, List.filter_eq_nil_iff]
  exact ⟨fun line hline => by simp [(hshow line hline).1], fun line hline => by simp [(hshow line hline).2]⟩

/-- That part composes the series' entries. -/
theorem packets_composed_show {s : Session} {tables : state_t} {io : update_io} {composed : List Line}
    (hcomposed : part_t.packets.lines s tables io = composed.map some) :
    composed.filter Line.is_packet = tables.packet_data.packet_data.items.map packet_line ∧
      composed.filter Line.is_flow = [] := by
  have hsection : part_t.packets.lines s tables io = (packet_section tables.packet_data).map some := by
    simp [part_t.lines, packet_series_lines, packet_section, packet_lines]
  obtain rfl : packet_section tables.packet_data = composed :=
    List.map_injective_iff.mpr (Option.some_injective _) (hsection.symm.trans hcomposed)
  have hline (line : Line) (h : line ∈ packet_lines tables.packet_data) :
      Line.is_packet line = true ∧ Line.is_flow line = false := by
    obtain ⟨data, _, rfl⟩ := List.mem_map.mp h
    exact ⟨rfl, rfl⟩
  have hpackets := List.filter_eq_self.mpr fun line h => (hline line h).1
  have hflows : (packet_lines tables.packet_data).filter Line.is_flow = [] :=
    List.filter_eq_nil_iff.mpr fun line h => by simp [(hline line h).2]
  rw [packet_section, List.cons_append]
  constructor
  · rw [List.filter_cons_of_neg (by simp [Line.is_packet]), List.filter_append, hpackets]
    simp [Line.is_packet, packet_lines]
  · rw [List.filter_cons_of_neg (by simp [Line.is_flow]), List.filter_append, hflows]
    simp [Line.is_flow]

end bismark_passive.main
