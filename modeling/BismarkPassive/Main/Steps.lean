import BismarkPassive.AddressTable.Collector
import BismarkPassive.FlowTable.Run
import BismarkPassive.Main.WriteUpdate

namespace bismark_passive.main

open machine flow_table address_table packet_series dns http drop_statistics

/-! What one packet does -/

/-- What a packet that is processed to its end does to each table. -/
structure ProcessedPacket (s : Session) (state : state_t) (frame : frame_t) (state' : state_t)
    (locals : packet_locals) : Prop where
  found : (get_flow_entry_for_packet s.target frame.caplen.toInt32.toInt frame.len state.address_table
      state.device_throughput_table).run frame.memory =
    (locals.ether_type, locals.dissection, state'.address_table, state'.device_throughput_table)
  flow : process_flow s.target locals.ether_type locals.dissection.entry frame.ts.tv_sec state.flow_table =
    (locals.flow_id, state'.flow_table)
  series : packet_series_add_packet state.packet_data frame.ts frame.len locals.flow_id.toNat =
    (locals.packet_id, state'.packet_data)
  drops : state'.drop_statistics =
    if locals.packet_id < 0 then drop_statistics_process_packet state.drop_statistics frame.len
    else state.drop_statistics
  dns : state'.dns_table = process_dns s frame locals.dissection locals.packet_id state.dns_table
  http : process_http s frame locals.dissection locals.flow_id state.http_table = some state'.http_table
  domain_whitelist : state'.domain_whitelist = state.domain_whitelist
  bloom_whitelist : state'.bloom_whitelist = state.bloom_whitelist
  sequence_number : state'.sequence_number = state.sequence_number

/-- What `process_packet` does, read from its code. -/
theorem process_packet_spec {s : Session} {state state' : state_t} {frame : frame_t} {locals : packet_locals}
    (h : process_packet s state frame = some (state', locals)) :
    ProcessedPacket s state frame state' locals := by
  rcases hfound : (get_flow_entry_for_packet s.target frame.caplen.toInt32.toInt frame.len state.address_table
    state.device_throughput_table).run frame.memory with ⟨ether_type, dissection, address_table, throughput⟩
  rcases hflow : process_flow s.target ether_type dissection.entry frame.ts.tv_sec state.flow_table with
    ⟨flow_id, flow_table⟩
  rcases hseries : packet_series_add_packet state.packet_data frame.ts frame.len flow_id.toNat with
    ⟨packet_id, packet_data⟩
  simp only [process_packet, hfound, hflow, hseries, Option.map_eq_some_iff, Prod.mk.injEq] at h
  obtain ⟨http_table, hhttp, rfl, rfl⟩ := h
  exact ⟨hfound, hflow, hseries, rfl, rfl, hhttp, rfl, rfl, rfl⟩

/-! What one update does -/

/-- A section whose writer adds lines consists of these lines. -/
theorem write_section_eq {writer : gzFile → writer_result × gzFile} {handle handle' : gzFile}
    {lines appended : List Line} (hwriter : (writer handle).2 = handle.append appended)
    (h : write_section writer handle = some (lines, handle')) :
    lines = appended ∧ handle' = handle.append appended := by
  obtain ⟨hresult, hlines⟩ := write_section_written h
  have hhandle' : handle' = handle.append appended := by rw [← hwriter, hresult]
  exact ⟨by rw [hlines, hhandle', gzFile.append_written, List.drop_left], hhandle'⟩

theorem write_section_completes {writer : gzFile → writer_result × gzFile} (hcompletes : Completes writer)
    {handle : gzFile} (hhandle : handle.Healthy) :
    ∃ lines, write_section writer handle = some (lines, handle.append lines) := by
  obtain ⟨lines, hwriter⟩ := hcompletes handle hhandle
  refine ⟨lines, ?_⟩
  simp only [write_section, hwriter, gzFile.append_written, List.drop_left]

theorem write_section_healthy {writer : gzFile → writer_result × gzFile} (hcompletes : Completes writer)
    {handle handle' : gzFile} (hhandle : handle.Healthy) {lines : List Line}
    (h : write_section writer handle = some (lines, handle')) : handle'.Healthy := by
  obtain ⟨appended, hwriter⟩ := hcompletes handle hhandle
  rw [(write_section_eq (congrArg Prod.snd hwriter) h).2]
  exact hhandle.append appended

theorem domain_whitelist_write_update_completes (whitelist : domain_whitelist_t) :
    Completes (domain_whitelist_write_update whitelist) :=
  write_lines_completes write_blank_completes (by simp)

theorem write_header_completes (s : Session) (state : state_t) (io : update_io) :
    Completes (write_header s state io) := by
  refine write_lines_completes write_blank_completes fun line hline => ?_
  simp only [List.mem_cons, List.mem_map] at hline
  rcases hline with rfl | rfl | ⟨_, _, rfl⟩ <;> rfl

theorem write_whitelist_completes (state : state_t) : Completes (write_whitelist state) := by
  unfold write_whitelist
  split
  · exact domain_whitelist_write_update_completes _
  · exact write_blank_completes

theorem write_anonymization_completes (s : Session) : Completes (write_anonymization s) := by
  unfold write_anonymization
  split
  · exact write_line_completes _ completes_at_once
  · exact write_line_completes _ completes_at_once

/-- What a completed update has written of each table, and what it leaves. -/
structure Updated (s : Session) (state : state_t) (io : update_io) (state' : state_t) (update : update_t) :
    Prop where
  packets : update.packets = packet_section state.packet_data
  flows : update.flows = flow_section s state.flow_table
  composed : ∀ idx, (state.flow_table.entries idx).occupied = .ENTRY_OCCUPIED_BUT_UNSENT →
    ∃ line, flow_line s idx (state.flow_table.entries idx) = some line
  flow_written : ∃ handle handle', flow_table_write_update s state.flow_table handle =
    (some 0, state.flow_table.mark_sent all_slots, handle')
  dns : ∃ a_lines cname_lines : List Line,
    state.dns_table.a_entries.items.map (a_line s state.dns_table) = a_lines.map some ∧
    state.dns_table.cname_entries.items.map (cname_line s state.dns_table) = cname_lines.map some ∧
    update.dns = dns_section state.dns_table a_lines cname_lines
  addresses : ∃ lines : List Line,
    (state.address_table.added_ids.map fun mac_id =>
      address_line s (state.address_table.entries (mac_slot mac_id))) = lines.map some ∧
    update.addresses = address_section state.address_table lines
  drops : update.drops = drop_section state.drop_statistics
  urls : (s.target.enable_http_url = false ∧ update.urls = []) ∨
    (s.target.enable_http_url = true ∧ ∃ lines : List Line,
      state.http_table.entries.items.mapIdx (url_line io.heap) = lines.map some ∧
      update.urls = .urls state.http_table.num_dropped_url_entries :: lines ++ [.blank])
  reset : state' = reset_state s state (state.flow_table.mark_sent all_slots) state.address_table.reset_added
    io.current_timestamp

theorem open_file_healthy {io : update_io} (hio : io.Healthy) {handle : gzFile} (h : io.open_file = some handle) :
    handle.Healthy := by
  unfold update_io.open_file at h
  split at h
  · obtain rfl := Option.some.inj h
    exact fun call _ => hio call
  · simp at h

theorem write_table_section_of_written {T : Type} {writer : gzFile → writer_result × T × gzFile}
    {handle handle' : gzFile} {table : T} (h : writer handle = (some 0, table, handle')) :
    write_table_section writer handle = some (table, handle'.written.drop handle.written.length, handle') := by
  simp only [write_table_section, h]

/-- A writer of a table and its section. -/
theorem write_table_section_eq {T : Type} {writer : gzFile → writer_result × T × gzFile} {handle handle' : gzFile}
    {table : T} {lines appended : List Line} (hwriter : (writer handle).2.2 = handle.append appended)
    (h : write_table_section writer handle = some (table, lines, handle')) :
    lines = appended ∧ handle' = handle.append appended := by
  obtain ⟨hresult, hlines⟩ := write_table_section_written h
  have hhandle' : handle' = handle.append appended := by rw [← hwriter, hresult]
  exact ⟨by rw [hlines, hhandle', gzFile.append_written, List.drop_left], hhandle'⟩

/-- The URL section, in builds that have it. -/
theorem write_urls_section {s : Session} {state : state_t} {io : update_io} {handle handle' : gzFile}
    (hhandle : handle.Healthy) {urls : List Line}
    (h : write_section (write_urls s state io) handle = some (urls, handle')) :
    (s.target.enable_http_url = false ∧ urls = []) ∨
    (s.target.enable_http_url = true ∧ ∃ lines : List Line,
      state.http_table.entries.items.mapIdx (url_line io.heap) = lines.map some ∧
      urls = .urls state.http_table.num_dropped_url_entries :: lines ++ [.blank]) := by
  unfold write_urls at h
  cases hwanted : s.target.enable_http_url with
  | false =>
    rw [hwanted] at h
    obtain ⟨rfl, _⟩ := write_section_eq (gzFile.append_nil handle).symm h
    exact .inl ⟨rfl, rfl⟩
  | true =>
    rw [hwanted] at h
    obtain ⟨_, lines, hlines, hhandle'⟩ := http_table_write_update_healthy hhandle (write_section_written h).1
    obtain ⟨rfl, _⟩ := write_section_eq (by rw [(write_section_written h).1, hhandle']) h
    exact .inr ⟨rfl, lines, hlines, rfl⟩

/-- An update is staged if every section is written. -/
theorem write_update_eq_some_iff {s : Session} {state state' : state_t} {io : update_io} {update : update_t} :
    write_update s state io = some (state', update) ↔
      ∃ handle₀ handle₁ handle₂ handle₃ handle₄ handle₅ handle₆ handle₇ handle₈ handle₉ flow_table address_table,
        io.open_file = some handle₀ ∧
        write_section (write_header s state io) handle₀ = some (update.header, handle₁) ∧
        write_section (write_whitelist state) handle₁ = some (update.whitelist, handle₂) ∧
        write_section (write_anonymization s) handle₂ = some (update.anonymization, handle₃) ∧
        write_section (packet_series_write_update state.packet_data) handle₃ = some (update.packets, handle₄) ∧
        write_table_section (flow_table_write_update s state.flow_table) handle₄ =
          some (flow_table, update.flows, handle₅) ∧
        write_section (dns_table_write_update s state.dns_table) handle₅ = some (update.dns, handle₆) ∧
        write_table_section (address_table_write_update s state.address_table) handle₆ =
          some (address_table, update.addresses, handle₇) ∧
        write_section (drop_statistics_write_update state.drop_statistics) handle₇ = some (update.drops, handle₈) ∧
        write_section (write_urls s state io) handle₈ = some (update.urls, handle₉) ∧ io.renamed = true ∧
        state' = reset_state s state flow_table address_table io.current_timestamp := by
  rw [write_update]
  constructor
  · intro h
    obtain ⟨handle₀, hopen, h⟩ := Option.bind_eq_some_iff.mp h
    obtain ⟨⟨header, handle₁⟩, hheader, h⟩ := Option.bind_eq_some_iff.mp h
    obtain ⟨⟨whitelist, handle₂⟩, hwhitelist, h⟩ := Option.bind_eq_some_iff.mp h
    obtain ⟨⟨anonymization, handle₃⟩, hanonymization, h⟩ := Option.bind_eq_some_iff.mp h
    obtain ⟨⟨packets, handle₄⟩, hpackets, h⟩ := Option.bind_eq_some_iff.mp h
    obtain ⟨⟨flow_table, flows, handle₅⟩, hflows, h⟩ := Option.bind_eq_some_iff.mp h
    obtain ⟨⟨dns, handle₆⟩, hdns, h⟩ := Option.bind_eq_some_iff.mp h
    obtain ⟨⟨address_table, addresses, handle₇⟩, haddresses, h⟩ := Option.bind_eq_some_iff.mp h
    obtain ⟨⟨drops, handle₈⟩, hdrops, h⟩ := Option.bind_eq_some_iff.mp h
    obtain ⟨⟨urls, handle₉⟩, hurls, h⟩ := Option.bind_eq_some_iff.mp h
    obtain ⟨hrenamed, h⟩ := Option.ite_none_right_eq_some.mp h
    obtain ⟨rfl, rfl⟩ := Prod.mk.inj (Option.some.inj h)
    exact ⟨handle₀, handle₁, handle₂, handle₃, handle₄, handle₅, handle₆, handle₇, handle₈, handle₉, flow_table,
      address_table, hopen, hheader, hwhitelist, hanonymization, hpackets, hflows, hdns, haddresses, hdrops, hurls,
      hrenamed, rfl⟩
  · rintro ⟨handle₀, handle₁, handle₂, handle₃, handle₄, handle₅, handle₆, handle₇, handle₈, handle₉, flow_table,
      address_table, hopen, hheader, hwhitelist, hanonymization, hpackets, hflows, hdns, haddresses, hdrops, hurls,
      hrenamed, rfl⟩
    refine Option.bind_eq_some_iff.mpr ⟨_, hopen, ?_⟩
    refine Option.bind_eq_some_iff.mpr ⟨_, hheader, ?_⟩
    refine Option.bind_eq_some_iff.mpr ⟨_, hwhitelist, ?_⟩
    refine Option.bind_eq_some_iff.mpr ⟨_, hanonymization, ?_⟩
    refine Option.bind_eq_some_iff.mpr ⟨_, hpackets, ?_⟩
    refine Option.bind_eq_some_iff.mpr ⟨_, hflows, ?_⟩
    refine Option.bind_eq_some_iff.mpr ⟨_, hdns, ?_⟩
    refine Option.bind_eq_some_iff.mpr ⟨_, haddresses, ?_⟩
    refine Option.bind_eq_some_iff.mpr ⟨_, hdrops, ?_⟩
    exact Option.bind_eq_some_iff.mpr ⟨_, hurls, if_pos hrenamed⟩

/-- What `write_update` does on a file that takes every line. -/
theorem write_update_spec {s : Session} {state state' : state_t} {io : update_io} {update : update_t}
    (hio : io.Healthy) (h : write_update s state io = some (state', update)) :
    Updated s state io state' update := by
  obtain ⟨handle₀, handle₁, handle₂, handle₃, handle₄, handle₅, handle₆, handle₇, handle₈, handle₉, flow_table,
    address_table, hopen, hheader, hwhitelist, hanonymization, hpackets, hflows, hdns, haddresses, hdrops, hurls, -,
    rfl⟩ := write_update_eq_some_iff.mp h
  have hhandle₀ := open_file_healthy hio hopen
  have hhandle₁ := write_section_healthy (write_header_completes s state io) hhandle₀ hheader
  have hhandle₂ := write_section_healthy (write_whitelist_completes state) hhandle₁ hwhitelist
  have hhandle₃ := write_section_healthy (write_anonymization_completes s) hhandle₂ hanonymization
  have hpackets_written := packet_series_write_update_healthy state.packet_data hhandle₃
  obtain ⟨hpacket_lines, rfl⟩ := write_section_eq (by rw [hpackets_written]) hpackets
  have hhandle₄ := hhandle₃.append (packet_section state.packet_data)
  obtain ⟨hflow_written, _⟩ := write_table_section_written hflows
  obtain ⟨_, rfl, hflow_handle, hcomposed⟩ := flow_table_write_update_healthy s _ hhandle₄ hflow_written
  obtain ⟨hflow_lines, rfl⟩ := write_table_section_eq (by rw [hflow_written, hflow_handle]) hflows
  have hhandle₅ := hhandle₄.append (flow_section s state.flow_table)
  obtain ⟨_, a_lines, cname_lines, ha_lines, hcname_lines, hdns_handle⟩ :=
    dns_table_write_update_healthy hhandle₅ (write_section_written hdns).1
  obtain ⟨hdns_lines, rfl⟩ := write_section_eq (by rw [(write_section_written hdns).1, hdns_handle]) hdns
  have hhandle₆ := hhandle₅.append (dns_section state.dns_table a_lines cname_lines)
  obtain ⟨haddress_written, _⟩ := write_table_section_written haddresses
  obtain ⟨_, rfl, mapping_lines, hmapping_lines, haddress_handle⟩ :=
    address_table_write_update_composed hhandle₆ haddress_written
  obtain ⟨haddress_lines, rfl⟩ := write_table_section_eq (by rw [haddress_written, haddress_handle]) haddresses
  have hhandle₇ := hhandle₆.append (address_section state.address_table mapping_lines)
  have hdrops_written := drop_statistics_write_update_healthy state.drop_statistics hhandle₇
  obtain ⟨hdrop_lines, hdrop_handle⟩ := write_section_eq (by rw [hdrops_written]) hdrops
  have hhandle₈ := hhandle₇.append (drop_section state.drop_statistics)
  exact
    { packets := hpacket_lines
      flows := hflow_lines
      composed := hcomposed
      flow_written := ⟨_, _, hflow_written⟩
      dns := ⟨a_lines, cname_lines, ha_lines, hcname_lines, hdns_lines⟩
      addresses := ⟨mapping_lines, hmapping_lines, haddress_lines⟩
      drops := hdrop_lines
      urls := write_urls_section (hdrop_handle ▸ hhandle₈) hurls
      reset := rfl }

end bismark_passive.main
