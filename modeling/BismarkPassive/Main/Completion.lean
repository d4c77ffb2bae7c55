import BismarkPassive.Main.Run
import BismarkPassive.Reference

namespace bismark_passive.main

open flow_table address_table packet_series dns http drop_statistics

/-! Once the anonymiser is initialised and the whitelists are loaded, the
process does not die in a packet or in an update whose file takes every line. -/

section composed

variable {s : Session} (hinitialized : s.anonymization.initialized = true)

include hinitialized

theorem anonymize_ip_isSome (address : UInt32) : (anonymize_ip s address).isSome := by
  simp [anonymize_ip, anonymization_process, hinitialized]

theorem address_digest_isSome (unanonymized : Bool) (address : UInt32) :
    (address_digest s unanonymized address).isSome := by
  unfold address_digest
  split
  · rfl
  · exact anonymize_ip_isSome hinitialized address

theorem flow_line_isSome (idx : Slot) (entry : flow_table_entry_t) : (flow_line s idx entry).isSome := by
  obtain ⟨source_digest, hsource⟩ := Option.isSome_iff_exists.mp
    (address_digest_isSome hinitialized entry.ip_source_unanonymized entry.ip_source)
  obtain ⟨destination_digest, hdestination⟩ := Option.isSome_iff_exists.mp
    (address_digest_isSome hinitialized entry.ip_destination_unanonymized entry.ip_destination)
  simp [flow_line, hsource, hdestination]

theorem hex_domain_digest_isSome (name : cstring) : (hex_domain_digest s name).isSome := by
  have hlength : (s.externals.sha1_hmac s.anonymization.seed name).toList.length ≤ 1023 := by
    rw [Vector.length_toList]
    decide
  simpa [hex_domain_digest, anonymize_domain, anonymization_process, hinitialized] using
    buffer_to_hex_isSome hlength

theorem a_name_isSome {table : dns_table_t} (hbloom : ∀ name, (bloom_whitelist_lookup table.bloom name).isSome)
    (name : cstring) : (a_name s table name).isSome := by
  obtain ⟨malware_flag, hflag⟩ := Option.isSome_iff_exists.mp (hbloom name)
  obtain ⟨digest, hdigest⟩ := Option.isSome_iff_exists.mp (hex_domain_digest_isSome hinitialized name)
  simp only [a_name, hflag, hdigest, Option.bind_eq_bind, Option.bind_some]
  split <;> rfl

theorem cname_name_isSome {table : dns_table_t}
    (hbloom : ∀ name, (bloom_whitelist_lookup table.bloom name).isSome) (name : cstring) :
    (cname_name s table name).isSome := by
  obtain ⟨malware_flag, hflag⟩ := Option.isSome_iff_exists.mp (hbloom name)
  obtain ⟨digest, hdigest⟩ := Option.isSome_iff_exists.mp (hex_domain_digest_isSome hinitialized name)
  simp only [cname_name, hflag, hdigest, Option.bind_eq_bind, Option.bind_some]
  split <;> rfl

theorem a_line_isSome {table : dns_table_t} (hbloom : ∀ name, (bloom_whitelist_lookup table.bloom name).isSome)
    (entry : dns_a_entry_t) : (a_line s table entry).isSome := by
  obtain ⟨domain, hdomain⟩ := Option.isSome_iff_exists.mp (a_name_isSome hinitialized hbloom entry.domain_name)
  obtain ⟨digest, hdigest⟩ := Option.isSome_iff_exists.mp (anonymize_ip_isSome hinitialized entry.ip_address)
  simp only [a_line, hdomain, hdigest, Option.bind_eq_bind]
  split <;> rfl

theorem cname_line_isSome {table : dns_table_t}
    (hbloom : ∀ name, (bloom_whitelist_lookup table.bloom name).isSome) (entry : dns_cname_entry_t) :
    (cname_line s table entry).isSome := by
  obtain ⟨domain, hdomain⟩ := Option.isSome_iff_exists.mp (cname_name_isSome hinitialized hbloom entry.domain_name)
  obtain ⟨cname, hcname⟩ := Option.isSome_iff_exists.mp (cname_name_isSome hinitialized hbloom entry.cname)
  simp only [cname_line, hdomain, hcname, Option.bind_eq_bind, Option.bind_some]
  rfl

theorem write_entries_completes (range : List Slot) (table : flow_table_t) {handle : gzFile}
    (hhandle : handle.Healthy) :
    ∃ table' handle', write_entries s range table handle = (some 0, table', handle') ∧ handle'.Healthy := by
  induction range generalizing table handle with
  | nil => exact ⟨table, handle, rfl, hhandle⟩
  | cons idx range ih =>
    rw [write_entries]
    by_cases hunsent : (table.entries idx).occupied = .ENTRY_OCCUPIED_BUT_UNSENT
    · obtain ⟨line, hline⟩ := Option.isSome_iff_exists.mp (flow_line_isSome hinitialized idx (table.entries idx))
      obtain ⟨hreturned, happend⟩ := gzprintf_healthy hhandle line
      simp only [if_pos hunsent, hline, if_neg hreturned, happend]
      exact ih _ (hhandle.append [line])
    · simp only [if_neg hunsent]
      exact ih table hhandle

theorem flow_table_write_update_completes (table : flow_table_t) {handle : gzFile} (hhandle : handle.Healthy) :
    ∃ table' handle', flow_table_write_update s table handle = (some 0, table', handle') := by
  obtain ⟨hreturned, happend⟩ := gzprintf_healthy hhandle (.flows table.base_timestamp_seconds
    table.num_elements table.num_expired_flows table.num_dropped_flows)
  simp only [flow_table_write_update, if_neg hreturned, happend]
  obtain ⟨table', handle', hentries, hhandle'⟩ := write_entries_completes hinitialized all_slots table
    (hhandle.append [.flows table.base_timestamp_seconds table.num_elements table.num_expired_flows
      table.num_dropped_flows])
  obtain ⟨hblank, happend'⟩ := gzprintf_healthy hhandle' .blank
  rw [hentries, write_end]
  simp only [if_neg hblank, happend']
  exact ⟨table', _, rfl⟩

theorem dns_table_write_update_completes {table : dns_table_t}
    (hbloom : ∀ name, (bloom_whitelist_lookup table.bloom name).isSome) :
    Completes (dns_table_write_update s table) := by
  refine write_line_completes _ (write_lines_completes (write_line_completes _
    (write_lines_completes write_blank_completes fun line hline => ?_)) fun line hline => ?_)
  · obtain ⟨entry, _, rfl⟩ := List.mem_map.mp hline
    exact cname_line_isSome hinitialized hbloom entry
  · obtain ⟨entry, _, rfl⟩ := List.mem_map.mp hline
    exact a_line_isSome hinitialized hbloom entry

/-- On a file that takes every line the section is written, whatever the table holds. -/
theorem address_table_write_update_completes (table : address_table_t) {handle : gzFile}
    (hhandle : handle.Healthy) :
    ∃ table' handle', address_table_write_update s table handle = (some 0, table', handle') := by
  have hcompletes : Completes (write_line
      (.addresses (NORM (table.last - table.added_since_last_update + 1)) MAC_TABLE_ENTRIES)
      (write_lines write_blank
        (table.added_ids.map fun mac_id => address_line s (table.entries (mac_slot mac_id))))) := by
    refine write_line_completes _ (write_lines_completes write_blank_completes fun line hline => ?_)
    obtain ⟨mac_id, _, rfl⟩ := List.mem_map.mp hline
    exact address_line_isSome_iff.mpr fun _ => hinitialized
  obtain ⟨lines, hlines⟩ := hcompletes handle hhandle
  rw [address_table_write_update, hlines]
  exact ⟨_, _, rfl⟩

omit hinitialized in
theorem write_urls_completes (state : state_t) (io : update_io) : Completes (write_urls s state io) := by
  unfold write_urls
  split
  · refine write_line_completes _ (write_lines_completes write_blank_completes fun line hline => ?_)
    obtain ⟨idx, hidx, rfl⟩ := List.mem_mapIdx.mp hline
    exact url_line_isSome _ _ _
  · exact completes_at_once

/-- An update completes. -/
theorem write_update_completes {state : state_t} {io : update_io}
    (hbloom : ∀ name, (bloom_whitelist_lookup state.dns_table.bloom name).isSome) (hio : io.Healthy)
    (hopened : io.opened = true) (hrenamed : io.renamed = true) :
    ∃ state' update, write_update s state io = some (state', update) := by
  have hopen : io.open_file = some { gzprintf_returns := io.gzprintf_returns, calls := 0, written := [] } := by
    rw [update_io.open_file, if_pos hopened]
  have hhandle₀ := open_file_healthy hio hopen
  obtain ⟨header, hheader⟩ := write_section_completes (write_header_completes s state io) hhandle₀
  have hhandle₁ := hhandle₀.append header
  obtain ⟨whitelist, hwhitelist⟩ := write_section_completes (write_whitelist_completes state) hhandle₁
  have hhandle₂ := hhandle₁.append whitelist
  obtain ⟨anonymization, hanonymization⟩ := write_section_completes (write_anonymization_completes s) hhandle₂
  have hhandle₃ := hhandle₂.append anonymization
  obtain ⟨packets, hpackets⟩ := write_section_completes
    (fun handle h => ⟨_, packet_series_write_update_healthy state.packet_data h⟩) hhandle₃
  have hhandle₄ := hhandle₃.append packets
  obtain ⟨flow_table, handle₅, hflow_written⟩ :=
    flow_table_write_update_completes hinitialized state.flow_table hhandle₄
  obtain ⟨_, rfl, rfl, _⟩ := flow_table_write_update_healthy s _ hhandle₄ hflow_written
  have hhandle₅ := hhandle₄.append (flow_section s state.flow_table)
  obtain ⟨dns, hdns⟩ := write_section_completes (dns_table_write_update_completes hinitialized hbloom) hhandle₅
  have hhandle₆ := hhandle₅.append dns
  obtain ⟨address_table, handle₇, haddress_written⟩ :=
    address_table_write_update_completes hinitialized state.address_table hhandle₆
  obtain ⟨_, rfl, addresses, _, rfl⟩ := address_table_write_update_composed hhandle₆ haddress_written
  have hhandle₇ := hhandle₆.append (address_section state.address_table addresses)
  obtain ⟨drops, hdrops⟩ := write_section_completes
    (fun handle h => ⟨_, drop_statistics_write_update_healthy state.drop_statistics h⟩) hhandle₇
  have hurls_completes : Completes (write_urls s state io) := write_urls_completes state io
  obtain ⟨urls, hurls⟩ := write_section_completes hurls_completes (hhandle₇.append drops)
  have hflows := write_table_section_of_written hflow_written
  have haddresses := write_table_section_of_written haddress_written
  exact ⟨_, ⟨_, _, _, _, _, _, _, _, _⟩, write_update_eq_some_iff.mpr ⟨_, _, _, _, _, _, _, _, _, _, _, _, hopen,
    hheader, hwhitelist, hanonymization, hpackets, hflows, hdns, haddresses, hdrops, hurls, hrenamed, rfl⟩⟩

/-- A payload is always done with: its loop ends and its digests are formatted. -/
theorem process_http_packet_completes (bytes : List UInt8) (len : Int) (table : http_table_t) (flow_id : UInt16) :
    ∃ result, process_http_packet s bytes len table flow_id = some result := by
  unfold process_http_packet
  split
  · exact ⟨_, rfl⟩
  · split
    · exact ⟨_, rfl⟩
    · simp only [add_url, anonymize_url, anonymization_process, hinitialized]
      split
      · split <;> exact ⟨_, rfl⟩
      · exact ⟨_, rfl⟩

/-- So `process_http` returns in every build. -/
theorem process_http_isSome (frame : frame_t) (dissection : dissection_t) (flow_id : UInt16)
    (http_table : http_table_t) : (process_http s frame dissection flow_id http_table).isSome := by
  obtain ⟨result, hresult⟩ := process_http_packet_completes hinitialized
    (frame.bytes.drop dissection.http_bytes) dissection.http_bytes_len http_table flow_id
  unfold process_http
  split
  · simp [hresult]
  · rfl

/-- A packet is processed to its end. -/
theorem process_packet_completes (state : state_t) (frame : frame_t) :
    ∃ state' locals, process_packet s state frame = some (state', locals) := by
  have hsome : (process_packet s state frame).isSome := by
    simp only [process_packet, Option.isSome_map, process_http_isSome hinitialized]
  obtain ⟨⟨state', locals⟩, hprocess⟩ := Option.isSome_iff_exists.mp hsome
  exact ⟨state', locals, hprocess⟩

variable {domain_whitelist : domain_whitelist_t} {bloom_whitelist : bloom_whitelist_t} {trace : main_trace}
  {state : state_t}

/-- Every run goes on with any packet. -/
theorem main_run_goes_on_packet (run : main_run s domain_whitelist bloom_whitelist trace state) (frame : frame_t) :
    ∃ capture state', capture.frame = frame ∧ main_step s state (.process_packet frame) =
        some (state', .processed capture) ∧
      main_run s domain_whitelist bloom_whitelist (trace ++ [(.process_packet frame, .processed capture)]) state' := by
  obtain ⟨state', locals, hprocess⟩ := process_packet_completes hinitialized state frame
  have hstep : main_step s state (.process_packet frame) = some (state', .processed ⟨frame, locals,
      packet_insertion s state frame locals, packet_mappings state frame locals⟩) := by
    simp [main_step, hprocess]
  exact ⟨_, state', rfl, hstep, run.snoc hstep⟩

/-- Every run goes on with an update whose file takes every line. -/
theorem main_run_goes_on_update (run : main_run s domain_whitelist bloom_whitelist trace state)
    (hbloom : ∀ name, (bloom_whitelist_lookup bloom_whitelist name).isSome) {io : update_io} (healthy : io.Healthy)
    (hopened : io.opened = true) (hrenamed : io.renamed = true) :
    ∃ update state', main_run s domain_whitelist bloom_whitelist
      (trace ++ [(.write_update io healthy, .written update)]) state' := by
  have hdns_bloom : ∀ name, (bloom_whitelist_lookup state.dns_table.bloom name).isSome := by
    rw [(main_run_whitelists run).dns_bloom]
    exact hbloom
  obtain ⟨state', update, hwrite⟩ := write_update_completes hinitialized hdns_bloom healthy hopened hrenamed
  exact ⟨update, state', run.snoc (by simp [main_step, hwrite])⟩

end composed

/-- A Bloom filter without hash functions, which contains every name. -/
def empty_bloom : bloom_whitelist_t where
  asize := 0
  a := none
  nfuncs := 0
  funcs _ := none

theorem empty_bloom_lookup (name : cstring) : (bloom_whitelist_lookup empty_bloom name).isSome := rfl

/-- Everything goes well. -/
def healthy_io (current_timestamp : Int) : update_io where
  pcap_statistics := none
  opened := true
  gzprintf_returns _ := 1
  current_timestamp := current_timestamp
  heap _ := []
  renamed := true

theorem healthy_io_healthy (current_timestamp : Int) : (healthy_io current_timestamp).Healthy :=
  fun _ => Int.one_pos

end bismark_passive.main
