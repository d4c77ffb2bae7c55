import BismarkPassive.Dns.Storage
import BismarkPassive.Main.DnsEntries
import BismarkPassive.Main.Names
import BismarkPassive.Main.Parts
import BismarkPassive.Main.Startup
import BismarkPassive.Main.UpdateReader

namespace bismark_passive

open text

/-- The lines of text that a call prints, which are two for some formats. -/
def Line.text_lines : Line → List cstring
  | .version file_format_version build_id => [unsigned file_format_version, build_id]
  | .seed seed_hex_digest => [seed_hex_digest, []]
  | .unanonymized => [UNANONYMIZED, []]
  | line => [joined line.fields]

theorem Line.text_eq (line : Line) : line.text = line.text_lines.flatMap fun text_line => text_line ++ [newline] := by
  cases line <;> simp [Line.text, Line.text_lines, Line.fields, text.line, joined, List.intercalate]

end bismark_passive

namespace bismark_passive.main

open text machine flow_table address_table packet_series dns http drop_statistics

variable {s : Session} {α : Type}

/-! Each section is read back from the lines of text that it is printed as -/

/-- The reader recovers the lines from what is printed, and nothing that is
printed breaks a line in two. -/
structure ReadBack (reader : LineReader (List Line)) (lines : List Line) : Prop where
  reads : Reads reader (lines.flatMap Line.text_lines) lines
  unbroken : ∀ text_line ∈ lines.flatMap Line.text_lines, newline ∉ text_line

theorem flatMap_text_lines {format : Format α} {line_of : α → Line}
    (hlines : ∀ value, (line_of value).text_lines = [format.write value]) (values : List α) :
    (values.map line_of).flatMap Line.text_lines = values.map format.write := by
  rw [List.flatMap_map, List.map_eq_flatMap]
  exact congrArg (values.flatMap ·) (funext hlines)

/-- A list of rows is read back up to the blank line. -/
theorem read_lines_back {format : Format α} {line_of : α → Line}
    (hlines : ∀ value, (line_of value).text_lines = [format.write value]) {values : List α}
    (hne : ∀ value ∈ values, format.write value ≠ []) :
    ReadBack (read_lines format line_of) (values.map line_of ++ [.blank]) := by
  have htext : (values.map line_of ++ [Line.blank]).flatMap Line.text_lines = values.map format.write ++ [[]] := by
    rw [List.flatMap_append, flatMap_text_lines hlines]
    rfl
  constructor
  · rw [htext]
    exact (format.paragraph_reads hne).map _
  · rw [htext]
    intro text_line hmem
    obtain hmem | hmem := List.mem_append.mp hmem
    · obtain ⟨value, -, rfl⟩ := List.mem_map.mp hmem
      exact format.newline_not_mem value
    · rw [List.mem_singleton.mp hmem]
      exact List.not_mem_nil

/-- So is a section behind its opening row. -/
theorem read_opening_back (format : Format α) (line_of : α → Line) (value : α)
    (hline : (line_of value).text_lines = [format.write value]) {rest : LineReader (List Line)} {lines : List Line}
    (hrest : ReadBack rest lines) : ReadBack (read_opening format line_of rest) (line_of value :: lines) := by
  constructor
  · rw [List.flatMap_cons, hline]
    exact (format.next_reads value).bind (hrest.reads.map _)
  · rw [List.flatMap_cons, hline]
    exact List.forall_mem_cons.mpr ⟨format.newline_not_mem value, hrest.unbroken⟩

/-- Sections are read back one after the other. -/
theorem ReadBack.append {first second : LineReader (List Line)} {lines more : List Line}
    (hfirst : ReadBack first lines) (hsecond : ReadBack second more) :
    ReadBack (first >>= fun lines => second >>= fun more => pure (lines ++ more)) (lines ++ more) := by
  constructor
  · rw [List.flatMap_append]
    exact hfirst.reads.bind (hsecond.reads.map _)
  · rw [List.flatMap_append]
    exact List.forall_mem_append.mpr ⟨hfirst.unbroken, hsecond.unbroken⟩

/-- Lines that all stand for values stand for a list of values. -/
theorem exists_values {line_of : α → Line} {lines : List Line} (h : ∀ line ∈ lines, ∃ value, line_of value = line) :
    ∃ values : List α, values.map line_of = lines := by
  induction lines with
  | nil => exact ⟨[], rfl⟩
  | cons line lines ih =>
    obtain ⟨⟨value, rfl⟩, hlines⟩ := List.forall_mem_cons.mp h
    obtain ⟨values, rfl⟩ := ih hlines
    exact ⟨value :: values, rfl⟩

/-- Rows of more than one column. -/
theorem read_rows_back {β : Type} {column : Column α} {row : Row β} {line_of : α × β → Line}
    (hlines : ∀ value, (line_of value).text_lines = [(column.cons row).format.write value]) {lines : List Line}
    (h : ∀ line ∈ lines, ∃ value, line_of value = line) :
    ReadBack (read_lines (column.cons row).format line_of) (lines ++ [.blank]) := by
  obtain ⟨values, rfl⟩ := exists_values h
  exact read_lines_back hlines fun value _ => column.cons_write_ne_nil row value

/-! The sections in turn -/

/-- The names in a session do not disturb the file format. -/
structure Session.Readable (s : Session) : Prop where
  build_id : newline ∉ s.build_id
  bismark_id : Unspaced s.bismark_id
  seed : ∀ digit ∈ s.anonymization.seed_hex_digest, LowerHex digit

theorem LowerHex.word {digits : cstring} (h : ∀ digit ∈ digits, LowerHex digit) : Unspaced digits :=
  ⟨fun hspace => absurd (h space hspace) (by decide), fun hnewline => absurd (h newline hnewline) (by decide)⟩

theorem buffer_to_hex_word {buffer : List UInt8} {hex : cstring} (h : buffer_to_hex buffer = some hex) :
    Unspaced hex := by
  obtain ⟨-, rfl⟩ := buffer_to_hex_eq_some_iff.mp h
  exact LowerHex.word lowerHex_hex_digits

/-- The header of an update. -/
theorem header_back (hs : Session.Readable s) (state : state_t) (io : update_io) :
    ReadBack read_header (.version FILE_FORMAT_VERSION s.build_id ::
      .session s.bismark_id s.start_timestamp_microseconds state.sequence_number io.current_timestamp ::
      (io.pcap_statistics.toList.map pcap_statistics_line ++ [.blank])) := by
  have hstatistics : ReadBack (read_lines pcap_statistics_row.format pcap_statistics_line)
      (io.pcap_statistics.toList.map pcap_statistics_line ++ [.blank]) :=
    read_rows_back (fun _ => rfl) (List.forall_mem_map.mpr fun values _ => ⟨values, rfl⟩)
  have hsession := read_opening_back session_row.format session_line
    (⟨s.bismark_id, hs.bismark_id⟩, s.start_timestamp_microseconds, state.sequence_number, io.current_timestamp) rfl
    hstatistics
  have hversion := version_row.format.next_reads FILE_FORMAT_VERSION
  have hbuild_id := line_format.next_reads ⟨s.build_id, hs.build_id⟩
  constructor
  · exact hversion.bind (hbuild_id.bind (hsession.reads.map _))
  · refine List.forall_mem_cons.mpr ⟨version_row.format.newline_not_mem FILE_FORMAT_VERSION, ?_⟩
    exact List.forall_mem_cons.mpr ⟨hs.build_id, hsession.unbroken⟩

/-- The whitelist of an update. -/
theorem whitelist_back {domains : List cstring} (hdomains : ∀ name ∈ domains, Listable name) :
    ReadBack read_whitelist (domains.map Line.domain ++ [.blank]) := by
  have hlines (value : line_t) : (domain_line value).text_lines = [line_format.write value] := by
    simp [domain_line, Line.text_lines, Line.fields, joined, List.intercalate, line_format]
  obtain ⟨values, rfl⟩ : ∃ values : List line_t, values.map Subtype.val = domains :=
    ⟨domains.attachWith (newline ∉ ·) fun domain hmem => (hdomains domain hmem).2, List.attachWith_map_subtype_val _⟩
  rw [List.map_map]
  exact read_lines_back hlines fun value hmem => (hdomains value (List.mem_map_of_mem hmem)).1

theorem seed_ne_UNANONYMIZED {digits : cstring} (h : ∀ digit ∈ digits, LowerHex digit) : digits ≠ UNANONYMIZED := by
  rintro rfl
  exact absurd (h 85 (by decide)) (by decide)

/-- The line of the anonymisation. -/
theorem anonymization_line_back {line : cstring} (hline : newline ∉ line)
    (htext : (anonymization_line ⟨line, hline⟩).text_lines = [line, []]) :
    ReadBack read_anonymization [anonymization_line ⟨line, hline⟩] := by
  have hnext := line_format.next_reads ⟨line, hline⟩
  have hempty := line_format.paragraph_reads (List.forall_mem_nil _)
  constructor
  · rw [List.flatMap_singleton, htext]
    exact hnext.bind (hempty.bind (reads_pure _))
  · rw [List.flatMap_singleton, htext]
    exact List.forall_mem_cons.mpr ⟨hline, List.forall_mem_singleton.mpr List.not_mem_nil⟩

theorem seed_back (hs : Session.Readable s) : ReadBack read_anonymization [.seed s.anonymization.seed_hex_digest] := by
  have hline : anonymization_line ⟨s.anonymization.seed_hex_digest, (LowerHex.word hs.seed).2⟩ =
      .seed s.anonymization.seed_hex_digest := if_neg (seed_ne_UNANONYMIZED hs.seed)
  rw [← hline]
  exact anonymization_line_back _ (congrArg Line.text_lines hline)

theorem unanonymized_back : ReadBack read_anonymization [.unanonymized] := by
  have hline : anonymization_line ⟨UNANONYMIZED, by decide⟩ = .unanonymized := if_pos rfl
  rw [← hline]
  exact anonymization_line_back _ (congrArg Line.text_lines hline)

theorem packets_back (series : packet_series_t) : ReadBack read_packets (packet_section series) := by
  refine read_opening_back packets_row.format packets_line
    (series.start_time_microseconds, series.discarded_by_overflow) rfl (read_rows_back (fun _ => rfl) ?_)
  exact List.forall_mem_map.mpr fun data _ => ⟨(data.timestamp, data.size, _), rfl⟩

theorem flow_line_is_row {idx : Slot} {entry : flow_table_entry_t} {line : Line}
    (h : flow_line s idx entry = some line) : ∃ value, flow_record_line value = line := by
  simp only [flow_line, Option.bind_eq_bind, Option.bind_eq_some_iff, Option.pure_def, Option.some.injEq] at h
  obtain ⟨_, _, _, _, rfl⟩ := h
  exact ⟨(_, _, _, _, _, _, _, _), rfl⟩

theorem flows_back (table : flow_table_t) : ReadBack read_flows (flow_section s table) := by
  refine read_opening_back flows_row.format flows_line
    (table.base_timestamp_seconds, table.num_elements, table.num_expired_flows, table.num_dropped_flows) rfl
    (read_rows_back (fun _ => rfl) fun line hline => ?_)
  obtain ⟨idx, _, hidx⟩ := List.mem_filterMap.mp hline
  exact flow_line_is_row (Option.ite_none_right_eq_some.mp hidx).2

theorem hex_domain_digest_word {name shown : cstring} {anonymized : Bool}
    (h : (hex_domain_digest s name >>= fun digest => pure (true, digest)) = some (anonymized, shown)) :
    Unspaced shown := by
  simp only [hex_domain_digest, Option.bind_eq_bind, Option.bind_eq_some_iff, Option.pure_def, Option.some.injEq,
    Prod.mk.injEq] at h
  obtain ⟨digest, ⟨_, -, hdigest⟩, -, rfl⟩ := h
  exact buffer_to_hex_word hdigest

/-- Each mapping's line is in the form of its row. -/
theorem address_line_is_row {entry : address_table_entry_t} {line : Line} (h : address_line s entry = some line) :
    ∃ value, mapping_line value = line := by
  unfold address_line at h
  split at h
  · simp only [Option.bind_eq_bind, Option.bind_eq_some_iff, Option.pure_def, Option.some.injEq] at h
    obtain ⟨mac, hmac, rfl⟩ := h
    exact ⟨(⟨mac, buffer_to_hex_word hmac⟩, _), rfl⟩
  · simp only [Option.bind_eq_bind, Option.bind_eq_some_iff, Option.pure_def, Option.some.injEq] at h
    obtain ⟨_, -, _, -, mac, hmac, rfl⟩ := h
    exact ⟨(⟨mac, buffer_to_hex_word hmac⟩, _), rfl⟩

theorem url_line_is_row {heap : heap_t} {idx : Nat} {entry : http_url_entry} {line : Line}
    (h : url_line heap idx entry = some line) : ∃ value, url_record_line value = line := by
  simp only [url_line, Option.bind_eq_bind, Option.bind_eq_some_iff, Option.pure_def, Option.some.injEq] at h
  obtain ⟨url, hurl, rfl⟩ := h
  exact ⟨(entry.flow_id, (), ⟨url, buffer_to_hex_word hurl⟩, ()), rfl⟩

/-- A name is shown as one word, or as a digest. -/
theorem a_name_word {table : dns_table_t} {name shown : cstring} {anonymized : Bool} (hname : Unspaced name)
    (h : a_name s table name = some (anonymized, shown)) : Unspaced shown := by
  simp only [a_name, Option.bind_eq_bind, Option.bind_eq_some_iff] at h
  obtain ⟨malware_flag, -, h⟩ := h
  split at h
  · obtain ⟨-, rfl⟩ := Prod.mk.inj (Option.some.inj h)
    exact hname
  · exact hex_domain_digest_word h

/-- An alias is shown as one word, or as a digest. -/
theorem cname_name_word {table : dns_table_t} {name shown : cstring} {anonymized : Bool} (hname : Unspaced name)
    (h : cname_name s table name = some (anonymized, shown)) : Unspaced shown := by
  simp only [cname_name, Option.bind_eq_bind, Option.bind_eq_some_iff] at h
  obtain ⟨malware_flag, -, h⟩ := h
  split at h
  · obtain ⟨-, rfl⟩ := Prod.mk.inj (Option.some.inj h)
    exact hname
  · exact hex_domain_digest_word h

/-- Each address record's line is in the form of its row. -/
theorem a_line_is_row {table : dns_table_t} {entry : dns_a_entry_t} {line : Line} (hname : Unspaced entry.domain_name)
    (h : a_line s table entry = some line) : ∃ value, a_record_line value = line := by
  unfold a_line at h
  split at h
  all_goals
    simp only [Option.bind_eq_bind, Option.bind_eq_some_iff, Option.pure_def, Option.some.injEq] at h
    obtain ⟨address_digest, -, ⟨anonymized, shown⟩, hshown, rfl⟩ := h
    exact ⟨(_, _, anonymized, ⟨shown, a_name_word hname hshown⟩, address_digest, _), rfl⟩

theorem cname_line_is_row {table : dns_table_t} {entry : dns_cname_entry_t} {line : Line}
    (hname : Unspaced entry.domain_name) (hcname : Unspaced entry.cname) (h : cname_line s table entry = some line) :
    ∃ value, cname_record_line value = line := by
  simp only [cname_line, Option.bind_eq_bind, Option.bind_eq_some_iff, Option.pure_def, Option.some.injEq] at h
  obtain ⟨⟨domain_anonymized, domain⟩, hdomain, ⟨cname_anonymized, cname⟩, hshown, rfl⟩ := h
  exact ⟨(_, _, domain_anonymized, ⟨domain, cname_name_word hname hdomain⟩, cname_anonymized,
    ⟨cname, cname_name_word hcname hshown⟩, _), rfl⟩

/-- The DNS section of an update. -/
theorem dns_back {table : dns_table_t} (htable : NamesAre Unspaced table) {a_lines cname_lines : List Line}
    (ha_lines : table.a_entries.items.map (a_line s table) = a_lines.map some)
    (hcname_lines : table.cname_entries.items.map (cname_line s table) = cname_lines.map some) :
    ReadBack read_dns (dns_section table a_lines cname_lines) := by
  have ha_back : ReadBack (read_lines a_row.format a_record_line) (a_lines ++ [.blank]) := by
    refine read_rows_back (fun _ => rfl) fun line hline => ?_
    obtain ⟨entry, hentry, ha_line⟩ := mem_of_map_some ha_lines hline
    exact a_line_is_row (htable.a_entries entry hentry) ha_line
  have hcname_back : ReadBack (read_lines cname_row.format cname_record_line) (cname_lines ++ [.blank]) := by
    refine read_rows_back (fun _ => rfl) fun line hline => ?_
    obtain ⟨entry, hentry, hcname_line⟩ := mem_of_map_some hcname_lines hline
    obtain ⟨hname, hcname⟩ := htable.cname_entries entry hentry
    exact cname_line_is_row hname hcname hcname_line
  have hsection : dns_section table a_lines cname_lines =
      dns_line (table.num_dropped_a_entries, table.num_dropped_cname_entries) ::
        ((a_lines ++ [.blank]) ++ (cname_lines ++ [.blank])) := by
    simp [dns_section, dns_line]
  rw [hsection]
  exact read_opening_back dns_row.format dns_line _ rfl (ha_back.append hcname_back)

theorem addresses_back {table : address_table_t} {lines : List Line}
    (hlines : (table.added_ids.map fun mac_id => address_line s (table.entries (mac_slot mac_id))) = lines.map some) :
    ReadBack read_addresses (address_section table lines) := by
  refine read_opening_back addresses_row.format addresses_line (_, MAC_TABLE_ENTRIES) rfl
    (read_rows_back (fun _ => rfl) fun line hline => ?_)
  obtain ⟨mac_id, -, haddress⟩ := mem_of_map_some hlines hline
  exact address_line_is_row haddress

theorem drops_back (drop_statistics : drop_statistics_t) : ReadBack read_drops (drop_section drop_statistics) := by
  refine read_rows_back (fun _ => rfl) fun line hline => ?_
  obtain ⟨idx, -, hidx⟩ := List.mem_filterMap.mp hline
  obtain ⟨-, hdrop⟩ := Option.ite_none_right_eq_some.mp hidx
  exact ⟨(idx.val, drop_statistics.packet_sizes idx), Option.some.inj hdrop⟩

/-- The URL section of an update. -/
theorem urls_back {heap : heap_t} {table : http_table_t} {lines : List Line}
    (hlines : table.entries.items.mapIdx (url_line heap) = lines.map some) :
    ReadBack (read_opening urls_row.format urls_line (read_lines url_row.format url_record_line))
      (.urls table.num_dropped_url_entries :: lines ++ [.blank]) := by
  refine read_opening_back urls_row.format urls_line (table.num_dropped_url_entries, ()) rfl
    (read_rows_back (fun _ => rfl) fun line hline => ?_)
  have hsome : some line ∈ table.entries.items.mapIdx (url_line heap) := hlines ▸ List.mem_map_of_mem hline
  obtain ⟨idx, hidx, hurl⟩ := List.mem_mapIdx.mp hsome
  exact url_line_is_row hurl

/-! The file -/

/-- The domains that are printed with the first update. -/
def state_t.shown_domains (state : state_t) : List cstring :=
  if state.sequence_number = 0 then state.domain_whitelist.domains else []

/-- A section that is written to a file that takes every line. -/
theorem section_written {writer : gzFile → writer_result × gzFile} {composed lines : List Line}
    (hwrites : Writes writer (composed.map some)) {handle handle' : gzFile} (hhandle : handle.Healthy)
    (h : write_section writer handle = some (lines, handle')) : lines = composed :=
  (write_section_eq (congrArg Prod.snd (hwrites handle hhandle composed rfl)) h).1

/-- The sections of a completed update that come before those of the tables. -/
theorem write_update_opening {state state' : state_t} {io : update_io} {update : update_t} (hio : io.Healthy)
    (h : write_update s state io = some (state', update)) :
    update.header = .version FILE_FORMAT_VERSION s.build_id ::
      .session s.bismark_id s.start_timestamp_microseconds state.sequence_number io.current_timestamp ::
      (io.pcap_statistics.toList.map pcap_statistics_line ++ [.blank]) ∧
    update.whitelist = state.shown_domains.map Line.domain ++ [.blank] ∧
    update.anonymization =
      [if s.target.disable_anonymization then .unanonymized else .seed s.anonymization.seed_hex_digest] := by
  obtain ⟨handle₀, handle₁, handle₂, handle₃, -, -, -, -, -, -, -, -, hopen, hheader, hwhitelist, hanonymization, -⟩ :=
    write_update_eq_some_iff.mp h
  have hhandle₀ := open_file_healthy hio hopen
  have hhandle₁ := write_section_healthy (write_header_completes s state io) hhandle₀ hheader
  have hhandle₂ := write_section_healthy (write_whitelist_completes state) hhandle₁ hwhitelist
  refine ⟨section_written ?_ hhandle₀ hheader, section_written ?_ hhandle₁ hwhitelist,
    section_written ?_ hhandle₂ hanonymization⟩
  · rw [List.map_cons, List.map_cons, List.map_append, List.map_map]
    exact writes_lines writes_blank _
  · unfold write_whitelist state_t.shown_domains
    split
    · rw [List.map_append, List.map_map]
      exact writes_lines writes_blank _
    · exact writes_blank
  · unfold write_anonymization
    split
    · exact writes_line writes_done _
    · exact writes_line writes_done _

theorem anonymization_back (hs : Session.Readable s) :
    ReadBack read_anonymization
      [if s.target.disable_anonymization then .unanonymized else .seed s.anonymization.seed_hex_digest] := by
  split
  · exact unanonymized_back
  · exact seed_back hs

/-- A completed update is read back from its file. -/
theorem read_update_text (hs : Session.Readable s) {state state' : state_t}
    (hdomains : ∀ name ∈ state.shown_domains, Listable name) (hnames : NamesAre Unspaced state.dns_table)
    {io : update_io} (hio : io.Healthy) {update : update_t} (h : write_update s state io = some (state', update)) :
    read_update update.text = some update := by
  obtain ⟨hheader, hwhitelist, hanonymization⟩ := write_update_opening hio h
  have hupdated := write_update_spec hio h
  obtain ⟨a_lines, cname_lines, ha_lines, hcname_lines, hdns⟩ := hupdated.dns
  obtain ⟨mapping_lines, hmapping_lines, haddresses⟩ := hupdated.addresses
  have header : ReadBack read_header update.header := hheader ▸ header_back hs state io
  have whitelist : ReadBack read_whitelist update.whitelist := hwhitelist ▸ whitelist_back hdomains
  have anonymization : ReadBack read_anonymization update.anonymization := hanonymization ▸ anonymization_back hs
  have packets : ReadBack read_packets update.packets := hupdated.packets ▸ packets_back state.packet_data
  have flows : ReadBack read_flows update.flows := hupdated.flows ▸ flows_back state.flow_table
  have dns : ReadBack read_dns update.dns := hdns ▸ dns_back hnames ha_lines hcname_lines
  have addresses : ReadBack read_addresses update.addresses := haddresses ▸ addresses_back hmapping_lines
  have drops : ReadBack read_drops update.drops := hupdated.drops ▸ drops_back state.drop_statistics
  have urls : (∀ text_line ∈ update.urls.flatMap Line.text_lines, newline ∉ text_line) ∧
      read_urls (update.urls.flatMap Line.text_lines ++ [[]]) = some (update.urls, [[]]) := by
    obtain ⟨-, hnone⟩ | ⟨-, lines, hlines, hurls⟩ := hupdated.urls
    · rw [hnone]
      exact ⟨fun _ hmem => absurd hmem List.not_mem_nil, rfl⟩
    · rw [hurls]
      have hback := urls_back hlines
      refine ⟨hback.unbroken, ?_⟩
      rw [read_urls, if_neg (by simp [Line.text_lines])]
      exact hback.reads [[]]
  have hunbroken : ∀ text_line ∈ update.lines.flatMap Line.text_lines, newline ∉ text_line := by
    simp only [update_t.lines, List.flatMap_append, List.forall_mem_append]
    exact ⟨⟨⟨⟨⟨⟨⟨⟨header.unbroken, whitelist.unbroken⟩, anonymization.unbroken⟩, packets.unbroken⟩, flows.unbroken⟩,
      dns.unbroken⟩, addresses.unbroken⟩, drops.unbroken⟩, urls.1⟩
  have hread : read_sections (update.lines.flatMap Line.text_lines ++ [[]]) = some (update, [[]]) := by
    simp only [update_t.lines, List.flatMap_append, List.append_assoc]
    rw [read_sections, header.reads.run_bind, whitelist.reads.run_bind, anonymization.reads.run_bind,
      packets.reads.run_bind, flows.reads.run_bind, dns.reads.run_bind, addresses.reads.run_bind, drops.reads.run_bind]
    change (read_urls (update.urls.flatMap Line.text_lines ++ [[]]) >>= fun read => some (_, read.2)) = _
    rw [urls.2]
    rfl
  rw [read_update, update_t.text, splitOn_printed Line.text_eq hunbroken, hread]

/-! The files of a run -/

/-- What `dn_expand` promises about names: it escapes the spaces and newlines
in them. -/
def ExpandsToWords (expand : List UInt8 → Nat → Option (cstring × Nat)) : Prop := ExpandsTo Unspaced expand

variable {domain_whitelist : domain_whitelist_t} {bloom_whitelist : bloom_whitelist_t}

theorem main_step_written {state state' : state_t} {io : update_io} {healthy : io.Healthy} {update : update_t}
    (h : main_step s state (.write_update io healthy) = some (state', .written update)) :
    write_update s state io = some (state', update) := by
  obtain ⟨⟨state'', update'⟩, hwrite, heq⟩ := Option.map_eq_some_iff.mp h
  obtain ⟨rfl, hwritten⟩ := Prod.mk.inj heq
  obtain rfl := main_output.written.inj hwritten
  exact hwrite

/-- Every update of a run is read back from its text. -/
theorem main_run_reads_back (hs : Session.Readable s) (hdomains : ∀ name ∈ domain_whitelist.domains, Listable name)
    (hexpand : ExpandsToWords s.externals.dn_expand) {trace : main_trace} {state : state_t}
    (run : main_run s domain_whitelist bloom_whitelist trace state) {update : update_t} (h : update ∈ updates trace) :
    read_update update.text = some update := by
  obtain ⟨⟨event, output⟩, hmem, hupdate⟩ := List.mem_filterMap.mp h
  obtain ⟨before, after, state₀, state₁, -, hbefore, hstep⟩ := run.step_of_mem hmem
  obtain ⟨_, rfl, rfl, -⟩ | ⟨io, healthy, written, rfl, rfl, -⟩ := main_step_cases hstep
  · cases hupdate
  · obtain rfl := Option.some.inj hupdate
    have hshown : ∀ name ∈ state₀.shown_domains, Listable name := by
      rw [state_t.shown_domains, (main_run_whitelists hbefore).domain]
      split
      · exact hdomains
      · exact fun _ hnone => absurd hnone List.not_mem_nil
    exact read_update_text hs hshown (main_run_names hexpand hbefore) healthy (main_step_written hstep)

/-! From the start of the process on -/

variable {target : Target} {externals : Externals} {build_id : cstring} {io : startup_io} {started : started_t}

/-- What a start loads can be read back. -/
theorem startup_readable (hbuild_id : newline ∉ build_id) (h : startup target externals build_id io = some started) :
    Session.Readable started.session := by
  obtain ⟨token, anonymization, hstarted⟩ := startup_spec h
  rw [hstarted.session]
  exact
    { build_id := hbuild_id
      bismark_id := initialize_bismark_id_word hstarted.bismark_id
      seed := initialize_anonymization_lowerHex hstarted.initialized }

/-- Every update of a run behind a start is read back. -/
theorem started_run_reads_back (hbuild_id : newline ∉ build_id) (hexpand : ExpandsToWords externals.dn_expand)
    (hstart : startup target externals build_id io = some started)
    (hwhitelist : started.domain_whitelist = domain_whitelist.entries) {trace : main_trace} {state : state_t}
    (run : main_run started.session domain_whitelist started.bloom_whitelist trace state) {update : update_t}
    (h : update ∈ updates trace) : read_update update.text = some update := by
  obtain ⟨token, anonymization, hstarted⟩ := startup_spec hstart
  have hdomains (name : cstring) (hname : name ∈ domain_whitelist.domains) : Listable name := by
    refine load_whitelist_listable hstarted.domain_whitelist name ?_
    rw [hwhitelist]
    exact List.mem_map_of_mem hname
  have hsession : ExpandsToWords started.session.externals.dn_expand := by
    rw [hstarted.session]
    exact hexpand
  exact main_run_reads_back (startup_readable hbuild_id hstart) hdomains hsession run h

/-- Whatever the process finds when it starts and whatever it captures, each of
its update files is read back as the update that was written. -/
theorem update_files_read_back (hbuild_id : newline ∉ build_id) (hexpand : ExpandsToWords externals.dn_expand)
    (hstart : startup target externals build_id io = some started)
    (hwhitelist : started.domain_whitelist = domain_whitelist.entries) {trace : main_trace} {state : state_t}
    (run : main_run started.session domain_whitelist started.bloom_whitelist trace state) :
    (updates trace).map (fun update => read_update update.text) = (updates trace).map some :=
  List.map_congr_left fun _ hmem => started_run_reads_back hbuild_id hexpand hstart hwhitelist run hmem

/-- A start in a build that anonymises, without a whitelist. -/
def first_start : startup_io where
  start_timeval := ⟨1325376000, 0⟩
  bismark_id := some [79, 87, 65, 66, 67, 68, 69, 70, 48, 49, 50, 51, 52, 53, 10]
  library := ⟨true, fun _ => 0⟩
  domain_whitelist := none
  filter := ⟨true, some [], true⟩
  seed_file := some (List.replicate ANONYMIZATION_SEED_LEN 0)

theorem startup_first_start :
    ∃ started, startup anonymizing_session.target anonymizing_session.externals [49] first_start = some started ∧
      started.session.anonymization.initialized = true ∧
      started.domain_whitelist = domain_whitelist_init.entries ∧
      started.bloom_whitelist = (initialize_bloom_whitelist first_start.filter).2 :=
  ⟨_, rfl, rfl, rfl, rfl⟩

theorem expandsToWords_first_start : ExpandsToWords anonymizing_session.externals.dn_expand := by
  intro message offset name length h
  obtain ⟨-, h⟩ := Option.ite_none_right_eq_some.mp h
  obtain ⟨rfl, -⟩ := Prod.mk.inj (Option.some.inj h)
  exact empty_word

/-- A packet and an update after this start. -/
theorem first_start_run :
    ∃ started capture update state,
      startup anonymizing_session.target anonymizing_session.externals [49] first_start = some started ∧
      started.domain_whitelist = domain_whitelist_init.entries ∧ capture.frame = tcp_frame 0 ∧
      main_run started.session domain_whitelist_init started.bloom_whitelist
        ([(.process_packet (tcp_frame 0), .processed capture)] ++
          [(.write_update (healthy_io 100) (healthy_io_healthy 100), .written update)]) state := by
  obtain ⟨started, hstart, hinitialized, hwhitelist, hfilter⟩ := startup_first_start
  have hbloom (name : cstring) : (bloom_whitelist_lookup started.bloom_whitelist name).isSome := by
    have hloaded : initialize_bloom_whitelist first_start.filter =
        (0, (initialize_bloom_whitelist first_start.filter).2) := rfl
    obtain ⟨a, -, hlookup⟩ := bloom_whitelist_lookup_loaded hloaded name
    rw [hfilter, hlookup]
    rfl
  obtain ⟨capture, state, hframe, -, run⟩ := @main_run_goes_on_packet started.session hinitialized
    domain_whitelist_init started.bloom_whitelist [] _ .nil (tcp_frame 0)
  obtain ⟨update, state', run'⟩ := main_run_goes_on_update hinitialized run hbloom (healthy_io_healthy 100) rfl rfl
  exact ⟨started, capture, update, state', hstart, hwhitelist, hframe, run'⟩

/-- A start that finds no whitelist, and one update. -/
theorem update_files_read_back_first_start :
    ∃ started trace state,
      startup anonymizing_session.target anonymizing_session.externals [49] first_start = some started ∧
      main_run started.session domain_whitelist_init started.bloom_whitelist trace state ∧
      (updates trace).length = 1 ∧
      (updates trace).map (fun update => read_update update.text) = (updates trace).map some := by
  obtain ⟨started, capture, update, state, hstart, hwhitelist, -, run⟩ := first_start_run
  exact ⟨started, _, state, hstart, run, rfl,
    update_files_read_back (by decide) expandsToWords_first_start hstart hwhitelist run⟩

end bismark_passive.main
