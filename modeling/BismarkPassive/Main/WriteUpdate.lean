import BismarkPassive.FlowTable.Update
import BismarkPassive.Main.ProcessPacket

namespace bismark_passive.main

open flow_table address_table packet_series dns http drop_statistics device_throughput

/-- What `write_update` gets from its surroundings: whether the capture
statistics are available, whether the file can be opened and renamed, what the
calls on it return, the clock, and the heap behind the strings. -/
structure update_io where
  pcap_statistics : Option (UInt32 × UInt32 × UInt32)
  opened : Bool
  gzprintf_returns : Nat → Int
  current_timestamp : Int
  heap : heap_t
  renamed : Bool

/-- All calls on the file succeed. -/
def update_io.Healthy (io : update_io) : Prop := ∀ call, 0 < io.gzprintf_returns call

/-- `gzopen` -/
def update_io.open_file (io : update_io) : Option gzFile :=
  if io.opened then some { gzprintf_returns := io.gzprintf_returns, calls := 0, written := [] } else none

/-- A writer that returns zero, with the lines it printed; otherwise the
process exits. -/
def write_section (writer : gzFile → writer_result × gzFile) (handle : gzFile) : Option (List Line × gzFile) :=
  match writer handle with
  | (some 0, handle') => some (handle'.written.drop handle.written.length, handle')
  | _ => none

/-- The same for writers that also change their table. -/
def write_table_section {T : Type} (writer : gzFile → writer_result × T × gzFile) (handle : gzFile) :
    Option (T × List Line × gzFile) :=
  match writer handle with
  | (some 0, table, handle') => some (table, handle'.written.drop handle.written.length, handle')
  | _ => none

/-- The lines before the whitelist. -/
def write_header (s : Session) (state : state_t) (io : update_io) : gzFile → writer_result × gzFile :=
  write_lines write_blank
    (some (.version FILE_FORMAT_VERSION s.build_id) ::
      some (.session s.bismark_id s.start_timestamp_microseconds state.sequence_number io.current_timestamp) ::
      io.pcap_statistics.toList.map fun statistics =>
        some (.pcap_statistics statistics.1 statistics.2.1 statistics.2.2))

/-- The whitelist is part of the first update only. -/
def write_whitelist (state : state_t) : gzFile → writer_result × gzFile :=
  if state.sequence_number = 0 then domain_whitelist_write_update state.domain_whitelist else write_blank

def anonymization_write_update (s : Session) : gzFile → writer_result × gzFile :=
  write_line (.seed s.anonymization.seed_hex_digest) fun handle => (some 0, handle)

def write_anonymization (s : Session) : gzFile → writer_result × gzFile :=
  if s.target.disable_anonymization then write_line .unanonymized fun handle => (some 0, handle)
  else anonymization_write_update s

/-- The lines of a staged update, by the function that printed them. -/
structure update_t where
  header : List Line
  whitelist : List Line
  anonymization : List Line
  packets : List Line
  flows : List Line
  dns : List Line
  addresses : List Line
  drops : List Line
  urls : List Line

def write_urls (s : Session) (state : state_t) (io : update_io) : gzFile → writer_result × gzFile :=
  if s.target.enable_http_url then http_table_write_update state.http_table io.heap
  else fun handle => (some 0, handle)

/-- What the statements after the renaming make of the tables that were written. -/
def reset_state (s : Session) (state : state_t) (flow_table : flow_table_t) (address_table : address_table_t)
    (current_timestamp : Int) : state_t :=
  { state with
    sequence_number := state.sequence_number + 1
    packet_data := packet_series_init
    flow_table := flow_table_advance_base_timestamp flow_table current_timestamp
    dns_table := dns_table_init (some state.domain_whitelist) state.bloom_whitelist
    http_table := if s.target.enable_http_url then http_table_init else state.http_table
    address_table := address_table
    drop_statistics := drop_statistics_init s.target state.drop_statistics }

/-- `none` when the process exits or dies before the update is staged. -/
def write_update (s : Session) (state : state_t) (io : update_io) : Option (state_t × update_t) := do
  let handle ← io.open_file
  let (header, handle) ← write_section (write_header s state io) handle
  let (whitelist, handle) ← write_section (write_whitelist state) handle
  let (anonymization, handle) ← write_section (write_anonymization s) handle
  let (packets, handle) ← write_section (packet_series_write_update state.packet_data) handle
  let (flow_table, flows, handle) ← write_table_section (flow_table_write_update s state.flow_table) handle
  let (dns, handle) ← write_section (dns_table_write_update s state.dns_table) handle
  let (address_table, addresses, handle) ←
    write_table_section (address_table_write_update s state.address_table) handle
  let (drops, handle) ← write_section (drop_statistics_write_update state.drop_statistics) handle
  let (urls, _) ← write_section (write_urls s state io) handle
  if io.renamed then
    some (reset_state s state flow_table address_table io.current_timestamp,
      { header := header
        whitelist := whitelist
        anonymization := anonymization
        packets := packets
        flows := flows
        dns := dns
        addresses := addresses
        drops := drops
        urls := urls })
  else none

/-! What a completed update has written -/

/-- A section that succeeds returns what it added to the file. -/
theorem write_section_written {writer : gzFile → writer_result × gzFile} {handle handle' : gzFile}
    {lines : List Line} (h : write_section writer handle = some (lines, handle')) :
    writer handle = (some 0, handle') ∧ lines = handle'.written.drop handle.written.length := by
  unfold write_section at h
  split at h
  · rename_i hwriter
    simp only [Option.some.injEq, Prod.mk.injEq] at h
    obtain ⟨rfl, rfl⟩ := h
    exact ⟨hwriter, rfl⟩
  · simp at h

/-- So does one that changes its table. -/
theorem write_table_section_written {T : Type} {writer : gzFile → writer_result × T × gzFile}
    {handle handle' : gzFile} {table : T} {lines : List Line}
    (h : write_table_section writer handle = some (table, lines, handle')) :
    writer handle = (some 0, table, handle') ∧ lines = handle'.written.drop handle.written.length := by
  unfold write_table_section at h
  split at h
  · rename_i hwriter
    simp only [Option.some.injEq, Prod.mk.injEq] at h
    obtain ⟨rfl, rfl, rfl⟩ := h
    exact ⟨hwriter, rfl⟩
  · simp at h

end bismark_passive.main
