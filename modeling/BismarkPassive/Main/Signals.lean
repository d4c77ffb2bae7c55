import BismarkPassive.Files.Directory
import BismarkPassive.Main.FlowRecords
import BismarkPassive.Main.FrequentUpdate
import BismarkPassive.Printed

namespace bismark_passive.main

open machine files text flow_table address_table packet_series dns http drop_statistics

/-! The files of an update -/

/-- `"/tmp/bismark-"` -/
def tmp_bismark : cstring := [47, 116, 109, 112, 47, 98, 105, 115, 109, 97, 114, 107, 45]

/-- `"/tmp/bismark-passive/current-update.gz"` -/
def PENDING_UPDATE_FILENAME : cstring :=
  tmp_bismark ++ [112, 97, 115, 115, 105, 118, 101, 47, 99, 117, 114, 114, 101, 110, 116, 45, 117, 112, 100, 97, 116,
    101, 46, 103, 122]

/-- `"/tmp/bismark-uploads/passive/%s-%" PRIu64 "-%d.gz"` -/
def UPDATE_FILENAME (bismark_id : cstring) (start_timestamp_microseconds : Int64) (sequence_number : Int) : cstring :=
  tmp_bismark ++ [117, 112, 108, 111, 97, 100, 115, 47, 112, 97, 115, 115, 105, 118, 101, 47] ++ bismark_id ++ [45] ++
    unsigned start_timestamp_microseconds.toUInt64.toNat ++ [45] ++ decimal sequence_number ++ [46, 103, 122]

def update_filename (s : Session) (sequence_number : Int) : cstring :=
  UPDATE_FILENAME s.bismark_id s.start_timestamp_microseconds sequence_number

theorem update_filename_injective (s : Session) : Function.Injective (update_filename s) := by
  intro first second h
  have hdecimal : decimal first = decimal second := List.append_cancel_left (List.append_cancel_right h)
  have hread := congrArg integer_of hdecimal
  rw [integer_of_decimal, integer_of_decimal] at hread
  exact Option.some.inj hread

theorem update_filename_ne_pending (s : Session) (sequence_number : Int) :
    update_filename s sequence_number ≠ PENDING_UPDATE_FILENAME := by
  intro h
  have hletter := congrArg (fun name : cstring => name[13]?) h
  simp [update_filename, UPDATE_FILENAME, PENDING_UPDATE_FILENAME, tmp_bismark] at hletter

/-! The handlers as sequences of steps. A signal can arrive before each of them. -/

inductive signal_t where
  | SIGINT
  | SIGTERM
  | SIGALRM
  deriving DecidableEq

/-- `UPDATE_PERIOD_SECONDS` and `FREQUENT_UPDATE_PERIOD_SECONDS`, which the
Makefile can set. -/
structure alarm_periods where
  update : Nat
  frequent : Nat
  frequent_pos : 0 < frequent
  frequent_le_update : frequent ≤ update

def default_periods : alarm_periods where
  update := 30
  frequent := 5
  frequent_pos := by decide
  frequent_le_update := by decide

def ALARMS_PER_UPDATE (target : Target) (periods : alarm_periods) : Nat :=
  if target.enable_frequent_updates then periods.update / periods.frequent else 1

/-- What one run of a handler gets from its surroundings. -/
structure handler_io where
  update : update_io
  gzclose_returns : Int
  frequent : frequent_io
  upload_failures : Int

/-- The parts of an update that are printed without a loop over the flow
entries. -/
inductive part_t where
  | header
  | whitelist
  | anonymization
  | packets
  | flow_header
  | flow_end
  | dns
  | addresses
  | drops
  | urls

/-- A writer that leaves the tables alone. -/
def printing (tables : state_t) (writer : gzFile → writer_result × gzFile) (stream : gzFile) :
    writer_result × state_t × gzFile :=
  ((writer stream).1, tables, (writer stream).2)

def part_t.write (s : Session) (tables : state_t) (io : update_io) : part_t → gzFile → writer_result × state_t × gzFile
  | .header => printing tables (write_header s tables io)
  | .whitelist => printing tables (write_whitelist tables)
  | .anonymization => printing tables (write_anonymization s)
  | .packets => printing tables (packet_series_write_update tables.packet_data)
  | .flow_header => printing tables (write_line (.flows tables.flow_table.base_timestamp_seconds
      tables.flow_table.num_elements tables.flow_table.num_expired_flows tables.flow_table.num_dropped_flows)
      fun stream => (some 0, stream))
  | .flow_end => printing tables write_blank
  | .dns => printing tables (dns_table_write_update s tables.dns_table)
  | .addresses => fun stream =>
    let (result, address_table, stream) := address_table_write_update s tables.address_table stream
    (result, { tables with address_table := address_table }, stream)
  | .drops => printing tables (drop_statistics_write_update tables.drop_statistics)
  | .urls => printing tables (write_urls s tables io)

/-- The statements between `++sequence_number` and the end of `write_update`. -/
inductive reset_t where
  | packet_series_init
  | flow_table_advance_base_timestamp
  | dns_table_destroy
  | dns_table_init
  | http_table_destroy
  | http_table_init
  | drop_statistics_init

def reset_t.reset (target : Target) (current_timestamp : Int) (tables : state_t) : reset_t → state_t
  | .packet_series_init => { tables with packet_data := packet_series.packet_series_init }
  | .flow_table_advance_base_timestamp =>
    { tables with
      flow_table := flow_table.flow_table_advance_base_timestamp tables.flow_table current_timestamp }
  | .dns_table_destroy => tables
  | .dns_table_init =>
    { tables with dns_table := dns.dns_table_init (some tables.domain_whitelist) tables.bloom_whitelist }
  | .http_table_destroy => tables
  | .http_table_init => { tables with http_table := http.http_table_init }
  | .drop_statistics_init =>
    { tables with drop_statistics := drop_statistics.drop_statistics_init target tables.drop_statistics }

/-- Whether the strings of the DNS table have been freed but not yet dropped. -/
def reset_t.dns_freed (freed : Bool) : reset_t → Bool
  | .dns_table_destroy => true
  | .dns_table_init => false
  | _ => freed

/-- The same for the URL table. -/
def reset_t.http_freed (freed : Bool) : reset_t → Bool
  | .http_table_destroy => true
  | .http_table_init => false
  | _ => freed

/-- The file that an update is being written to. The last field is not a value
of the program; it says which entries this update has marked as sent. -/
structure writer_t where
  handle : Handle
  stream : gzFile
  marked : List Slot

/-- Where a handler is, with the local variables that are still needed. The
loop in `flow_table_write_update` has the entries that are left, the first of
which it looks at next. -/
inductive position_t where
  | count_alarm
  | gzopen
  | print (part : part_t) (writer : writer_t)
  | flow_entry (remaining : List Slot) (writer : writer_t)
  | mark_flow (idx : Slot) (remaining : List Slot) (writer : writer_t)
  | gzclose (writer : writer_t)
  | snprintf (marked : List Slot)
  | rename (update_filename : cstring) (marked : List Slot)
  | increment_sequence_number
  | reset (table : reset_t)
  | write_frequent_update
  | upload_failures_check
  | handler_end

def part_t.next (writer : writer_t) : part_t → position_t
  | .header => .print .whitelist writer
  | .whitelist => .print .anonymization writer
  | .anonymization => .print .packets writer
  | .packets => .print .flow_header writer
  | .flow_header => .flow_entry all_slots writer
  | .flow_end => .print .dns writer
  | .dns => .print .addresses writer
  | .addresses => .print .drops writer
  | .drops => .print .urls writer
  | .urls => .gzclose writer

def reset_t.next (target : Target) : reset_t → position_t
  | .packet_series_init => .reset .flow_table_advance_base_timestamp
  | .flow_table_advance_base_timestamp => .reset .dns_table_destroy
  | .dns_table_destroy => .reset .dns_table_init
  | .dns_table_init => .reset (if target.enable_http_url then .http_table_destroy else .drop_statistics_init)
  | .http_table_destroy => .reset .http_table_init
  | .http_table_init => .reset .drop_statistics_init
  | .drop_statistics_init => .write_frequent_update

structure handler_t where
  signal : signal_t
  io : handler_io
  position : position_t

inductive status_t where
  | running
  | exited
  | undefined
  deriving DecidableEq

/-- The process: the tables, the strings that have been freed, the file system,
and the handlers that have not returned, the innermost first. -/
structure process_t where
  tables : state_t
  dns_freed : Bool
  http_freed : Bool
  alarm_count : UInt32
  directory : Directory cstring (List Line)
  handlers : List handler_t
  status : status_t

def process_init (target : Target) (domain_whitelist : domain_whitelist_t) (bloom_whitelist : bloom_whitelist_t) :
    process_t where
  tables := initial_state target domain_whitelist bloom_whitelist
  dns_freed := false
  http_freed := false
  alarm_count := 0
  directory := .empty
  handlers := []
  status := .running

inductive signal_event where
  | process_packet (frame : frame_t)
  | deliver (signal : signal_t) (io : handler_io)
  | step

/-- What a step adds to the tables or to the upload directory. -/
inductive signal_output where
  | recorded (packets : List packet_data_t) (flows : List (Slot × flow_table_entry_t))
  | staged (update_filename : cstring) (contents : Option (List Line))
  | silent

def dns_table_t.Named (table : dns_table_t) : Prop := table.a_entries.items ≠ [] ∨ table.cname_entries.items ≠ []

instance (table : dns_table_t) : Decidable (dns_table_t.Named table) := by
  unfold dns_table_t.Named
  infer_instance

/-- The statement uses strings that have been freed. -/
def process_t.UsesFreed (target : Target) (p : process_t) : position_t → Prop
  | .print .dns _ | .reset .dns_table_destroy => p.dns_freed = true ∧ dns_table_t.Named p.tables.dns_table
  | .print .urls _ => target.enable_http_url = true ∧ p.http_freed = true ∧ p.tables.http_table.entries.items ≠ []
  | .reset .http_table_destroy => p.http_freed = true ∧ p.tables.http_table.entries.items ≠ []
  | _ => False

instance (target : Target) (p : process_t) (position : position_t) : Decidable (p.UsesFreed target position) := by
  unfold process_t.UsesFreed
  split <;> infer_instance

def process_t.exits (p : process_t) : process_t := { p with status := .exited }

section step

variable (s : Session) (bismark_mac : mac_address_t) (periods : alarm_periods)

/-- Whether the handler of this `SIGALRM` writes an update. -/
def update_due (alarm_count : UInt32) : Prop := alarm_count.toNat % ALARMS_PER_UPDATE s.target periods = 0

instance (alarm_count : UInt32) : Decidable (update_due s periods alarm_count) :=
  inferInstanceAs (Decidable (_ = _))

/-- The next statement of the innermost handler. The handler goes on at another
position, or the process ends. -/
def handler_step (p : process_t) (handler : handler_t) (interrupted : List handler_t) :
    process_t × signal_output :=
  let goes_on (p : process_t) (position : position_t) : process_t :=
    { p with handlers := { handler with position := position } :: interrupted }
  if p.UsesFreed s.target handler.position then ({ p with status := .undefined }, .silent)
  else match handler.position with
  | .count_alarm =>
    let p := { p with alarm_count := p.alarm_count + 1 }
    (goes_on p (if update_due s periods p.alarm_count then .gzopen else .write_frequent_update), .silent)
  | .gzopen =>
    match handler.io.update.open_file with
    | none => (p.exits, .silent)
    | some stream =>
      let (handle, directory) := p.directory.truncate PENDING_UPDATE_FILENAME
      (goes_on { p with directory := directory } (.print .header ⟨handle, stream, []⟩), .silent)
  | .print part writer =>
    match part.write s p.tables handler.io.update writer.stream with
    | (some 0, tables, stream) =>
      (goes_on { p with tables := tables, directory := p.directory.write writer.handle }
        (part.next { writer with stream := stream }), .silent)
    | _ => (p.exits, .silent)
  | .flow_entry [] writer => (goes_on p (.print .flow_end writer), .silent)
  | .flow_entry (idx :: remaining) writer =>
    if (p.tables.flow_table.entries idx).occupied = .ENTRY_OCCUPIED_BUT_UNSENT then
      match flow_line s idx (p.tables.flow_table.entries idx) with
      | none => (p.exits, .silent)
      | some line =>
        let (returned, stream) := gzprintf writer.stream line
        if returned = 0 then (p.exits, .silent)
        else (goes_on { p with directory := p.directory.write writer.handle }
          (.mark_flow idx remaining { writer with stream := stream }), .silent)
    else (goes_on p (.flow_entry remaining writer), .silent)
  | .mark_flow idx remaining writer =>
    let flow_table := p.tables.flow_table.store idx
      { p.tables.flow_table.entries idx with occupied := .ENTRY_OCCUPIED }
    (goes_on { p with tables := { p.tables with flow_table := flow_table } }
      (.flow_entry remaining { writer with marked := idx :: writer.marked }), .silent)
  | .gzclose writer =>
    let contents := if handler.io.gzclose_returns = 0 then some writer.stream.written else none
    (goes_on { p with directory := p.directory.close writer.handle contents } (.snprintf writer.marked), .silent)
  | .snprintf marked => (goes_on p (.rename (update_filename s p.tables.sequence_number) marked), .silent)
  | .rename update_filename _ =>
    match p.directory.rename PENDING_UPDATE_FILENAME update_filename with
    | none => (p.exits, .silent)
    | some directory =>
      if handler.io.update.renamed then
        (goes_on { p with directory := directory } .increment_sequence_number,
          .staged update_filename (directory.read update_filename))
      else (p.exits, .silent)
  | .increment_sequence_number =>
    (goes_on { p with tables := { p.tables with sequence_number := p.tables.sequence_number + 1 } }
      (.reset .packet_series_init), .silent)
  | .reset table =>
    (goes_on
      { p with
        tables := table.reset s.target handler.io.update.current_timestamp p.tables
        dns_freed := table.dns_freed p.dns_freed
        http_freed := table.http_freed p.http_freed } (table.next s.target), .silent)
  | .write_frequent_update =>
    let next := if handler.signal = .SIGALRM then position_t.upload_failures_check else .handler_end
    if s.target.enable_frequent_updates then
      match write_frequent_update s bismark_mac p.tables handler.io.frequent with
      | none => (p.exits, .silent)
      | some tables => (goes_on { p with tables := tables } next, .silent)
    else (goes_on p next, .silent)
  | .upload_failures_check =>
    if update_due s periods p.alarm_count ∧ 0 < handler.io.upload_failures then (p.exits, .silent)
    else (goes_on p .handler_end, .silent)
  | .handler_end =>
    if handler.signal = .SIGALRM then ({ p with handlers := interrupted }, .silent) else (p.exits, .silent)

/-- A handler starts; its own signal is blocked until it returns, the others
are not. -/
def handle_signals (p : process_t) (signal : signal_t) (io : handler_io) : process_t :=
  { p with handlers := ⟨signal, io, if signal = .SIGALRM then .count_alarm else .gzopen⟩ :: p.handlers }

/-- `process_packet` blocks all signals. -/
def signal_step (p : process_t) : signal_event → Option (process_t × signal_output)
  | .process_packet frame =>
    if p.status = .running ∧ p.handlers = [] then
      (main_step s p.tables (.process_packet frame)).map fun (tables, output) =>
        ({ p with tables := tables }, .recorded
          (tables.packet_data.packet_data.items.drop p.tables.packet_data.length)
          (inserted_flows (captured (.process_packet frame, output)).toList))
    else none
  | .deliver signal io =>
    if p.status = .running ∧ signal ∉ p.handlers.map handler_t.signal then
      some (handle_signals p signal io, .silent)
    else none
  | .step =>
    match p.handlers with
    | [] => none
    | handler :: interrupted =>
      if p.status = .running then some (handler_step s bismark_mac periods p handler interrupted) else none

end step

abbrev signal_trace := List (signal_event × signal_output)

/-- The runs of the process. -/
abbrev signal_run (s : Session) (bismark_mac : mac_address_t) (periods : alarm_periods)
    (domain_whitelist : domain_whitelist_t) (bloom_whitelist : bloom_whitelist_t) : signal_trace → process_t → Prop :=
  Execution (signal_step s bismark_mac periods) (process_init s.target domain_whitelist bloom_whitelist)

end bismark_passive.main
