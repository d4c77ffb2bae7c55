import BismarkPassive.Main.Correspondence
import BismarkPassive.Main.Decoding
import BismarkPassive.Main.UpdateRoundTrip
import BismarkPassive.PacketSeries.RoundTrip

namespace bismark_passive.main

open text machine flow_table packet_series

/-! What a collector makes of the files of a process -/

/-- What is reported of a packet. -/
structure report_t where
  microseconds : Int
  size : Nat
  flow : Option Line

/-- The times of a packet section, each of which counts from the one before. -/
def reported_times : List Line → List Int
  | .packets start_time_microseconds _ :: lines =>
    absolute_times start_time_microseconds.toInt (lines.filterMap fun
      | .packet timestamp _ _ => some timestamp.toInt
      | _ => none)
  | _ => []

def Line.packet_size : Line → Nat
  | .packet _ size _ => size.toNat
  | _ => 0

/-- The record, if it shows this flow id. -/
def showing (shown : Option Int) (record : Line) : Option Line :=
  if record.shown_flow_id = shown then some record else none

/-- The packets of an update, with the latest of these records that shows the
flow id of each. -/
def update_t.reports (records : List Line) (update : update_t) : List report_t :=
  (reported_times update.packets).zipWith
    (fun microseconds line => ⟨microseconds, Line.packet_size line, latest (showing line.shown_flow_id) records⟩)
    update.packet_lines

/-- Reads the files, oldest first, and reports the packets of the last one. -/
def collect_files (files : List cstring) : Option (List report_t) := do
  let updates ← files.mapM read_update
  let last ← updates.getLast?
  pure (last.reports (updates.flatMap update_t.flow_records))

/-! What is to be reported of a packet that was captured -/

def capture_t.packet_call (capture : capture_t) : packet_call :=
  ⟨capture.frame.ts, capture.frame.len, capture.locals.flow_id.toNat⟩

/-- The packet belongs to a flow in one of the slots whose ids are printed. -/
def capture_t.HasShownFlow (capture : capture_t) : Prop :=
  capture.HasFlow ∧ capture.locals.flow_id.toNat < FLOW_TABLE_ENTRIES

instance (capture : capture_t) : Decidable (capture_t.HasShownFlow capture) := by
  unfold capture_t.HasShownFlow capture_t.HasFlow
  infer_instance

/-- The flow is that of the packet's own addresses and ports. -/
def capture_t.report (s : Session) (capture : capture_t) : report_t where
  microseconds := capture.packet_call.microseconds
  size := capture.frame.len.toNat
  flow :=
    if capture.HasShownFlow then flow_record s capture.locals.flow_id.toNat capture.frame.flow_key else none

variable {s : Session} {domain_whitelist : domain_whitelist_t} {bloom_whitelist : bloom_whitelist_t}
  {trace : main_trace} {state : state_t}

/-! The times and the sizes -/

/-- The packet series is that of the packets since the last update. -/
theorem main_run_series (run : main_run s domain_whitelist bloom_whitelist trace state) :
    state.packet_data = (run_add_packets packet_series_init ((period trace).map capture_t.packet_call)).2 := by
  refine run.invariant (fun trace state => state.packet_data =
    (run_add_packets packet_series_init ((period trace).map capture_t.packet_call)).2) rfl ?_
  intro trace state event state' output run h hstep
  obtain ⟨capture, rfl, rfl, hpacket, -⟩ | ⟨io, healthy, update, rfl, rfl, hupdate⟩ := main_step_cases hstep
  · rw [period_snoc_processed, List.map_append, List.map_singleton, run_add_packets_snoc, ← h]
    exact (congrArg Prod.snd hpacket.series).symm
  · rw [period_snoc_written, hupdate.reset]
    rfl

/-- The packets that are stored are the first ones of the period. -/
theorem main_run_stored (run : main_run s domain_whitelist bloom_whitelist trace state) :
    stored (period trace) = (period trace).take PACKET_DATA_BUFFER_ENTRIES := by
  refine run.invariant (fun trace _ =>
    stored (period trace) = (period trace).take PACKET_DATA_BUFFER_ENTRIES) rfl ?_
  intro trace state event state' output run h hstep
  obtain ⟨capture, rfl, rfl, hpacket, -⟩ | ⟨io, healthy, update, rfl, rfl, -⟩ := main_step_cases hstep
  · have hlength := (main_run_aligned run).length
    rw [h, List.length_take] at hlength
    rw [period_snoc_processed]
    obtain ⟨hroom, hid, -⟩ | ⟨hfull, hid, -⟩ := hpacket.series_cases
    · have hfew : (period trace).length < PACKET_DATA_BUFFER_ENTRIES := by omega
      rw [stored_snoc_of_stored _ (by omega), h, List.take_of_length_le hfew.le, List.take_of_length_le]
      rw [List.length_append, List.length_singleton]
      omega
    · rw [stored_snoc_of_refused _ (by omega), h, List.take_append_of_le_length (by omega)]
  · rw [period_snoc_written]
    rfl

/-- The entries of packets, each with its time, are reported packet by packet. -/
theorem zipWith_packet_entries {report : capture_t → report_t} {combine : Int → Line → report_t}
    (previous : Option capture_t) {captures : List capture_t}
    (h : ∀ capture ∈ captures, ∀ previous,
      combine capture.packet_call.microseconds (packet_line (packet_entry previous capture)) = report capture) :
    List.zipWith combine (captures.map fun capture => capture.packet_call.microseconds)
      ((packet_entries previous captures).map packet_line) = captures.map report := by
  induction captures generalizing previous with
  | nil => rfl
  | cons capture captures ih =>
    obtain ⟨hfirst, hrest⟩ := List.forall_mem_cons.mp h
    rw [List.map_cons, packet_entries, List.map_cons, List.zipWith_cons_cons, hfirst, ih _ hrest, List.map_cons]

/-- The times of a section are those that its offsets add up to. -/
theorem reported_times_section (series : packet_series_t) :
    reported_times (packet_section series) = absolute_times series.start_time_microseconds.toInt
      (series.packet_data.items.map fun data => data.timestamp.toInt) := by
  rw [packet_section, packet_lines, List.cons_append, reported_times, List.filterMap_append, List.filterMap_map]
  congr 1
  exact (List.append_nil _).trans (congrFun List.filterMap_eq_map' _)

/-! The flow records -/

/-- All records that have been sent are of slots. -/
theorem main_run_sent_records (run : main_run s domain_whitelist bloom_whitelist trace state) :
    ∀ record ∈ sent_records trace, ∃ idx entry, flow_line s idx entry = some record := by
  intro record hrecord
  obtain ⟨update, hupdate, hmem⟩ := List.mem_flatMap.mp hrecord
  obtain ⟨⟨event, output⟩, hentry, hwritten⟩ := List.mem_filterMap.mp hupdate
  obtain ⟨_, _, state₀, _, -, hbefore, hstep⟩ := run.step_of_mem hentry
  obtain ⟨_, rfl, rfl, -⟩ | ⟨io, healthy, written, rfl, rfl, hupdated⟩ := main_step_cases hstep
  · cases hwritten
  · obtain rfl := Option.some.inj hwritten
    rw [hupdated.flow_records] at hmem
    obtain ⟨idx, -, hidx⟩ := List.mem_filterMap.mp hmem
    split at hidx
    · exact ⟨idx, _, hidx⟩
    · cases hidx

/-- A packet that belongs to no flow has an id that no slot has. -/
theorem ProcessedPacket.reserved {state' : state_t} {capture : capture_t}
    (h : ProcessedPacket s state capture.frame state' capture.locals) (hno_flow : ¬ capture.HasFlow) :
    capture.locals.flow_id.toNat < FLOW_ID_FIRST_UNRESERVED := by
  by_cases hip : capture.locals.ether_type = ETHERTYPE_IP
  · have herror : capture.locals.flow_id.toNat = FLOW_ID_ERROR := by
      by_contra hother
      exact hno_flow ⟨hip, hother⟩
    rw [herror]
    decide
  · have hflow := h.flow
    rw [process_flow, if_neg hip, Prod.mk.injEq] at hflow
    rw [← hflow.1]
    unfold reserved_flow_id
    split_ifs <;> decide

/-- The flow of a packet is that of its headers. -/
theorem ProcessedPacket.key {state' : state_t} {capture : capture_t}
    (h : ProcessedPacket s state capture.frame state' capture.locals)
    (hip : capture.locals.ether_type = ETHERTYPE_IP) : capture.key = capture.frame.flow_key := by
  have htype := run_get_flow_entry_for_packet_ether_type _ _ _ _ h.found
  have hdissected := run_get_flow_entry_for_packet_ip (htype ▸ hip) h.found
  have hfound := (run_dissect_ip_found s.target capture.frame state.address_table).key
  rw [hdissected] at hfound
  exact hfound

/-- Every packet of the run has been processed in some state. -/
theorem main_run_period_processed (run : main_run s domain_whitelist bloom_whitelist trace state) {capture : capture_t}
    (hmem : capture ∈ period trace) : ∃ before after,
      ProcessedPacket s before capture.frame after capture.locals := by
  obtain ⟨⟨event, output⟩, hentry, hcaptured⟩ := mem_of_mem_since hmem
  obtain ⟨_, _, before, after, -, -, hstep⟩ := run.step_of_mem hentry
  obtain ⟨capture', rfl, rfl, hpacket, -⟩ | ⟨_, _, _, rfl, rfl, -⟩ := main_step_cases hstep
  · obtain rfl := Option.some.inj hcaptured
    exact ⟨before, after, hpacket⟩
  · cases hcaptured

/-- The id that the line of a packet shows. -/
theorem packet_entry_shows (previous : Option capture_t) (capture : capture_t) :
    (packet_line (packet_entry previous capture)).shown_flow_id =
      some (if FLOW_TABLE_ENTRIES ≤ capture.locals.flow_id.toNat then -1
        else (capture.locals.flow_id.toNat : Int)) := by
  simp only [packet_line, packet_entry, Line.shown_flow_id, Nat.cast_le]

section records

variable {records : List Line} (hrecords : ∀ record ∈ records, ∃ idx entry, flow_line s idx entry = some record)

include hrecords

theorem latest_showing (id : Nat) : latest (showing (some (id : Int))) records = latest (with_flow_id id) records := by
  apply latest_congr
  intro record hrecord
  obtain ⟨idx, entry, hline⟩ := hrecords record hrecord
  simp only [flow_line, Option.bind_eq_bind, Option.bind_eq_some_iff, Option.pure_def, Option.some.injEq] at hline
  obtain ⟨_, _, _, _, rfl⟩ := hline
  simp only [showing, with_flow_id, Line.shown_flow_id, Option.some.injEq, Nat.cast_inj]

/-- No record shows an id that no slot has. -/
theorem latest_showing_none {shown : Int} (hshown : shown < FLOW_ID_FIRST_UNRESERVED) :
    latest (showing (some shown)) records = none := by
  apply latest_eq_none
  intro record hrecord
  obtain ⟨idx, entry, hline⟩ := hrecords record hrecord
  apply if_neg
  rw [flow_line_flow_id hline, Option.some.injEq, flow_id]
  push_cast
  omega

end records

/-- A packet's line is reported with the record of its own flow. -/
theorem latest_record_of_packet {io : update_io} {healthy : io.Healthy} {update : update_t}
    (run : main_run s domain_whitelist bloom_whitelist (trace ++ [(.write_update io healthy, .written update)]) state)
    (hshort : ShortPeriods trace) {capture : capture_t} (hmem : capture ∈ period trace) (previous : Option capture_t) :
    latest (showing (packet_line (packet_entry previous capture)).shown_flow_id)
        (sent_records (trace ++ [(.write_update io healthy, .written update)])) = (capture.report s).flow := by
  obtain ⟨state₀, run₀, hupdate⟩ := main_run_update run
  have hrecords := main_run_sent_records run
  obtain ⟨before, after, hprocessed⟩ := main_run_period_processed run₀ hmem
  rw [packet_entry_shows, capture_t.report]
  by_cases hshown : capture.HasShownFlow
  · rw [if_pos hshown, if_neg (not_le.mpr hshown.2), latest_showing hrecords]
    obtain ⟨idx, hidx⟩ := main_run_remembered run₀ hshort capture hmem hshown.1
    have hsent : RecordSent s (trace ++ [(.write_update io healthy, .written update)]) state₀.flow_table idx :=
      (main_run_recorded run₀).update hupdate hidx.live
    obtain ⟨record, hrecord, hlatest⟩ := hsent
    obtain ⟨hsource, hdestination⟩ := main_run_anonymized run₀ idx hidx.live
    rw [flow_line_eq_record hsource hdestination, hidx.key, hprocessed.key hshown.1.1] at hrecord
    rw [hidx.flow_id, hrecord]
    exact hlatest
  · rw [if_neg hshown]
    apply latest_showing_none hrecords
    by_cases hflow : capture.HasFlow
    · have hlarge : FLOW_TABLE_ENTRIES ≤ capture.locals.flow_id.toNat := not_lt.mp fun h => hshown ⟨hflow, h⟩
      rw [if_pos hlarge]
      decide
    · have hreserved := hprocessed.reserved hflow
      have hentries : FLOW_ID_FIRST_UNRESERVED ≤ FLOW_TABLE_ENTRIES := by decide
      rw [if_neg (by omega)]
      exact_mod_cast hreserved

/-! The files -/

/-- The times, sizes and flow records that are reported are those of the packets. -/
theorem reports_packets {io : update_io} {healthy : io.Healthy} {update : update_t}
    (run : main_run s domain_whitelist bloom_whitelist (trace ++ [(.write_update io healthy, .written update)]) state)
    (hshort : ShortPeriods trace) (hranges : ∀ capture ∈ period trace, capture.packet_call.InRange)
    (hsizes : ∀ capture ∈ period trace, capture.frame.len.toNat < 2 ^ 16)
    (hclose : ((period trace).map capture_t.packet_call).IsChain Close) :
    update.reports (sent_records (trace ++ [(.write_update io healthy, .written update)])) =
      ((period trace).take PACKET_DATA_BUFFER_ENTRIES).map (capture_t.report s) := by
  obtain ⟨state₀, run₀, hupdate⟩ := main_run_update run
  have hseries := main_run_series run₀
  obtain ⟨-, hstored⟩ :=
    run_add_packets_records (List.forall_mem_map.mpr hranges) (List.forall_mem_map.mpr hsizes) hclose
  rw [← hseries] at hstored
  have htimes : reported_times update.packets =
      (stored (period trace)).map fun capture => capture.packet_call.microseconds := by
    rw [hupdate.packets, reported_times_section, hstored.times, packet_series.stored, ← List.map_take,
      ← main_run_stored run₀, List.map_map]
    rfl
  rw [update_t.reports, htimes, hupdate.packet_lines, packet_series.packet_lines, (main_run_aligned run₀).entries,
    ← main_run_stored run₀]
  apply zipWith_packet_entries
  intro capture hmem previous
  have hcapture : capture ∈ period trace := List.mem_of_mem_filter hmem
  have hsize : Line.packet_size (packet_line (packet_entry previous capture)) = capture.frame.len.toNat := by
    have hnat : capture.frame.len.toUInt16.toNat = capture.frame.len.toNat % 2 ^ 16 := UInt32.toNat_toUInt16 _
    exact hnat.trans (Nat.mod_eq_of_lt (hsizes capture hcapture))
  rw [hsize, latest_record_of_packet run hshort hcapture]
  rfl

theorem mapM_read_back {written : List update_t} (h : ∀ update ∈ written, read_update update.text = some update) :
    (written.map update_t.text).mapM read_update = some written := by
  induction written with
  | nil => rfl
  | cons update written ih =>
    obtain ⟨hfirst, hrest⟩ := List.forall_mem_cons.mp h
    rw [List.map_cons, List.mapM_cons, hfirst, ih hrest]
    rfl

/-- From the texts of a process's update files alone, a collector learns of each
stored packet of the last period when it was captured, how long it was and, if
its flow has an id that is printed, the addresses and ports of its flow as the
anonymiser shows them. -/
theorem collector_recovers_packets {target : Target} {externals : Externals} {build_id : cstring} {io : startup_io}
    {started : started_t} (hbuild_id : newline ∉ build_id) (hexpand : ExpandsToWords externals.dn_expand)
    (hstart : startup target externals build_id io = some started)
    (hwhitelist : started.domain_whitelist = domain_whitelist.entries) {update_io : update_io}
    {healthy : update_io.Healthy} {update : update_t}
    (run : main_run started.session domain_whitelist started.bloom_whitelist
      (trace ++ [(.write_update update_io healthy, .written update)]) state)
    (hshort : ShortPeriods trace) (hranges : ∀ capture ∈ period trace, capture.packet_call.InRange)
    (hsizes : ∀ capture ∈ period trace, capture.frame.len.toNat < 2 ^ 16)
    (hclose : ((period trace).map capture_t.packet_call).IsChain Close) :
    collect_files ((updates (trace ++ [(.write_update update_io healthy, .written update)])).map update_t.text) =
      some (((period trace).take PACKET_DATA_BUFFER_ENTRIES).map (capture_t.report started.session)) := by
  have hread : ((updates (trace ++ [(.write_update update_io healthy, .written update)])).map update_t.text).mapM
      read_update = some (updates (trace ++ [(.write_update update_io healthy, .written update)])) := by
    exact mapM_read_back fun written hwritten =>
      started_run_reads_back hbuild_id hexpand hstart hwhitelist run hwritten
  have hlast : (updates (trace ++ [(.write_update update_io healthy, .written update)])).getLast? = some update := by
    rw [updates_snoc_written, List.getLast?_append, List.getLast?_singleton, Option.some_or]
  rw [collect_files, hread, Option.bind_eq_bind, Option.bind_some, hlast, Option.bind_eq_bind, Option.bind_some,
    ← reports_packets run hshort hranges hsizes hclose]
  rfl

/-- A TCP packet and an update after a start. -/
theorem collector_recovers_packets_tcp :
    ∃ started trace state capture,
      startup anonymizing_session.target anonymizing_session.externals [49] first_start = some started ∧
      main_run started.session domain_whitelist_init started.bloom_whitelist trace state ∧
      capture.frame = tcp_frame 0 ∧
      collect_files ((updates trace).map update_t.text) = some [capture_t.report started.session capture] := by
  obtain ⟨started, capture, update, state, hstart, hwhitelist, hframe, run⟩ := first_start_run
  have hone : period [(main_event.process_packet (tcp_frame 0), .processed capture)] = [capture] := rfl
  have hpackets {P : capture_t → Prop} (h : P capture) :
      ∀ other ∈ period [(main_event.process_packet (tcp_frame 0), .processed capture)], P other := by
    rw [hone]
    exact List.forall_mem_singleton.mpr h
  have hrange : capture.packet_call.InRange := by
    have hcall : capture.packet_call = ⟨(tcp_frame 0).ts, (tcp_frame 0).len, capture.locals.flow_id.toNat⟩ := by
      rw [capture_t.packet_call, hframe]
    have hmicroseconds : (0 : Int) * NUM_MICROS_PER_SECOND + 0 < 2 ^ 53 := by decide
    rw [hcall]
    exact ⟨le_refl 0, le_refl 0, hmicroseconds⟩
  have hsize : capture.frame.len.toNat < 2 ^ 16 := by
    rw [hframe]
    decide
  exact ⟨started, _, state, capture, hstart, run, hframe,
    collector_recovers_packets (by decide) expandsToWords_first_start hstart hwhitelist run
      (shortPeriods_singleton _ capture) (hpackets hrange) (hpackets hsize) (List.isChain_singleton _)⟩

end bismark_passive.main
