import BismarkPassive.FlowTable.Records
import BismarkPassive.Main.Completion
import BismarkPassive.Main.PacketLines

namespace bismark_passive.main

open machine flow_table

variable {s : Session} {domain_whitelist : domain_whitelist_t} {bloom_whitelist : bloom_whitelist_t}

/-- The record of a flow under an id. -/
def flow_record (s : Session) (id : Nat) (key : flow_key) : Option Line := do
  let source_digest ← address_digest s false key.ip_source
  let destination_digest ← address_digest s false key.ip_destination
  pure (.flow id true source_digest true destination_digest
    key.transport_protocol key.port_source key.port_destination)

theorem flow_line_eq_record {entry : flow_table_entry_t} (hsource : entry.ip_source_unanonymized = false)
    (hdestination : entry.ip_destination_unanonymized = false) (idx : Slot) :
    flow_line s idx entry = flow_record s (flow_id idx) entry.key := by
  simp only [flow_line, flow_record, hsource, hdestination, Bool.not_false]
  rfl

def Line.is_flow : Line → Bool
  | .flow .. => true
  | _ => false

/-- The flow records of an update. -/
def update_t.flow_records (update : update_t) : List Line := update.flows.filter Line.is_flow

theorem flow_line_is_flow {idx : Slot} {entry : flow_table_entry_t} {line : Line}
    (h : flow_line s idx entry = some line) : Line.is_flow line = true := by
  simp only [flow_line, Option.bind_eq_bind, Option.bind_eq_some_iff, Option.pure_def, Option.some.injEq] at h
  obtain ⟨_, _, _, _, rfl⟩ := h
  rfl

/-- The flow records of an update are the lines of the table it was written from. -/
theorem Updated.flow_records {state state' : state_t} {io : update_io} {update : update_t}
    (h : Updated s state io state' update) : update.flow_records = flow_lines s state.flow_table all_slots := by
  have hlines : (flow_lines s state.flow_table all_slots).filter Line.is_flow =
      flow_lines s state.flow_table all_slots := by
    refine List.filter_eq_self.mpr fun line hline => ?_
    obtain ⟨idx, _, hidx⟩ := List.mem_filterMap.mp hline
    split at hidx
    · exact flow_line_is_flow hidx
    · simp at hidx
  rw [update_t.flow_records, h.flows, flow_section, List.cons_append, List.filter_cons_of_neg (by simp [Line.is_flow]),
    List.filter_append, hlines]
  simp [Line.is_flow]

/-- The flow of a packet. -/
def capture_t.key (capture : capture_t) : flow_key := capture.locals.dissection.entry.key

/-- The packets since the last update whose flows were inserted into the table. -/
def insertions (trace : main_trace) : List capture_t := (period trace).filter fun capture => capture.insertion.isSome

/-- The same, as the flow table sees it. -/
def inserted_flows (captures : List capture_t) : List (Slot × flow_table_entry_t) :=
  captures.flatMap fun capture => capture.insertion.toList.map fun idx => (idx, capture.locals.dissection.entry)

theorem inserted_flows_snoc (captures : List capture_t) (capture : capture_t) :
    inserted_flows (captures ++ [capture]) =
      inserted_flows captures ++ capture.insertion.toList.map fun idx => (idx, capture.locals.dissection.entry) := by
  simp [inserted_flows]

/-- In every state the flows inserted since the last update wait in their slots. -/
theorem main_run_pending {trace : main_trace} {state : state_t}
    (run : main_run s domain_whitelist bloom_whitelist trace state) :
    state.flow_table.Pending (inserted_flows (period trace)) := by
  refine run.invariant (fun trace state => state.flow_table.Pending (inserted_flows (period trace)))
    flow_table_init_pending ?_
  intro trace state event state' output run hpending hstep
  obtain ⟨capture, rfl, rfl, hpacket, hinsertion, _⟩ | ⟨io, healthy, update, rfl, rfl, hupdate⟩ :=
    main_step_cases hstep
  · rw [period_snoc_processed, inserted_flows_snoc]
    obtain ⟨_, hnone, hsame⟩ | ⟨_, _, hprocessed⟩ := hpacket.flow_cases
    · rw [hinsertion, hnone, hsame]
      simpa using hpending
    · rw [← hinsertion] at hprocessed
      exact hprocessed.pending hpending
  · rw [period_snoc_written, hupdate.reset]
    exact advance_mark_sent_pending state.flow_table io.current_timestamp

/-- An inserted flow has the id of its slot, and its record shows digests. -/
theorem period_insertion {trace : main_trace} {state : state_t}
    (run : main_run s domain_whitelist bloom_whitelist trace state) {capture : capture_t}
    (hmem : capture ∈ period trace) {idx : Slot} (hinserted : capture.insertion = some idx) :
    capture.locals.flow_id.toNat = flow_id idx ∧
      flow_line s idx capture.locals.dissection.entry =
        flow_record s capture.locals.flow_id.toNat capture.key := by
  obtain ⟨_, state₀, _, _, hpacket, hinsertion⟩ := period_processed run hmem
  rw [hinsertion] at hinserted
  obtain ⟨_, hnone, _⟩ | ⟨hip, _, hprocessed⟩ := hpacket.flow_cases
  · rw [hnone] at hinserted
    cases hinserted
  · obtain ⟨hid, _, _⟩ := hprocessed.arrives hinserted
    obtain ⟨hother, _⟩ | ⟨_, hdissected⟩ := hpacket.dissected
    · exact absurd hip hother
    · refine ⟨hid, ?_⟩
      rw [hid]
      exact flow_line_eq_record hdissected.source_anonymized hdissected.destination_anonymized idx

/-- The records of the inserted flows, by slot and by packet. -/
theorem inserted_flows_records {trace : main_trace} {state : state_t}
    (run : main_run s domain_whitelist bloom_whitelist trace state) :
    ((inserted_flows (period trace)).map fun insertion => flow_line s insertion.1 insertion.2) =
      (insertions trace).map fun capture => flow_record s capture.locals.flow_id.toNat capture.key := by
  have hrecords (captures : List capture_t) (hcaptures : ∀ capture ∈ captures, capture ∈ period trace) :
      ((inserted_flows captures).map fun insertion => flow_line s insertion.1 insertion.2) =
        (captures.filter fun capture => capture.insertion.isSome).map fun capture =>
          flow_record s capture.locals.flow_id.toNat capture.key := by
    induction captures using List.reverseRecOn with
    | nil => rfl
    | append_singleton captures capture ih =>
      have hmem := hcaptures capture (by simp)
      rw [inserted_flows_snoc, List.map_append, ih fun other hother => hcaptures other (by simp [hother]),
        List.filter_append, List.map_append]
      congr 1
      cases hinserted : capture.insertion with
      | none => simp [hinserted]
      | some idx => simp [hinserted, (period_insertion run hmem hinserted).2]
  exact hrecords (period trace) fun _ h => h

/-- Until its record is written an inserted flow stays in its slot; each update
consists of exactly one record for each flow inserted since the previous one. -/
theorem flow_records_sent_once {trace : main_trace} {state : state_t}
    (run : main_run s domain_whitelist bloom_whitelist trace state) :
    (∀ before io healthy update after, trace = before ++ (.write_update io healthy, .written update) :: after →
      (update.flow_records.map some).Perm
        ((insertions before).map fun capture => flow_record s capture.locals.flow_id.toNat capture.key)) ∧
    ∀ capture ∈ insertions trace, ∃ idx, capture.insertion = some idx ∧
      capture.locals.flow_id.toNat = flow_id idx ∧
      (state.flow_table.entries idx).occupied = .ENTRY_OCCUPIED_BUT_UNSENT ∧
      (state.flow_table.entries idx).key = capture.key := by
  constructor
  · rintro before io healthy update after rfl
    rw [← List.singleton_append, ← List.append_assoc] at run
    obtain ⟨state₁, hupdated, _⟩ := run.split
    obtain ⟨state₀, hbefore, hupdate⟩ := main_run_update hupdated
    rw [hupdate.flow_records, ← inserted_flows_records hbefore]
    exact (main_run_pending hbefore).flow_lines_perm hupdate.composed
  · intro capture hcapture
    obtain ⟨hmem, hsome⟩ := List.mem_filter.mp hcapture
    obtain ⟨idx, hinserted⟩ := Option.isSome_iff_exists.mp hsome
    have hpending := main_run_pending run
    have hstored : (idx, capture.locals.dissection.entry) ∈ inserted_flows (period trace) :=
      List.mem_flatMap.mpr ⟨capture, hmem, by simp [hinserted]⟩
    refine ⟨idx, hinserted, (period_insertion run hmem hinserted).1, ?_, (hpending.stored _ _ hstored).key⟩
    exact (hpending.unsent_iff idx).mpr (List.mem_map_of_mem hstored)

/-- A TCP packet from 192.168.1.2 port 40000 to 8.8.8.8 port 80. -/
def tcp_frame (tv_sec : Int) : frame_t where
  ts := ⟨tv_sec, 0⟩
  caplen := 38
  len := 60
  bytes := List.replicate 12 0 ++ [8, 0, 0x45, 0, 0, 24, 0, 0, 0, 0, 64, 6, 0, 0, 192, 168, 1, 2, 8, 8, 8, 8] ++
    [0x9c, 0x40, 0, 80]

theorem tcp_frame_processed :
    (main_step initialized_session (initial_state initialized_session.target domain_whitelist_init empty_bloom)
        (.process_packet (tcp_frame 0))).map (fun result =>
          (captured (.process_packet (tcp_frame 0), result.2)).map fun capture =>
            (capture.insertion, capture.locals.ether_type, capture.locals.flow_id, capture.locals.packet_id)) =
      some (some (some 16779, ETHERTYPE_IP, 16786, 0)) := by
  decide +kernel

/-- The run that consists of the packet. -/
theorem tcp_run :
    ∃ capture state, main_run initialized_session domain_whitelist_init empty_bloom
        [(.process_packet (tcp_frame 0), .processed capture)] state ∧
      capture.insertion = some 16779 ∧ capture.locals.ether_type = ETHERTYPE_IP ∧
      capture.locals.flow_id = 16786 ∧ capture.locals.packet_id = 0 := by
  obtain ⟨capture, state, _, hstep, run⟩ := @main_run_goes_on_packet initialized_session rfl
    domain_whitelist_init empty_bloom [] _ .nil (tcp_frame 0)
  have hprocessed := tcp_frame_processed
  rw [hstep] at hprocessed
  simp only [captured, Option.map_some, Option.some.injEq, Prod.mk.injEq] at hprocessed
  exact ⟨capture, state, run, hprocessed⟩

/-- The packet's flow is sent with the update that follows. -/
theorem flow_records_sent_once_tcp :
    ∃ update state trace, main_run initialized_session domain_whitelist_init empty_bloom trace state ∧
      updates trace = [update] ∧ update.flow_records.length = 1 := by
  obtain ⟨capture, state₁, run₁, hinserted, _⟩ := tcp_run
  obtain ⟨update, state₂, run₂⟩ := main_run_goes_on_update rfl run₁ empty_bloom_lookup (healthy_io_healthy 100) rfl rfl
  refine ⟨update, state₂, _, run₂, rfl, ?_⟩
  have hperm := (flow_records_sent_once run₂).1 _ _ _ _ [] rfl
  have hlength := hperm.length_eq
  rw [List.length_map, List.length_map] at hlength
  have hone : period [(main_event.process_packet (tcp_frame 0), .processed capture)] = [capture] := rfl
  rw [hlength, insertions, hone, List.filter_cons_of_pos (by rw [hinserted]; rfl)]
  rfl

end bismark_passive.main
