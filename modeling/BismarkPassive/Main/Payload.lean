import BismarkPassive.Main.Bounds
import BismarkPassive.Main.FlowRecords
import BismarkPassive.Main.Steps
import BismarkPassive.Machine.Lockstep
import BismarkPassive.Main.Run

namespace bismark_passive.main

open bytes machine flow_table address_table device_throughput

/-! What the packets carry behind their headers -/

/-- The packet is a DNS response or, in builds that want them, an HTTP request. -/
def frame_t.Inspected (target : Target) (frame : frame_t) : Prop :=
  frame.ether_type = ETHERTYPE_IP ∧
    (frame.protocol = IPPROTO_UDP ∧ frame.port_source = NS_DEFAULTPORT ∨
      target.enable_http_url = true ∧ frame.protocol = IPPROTO_TCP ∧ frame.port_destination = HTTP_PORT)

/-- Where the headers end that are looked at in every packet: behind the ports,
if there are any. -/
def frame_t.headers_end (frame : frame_t) : Nat :=
  if frame.ether_type = ETHERTYPE_IP then
    if frame.protocol = IPPROTO_TCP ∨ frame.protocol = IPPROTO_UDP then
      max (ETHER_HDR_LEN + 20) (frame.transport_header + 4)
    else ETHER_HDR_LEN + 20
  else ETHER_HDR_LEN

/-- The packets were captured at the same time with the same lengths, and have
the same bytes up to the end of the headers. -/
structure frame_t.SameHeaders (frame frame' : frame_t) : Prop where
  ts : frame'.ts = frame.ts
  caplen : frame'.caplen = frame.caplen
  len : frame'.len = frame.len
  headers : ∀ address < frame.headers_end, frame'.memory address = frame.memory address

/-- The packets may differ in what neither of them is inspected for. -/
def frame_t.SameButPayload (target : Target) (frame frame' : frame_t) : Prop :=
  frame' = frame ∨ ¬ frame.Inspected target ∧ frame.SameHeaders frame'

variable {target : Target} {frame frame' : frame_t}

/-- A packet that is not inspected is not looked at behind its headers. -/
theorem dissection_within_headers (h : ¬ frame.Inspected target) (cap_length : Int) (full_length : UInt32)
    (address_table : address_table_t) (throughput : device_throughput_table_t) :
    (get_flow_entry_for_packet target cap_length full_length address_table throughput).Within frame.memory
      frame.headers_end := by
  have hlengths : ETHER_HDR_LEN = 14 ∧ ETH_ALEN = 6 := ⟨rfl, rfl⟩
  have htype : (load16 (2 * ETH_ALEN)).run frame.memory = frame.ether_type := rfl
  have hprotocol : (load8 (ETHER_HDR_LEN + 9)).run frame.memory = frame.protocol := rfl
  have htransport : ETHER_HDR_LEN + ((load8 ETHER_HDR_LEN).run frame.memory &&& 0xf).toNat * 4 =
      frame.transport_header := rfl
  simp only [get_flow_entry_for_packet, Reader.within_bind, within_load_mac, within_load16, htype, Reader.within_ite,
    Reader.within_pure, and_true]
  by_cases hip : frame.ether_type = ETHERTYPE_IP
  · rw [if_pos hip]
    have hend : ETHER_HDR_LEN + 20 ≤ frame.headers_end := by
      unfold frame_t.headers_end
      rw [if_pos hip]
      split <;> omega
    refine ⟨by omega, by omega, by omega, ?_⟩
    simp only [dissect_ip, Reader.within_bind, within_load8, within_load32, hprotocol, htransport, Reader.within_ite]
    refine ⟨by omega, by omega, by omega, by omega, ?_⟩
    have hports (hprotocols : frame.protocol = IPPROTO_TCP ∨ frame.protocol = IPPROTO_UDP) :
        frame.transport_header + 4 ≤ frame.headers_end := by
      rw [frame_t.headers_end, if_pos hip, if_pos hprotocols]
      omega
    split
    · rename_i htcp
      refine ⟨(within_dissect_tcp target cap_length _ _).mpr ⟨hports (.inl htcp), fun hhttp hport => ?_⟩, trivial⟩
      exact absurd ⟨hip, .inr ⟨hhttp, htcp, hport⟩⟩ h
    · split
      · rename_i hudp
        exact (within_dissect_udp cap_length _ _ _ _).mpr (hports (.inr hudp))
      · trivial
  · rw [if_neg hip]
    have hend : frame.headers_end = ETHER_HDR_LEN := if_neg hip
    exact ⟨by omega, by omega, by omega, trivial⟩

/-- A packet that is not inspected hands no payload on. -/
theorem dissection_without_payload (h : ¬ frame.Inspected target) (cap_length : Int) (full_length : UInt32)
    (address_table : address_table_t) (throughput : device_throughput_table_t) :
    let dissection := ((get_flow_entry_for_packet target cap_length full_length address_table throughput).run
      frame.memory).2.1
    dissection.dns_bytes_len = -1 ∧ (target.enable_http_url = true → dissection.http_bytes_len = -1) := by
  have htype : (load16 (2 * ETH_ALEN)).run frame.memory = frame.ether_type := rfl
  have hshost : (load_mac ETH_ALEN).run frame.memory = frame.ether_shost := rfl
  have hdhost : (load_mac 0).run frame.memory = frame.ether_dhost := rfl
  simp only [get_flow_entry_for_packet, Reader.run_bind, htype, hshost, hdhost]
  split
  · rename_i hip
    rw [Reader.run_bind, run_dissect_ip_eq]
    split
    · rename_i htcp
      have hport : (load16 (frame.transport_header + 2)).run frame.memory = frame.port_destination := rfl
      simp only [Reader.run_pure, dissect_tcp, Reader.run_bind, hport]
      split
      · rename_i hrequest
        rw [Bool.and_eq_true, beq_iff_eq] at hrequest
        exact absurd ⟨hip, .inr ⟨hrequest.1, htcp, hrequest.2⟩⟩ h
      · exact ⟨rfl, fun _ => rfl⟩
    · split
      · rename_i hudp
        have hport : ¬ (load16 frame.transport_header).run frame.memory = NS_DEFAULTPORT := fun hdns =>
          h ⟨hip, .inl ⟨hudp, hdns⟩⟩
        rw [run_dissect_udp_eq, if_neg hport]
        exact ⟨rfl, fun _ => rfl⟩
      · exact ⟨rfl, fun _ => rfl⟩
  · exact ⟨rfl, fun _ => rfl⟩

/-- Nothing is made of what lies behind the headers of such a packet. -/
theorem process_packet_same {s : Session} (h : frame.SameButPayload s.target frame') (state : state_t) :
    process_packet s state frame' = process_packet s state frame := by
  obtain rfl | ⟨huninspected, hsame⟩ := h
  · rfl
  have hagree := (dissection_within_headers huninspected frame.caplen.toInt32.toInt frame.len state.address_table
    state.device_throughput_table).run_congr hsame.headers
  have hpayload := dissection_without_payload huninspected frame.caplen.toInt32.toInt frame.len state.address_table
    state.device_throughput_table
  unfold process_packet
  rw [hsame.caplen, hsame.len, hsame.ts, hagree]
  revert hpayload
  generalize (get_flow_entry_for_packet s.target frame.caplen.toInt32.toInt frame.len state.address_table
    state.device_throughput_table).run frame.memory = found
  obtain ⟨ether_type, dissection, address_table, throughput⟩ := found
  intro hpayload
  obtain ⟨hdns, hhttp⟩ := hpayload
  dsimp only at hdns hhttp ⊢
  have hno_dns : ¬ 0 < dissection.dns_bytes_len := by omega
  have hdns_same (other : frame_t) (packet_id : Int) :
      process_dns s other dissection packet_id state.dns_table = state.dns_table :=
    if_neg fun hwanted => hno_dns hwanted.1
  have hhttp_same (other : frame_t) (flow_id : UInt16) :
      process_http s other dissection flow_id state.http_table = some state.http_table := by
    apply if_neg
    rw [Bool.and_eq_true, decide_eq_true_eq]
    rintro ⟨henabled, hpositive⟩
    have hnone := hhttp henabled
    omega
  simp only [hdns_same, hhttp_same]

/-- The events differ at most in what is not inspected of a packet. -/
inductive main_event.SameButPayload (target : Target) : main_event → main_event → Prop where
  | process_packet {frame frame' : frame_t} (h : frame.SameButPayload target frame') :
    main_event.SameButPayload target (.process_packet frame) (.process_packet frame')
  | write_update (io : update_io) (healthy : io.Healthy) :
    main_event.SameButPayload target (.write_update io healthy) (.write_update io healthy)

/-- The outputs show the same of a packet, or are the same update. -/
inductive main_output.Alike : main_output → main_output → Prop where
  | processed {capture capture' : capture_t} (h : capture'.locals = capture.locals) :
    main_output.Alike (.processed capture) (.processed capture')
  | written (update : update_t) : main_output.Alike (.written update) (.written update)

/-- Runs that are alike at each step write the same updates. -/
theorem updates_alike {trace trace' : main_trace}
    (h : List.Forall₂ main_output.Alike (trace.map Prod.snd) (trace'.map Prod.snd)) :
    updates trace' = updates trace := by
  rw [List.forall₂_map_left_iff, List.forall₂_map_right_iff] at h
  induction h with
  | nil => rfl
  | @cons entry entry' trace trace' hentry _ ih =>
    obtain ⟨event, output⟩ := entry
    obtain ⟨event', output'⟩ := entry'
    cases hentry with
    | processed hlocals => exact ih
    | written update =>
      have hkept : update_of (event, .written update) = some update := rfl
      have hkept' : update_of (event', .written update) = some update := rfl
      rw [updates, updates, List.filterMap_cons_some hkept', List.filterMap_cons_some hkept]
      exact congrArg (update :: ·) ih

/-- A step can be answered on what differs in nothing that is inspected. -/
theorem main_step_alike {s : Session} {state next : state_t} {event event' : main_event} {output : main_output}
    (hevent : main_event.SameButPayload s.target event event')
    (hstep : main_step s state event = some (next, output)) :
    ∃ output', main_step s state event' = some (next, output') ∧ main_output.Alike output output' := by
  cases hevent with
  | process_packet hsame =>
    obtain ⟨⟨next', locals⟩, hprocess, heq⟩ := Option.map_eq_some_iff.mp hstep
    obtain ⟨rfl, rfl⟩ := Prod.mk.inj heq
    have hprocess' := (process_packet_same hsame state).trans hprocess
    exact ⟨_, Option.map_eq_some_iff.mpr ⟨(next', locals), hprocess', rfl⟩, .processed rfl⟩
  | write_update io healthy =>
    obtain ⟨⟨next', update⟩, hwrite, heq⟩ := Option.map_eq_some_iff.mp hstep
    obtain ⟨rfl, rfl⟩ := Prod.mk.inj heq
    exact ⟨.written update, hstep, .written update⟩

/-- Whatever else had been behind the headers of the packets that are neither
DNS responses nor, in builds that want them, HTTP requests, the tables and the
updates would be the same. -/
theorem payloads_leave_no_trace {s : Session} {domain_whitelist : domain_whitelist_t}
    {bloom_whitelist : bloom_whitelist_t} {trace : main_trace} {state : state_t}
    (run : main_run s domain_whitelist bloom_whitelist trace state) {events : List main_event}
    (hevents : List.Forall₂ (main_event.SameButPayload s.target) (trace.map Prod.fst) events) :
    ∃ trace', main_run s domain_whitelist bloom_whitelist trace' state ∧ trace'.map Prod.fst = events ∧
      updates trace' = updates trace := by
  have hkeep (state state' : state_t) (event event' : main_event) (next : state_t) (output : main_output)
      (hstates : state = state') (hevent : main_event.SameButPayload s.target event event')
      (hstep : main_step s state event = some (next, output)) :
      ∃ next' output', main_step s state' event' = some (next', output') ∧ next = next' ∧
        main_output.Alike output output' := by
    subst hstates
    obtain ⟨output', hstep', halike⟩ := main_step_alike hevent hstep
    exact ⟨next, output', hstep', rfl, halike⟩
  obtain ⟨trace', _, run', hfst, rfl, houtputs⟩ := run.mimicked _ Eq _ rfl hkeep hevents
  exact ⟨trace', run', hfst, updates_alike houtputs⟩

/-- A TCP packet with these bytes behind its ports. -/
def tcp_frame_carrying (content : List UInt8) : frame_t :=
  { tcp_frame 0 with
    caplen := 41
    bytes := (tcp_frame 0).bytes ++ content }

/-- The example's frames differ in their payload alone. -/
theorem tcp_frame_carrying_same (content content' : List UInt8) :
    (tcp_frame_carrying content).SameButPayload initialized_session.target (tcp_frame_carrying content') := by
  have hheaders (some_content : List UInt8) {address : Nat} (h : address < 38) :
      (tcp_frame_carrying some_content).memory address = (tcp_frame 0).bytes.getD address 0 := by
    have hlength : (tcp_frame 0).bytes.length = 38 := rfl
    exact List.getD_append _ _ _ _ (hlength ▸ h)
  have htransport : (tcp_frame_carrying content).transport_header = 34 := by
    have hihl : (load8 ETHER_HDR_LEN).run (tcp_frame_carrying content).memory = 0x45 := rfl
    rw [frame_t.transport_header, hihl]
    decide
  have hend : (tcp_frame_carrying content).headers_end = 38 := by
    have hip : (tcp_frame_carrying content).ether_type = ETHERTYPE_IP := run_load16 ⟨rfl, rfl, trivial⟩
    have htcp : (tcp_frame_carrying content).protocol = IPPROTO_TCP := rfl
    rw [frame_t.headers_end, if_pos hip, if_pos (.inl htcp), htransport]
    decide
  refine .inr ⟨?_, rfl, rfl, rfl, ?_⟩
  · rintro ⟨-, ⟨hudp, -⟩ | ⟨hwanted, -⟩⟩
    · have hprotocol : (tcp_frame_carrying content).protocol = IPPROTO_TCP := rfl
      rw [hprotocol] at hudp
      exact absurd hudp (by decide)
    · cases hwanted
  · intro address haddress
    rw [hend] at haddress
    rw [hheaders content haddress, hheaders content' haddress]

/-- A packet with one content, and one with another, before an update. -/
theorem payloads_leave_no_trace_tcp : ∃ trace trace' state update,
    main_run initialized_session domain_whitelist_init empty_bloom trace state ∧
    main_run initialized_session domain_whitelist_init empty_bloom trace' state ∧
    trace.map Prod.fst = [.process_packet (tcp_frame_carrying [1, 2, 3]),
      .write_update (healthy_io 100) (healthy_io_healthy 100)] ∧
    trace'.map Prod.fst = [.process_packet (tcp_frame_carrying [4, 5, 6]),
      .write_update (healthy_io 100) (healthy_io_healthy 100)] ∧
    updates trace = [update] ∧ updates trace' = [update] := by
  obtain ⟨capture, state₁, -, -, run₁⟩ := main_run_goes_on_packet rfl
    (.nil : main_run initialized_session domain_whitelist_init empty_bloom _ _) (tcp_frame_carrying [1, 2, 3])
  obtain ⟨update, state₂, run₂⟩ := main_run_goes_on_update rfl run₁ empty_bloom_lookup (healthy_io_healthy 100) rfl rfl
  obtain ⟨trace', run', hevents, hupdates⟩ := payloads_leave_no_trace run₂
    (.cons (.process_packet (tcp_frame_carrying_same [1, 2, 3] [4, 5, 6])) (.cons (.write_update _ _) .nil))
  exact ⟨_, trace', state₂, update, run₂, run', rfl, hevents, rfl, hupdates⟩

end bismark_passive.main
