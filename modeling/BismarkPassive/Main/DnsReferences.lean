import BismarkPassive.Dns.Exactness
import BismarkPassive.Main.Completion
import BismarkPassive.Main.DnsEntries

namespace bismark_passive.main

open bytes machine containers address_table packet_series dns

variable {s : Session} {domain_whitelist : domain_whitelist_t} {bloom_whitelist : bloom_whitelist_t}

/-- How many mappings were added after the last time that this one was. -/
def added_since (mapping : address_table_entry_t) (log : List address_table_entry_t) : Nat :=
  (log.reverse.takeWhile fun other => decide (other ≠ mapping)).length

/-- The distance to the last occurrence counts the mappings added since. -/
theorem added_since_eq {mapping : address_table_entry_t} {log : List address_table_entry_t} {index : Nat}
    (hindex : log[index]? = some mapping) (hlast : ∀ later, index < later → log[later]? ≠ some mapping) :
    added_since mapping log = log.length - 1 - index := by
  obtain ⟨hlt, hmapping⟩ := List.getElem?_eq_some_iff.mp hindex
  have hsplit : log = log.take index ++ mapping :: log.drop (index + 1) := by
    rw [← hmapping, List.getElem_cons_drop, List.take_append_drop]
  have hnewer : ∀ other ∈ (log.drop (index + 1)).reverse, decide (other ≠ mapping) = true := by
    intro other hother
    obtain ⟨offset, hoffset⟩ := List.mem_iff_getElem?.mp (List.mem_reverse.mp hother)
    rw [List.getElem?_drop] at hoffset
    refine decide_eq_true fun heq => hlast (index + 1 + offset) (by omega) ?_
    rw [hoffset, heq]
  have hreverse : log.reverse = (log.drop (index + 1)).reverse ++ mapping :: (log.take index).reverse := by
    conv_lhs => rw [hsplit]
    simp
  rw [added_since, hreverse, List.takeWhile_append_of_pos hnewer, List.takeWhile_cons_of_neg (by simp),
    List.append_nil, List.length_reverse, List.length_drop]
  omega

/-- While few mappings have been added since that of a packet's destination,
the slot that the packet's id names still holds it. -/
theorem destination_slot {before after : main_trace} {event : main_event} {capture : capture_t} {state : state_t}
    (run : main_run s domain_whitelist bloom_whitelist (before ++ (event, .processed capture) :: after) state)
    (hmac_id : 0 ≤ capture.locals.dissection.mac_id)
    (hfew : added_since (capture.locals.dissection.destination_mapping capture.frame)
      (mappings (before ++ [(event, .processed capture)])) + (mappings after).length < MAC_TABLE_ENTRIES) :
    state.address_table.entries (mac_slot capture.locals.dissection.mac_id) =
      capture.locals.dissection.destination_mapping capture.frame := by
  obtain ⟨state₀, run₀, hrest⟩ := run.split
  obtain ⟨state₁, hstep, _⟩ := Execution.cons_iff.mp hrest
  obtain ⟨sent₀, hlogs₀⟩ := main_run_logs run₀
  obtain ⟨sent, hlogs⟩ := main_run_logs run
  obtain ⟨other, _, houtput, hpacket, _, hmappings⟩ | ⟨_, _, _, _, houtput, _⟩ := main_step_cases hstep
  · obtain rfl := main_output.processed.inj houtput
    obtain ⟨index, hindex, hlast, _, hid⟩ := hpacket.mac_id hlogs₀ hmac_id
    have hknown : mappings (before ++ [(event, .processed capture)]) =
        mappings before ++ packet_mappings state₀ capture.frame capture.locals := by
      rw [mappings_append, mappings_processed, hmappings]
    rw [hknown, added_since_eq hindex hlast] at hfew
    have hlength := (List.getElem?_eq_some_iff.mp hindex).1
    rw [← List.singleton_append, ← List.append_assoc, mappings_append, hknown] at hlogs
    have hsame := hlogs.recent (List.length_append.symm ▸ Nat.lt_add_right _ hlength)
      (by rw [List.length_append]; omega)
    rw [List.getElem?_append_left hlength, hindex, Option.some.injEq] at hsame
    rw [hid, mac_slot_natCast, hsame]
  · cases houtput

/-- Each DNS line of an update is from the payload of a packet of the period.
Its packet id is the position of this packet's line; its mapping id is the slot
of the packet's destination, unless too many mappings were added after the
destination's. Both ids are the packet's own. -/
theorem dns_line_refers {trace : main_trace} {state : state_t} {io : update_io} {healthy : io.Healthy}
    {update : update_t}
    (run : main_run s domain_whitelist bloom_whitelist
      (trace ++ [(.write_update io healthy, .written update)]) state)
    {line : Line} (hline : line ∈ update.dns) {packet_id : UInt16} {mac_id : UInt8}
    (hids : Line.dns_ids line = some (packet_id, mac_id)) :
    ∃ (before after : main_trace) (event : main_event) (capture : capture_t),
      trace = before ++ (event, .processed capture) :: after ∧ updates after = [] ∧
      Prints s (extracted s domain_whitelist bloom_whitelist capture) line ∧
      (stored (period before)).length = packet_id.toNat ∧
      update.packet_lines[packet_id.toNat]? = some (stored_line (period trace) packet_id.toNat capture) ∧
      capture.locals.packet_id = (packet_id.toNat : Int) ∧
      capture.locals.dissection.mac_id = (mac_id.toNat : Int) ∧
      (added_since (capture.locals.dissection.destination_mapping capture.frame)
          (mappings (before ++ [(event, .processed capture)])) + (mappings after).length < MAC_TABLE_ENTRIES →
        state.address_table.entries (mac_slot mac_id.toNat) =
          capture.locals.dissection.destination_mapping capture.frame) := by
  obtain ⟨state₀, run₀, hupdate⟩ := main_run_update run
  obtain ⟨before, after, event, capture, rfl, hafter, hstored, hpacket_id, hmac_id, hprints⟩ :=
    dns_line_origin run₀ hupdate hline hids
  refine ⟨before, after, event, capture, rfl, hafter, hprints, hstored, ?_, hpacket_id, hmac_id, fun hfew => ?_⟩
  · have hperiod : period (before ++ (event, .processed capture) :: after) =
        (period before ++ [capture]) ++ after.filterMap captured := by
      rw [← List.singleton_append, ← List.append_assoc, period_append hafter, period_snoc_processed]
    have hcapture : (stored (period (before ++ (event, .processed capture) :: after)))[packet_id.toNat]? =
        some capture := by
      have hsplit (captures : List capture_t) : stored (captures ++ after.filterMap captured) =
          stored captures ++ stored (after.filterMap captured) := List.filter_append ..
      rw [hperiod, hsplit, stored_snoc_of_stored _ (by omega), ← hstored, List.append_assoc,
        List.getElem?_append_right (le_refl _), Nat.sub_self]
      rfl
    rw [main_run_packet_lines run, hcapture, Option.map_some]
  · have hslot := destination_slot run₀ (by omega) hfew
    rw [hmac_id] at hslot
    rw [hupdate.reset]
    exact hslot

/-! A run in which a device stays silent until its slot is reused -/

section example_run

/-- The mapping of the device with address 10.0.0.0 + n. -/
def device (n : Nat) : address_table_entry_t := ⟨.ofNat (0x0a000000 + n), Vector.replicate ETH_ALEN 0⟩

/-- An IP packet without options. -/
def ip_frame (protocol : UInt8) (saddr daddr : UInt32) (payload : List UInt8) : frame_t where
  ts := ⟨0, 0⟩
  caplen := .ofNat (34 + payload.length)
  len := .ofNat (34 + payload.length)
  bytes := List.replicate 12 0 ++ (be16 ETHERTYPE_IP ++ ([0x45, 0, 0, 0, 0, 0, 0, 0, 64, protocol, 0, 0] ++
    (be32 saddr ++ (be32 daddr ++ payload))))

/-- The example's frames have the headers they are built from. -/
theorem ip_frame_header (protocol : UInt8) (saddr daddr : UInt32) (payload : List UInt8) :
    (ip_frame protocol saddr daddr payload).ether_type = ETHERTYPE_IP ∧
    (ip_frame protocol saddr daddr payload).saddr = saddr ∧
    (ip_frame protocol saddr daddr payload).daddr = daddr ∧
    Holds (ip_frame protocol saddr daddr payload).memory 34 payload := by
  have hheld : Holds (ip_frame protocol saddr daddr payload).memory 0 _ :=
    holds_getD (ip_frame protocol saddr daddr payload).bytes
  simp only [ip_frame, holds_append] at hheld
  obtain ⟨_, htype, _, hsaddr, hdaddr, hpayload⟩ := hheld
  exact ⟨run_load16 htype, run_load32 hsaddr, run_load32 hdaddr, hpayload⟩

/-- A packet from this device to 8.8.8.8. -/
def device_frame (n : Nat) : frame_t := ip_frame 0 (device n).ip_address 0x08080808 []

/-- A DNS response from 8.8.8.8 to the first device. -/
def response_frame : frame_t :=
  ip_frame IPPROTO_UDP 0x08080808 (device 0).ip_address
    ([0, 53, 0x9c, 0x40, 0, 52, 0, 0] ++ root_response.bytes)

theorem device_private : ∀ n : Fin 257, is_address_private (device n).ip_address = true := by decide +kernel

theorem device_ne {m n : Nat} (hm : m < 257) (hn : n < 257) (hne : m ≠ n) : device m ≠ device n := by
  intro heq
  have haddress : (device m).ip_address.toNat = (device n).ip_address.toNat := by rw [heq]
  simp only [device, UInt32.toNat_ofNat'] at haddress
  omega

theorem device_mem {n count : Nat} (hn : n < 257) (hcount : count ≤ 257)
    (hmem : device n ∈ (List.range count).map device) : n < count := by
  obtain ⟨m, hm, heq⟩ := List.mem_map.mp hmem
  rw [List.mem_range] at hm
  by_contra hge
  exact device_ne (show m < 257 by omega) hn (by omega) heq

/-- The example's devices are distinct. -/
theorem device_index {index count : Nat} (hcount : count ≤ 256)
    (hindex : ((List.range count).map device)[index]? = some (device 0)) : index = 0 := by
  rw [List.getElem?_map, Option.map_eq_some_iff] at hindex
  obtain ⟨n, hn, heq⟩ := hindex
  obtain ⟨hlt, hindex_eq⟩ := List.getElem?_eq_some_iff.mp hn
  rw [List.length_range] at hlt
  rw [List.getElem_range] at hindex_eq
  by_contra hne
  exact device_ne (show index < 257 by omega) (by omega) hne (hindex_eq ▸ heq)

/-- The state after packets from the first devices. -/
structure Seen (count : Nat) (trace : main_trace) (state : state_t) : Prop where
  run : main_run initialized_session domain_whitelist_init empty_bloom trace state
  events : trace.map Prod.fst = (List.range count).map fun n => .process_packet (device_frame n)
  known : mappings trace = (List.range count).map device
  stored : state.packet_data.length = count
  dns : state.dns_table = dns_table_init (some domain_whitelist_init) empty_bloom

/-- A packet from a device that is not in the table adds its mapping. -/
theorem device_frame_processed {trace : main_trace} {state : state_t} {n : Nat} (hn : n < 257)
    (run : main_run initialized_session domain_whitelist_init empty_bloom trace state)
    (hunknown : device n ∉ mappings trace) (hroom : state.packet_data.length < PACKET_DATA_BUFFER_ENTRIES) :
    ∃ capture state', main_run initialized_session domain_whitelist_init empty_bloom
        (trace ++ [(.process_packet (device_frame n), .processed capture)]) state' ∧
      capture.new_mappings = [device n] ∧ state'.packet_data.length = state.packet_data.length + 1 ∧
      state'.dns_table = state.dns_table := by
  obtain ⟨htype, hsaddr, hdaddr, _⟩ := ip_frame_header 0 (device n).ip_address 0x08080808 []
  obtain ⟨sent, hlogs⟩ := main_run_logs run
  obtain ⟨capture, state', _, hstep, run'⟩ :=
    @main_run_goes_on_packet initialized_session rfl _ _ _ _ run (device_frame n)
  obtain ⟨_, hpacket, _, hmappings⟩ := main_step_packet hstep
  have hip : capture.locals.ether_type = ETHERTYPE_IP :=
    (run_get_flow_entry_for_packet_ether_type _ _ _ _ hpacket.found).trans htype
  have hdissected := hpacket.dissected_ip hip
  have hpublic : is_address_private capture.locals.dissection.entry.ip_destination = false := by
    rw [hdissected.ip_destination, device_frame, hdaddr]
    decide
  refine ⟨capture, state', run', ?_, ?_, ?_⟩
  · have hmapping : capture.locals.dissection.source_mapping (device_frame n) = device n := by
      rw [dissection_t.source_mapping, hdissected.ip_source, device_frame, hsaddr]
      rfl
    have hnew := @address_table_t.Logs.new_mapping_unknown _ _ _ hlogs (device n) (device_private ⟨n, hn⟩) hunknown
    rw [hmappings, packet_mappings, if_pos hip, looked_up_mappings, hmapping, hnew,
      @address_table_t.new_mapping_public (capture.locals.dissection.destination_mapping (device_frame n)) hpublic,
      List.append_nil]
  · obtain ⟨_, _, hlength, _⟩ | ⟨hfull, _⟩ := hpacket.series_cases
    · exact hlength
    · omega
  · have hnone : ¬0 ≤ capture.locals.dissection.mac_id := by
      obtain ⟨_, hmac_id, _⟩ | hagain := hdissected.lookups
      · omega
      · rw [address_table_lookup_public hpublic] at hagain
        have hmac_id : capture.locals.dissection.mac_id = -1 := congrArg Prod.fst hagain
        omega
    rw [hpacket.dns, process_dns, if_neg fun hwanted => hnone hwanted.2.1]

/-- A run that looks up the given number of devices. -/
theorem seen_devices (count : Nat) (hcount : count ≤ 256) : ∃ trace state, Seen count trace state := by
  induction count with
  | zero => exact ⟨[], _, .nil, rfl, rfl, rfl, rfl⟩
  | succ count ih =>
    obtain ⟨trace, state, hseen⟩ := ih (by omega)
    have hunknown : device count ∉ mappings trace := by
      rw [hseen.known]
      intro hmem
      have := device_mem (by omega) (by omega) hmem
      omega
    obtain ⟨capture, state', run', hnew, hlength, hdns⟩ := device_frame_processed (by omega) hseen.run hunknown
      (by rw [hseen.stored, PACKET_DATA_BUFFER_ENTRIES]; omega)
    refine ⟨_, state', run', ?_, ?_, ?_, hdns.trans hseen.dns⟩
    · rw [List.map_append, hseen.events, List.range_succ, List.map_append]
      rfl
    · rw [mappings_append, hseen.known, mappings_processed, hnew, List.range_succ, List.map_append]
      rfl
    · rw [hlength, hseen.stored]

/-- The bytes of the example's DNS response. -/
theorem response_frame_payload :
    Holds response_frame.memory response_frame.transport_header
      ([0, 53, 0x9c, 0x40, 0, 52, 0, 0] ++ root_response.bytes) ∧
      response_frame.transport_header = 34 ∧ response_frame.protocol = IPPROTO_UDP ∧
      (load16 response_frame.transport_header).run response_frame.memory = NS_DEFAULTPORT := by
  obtain ⟨_, _, _, hpayload⟩ := ip_frame_header IPPROTO_UDP 0x08080808 (device 0).ip_address
    ([0, 53, 0x9c, 0x40, 0, 52, 0, 0] ++ root_response.bytes)
  have hheader : response_frame.transport_header = 34 := by decide +kernel
  rw [hheader]
  refine ⟨hpayload, rfl, by decide +kernel, run_load16 ?_⟩
  exact hpayload.of_prefix ⟨[0x9c, 0x40, 0, 52, 0, 0] ++ root_response.bytes, rfl⟩

/-- The entry for the response's address record. -/
def response_entry (count : Nat) : dns_a_entry_t := ⟨.ofInt count, 0, [], 0x0a000001, 60⟩

/-- What the response's payload has for an empty table. -/
theorem response_extracted {dissection : dissection_t} (hmac_id : dissection.mac_id = 0)
    (hdns_bytes : dissection.dns_bytes = response_frame.transport_header + sizeof_udphdr)
    (hdns_bytes_len : dissection.dns_bytes_len = response_frame.caplen.toInt32.toInt - dissection.dns_bytes)
    (count : Nat) :
    (process_dns initialized_session response_frame dissection count
        (dns_table_init (some domain_whitelist_init) empty_bloom)).a_entries.items = [response_entry count] := by
  obtain ⟨hpayload, hheader, _⟩ := response_frame_payload
  have hcaptured : response_frame.caplen.toInt32.toInt = 86 := by decide
  have hbytes : dissection.dns_bytes = 42 := by
    rw [hdns_bytes, hheader]
    rfl
  have hlength : dissection.dns_bytes_len = root_response.bytes.length := by
    rw [hdns_bytes_len, hcaptured, hbytes]
    decide
  have hheld : Holds (fun address => response_frame.memory (42 + address)) 0 root_response.bytes := by
    rw [hheader, holds_append] at hpayload
    exact hpayload.2.shift
  have hwhole : root_response.WellFormed reference_session.externals.dn_expand fun _ => root_response.bytes :=
    ⟨root_response_wellFormed.questions.mono reference_expands_prefix fun _ _ => List.take_prefix _ _,
      root_response_wellFormed.records.mono reference_expands_prefix fun _ _ => List.take_prefix _ _⟩
  have hrun := @run_process_dns_packet_whole reference_session.externals (.ofInt count) 0 root_response.bytes
    root_response _ (dns_table_init (some domain_whitelist_init) empty_bloom) (List.prefix_refl _) hwhole hheld
  have hpositive : (0 : Int) < root_response.bytes.length := by decide
  have hnarrowed : UInt8.ofInt 0 = 0 := by decide
  rw [process_dns, if_pos (by omega), hmac_id, hbytes, hlength, hnarrowed]
  exact (congrArg (fun result => result.2.a_entries.items) hrun).trans rfl

/-- A response to a private address gets the id of a mapping. -/
theorem ProcessedPacket.response_mac_id {state state' : state_t} {frame : frame_t} {locals : packet_locals}
    {log : List address_table_entry_t} {sent : Nat} (h : ProcessedPacket s state frame state' locals)
    (hlogs : state.address_table.Logs log sent) (hip : frame.ether_type = ETHERTYPE_IP)
    (hudp : frame.protocol = IPPROTO_UDP)
    (hport : (load16 frame.transport_header).run frame.memory = NS_DEFAULTPORT)
    (hprivate : is_address_private locals.dissection.entry.ip_destination = true) :
    0 ≤ locals.dissection.mac_id := by
  obtain ⟨_, _, hagain⟩ := run_get_flow_entry_for_packet_response hudp hport hip h.found
  obtain ⟨index, _, _, _, hid⟩ :=
    address_table_lookup_id (looked_up_logs hlogs frame locals.dissection) hprivate frame.ether_dhost
  have hfound : locals.dissection.mac_id = (index : Int) % 256 := by
    rw [← hid]
    exact congrArg Prod.fst hagain
  omega

/-- The response is attributed to the first device while that is in the table. -/
theorem response_processed {count : Nat} (hfirst : 0 < count) (hlast : count ≤ 256) :
    ∃ trace capture state, capture.frame = response_frame ∧
      trace.map Prod.fst = (List.range count).map (fun n => .process_packet (device_frame n)) ∧
      main_run initialized_session domain_whitelist_init empty_bloom
        (trace ++ [(.process_packet response_frame, .processed capture)]) state ∧
      mappings (trace ++ [(.process_packet response_frame, .processed capture)]) = (List.range count).map device ∧
      capture.locals.dissection.destination_mapping capture.frame = device 0 ∧
      capture.locals.packet_id = (count : Int) ∧ state.packet_data.length = count + 1 ∧
      state.dns_table = extracted initialized_session domain_whitelist_init empty_bloom capture ∧
      state.dns_table.a_entries.items = [response_entry count] := by
  obtain ⟨htype, hsaddr, hdaddr, _⟩ := ip_frame_header IPPROTO_UDP 0x08080808 (device 0).ip_address
    ([0, 53, 0x9c, 0x40, 0, 52, 0, 0] ++ root_response.bytes)
  obtain ⟨_, _, hudp, hport⟩ := response_frame_payload
  obtain ⟨trace, state₀, hseen⟩ := seen_devices count hlast
  obtain ⟨sent, hlogs⟩ := main_run_logs hseen.run
  obtain ⟨capture, state, hframe, hstep, run⟩ :=
    @main_run_goes_on_packet initialized_session rfl _ _ _ _ hseen.run response_frame
  obtain ⟨_, hpacket, _, hmappings⟩ := main_step_packet hstep
  have hip : capture.locals.ether_type = ETHERTYPE_IP :=
    (run_get_flow_entry_for_packet_ether_type _ _ _ _ hpacket.found).trans htype
  have hdissected := hpacket.dissected_ip hip
  obtain ⟨hdns_bytes, hdns_bytes_len, _⟩ := run_get_flow_entry_for_packet_response hudp hport htype hpacket.found
  have hip_destination : capture.locals.dissection.entry.ip_destination = (device 0).ip_address :=
    hdissected.ip_destination.trans hdaddr
  have hdestination : capture.locals.dissection.destination_mapping response_frame = device 0 := by
    have hdhost : response_frame.ether_dhost = (device 0).mac_address := by decide +kernel
    rw [dissection_t.destination_mapping, hip_destination, hdhost]
  have hnothing : packet_mappings state₀ response_frame capture.locals = [] := by
    have hpublic : is_address_private capture.locals.dissection.entry.ip_source = false := by
      rw [hdissected.ip_source, response_frame, hsaddr]
      decide
    have hsource := @address_table_t.new_mapping_public
      (capture.locals.dissection.source_mapping response_frame) hpublic state₀.address_table
    have hknown : (mappings trace)[0]? = some (device 0) := by
      rw [hseen.known, List.getElem?_map, List.getElem?_range hfirst, Option.map_some]
    rw [packet_mappings, if_pos hip, looked_up_mappings, hsource, address_table_lookup_public hpublic, hdestination,
      List.nil_append]
    refine hlogs.new_mapping_recent hknown ?_
    rw [hseen.known, List.length_map, List.length_range]
    exact hlast
  have hmac_id : capture.locals.dissection.mac_id = 0 := by
    have hfound := hpacket.response_mac_id hlogs htype hudp hport (hip_destination ▸ device_private 0)
    obtain ⟨index, hindex, _, _, hslot⟩ := hpacket.mac_id hlogs hfound
    rw [hnothing, List.append_nil, hseen.known, hdestination] at hindex
    rw [hslot, device_index hlast hindex]
    rfl
  have hstored : capture.locals.packet_id = (count : Int) ∧ state.packet_data.length = count + 1 := by
    obtain ⟨_, hid, hlength, _⟩ | ⟨hfull, _⟩ := hpacket.series_cases
    · rw [hseen.stored] at hid hlength
      exact ⟨hid, hlength⟩
    · rw [hseen.stored, PACKET_DATA_BUFFER_ENTRIES] at hfull
      omega
  have hdns : state.dns_table = extracted initialized_session domain_whitelist_init empty_bloom capture := by
    rw [hpacket.dns, hseen.dns, extracted, hframe]
  refine ⟨trace, capture, state, hframe, hseen.events, run, ?_, hframe ▸ hdestination, hstored.1, hstored.2, hdns, ?_⟩
  · rw [mappings_append, mappings_processed, hmappings, hnothing, hseen.known, List.append_nil]
  · rw [hdns, extracted, hframe, hstored.1]
    exact response_extracted hmac_id hdns_bytes hdns_bytes_len count

/-- The line of the response in an update. -/
theorem response_line {state state' : state_t} {count : Nat} {io : update_io} {update : update_t}
    (hentries : state.dns_table.a_entries.items = [response_entry count])
    (hupdate : Updated initialized_session state io state' update) :
    ∃ line ∈ update.dns, Line.dns_ids line = some (.ofInt count, 0) ∧
      Prints initialized_session state.dns_table line := by
  obtain ⟨a_lines, cname_lines, ha, _, hdns⟩ := hupdate.dns
  rw [hentries] at ha
  cases a_lines with
  | nil => simp at ha
  | cons line a_lines =>
    have hline := (List.cons.inj ha).1
    refine ⟨line, ?_, a_line_ids hline, .inl ⟨response_entry count, ?_, hline⟩⟩
    · rw [hdns, dns_section]
      simp
    · rw [hentries]
      exact List.mem_singleton_self _

/-- After one device, its response and an update the line refers to the response. -/
theorem dns_line_refers_response :
    ∃ trace capture update state, main_run initialized_session domain_whitelist_init empty_bloom
        (trace ++ [(.write_update (healthy_io 100) (healthy_io_healthy 100), .written update)]) state ∧
      update.packet_lines[1]? = some (stored_line (period trace) 1 capture) := by
  obtain ⟨trace, capture, state₁, _, _, run₁, _, _, _, _, _, hentries⟩ :=
    response_processed (show 0 < 1 by omega) (by omega)
  obtain ⟨update, state₂, run₂⟩ := main_run_goes_on_update rfl run₁ empty_bloom_lookup (healthy_io_healthy 100) rfl rfl
  obtain ⟨state₃, run₃, hupdate⟩ := main_run_update run₂
  obtain rfl := run₁.deterministic run₃
  obtain ⟨line, hline, hids, _⟩ := response_line hentries hupdate
  obtain ⟨_, _, _, capture', _, _, _, _, hpacket_line, _⟩ := dns_line_refers run₂ hline hids
  exact ⟨_, capture', update, state₂, run₂, hpacket_line⟩

/-- After 256 devices, a response to the first of them, one more device and an
update the line's mapping id refers to the last device: only one mapping was
added after the response, but its destination was not added again. -/
theorem dns_line_slot_reused :
    ∃ before capture last update state line,
      before.map Prod.fst = (List.range 256).map (fun n => .process_packet (device_frame n)) ∧
      capture.frame = response_frame ∧
      main_run initialized_session domain_whitelist_init empty_bloom
        (before ++ (.process_packet response_frame, .processed capture) ::
          [(.process_packet (device_frame 256), .processed last)] ++
            [(.write_update (healthy_io 100) (healthy_io_healthy 100), .written update)]) state ∧
      line ∈ update.dns ∧ Line.dns_ids line = some (256, 0) ∧ capture.locals.packet_id = 256 ∧
      Prints initialized_session (extracted initialized_session domain_whitelist_init empty_bloom capture) line ∧
      (mappings [(main_event.process_packet (device_frame 256), .processed last)]).length ≤ MAC_TABLE_ENTRIES - 1 ∧
      state.address_table.entries (mac_slot 0) ≠ capture.locals.dissection.destination_mapping capture.frame := by
  obtain ⟨before, capture, state₁, hframe, hevents, run₁, hmappings, hdestination, hpacket_id, hlength, hextracted,
    hentries⟩ := response_processed (show 0 < 256 by omega) (le_refl _)
  obtain ⟨last, state₂, run₂, hnew, _, hdns⟩ := @device_frame_processed _ _ 256 (by omega) run₁ (by
      rw [hmappings]
      intro hmem
      exact absurd (device_mem (by omega) (by omega) hmem) (lt_irrefl _))
    (by rw [hlength, PACKET_DATA_BUFFER_ENTRIES]; omega)
  obtain ⟨update, state₃, run₃⟩ := main_run_goes_on_update rfl run₂ empty_bloom_lookup (healthy_io_healthy 100) rfl rfl
  obtain ⟨state₄, run₄, hupdate⟩ := main_run_update run₃
  obtain rfl := run₂.deterministic run₄
  obtain ⟨line, hline, hids, hprints⟩ := response_line (hdns ▸ hentries) hupdate
  rw [hdns, hextracted] at hprints
  obtain ⟨sent, hlogs⟩ := main_run_logs run₃
  refine ⟨before, capture, last, update, state₃, line, hevents, hframe, by simpa using run₃, hline, hids, hpacket_id,
    hprints, ?_, ?_⟩
  · rw [mappings_processed, hnew, MAC_TABLE_ENTRIES_eq, List.length_singleton]
    omega
  · have hlog : (List.range 256).map device ++ [device 256] = (List.range 257).map device := by
      have hrange : List.range 257 = List.range 256 ++ [256] := List.range_succ
      rw [hrange, List.map_append, List.map_singleton]
    rw [mappings_append, mappings_append, hmappings, mappings_processed, hnew, mappings_written, List.append_nil,
      hlog] at hlogs
    have hslot := @address_table_t.Logs.recent _ _ _ hlogs 256 (by simp) (by simp [MAC_TABLE_ENTRIES_eq])
    rw [List.getElem?_map, List.getElem?_range (by omega), Option.map_some, Option.some.injEq] at hslot
    have hsame : Fin.ofNat MAC_TABLE_ENTRIES 256 = mac_slot 0 := rfl
    rw [hdestination, ← hsame, ← hslot]
    exact device_ne (by omega) (by omega) (by omega)

end example_run

end bismark_passive.main
