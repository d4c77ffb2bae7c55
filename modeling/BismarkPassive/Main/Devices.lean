import BismarkPassive.AddressTable.Mapped
import BismarkPassive.DeviceThroughput.Renaming
import BismarkPassive.Machine.Lockstep
import BismarkPassive.Main.Assertions
import BismarkPassive.Main.Linked
import BismarkPassive.Main.FrequentReader
import BismarkPassive.Main.Noninterference

namespace bismark_passive.main

open bytes machine flow_table address_table dns http device_throughput

/-! The same packets between other devices -/

variable {rename : Equiv.Perm mac_address_t}

def mapping_of (rename : Equiv.Perm mac_address_t) (entry : address_table_entry_t) : address_table_entry_t :=
  { entry with mac_address := rename entry.mac_address }

theorem mapping_of_injective : Function.Injective (mapping_of rename) := by
  intro entry other h
  obtain ⟨hip, hmac⟩ := address_table_entry_t.mk.inj h
  cases entry
  cases other
  exact address_table_entry_t.mk.injEq _ _ _ _ ▸ ⟨hip, rename.injective hmac⟩

/-- A lookup for the device in the place of another one. -/
theorem lookup_mapping_of {table table' : address_table_t} (h : table.MapsTo (mapping_of rename) table')
    (ip_address : UInt32) (mac : mac_address_t) :
    (address_table_lookup table' ip_address (rename mac)).1 = (address_table_lookup table ip_address mac).1 ∧
      (after_lookup table ip_address mac).MapsTo (mapping_of rename) (after_lookup table' ip_address (rename mac)) :=
  address_table_lookup_mapsTo mapping_of_injective h rfl rfl

/-- The bytes are counted for the devices under their other names. -/
theorem record_throughput_renamed (target : Target) (table : device_throughput_table_t)
    (ether_shost ether_dhost : mac_address_t) (full_length : UInt32) :
    record_throughput target (table.renamed rename) (rename ether_shost) (rename ether_dhost) full_length =
      (record_throughput target table ether_shost ether_dhost full_length).renamed rename := by
  unfold record_throughput
  split
  · simp only [device_throughput_table_record_renamed]
    split <;> rfl
  · rfl

section found

variable {target : Target} {frame : frame_t} {table table' : address_table_t} {dissection : dissection_t}

/-- An IP packet is dissected and its devices' bytes are counted. -/
theorem run_get_flow_entry_for_packet_of_ip (hip : frame.ether_type = ETHERTYPE_IP)
    (h : (dissect_ip target frame.caplen.toInt32.toInt frame.ether_shost frame.ether_dhost table).run frame.memory =
      (dissection, table')) (throughput : device_throughput_table_t) :
    (get_flow_entry_for_packet target frame.caplen.toInt32.toInt frame.len table throughput).run frame.memory =
      (frame.ether_type, dissection, table',
        record_throughput target throughput frame.ether_shost frame.ether_dhost frame.len) := by
  have hdhost : (load_mac 0).run frame.memory = frame.ether_dhost := rfl
  have hshost : (load_mac ETH_ALEN).run frame.memory = frame.ether_shost := rfl
  have htype : (load16 (2 * ETH_ALEN)).run frame.memory = frame.ether_type := rfl
  simp only [get_flow_entry_for_packet, Reader.run_bind, hdhost, hshost, htype]
  rw [if_pos hip, Reader.run_bind, Reader.run_pure, h]

/-- Of any other packet only the devices' bytes are counted. -/
theorem run_get_flow_entry_for_packet_of_ne_ip (hip : frame.ether_type ≠ ETHERTYPE_IP)
    (throughput : device_throughput_table_t) :
    (get_flow_entry_for_packet target frame.caplen.toInt32.toInt frame.len table throughput).run frame.memory =
      (frame.ether_type, dissection_init, table,
        record_throughput target throughput frame.ether_shost frame.ether_dhost frame.len) := by
  have hdhost : (load_mac 0).run frame.memory = frame.ether_dhost := rfl
  have hshost : (load_mac ETH_ALEN).run frame.memory = frame.ether_shost := rfl
  have htype : (load16 (2 * ETH_ALEN)).run frame.memory = frame.ether_type := rfl
  simp only [get_flow_entry_for_packet, Reader.run_bind, hdhost, hshost, htype]
  rw [if_neg hip, Reader.run_pure]

end found

/-- The frames differ at most in their devices. -/
structure frame_t.SameButDevices (rename : Equiv.Perm mac_address_t) (frame other : frame_t) : Prop where
  ts : other.ts = frame.ts
  caplen : other.caplen = frame.caplen
  len : other.len = frame.len
  ether_dhost : other.ether_dhost = rename frame.ether_dhost
  ether_shost : other.ether_shost = rename frame.ether_shost
  payload : other.bytes.drop (2 * ETH_ALEN) = frame.bytes.drop (2 * ETH_ALEN)

section frames

variable {frame other : frame_t} (h : frame.SameButDevices rename other)

include h

theorem frame_t.SameButDevices.memory {address : Nat} (haddress : 2 * ETH_ALEN ≤ address) :
    other.memory address = frame.memory address := by
  have hbyte := congrArg (fun bytes => bytes[address - 2 * ETH_ALEN]?) h.payload
  simp only [List.getElem?_drop, Nat.add_sub_cancel' haddress] at hbyte
  rw [frame_t.memory, frame_t.memory, List.getD_eq_getElem?_getD, List.getD_eq_getElem?_getD, hbyte]

theorem frame_t.SameButDevices.run_load16 {address : Nat} (haddress : 2 * ETH_ALEN ≤ address) :
    (load16 address).run other.memory = (load16 address).run frame.memory :=
  run_load16_congr (h.memory haddress) (h.memory (by omega))

theorem frame_t.SameButDevices.run_load32 {address : Nat} (haddress : 2 * ETH_ALEN ≤ address) :
    (load32 address).run other.memory = (load32 address).run frame.memory := by
  simp only [load32, Reader.run_bind, h.run_load16 haddress, h.run_load16 (Nat.le_add_right_of_le haddress)]
  rfl

theorem frame_t.SameButDevices.saddr : other.saddr = frame.saddr := h.run_load32 (by decide)

theorem frame_t.SameButDevices.daddr : other.daddr = frame.daddr := h.run_load32 (by decide)

theorem frame_t.SameButDevices.protocol : other.protocol = frame.protocol := h.memory (by decide)

theorem frame_t.SameButDevices.transport_header : other.transport_header = frame.transport_header := by
  rw [frame_t.transport_header, frame_t.transport_header, run_load8, run_load8, h.memory (by decide)]

theorem frame_t.SameButDevices.ip_dissection : other.ip_dissection = frame.ip_dissection := by
  rw [frame_t.ip_dissection, frame_t.ip_dissection, h.saddr, h.daddr, h.protocol]

/-- A segment is dissected from bytes behind the Ethernet addresses. -/
theorem frame_t.SameButDevices.run_dissect_tcp (target : Target) (cap_length : Int) {tcp_header : Nat}
    (hheader : 2 * ETH_ALEN ≤ tcp_header) (dissection : dissection_t) :
    (dissect_tcp target cap_length tcp_header dissection).run other.memory =
      (dissect_tcp target cap_length tcp_header dissection).run frame.memory := by
  simp only [dissect_tcp, Reader.run_bind, h.run_load16 hheader, h.run_load16 (Nat.le_add_right_of_le hheader)]
  split
  · rw [Reader.run_bind, Reader.run_bind, run_load8, run_load8, h.memory (Nat.le_add_right_of_le hheader)]
    rfl
  · rfl

variable {table table' : address_table_t} (htables : table.MapsTo (mapping_of rename) table')

include htables

/-- Of a message the device it is sent to is looked up as well, under its other name. -/
theorem frame_t.SameButDevices.run_dissect_udp (cap_length : Int) {udp_header : Nat}
    (hheader : 2 * ETH_ALEN ≤ udp_header) (ether_dhost : mac_address_t) (dissection : dissection_t) :
    let dissected := (dissect_udp cap_length udp_header ether_dhost dissection table).run frame.memory
    let dissected' := (dissect_udp cap_length udp_header (rename ether_dhost) dissection table').run other.memory
    dissected'.1 = dissected.1 ∧ dissected.2.MapsTo (mapping_of rename) dissected'.2 := by
  obtain ⟨hid, hlookup⟩ := lookup_mapping_of htables dissection.entry.ip_destination ether_dhost
  have hports : dissection.with_ports udp_header other.memory = dissection.with_ports udp_header frame.memory := by
    rw [dissection_t.with_ports, dissection_t.with_ports, h.run_load16 hheader,
      h.run_load16 (Nat.le_add_right_of_le hheader)]
  simp only [run_dissect_udp_eq, h.run_load16 hheader, hports]
  split
  · exact ⟨by rw [hid], hlookup⟩
  · exact ⟨rfl, htables⟩

/-- The dissections agree, and the mappings are the same under the other names. -/
theorem frame_t.SameButDevices.run_dissect_ip (target : Target) (cap_length : Int)
    (ether_shost ether_dhost : mac_address_t) :
    let dissected := (dissect_ip target cap_length ether_shost ether_dhost table).run frame.memory
    let dissected' := (dissect_ip target cap_length (rename ether_shost) (rename ether_dhost) table').run other.memory
    dissected'.1 = dissected.1 ∧ dissected.2.MapsTo (mapping_of rename) dissected'.2 := by
  have hheader : 2 * ETH_ALEN ≤ frame.transport_header := Nat.le_add_right_of_le (by decide)
  have hlooked : (frame.look_up ether_shost ether_dhost table).MapsTo (mapping_of rename)
      (other.look_up (rename ether_shost) (rename ether_dhost) table') := by
    rw [frame_t.look_up, frame_t.look_up, h.saddr, h.daddr]
    exact (lookup_mapping_of (lookup_mapping_of htables frame.saddr ether_shost).2 frame.daddr ether_dhost).2
  rw [run_dissect_ip_eq, run_dissect_ip_eq, h.ip_dissection, h.protocol, h.transport_header]
  by_cases htcp : frame.protocol = IPPROTO_TCP
  · rw [if_pos htcp, if_pos htcp, h.run_dissect_tcp target cap_length hheader]
    exact ⟨rfl, hlooked⟩
  rw [if_neg htcp, if_neg htcp]
  by_cases hudp : frame.protocol = IPPROTO_UDP
  · rw [if_pos hudp, if_pos hudp]
    exact h.run_dissect_udp hlooked cap_length hheader ether_dhost frame.ip_dissection
  · rw [if_neg hudp, if_neg hudp]
    exact ⟨rfl, hlooked⟩

/-- The same is found in the two packets, and the tables still correspond. -/
theorem frame_t.SameButDevices.found (target : Target) (throughput : device_throughput_table_t) :
    let found :=
      (get_flow_entry_for_packet target frame.caplen.toInt32.toInt frame.len table throughput).run frame.memory
    ∃ table'', (get_flow_entry_for_packet target other.caplen.toInt32.toInt other.len table'
        (throughput.renamed rename)).run other.memory = (found.1, found.2.1, table'', found.2.2.2.renamed rename) ∧
      found.2.2.1.MapsTo (mapping_of rename) table'' := by
  have htype : other.ether_type = frame.ether_type := h.run_load16 (Nat.le_refl (2 * ETH_ALEN))
  have hrecord : record_throughput target (throughput.renamed rename) other.ether_shost other.ether_dhost other.len =
      (record_throughput target throughput frame.ether_shost frame.ether_dhost frame.len).renamed rename := by
    rw [h.ether_shost, h.ether_dhost, h.len, record_throughput_renamed]
  by_cases hip : frame.ether_type = ETHERTYPE_IP
  · have hdissect := h.run_dissect_ip htables target frame.caplen.toInt32.toInt frame.ether_shost frame.ether_dhost
    rw [← h.ether_shost, ← h.ether_dhost] at hdissect
    rcases hdissected : (dissect_ip target frame.caplen.toInt32.toInt frame.ether_shost frame.ether_dhost table).run
      frame.memory with ⟨dissection, mapped⟩
    rcases hdissected' : (dissect_ip target frame.caplen.toInt32.toInt other.ether_shost other.ether_dhost table').run
      other.memory with ⟨dissection', mapped'⟩
    rw [hdissected, hdissected'] at hdissect
    obtain ⟨rfl, hmaps⟩ := hdissect
    rw [← h.caplen] at hdissected'
    rw [run_get_flow_entry_for_packet_of_ip hip hdissected,
      run_get_flow_entry_for_packet_of_ip (htype.trans hip) hdissected', hrecord, htype]
    exact ⟨mapped', rfl, hmaps⟩
  · rw [run_get_flow_entry_for_packet_of_ne_ip hip, run_get_flow_entry_for_packet_of_ne_ip (htype.trans_ne hip),
      hrecord, htype]
    exact ⟨table', rfl, htables⟩

end frames

/-! Two routers with different keyed hashes -/

/-- A device is in the place of one of the same vendor, and the other hash gives
it the same digest, and addresses and names theirs. -/
structure HidesDevices (rename : Equiv.Perm mac_address_t) (s : Session)
    (hash : List UInt8 → List UInt8 → digest_t) : Prop where
  vendors : ∀ mac, (rename mac).toList.take (ETH_ALEN / 2) = mac.toList.take (ETH_ALEN / 2)
  digests : ∀ mac, anonymization_process (s.linked hash) (rename mac).toList = anonymization_process s mac.toList
  addresses : SameAddresses s hash
  names : ExpandsTo (SameDigest s (s.linked hash)) s.externals.dn_expand

structure state_t.SameButDevices (rename : Equiv.Perm mac_address_t) (state other : state_t) : Prop where
  address_table : state.address_table.MapsTo (mapping_of rename) other.address_table
  others : other =
    { state with
      address_table := other.address_table
      device_throughput_table := state.device_throughput_table.renamed rename }

variable {s : Session} {hash : List UInt8 → List UInt8 → digest_t} {state other next : state_t}

theorem initial_state_same_but_devices (target : Target) (domain_whitelist : domain_whitelist_t)
    (bloom_whitelist : bloom_whitelist_t) :
    (initial_state target domain_whitelist bloom_whitelist).SameButDevices rename
      (initial_state target domain_whitelist bloom_whitelist) :=
  ⟨address_table_init_mapsTo, rfl⟩

/-- The URL that a frame may carry has the same digest. -/
def frame_t.SameUrl (s : Session) (hash : List UInt8 → List UInt8 → digest_t) (frame : frame_t) : Prop :=
  s.target.enable_http_url = true → ∀ url, requested_url (frame.bytes.drop frame.http_bytes) = some url →
    SameDigest s (s.linked hash) url

/-- What is found in an IP packet lies behind the devices. -/
theorem run_get_flow_entry_for_packet_found (target : Target) (frame : frame_t) (table : address_table_t)
    (throughput : device_throughput_table_t) :
    let dissection := ((get_flow_entry_for_packet target frame.caplen.toInt32.toInt frame.len table throughput).run
      frame.memory).2.1
    (0 < dissection.http_bytes_len → target.enable_http_url = true ∧ dissection.http_bytes = frame.http_bytes) ∧
      (0 < dissection.dns_bytes_len → dissection.dns_bytes = frame.dns_bytes) := by
  have hfound := run_dissect_ip_found target frame table
  have hnone : ¬ (0 : Int) < -1 := by decide
  by_cases hip : frame.ether_type = ETHERTYPE_IP
  · rcases hdissected : (dissect_ip target frame.caplen.toInt32.toInt frame.ether_shost frame.ether_dhost table).run
      frame.memory with ⟨dissection, table'⟩
    rw [hdissected] at hfound
    rw [run_get_flow_entry_for_packet_of_ip hip hdissected]
    exact ⟨fun h => ⟨(hfound.request h).1, (hfound.request h).2.2.2⟩, fun h => (hfound.response h).2.2.1⟩
  · rw [run_get_flow_entry_for_packet_of_ne_ip hip]
    exact ⟨fun h => absurd h hnone, fun h => absurd h hnone⟩

section payloads

variable {frame frame' : frame_t} (hframe : frame.SameButDevices rename frame') {dissection : dissection_t}

include hframe

/-- The DNS payload does not depend on the devices. -/
theorem process_dns_same_but_devices (hplace : 0 < dissection.dns_bytes_len → dissection.dns_bytes = frame.dns_bytes)
    (packet_id : Int) (table : dns_table_t) :
    process_dns s frame' dissection packet_id table = process_dns s frame dissection packet_id table := by
  unfold process_dns
  split
  · rename_i hwanted
    have hbehind (address : Nat) : 2 * ETH_ALEN ≤ dissection.dns_bytes + address := by
      have hheaders : 2 * ETH_ALEN ≤ ETHER_HDR_LEN := by decide
      rw [hplace hwanted.1, frame_t.dns_bytes, frame_t.transport_header]
      omega
    simp only [hframe.memory (hbehind _)]
  · rfl

/-- Neither does the HTTP payload, if the other hash agrees on its URL. -/
theorem process_http_same_but_devices
    (hplace : 0 < dissection.http_bytes_len →
      s.target.enable_http_url = true ∧ dissection.http_bytes = frame.http_bytes)
    (hurl : frame.SameUrl s hash) (flow_id : UInt16) (table : http_table_t) :
    process_http (s.linked hash) frame' dissection flow_id table = process_http s frame dissection flow_id table := by
  have htarget : (s.linked hash).target = s.target := rfl
  unfold process_http
  rw [htarget]
  split
  · rename_i hwanted
    rw [Bool.and_eq_true, decide_eq_true_eq] at hwanted
    obtain ⟨henabled, hbytes⟩ := hplace hwanted.2
    have hbehind : 2 * ETH_ALEN ≤ frame.http_bytes := by
      have hheaders : 2 * ETH_ALEN ≤ ETHER_HDR_LEN := by decide
      simp only [frame_t.http_bytes, frame_t.transport_header]
      omega
    obtain ⟨offset, hoffset⟩ := Nat.exists_eq_add_of_le hbehind
    have hpayload : frame'.bytes.drop frame.http_bytes = frame.bytes.drop frame.http_bytes := by
      rw [hoffset, ← List.drop_drop, ← List.drop_drop, hframe.payload]
    rw [hbytes, hpayload, process_http_packet_linked (hurl henabled)]
  · rfl

end payloads

/-- A packet between other devices leaves the same state under their names. -/
theorem process_packet_same_but_devices {frame frame' : frame_t} (hframe : frame.SameButDevices rename frame')
    (hurl : frame.SameUrl s hash) (hstates : state.SameButDevices rename other) {locals : packet_locals}
    (h : process_packet s state frame = some (next, locals)) :
    ∃ next', process_packet (s.linked hash) other frame' = some (next', locals) ∧
      next.SameButDevices rename next' := by
  obtain ⟨haddress, hothers⟩ := hstates
  have hplaces := run_get_flow_entry_for_packet_found s.target frame state.address_table state.device_throughput_table
  obtain ⟨table', hfound, htables⟩ := hframe.found haddress s.target state.device_throughput_table
  have htarget : (s.linked hash).target = s.target := rfl
  rw [hothers]
  unfold process_packet at h ⊢
  rw [htarget, hfound, hframe.ts, hframe.len]
  revert h hplaces htables
  generalize (get_flow_entry_for_packet s.target frame.caplen.toInt32.toInt frame.len state.address_table
    state.device_throughput_table).run frame.memory = found
  obtain ⟨ether_type, dissection, address_table, throughput⟩ := found
  intro h hplaces htables
  dsimp only at h hplaces htables ⊢
  obtain ⟨http_table, hhttp, heq⟩ := Option.map_eq_some_iff.mp h
  obtain ⟨rfl, rfl⟩ := Prod.mk.inj heq
  rw [process_dns_linked, process_dns_same_but_devices hframe hplaces.2,
    process_http_same_but_devices hframe hplaces.1 hurl, hhttp]
  exact ⟨_, rfl, htables, rfl⟩

/-! What is printed of the devices -/

section printed

variable (hs : HidesDevices rename s hash) (hanonymized : s.target.disable_anonymization = false)

include hs

/-- The half of an address that is published is the same, and so is the digest
of the whole. -/
theorem HidesDevices.macs (mac : mac_address_t) :
    anonymize_mac (s.linked hash) (rename mac) = anonymize_mac s mac := by
  have hvendor {i : Nat} (hi : i < ETH_ALEN) (hhalf : i < ETH_ALEN / 2) : (rename mac)[i] = mac[i] := by
    have hbyte := congrArg (fun bytes => bytes[i]?) (hs.vendors mac)
    simpa [List.getElem?_take_of_lt hhalf, hi] using hbyte
  unfold anonymize_mac
  rw [hs.digests]
  congr 1
  funext digest
  congr 1
  apply Vector.ext
  intro i hi
  rw [Vector.getElem_ofFn, Vector.getElem_ofFn]
  split
  · exact hvendor hi ‹_›
  · rfl

include hanonymized

theorem HidesDevices.address_line (entry : address_table_entry_t) :
    address_line (s.linked hash) (mapping_of rename entry) = address_line s entry := by
  have htarget : (s.linked hash).target = s.target := rfl
  rw [address_table.address_line, address_table.address_line, htarget, hanonymized, mapping_of, hs.macs,
    anonymize_ip_linked hs.addresses]
  rfl

theorem HidesDevices.device_line (entry : device_throughput_table_entry_t) :
    device_line (s.linked hash) (entry.renamed rename) = device_line s entry := by
  have htarget : (s.linked hash).target = s.target := rfl
  rw [main.device_line, main.device_line, htarget, hanonymized, device_throughput_table_entry_t.renamed, hs.macs]
  rfl

/-- The address section shows the same lines. -/
theorem HidesDevices.write_addresses {table table' address_table : address_table_t}
    (htables : table.MapsTo (mapping_of rename) table') {handle handle' : gzFile} {lines : List Line}
    (h : write_table_section (address_table_write_update s table) handle = some (address_table, lines, handle')) :
    ∃ address_table', write_table_section (address_table_write_update (s.linked hash) table') handle =
        some (address_table', lines, handle') ∧ address_table.MapsTo (mapping_of rename) address_table' := by
  obtain ⟨table'', hwrite, hmaps⟩ := address_table_write_update_mapsTo (hs.address_line hanonymized) htables handle
  obtain ⟨hwritten, rfl⟩ := write_table_section_written h
  rw [hwritten] at hwrite hmaps
  refine ⟨table'', ?_, hmaps⟩
  rw [write_table_section, hwrite]
  rfl

/-- The two updates are equal, although the tables hold other devices. -/
theorem write_update_same_but_devices (hnames : SameNameDigests s hash state.dns_table)
    (hstates : state.SameButDevices rename other) {io : update_io} {update : update_t}
    (h : write_update s state io = some (next, update)) :
    ∃ next', write_update (s.linked hash) other io = some (next', update) ∧ next.SameButDevices rename next' := by
  obtain ⟨haddress, hothers⟩ := hstates
  obtain ⟨handle₀, handle₁, handle₂, handle₃, handle₄, handle₅, handle₆, handle₇, handle₈, handle₉, flow_table,
    address_table, hopen, hheader, hwhitelist, hanonymization, hpackets, hflows, hdns, haddresses, hdrops, hurls,
    hrenamed, rfl⟩ := write_update_eq_some_iff.mp h
  obtain ⟨address_table', haddresses', htables⟩ := hs.write_addresses hanonymized haddress haddresses
  rw [hothers]
  refine ⟨_, write_update_eq_some_iff.mpr ⟨handle₀, handle₁, handle₂, handle₃, handle₄, handle₅, handle₆, handle₇,
    handle₈, handle₉, flow_table, address_table', hopen, hheader, hwhitelist, hanonymization, hpackets, ?_, ?_,
    haddresses', hdrops, hurls, hrenamed, rfl⟩, htables, rfl⟩
  · rw [flow_table_write_update_linked hs.addresses]
    exact hflows
  · rw [dns_table_write_update_linked hs.addresses hnames]
    exact hdns

/-- The lines of a frequent update are the same. -/
theorem frequent_update_lines_same_but_devices (hstates : state.SameButDevices rename other)
    (bismark_mac : mac_address_t) (io : frequent_io) :
    frequent_update_lines (s.linked hash) bismark_mac other io = frequent_update_lines s bismark_mac state io := by
  have hdevices : (state.device_throughput_table.renamed rename).entries.map (device_line (s.linked hash)) =
      state.device_throughput_table.entries.map (device_line s) := by
    rw [device_throughput_table_t.renamed, List.map_map]
    exact List.map_congr_left fun entry _ => hs.device_line hanonymized entry
  have hlength : (state.device_throughput_table.renamed rename).entries.length =
      state.device_throughput_table.entries.length := List.length_map _
  rw [hstates.others, frequent_update_lines, frequent_update_lines, device_throughput_lines, device_throughput_lines,
    hdevices, hlength]

/-- A frequent update empties the throughput tables of both. -/
theorem write_frequent_update_same_but_devices (hstates : state.SameButDevices rename other)
    {bismark_mac : mac_address_t} {io : frequent_io} (h : write_frequent_update s bismark_mac state io = some next) :
    ∃ next', write_frequent_update (s.linked hash) bismark_mac other io = some next' ∧
      next.SameButDevices rename next' := by
  have hlines := frequent_update_lines_same_but_devices hs hanonymized hstates bismark_mac io
  unfold write_frequent_update at h ⊢
  rw [hlines]
  obtain ⟨hwritten, hnext⟩ := Option.ite_none_right_eq_some.mp h
  obtain rfl := Option.some.inj hnext
  rw [if_pos hwritten]
  refine ⟨_, rfl, hstates.address_table, ?_⟩
  rw [hstates.others]
  rfl

end printed

/-! What is published -/

inductive published_t where
  | nothing
  | update (update : update_t)
  | frequent_update (lines : List (Option frequent_line))

/-- The steps of the program with what they publish. -/
def publish_step (s : Session) (bismark_mac : mac_address_t) (state : state_t) :
    program_event → Option (state_t × published_t)
  | .process_packet frame => (process_packet s state frame).map fun result => (result.1, .nothing)
  | .write_update io => (write_update s state io).map fun result => (result.1, .update result.2)
  | .write_frequent_update io =>
    if s.target.enable_frequent_updates then
      (write_frequent_update s bismark_mac state io).map fun next =>
        (next, .frequent_update (frequent_update_lines s bismark_mac state io))
    else none

/-- `program_step` is `publish_step` without its output. -/
theorem program_step_publishes (s : Session) (bismark_mac : mac_address_t) (state : state_t) (event : program_event) :
    program_step s bismark_mac state event =
      (publish_step s bismark_mac state event).map fun result => (result.1, ()) := by
  cases event with
  | process_packet frame =>
    rw [program_step, publish_step, Option.map_map]
    rfl
  | write_update io =>
    rw [program_step, publish_step, Option.map_map]
    rfl
  | write_frequent_update io =>
    rw [program_step, publish_step]
    split
    · rw [Option.map_map]
      rfl
    · rfl

/-- The names in the table stay names that were expanded. -/
theorem publish_step_names {P : cstring → Prop} (hexpand : ExpandsTo P s.externals.dn_expand)
    {bismark_mac : mac_address_t} {event : program_event} {published : published_t} (h : NamesAre P state.dns_table)
    (hstep : publish_step s bismark_mac state event = some (next, published)) : NamesAre P next.dns_table := by
  cases event with
  | process_packet frame =>
    obtain ⟨⟨next, locals⟩, hprocess, heq⟩ := Option.map_eq_some_iff.mp hstep
    obtain ⟨rfl, -⟩ := Prod.mk.inj heq
    exact @ProcessedPacket.names _ _ hexpand _ _ ⟨frame, locals, none, []⟩ h (process_packet_spec hprocess)
  | write_update io =>
    obtain ⟨⟨next, update⟩, hwrite, heq⟩ := Option.map_eq_some_iff.mp hstep
    obtain ⟨rfl, -⟩ := Prod.mk.inj heq
    obtain ⟨_, _, _, _, _, _, _, _, _, _, _, _, -, -, -, -, -, -, -, -, -, -, -, rfl⟩ :=
      write_update_eq_some_iff.mp hwrite
    exact NamesAre.init
  | write_frequent_update io =>
    obtain ⟨-, hstep⟩ := Option.ite_none_right_eq_some.mp hstep
    obtain ⟨next, hwrite, heq⟩ := Option.map_eq_some_iff.mp hstep
    obtain ⟨rfl, -⟩ := Prod.mk.inj heq
    obtain ⟨-, hwritten⟩ := Option.ite_none_right_eq_some.mp hwrite
    obtain rfl := Option.some.inj hwritten
    exact h

inductive program_event.SameButDevices (rename : Equiv.Perm mac_address_t) (s : Session)
    (hash : List UInt8 → List UInt8 → digest_t) : program_event → program_event → Prop where
  | process_packet {frame frame' : frame_t} (h : frame.SameButDevices rename frame') (hurl : frame.SameUrl s hash) :
    program_event.SameButDevices rename s hash (.process_packet frame) (.process_packet frame')
  | write_update (io : update_io) : program_event.SameButDevices rename s hash (.write_update io) (.write_update io)
  | write_frequent_update (io : frequent_io) :
    program_event.SameButDevices rename s hash (.write_frequent_update io) (.write_frequent_update io)

/-- One step, on either network. -/
theorem publish_step_same_but_devices (hs : HidesDevices rename s hash)
    (hanonymized : s.target.disable_anonymization = false) {bismark_mac : mac_address_t}
    {event event' : program_event} {published : published_t}
    (hstates : state.SameButDevices rename other ∧ SameNameDigests s hash state.dns_table)
    (hevent : event.SameButDevices rename s hash event')
    (hstep : publish_step s bismark_mac state event = some (next, published)) :
    ∃ next' published', publish_step (s.linked hash) bismark_mac other event' = some (next', published') ∧
      (next.SameButDevices rename next' ∧ SameNameDigests s hash next.dns_table) ∧ published = published' := by
  obtain ⟨hstates, hnames⟩ := hstates
  have hkept := publish_step_names hs.names hnames hstep
  cases hevent with
  | process_packet hframe hurl =>
    obtain ⟨⟨next, locals⟩, hprocess, heq⟩ := Option.map_eq_some_iff.mp hstep
    obtain ⟨rfl, rfl⟩ := Prod.mk.inj heq
    obtain ⟨next', hprocess', hnext⟩ := process_packet_same_but_devices hframe hurl hstates hprocess
    exact ⟨next', .nothing, Option.map_eq_some_iff.mpr ⟨_, hprocess', rfl⟩, ⟨hnext, hkept⟩, rfl⟩
  | write_update io =>
    obtain ⟨⟨next, update⟩, hwrite, heq⟩ := Option.map_eq_some_iff.mp hstep
    obtain ⟨rfl, rfl⟩ := Prod.mk.inj heq
    obtain ⟨next', hwrite', hnext⟩ := write_update_same_but_devices hs hanonymized hnames hstates hwrite
    exact ⟨next', .update update, Option.map_eq_some_iff.mpr ⟨_, hwrite', rfl⟩, ⟨hnext, hkept⟩, rfl⟩
  | write_frequent_update io =>
    obtain ⟨henabled, hstep⟩ := Option.ite_none_right_eq_some.mp hstep
    obtain ⟨next, hwrite, heq⟩ := Option.map_eq_some_iff.mp hstep
    obtain ⟨rfl, rfl⟩ := Prod.mk.inj heq
    obtain ⟨next', hwrite', hnext⟩ := write_frequent_update_same_but_devices hs hanonymized hstates hwrite
    have hlines := frequent_update_lines_same_but_devices hs hanonymized hstates bismark_mac io
    refine ⟨next', .frequent_update (frequent_update_lines (s.linked hash) bismark_mac other io), ?_,
      ⟨hnext, hkept⟩, ?_⟩
    · exact (if_pos henabled).trans (Option.map_eq_some_iff.mpr ⟨_, hwrite', rfl⟩)
    · rw [hlines]

/-- Two devices of one vendor. -/
def device_a : mac_address_t := #v[0, 0x1b, 0x63, 1, 2, 3]

def device_b : mac_address_t := #v[0, 0x1b, 0x63, 7, 8, 9]

def swap_devices (data : List UInt8) : List UInt8 :=
  if data = device_a.toList then device_b.toList else if data = device_b.toList then device_a.toList else data

/-- A router whose keyed hash spells its input. -/
def spelling_router : Session := frequent_session.linked fun _ data => spelled data

theorem same_digest_of_others {data : List UInt8} (ha : data ≠ device_a.toList) (hb : data ≠ device_b.toList) :
    SameDigest spelling_router (spelling_router.linked fun _ data => spelled (swap_devices data)) data := by
  have hdata : swap_devices data = data := by rw [swap_devices, if_neg ha, if_neg hb]
  exact congrArg (fun data => some (spelled data)) hdata

/-- The keyed hash of the example spells the MAC, so the other one swaps the devices back. -/
theorem spelling_router_hides_devices :
    HidesDevices (Equiv.swap device_a device_b) spelling_router fun _ data => spelled (swap_devices data) where
  vendors mac := by
    by_cases ha : mac = device_a
    · rw [ha, Equiv.swap_apply_left]
      decide
    by_cases hb : mac = device_b
    · rw [hb, Equiv.swap_apply_right]
      decide
    rw [Equiv.swap_apply_of_ne_of_ne ha hb]
  digests mac := by
    by_cases ha : mac = device_a
    · rw [ha, Equiv.swap_apply_left]
      decide
    by_cases hb : mac = device_b
    · rw [hb, Equiv.swap_apply_right]
      decide
    rw [Equiv.swap_apply_of_ne_of_ne ha hb]
    exact same_digest_of_others (mt Vector.toList_inj.mp ha) (mt Vector.toList_inj.mp hb)
  addresses address := by
    have hlength : (spelling_router.target.bytes32 address).length = 4 := rfl
    refine same_digest_of_others (fun h => ?_) fun h => ?_
    all_goals
      rw [h] at hlength
      exact absurd hlength (by decide)
  names message offset name length h := by
    obtain ⟨-, hname⟩ := Option.ite_none_right_eq_some.mp h
    obtain ⟨rfl, -⟩ := Prod.mk.inj (Option.some.inj hname)
    exact same_digest_of_others (by decide) (by decide)

/-- A TCP packet that this device sends. -/
def frame_sent_by (source : mac_address_t) : frame_t :=
  { tcp_frame 0 with bytes := List.replicate 6 0 ++ source.toList ++ (tcp_frame 0).bytes.drop 12 }

/-- The example's frames differ in their sender alone. -/
theorem frame_sent_by_same_but_devices :
    (frame_sent_by device_a).SameButDevices (Equiv.swap device_a device_b) (frame_sent_by device_b) where
  ts := rfl
  caplen := rfl
  len := rfl
  ether_dhost := by decide
  ether_shost := by decide
  payload := by decide

theorem spelling_router_publishes :
    ((publish_step spelling_router router (initial_state spelling_router.target domain_whitelist_init empty_bloom)
      (.process_packet (frame_sent_by device_a))).bind fun result =>
        publish_step spelling_router router result.1 (.write_frequent_update healthy_frequent_io)).isSome := by
  decide +kernel

end bismark_passive.main
