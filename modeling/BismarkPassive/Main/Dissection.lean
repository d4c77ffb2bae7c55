import BismarkPassive.AddressTable.Ring
import BismarkPassive.Main.ProcessPacket

namespace bismark_passive.main

open bytes flow_table address_table

def frame_t.ether_dhost (frame : frame_t) : mac_address_t := (load_mac 0).run frame.memory

def frame_t.ether_shost (frame : frame_t) : mac_address_t := (load_mac ETH_ALEN).run frame.memory

def frame_t.ether_type (frame : frame_t) : UInt16 := (load16 (2 * ETH_ALEN)).run frame.memory

def frame_t.saddr (frame : frame_t) : UInt32 := (load32 (ETHER_HDR_LEN + 12)).run frame.memory

def frame_t.daddr (frame : frame_t) : UInt32 := (load32 (ETHER_HDR_LEN + 16)).run frame.memory

def frame_t.protocol (frame : frame_t) : UInt8 := (load8 (ETHER_HDR_LEN + 9)).run frame.memory

def frame_t.transport_header (frame : frame_t) : Nat :=
  ETHER_HDR_LEN + ((load8 ETHER_HDR_LEN).run frame.memory &&& 0xf).toNat * 4

def frame_t.port_source (frame : frame_t) : UInt16 := (load16 frame.transport_header).run frame.memory

def frame_t.port_destination (frame : frame_t) : UInt16 := (load16 (frame.transport_header + 2)).run frame.memory

def dissection_t.source_mapping (dissection : dissection_t) (frame : frame_t) : address_table_entry_t :=
  ⟨dissection.entry.ip_source, frame.ether_shost⟩

def dissection_t.destination_mapping (dissection : dissection_t) (frame : frame_t) : address_table_entry_t :=
  ⟨dissection.entry.ip_destination, frame.ether_dhost⟩

/-- The table after the two lookups that every IP packet makes. -/
def looked_up (table : address_table_t) (frame : frame_t) (dissection : dissection_t) : address_table_t :=
  (address_table_lookup (address_table_lookup table dissection.entry.ip_source frame.ether_shost).2
    dissection.entry.ip_destination frame.ether_dhost).2

/-- The table after one lookup. -/
def after_lookup (table : address_table_t) (ip_address : UInt32) (mac : mac_address_t) : address_table_t :=
  (address_table_lookup table ip_address mac).2

/-- The table after the two lookups, by the addresses of the packet. -/
def frame_t.look_up (frame : frame_t) (ether_shost ether_dhost : mac_address_t) (table : address_table_t) :
    address_table_t :=
  after_lookup (after_lookup table frame.saddr ether_shost) frame.daddr ether_dhost

theorem looked_up_eq (table : address_table_t) {frame : frame_t} {dissection : dissection_t}
    (hsource : dissection.entry.ip_source = frame.saddr)
    (hdestination : dissection.entry.ip_destination = frame.daddr) :
    looked_up table frame dissection = frame.look_up frame.ether_shost frame.ether_dhost table := by
  rw [frame_t.look_up, ← hsource, ← hdestination]
  rfl

/-- The mappings that an IP packet adds to the address table. -/
def looked_up_mappings (table : address_table_t) (frame : frame_t) (dissection : dissection_t) :
    List address_table_entry_t :=
  table.new_mapping (dissection.source_mapping frame) ++
    (address_table_lookup table dissection.entry.ip_source frame.ether_shost).2.new_mapping
      (dissection.destination_mapping frame)

/-- The dissection of an IP packet before its transport header is read. -/
def frame_t.ip_dissection (frame : frame_t) : dissection_t :=
  { dissection_init with
    entry := { flow_table_entry_init with
      ip_source := frame.saddr
      ip_destination := frame.daddr
      transport_protocol := frame.protocol } }

/-- The dissection with the ports of the packet. -/
def dissection_t.with_ports (dissection : dissection_t) (header : Nat) (memory : Nat → UInt8) : dissection_t :=
  { dissection with
    entry := { dissection.entry with
      port_source := (load16 header).run memory
      port_destination := (load16 (header + 2)).run memory } }

/-- What `get_flow_entry_for_packet` makes of an IP packet. The destination is
looked up again exactly if the packet has a DNS payload. -/
structure Dissected (table : address_table_t) (frame : frame_t) (dissection : dissection_t)
    (table' : address_table_t) : Prop where
  ip_source : dissection.entry.ip_source = frame.saddr
  ip_destination : dissection.entry.ip_destination = frame.daddr
  source_anonymized : dissection.entry.ip_source_unanonymized = false
  destination_anonymized : dissection.entry.ip_destination_unanonymized = false
  lookups : (dissection.dns_bytes_len = -1 ∧ dissection.mac_id = -1 ∧ table' = looked_up table frame dissection) ∨
    (dissection.mac_id, table') = address_table_lookup (looked_up table frame dissection)
      dissection.entry.ip_destination frame.ether_dhost

/-- `dissect_tcp` leaves the addresses and the DNS fields alone. -/
theorem run_dissect_tcp (target : Target) (cap_length : Int) (tcp_header : Nat) (dissection : dissection_t)
    (memory : Nat → UInt8) :
    let dissected := (dissect_tcp target cap_length tcp_header dissection).run memory
    dissected.entry.ip_source = dissection.entry.ip_source ∧
      dissected.entry.ip_destination = dissection.entry.ip_destination ∧
      dissected.entry.ip_source_unanonymized = dissection.entry.ip_source_unanonymized ∧
      dissected.entry.ip_destination_unanonymized = dissection.entry.ip_destination_unanonymized ∧
      dissected.dns_bytes_len = dissection.dns_bytes_len ∧ dissected.mac_id = dissection.mac_id := by
  simp only [dissect_tcp, Reader.run_bind]
  split <;> exact ⟨rfl, rfl, rfl, rfl, rfl, rfl⟩

/-- `dissect_udp` reads the ports and, from port 53, looks up the device the message is sent to. -/
theorem run_dissect_udp_eq (cap_length : Int) (udp_header : Nat) (ether_dhost : mac_address_t)
    (dissection : dissection_t) (table : address_table_t) (memory : Nat → UInt8) :
    (dissect_udp cap_length udp_header ether_dhost dissection table).run memory =
      if (load16 udp_header).run memory = NS_DEFAULTPORT then
        ({ dissection.with_ports udp_header memory with
            dns_bytes := udp_header + sizeof_udphdr
            dns_bytes_len := cap_length - (udp_header + sizeof_udphdr : Nat)
            mac_id := (address_table_lookup table dissection.entry.ip_destination ether_dhost).1 },
          (address_table_lookup table dissection.entry.ip_destination ether_dhost).2)
      else (dissection.with_ports udp_header memory, table) := by
  rw [dissect_udp]
  generalize address_table_lookup = lookup
  simp only [Reader.run_bind]
  by_cases hport : (load16 udp_header).run memory = NS_DEFAULTPORT
  · rw [if_pos hport, if_pos (beq_iff_eq.mpr hport)]
    rfl
  · rw [if_neg hport, if_neg (mt beq_iff_eq.mp hport)]
    rfl

/-- It leaves the addresses alone; the table changes only by that lookup. -/
theorem run_dissect_udp (cap_length : Int) (udp_header : Nat) (ether_dhost : mac_address_t)
    (dissection : dissection_t) (table : address_table_t) (memory : Nat → UInt8) :
    let dissected := (dissect_udp cap_length udp_header ether_dhost dissection table).run memory
    dissected.1.entry.ip_source = dissection.entry.ip_source ∧
      dissected.1.entry.ip_destination = dissection.entry.ip_destination ∧
      dissected.1.entry.ip_source_unanonymized = dissection.entry.ip_source_unanonymized ∧
      dissected.1.entry.ip_destination_unanonymized = dissection.entry.ip_destination_unanonymized ∧
      ((dissected.1.dns_bytes_len = dissection.dns_bytes_len ∧ dissected.1.mac_id = dissection.mac_id ∧
          dissected.2 = table) ∨
        (dissected.1.mac_id, dissected.2) =
          address_table_lookup table dissection.entry.ip_destination ether_dhost) := by
  rw [run_dissect_udp_eq]
  split
  · exact ⟨rfl, rfl, rfl, rfl, .inr rfl⟩
  · exact ⟨rfl, rfl, rfl, rfl, .inl ⟨rfl, rfl, rfl⟩⟩

/-- The length of a DNS payload is what remains behind the UDP header. -/
theorem run_dissect_udp_found {cap_length : Int} {udp_header : Nat} {ether_dhost : mac_address_t}
    {dissection dissected : dissection_t} {table table' : address_table_t} {memory : Nat → UInt8}
    (h : (dissect_udp cap_length udp_header ether_dhost dissection table).run memory = (dissected, table')) :
    dissected.entry = (dissection.with_ports udp_header memory).entry ∧
      dissected.dns_bytes_len =
        if (load16 udp_header).run memory = NS_DEFAULTPORT then cap_length - ((udp_header + sizeof_udphdr : Nat) : Int)
        else dissection.dns_bytes_len := by
  rw [run_dissect_udp_eq] at h
  split at h
  · obtain ⟨rfl, -⟩ := Prod.mk.inj h
    exact ⟨rfl, (if_pos ‹_›).symm⟩
  · obtain ⟨rfl, -⟩ := Prod.mk.inj h
    exact ⟨rfl, (if_neg ‹_›).symm⟩

/-- The payload and the device of a DNS response. -/
theorem run_dissect_udp_response {cap_length : Int} {udp_header : Nat} {ether_dhost : mac_address_t}
    {dissection dissected : dissection_t} {table table' : address_table_t} {memory : Nat → UInt8}
    (hport : (load16 udp_header).run memory = NS_DEFAULTPORT)
    (h : (dissect_udp cap_length udp_header ether_dhost dissection table).run memory = (dissected, table')) :
    dissected.dns_bytes = udp_header + sizeof_udphdr ∧ dissected.dns_bytes_len = cap_length - dissected.dns_bytes ∧
      (dissected.mac_id, table') = address_table_lookup table dissection.entry.ip_destination ether_dhost := by
  rw [run_dissect_udp_eq, if_pos hport] at h
  obtain ⟨rfl, rfl⟩ := Prod.mk.inj h
  exact ⟨rfl, rfl, rfl⟩

/-- `dissect_ip` by the protocol of the packet. -/
theorem run_dissect_ip_eq (target : Target) (cap_length : Int) (ether_shost ether_dhost : mac_address_t)
    (frame : frame_t) (table : address_table_t) :
    (dissect_ip target cap_length ether_shost ether_dhost table).run frame.memory =
      if frame.protocol = IPPROTO_TCP then
        ((dissect_tcp target cap_length frame.transport_header frame.ip_dissection).run frame.memory,
          frame.look_up ether_shost ether_dhost table)
      else if frame.protocol = IPPROTO_UDP then
        (dissect_udp cap_length frame.transport_header ether_dhost frame.ip_dissection
          (frame.look_up ether_shost ether_dhost table)).run frame.memory
      else (frame.ip_dissection, frame.look_up ether_shost ether_dhost table) := by
  rw [dissect_ip, frame_t.protocol, frame_t.look_up, after_lookup, after_lookup]
  -- the lookups are not to be unfolded where their results are taken apart
  generalize address_table_lookup = lookup
  simp only [Reader.run_bind]
  by_cases htcp : (load8 (ETHER_HDR_LEN + 9)).run frame.memory = IPPROTO_TCP
  · rw [if_pos htcp, if_pos htcp, Reader.run_bind]
    rfl
  rw [if_neg htcp, if_neg htcp]
  by_cases hudp : (load8 (ETHER_HDR_LEN + 9)).run frame.memory = IPPROTO_UDP
  · rw [if_pos hudp, if_pos hudp]
    rfl
  · rw [if_neg hudp, if_neg hudp]
    rfl

/-- What a dissection of a captured IP packet can say. -/
theorem run_dissect_ip {target : Target} {cap_length : Int} {frame : frame_t} {table table' : address_table_t}
    {dissection : dissection_t}
    (h : (dissect_ip target cap_length frame.ether_shost frame.ether_dhost table).run frame.memory =
      (dissection, table')) : Dissected table frame dissection table' := by
  rw [run_dissect_ip_eq] at h
  split at h
  · obtain ⟨rfl, rfl⟩ := Prod.mk.inj h
    obtain ⟨hsource, hdestination, hsource_flag, hdestination_flag, hlen, hmac⟩ :=
      run_dissect_tcp target cap_length frame.transport_header frame.ip_dissection frame.memory
    exact ⟨hsource, hdestination, hsource_flag, hdestination_flag,
      .inl ⟨hlen, hmac, (looked_up_eq table hsource hdestination).symm⟩⟩
  split at h
  · have hudp := run_dissect_udp cap_length frame.transport_header frame.ether_dhost frame.ip_dissection
      (frame.look_up frame.ether_shost frame.ether_dhost table) frame.memory
    rw [h] at hudp
    obtain ⟨hsource, hdestination, hsource_flag, hdestination_flag, hlookup⟩ := hudp
    rw [← looked_up_eq table hsource hdestination] at hlookup
    exact ⟨hsource, hdestination, hsource_flag, hdestination_flag, hdestination ▸ hlookup⟩
  · obtain ⟨rfl, rfl⟩ := Prod.mk.inj h
    exact ⟨rfl, rfl, rfl, rfl, .inl ⟨rfl, rfl, (looked_up_eq table rfl rfl).symm⟩⟩

/-- The dissection of an IP packet is that of its IP header and what follows. -/
theorem run_get_flow_entry_for_packet_ip {target : Target} {frame : frame_t} {table table' : address_table_t}
    {throughput throughput' : device_throughput.device_throughput_table_t} {ether_type : UInt16}
    {dissection : dissection_t} (hip : frame.ether_type = ETHERTYPE_IP)
    (h : (get_flow_entry_for_packet target frame.caplen.toInt32.toInt frame.len table throughput).run frame.memory =
      (ether_type, dissection, table', throughput')) :
    (dissect_ip target frame.caplen.toInt32.toInt frame.ether_shost frame.ether_dhost table).run frame.memory =
      (dissection, table') := by
  rw [frame_t.ether_type] at hip
  simp only [get_flow_entry_for_packet, Reader.run_bind] at h
  rw [if_pos hip] at h
  simp only [Reader.run_bind, Reader.run_pure, Prod.mk.injEq] at h
  obtain ⟨-, hdissection, htable, -⟩ := h
  exact Prod.ext hdissection htable

/-- The type returned is the frame's own. -/
theorem run_get_flow_entry_for_packet_ether_type (target : Target) (frame : frame_t) (table : address_table_t)
    (device_throughput_table : device_throughput.device_throughput_table_t) {ether_type : UInt16}
    {dissection : dissection_t} {table' : address_table_t}
    {device_throughput_table' : device_throughput.device_throughput_table_t}
    (h : (get_flow_entry_for_packet target frame.caplen.toInt32.toInt frame.len table
      device_throughput_table).run frame.memory = (ether_type, dissection, table', device_throughput_table')) :
    ether_type = frame.ether_type := by
  simp only [get_flow_entry_for_packet, Reader.run_bind] at h
  split at h
  · simp only [Reader.run_bind, Reader.run_pure, Prod.mk.injEq] at h
    exact h.1.symm
  · simp only [Reader.run_pure, Prod.mk.injEq] at h
    exact h.1.symm

/-- Packets of other protocols leave the address table and the dissection alone. -/
theorem run_get_flow_entry_for_packet (target : Target) (frame : frame_t) (table : address_table_t)
    (device_throughput_table : device_throughput.device_throughput_table_t) {ether_type : UInt16}
    {dissection : dissection_t} {table' : address_table_t}
    {device_throughput_table' : device_throughput.device_throughput_table_t}
    (h : (get_flow_entry_for_packet target frame.caplen.toInt32.toInt frame.len table
      device_throughput_table).run frame.memory = (ether_type, dissection, table', device_throughput_table')) :
    (ether_type ≠ ETHERTYPE_IP ∧ dissection = dissection_init ∧ table' = table) ∨
      (ether_type = ETHERTYPE_IP ∧ Dissected table frame dissection table') := by
  have htype := run_get_flow_entry_for_packet_ether_type target frame table device_throughput_table h
  by_cases hip : frame.ether_type = ETHERTYPE_IP
  · exact .inr ⟨htype.trans hip, run_dissect_ip (run_get_flow_entry_for_packet_ip hip h)⟩
  · refine .inl ⟨htype ▸ hip, ?_⟩
    rw [frame_t.ether_type] at hip
    simp only [get_flow_entry_for_packet, Reader.run_bind] at h
    rw [if_neg hip, Reader.run_pure, Prod.mk.injEq, Prod.mk.injEq, Prod.mk.injEq] at h
    exact ⟨h.2.1.symm, h.2.2.1.symm⟩

section response

variable {target : Target} {frame : frame_t} (hudp : frame.protocol = IPPROTO_UDP)
  (hport : (load16 frame.transport_header).run frame.memory = NS_DEFAULTPORT)

include hudp hport

/-- The payload of a DNS response and the device it is sent to. -/
theorem run_dissect_ip_response {cap_length : Int} {table table' : address_table_t} {dissection : dissection_t}
    (h : (dissect_ip target cap_length frame.ether_shost frame.ether_dhost table).run frame.memory =
      (dissection, table')) :
    dissection.dns_bytes = frame.transport_header + sizeof_udphdr ∧
      dissection.dns_bytes_len = cap_length - dissection.dns_bytes ∧
      (dissection.mac_id, table') = address_table_lookup (looked_up table frame dissection)
        dissection.entry.ip_destination frame.ether_dhost := by
  have hother : ¬frame.protocol = IPPROTO_TCP := by
    rw [hudp]
    decide
  rw [run_dissect_ip_eq, if_neg hother, if_pos hudp] at h
  have hfields := run_dissect_udp cap_length frame.transport_header frame.ether_dhost frame.ip_dissection
    (frame.look_up frame.ether_shost frame.ether_dhost table) frame.memory
  rw [h] at hfields
  obtain ⟨hsource, hdestination, -⟩ := hfields
  rw [looked_up_eq table hsource hdestination, hdestination]
  exact run_dissect_udp_response hport h

/-- A UDP packet from the DNS port has the rest of its captured bytes as DNS
payload, and its destination is looked up again. -/
theorem run_get_flow_entry_for_packet_response (hip : frame.ether_type = ETHERTYPE_IP) {table : address_table_t}
    {device_throughput_table : device_throughput.device_throughput_table_t} {ether_type : UInt16}
    {dissection : dissection_t} {table' : address_table_t}
    {device_throughput_table' : device_throughput.device_throughput_table_t}
    (h : (get_flow_entry_for_packet target frame.caplen.toInt32.toInt frame.len table
      device_throughput_table).run frame.memory = (ether_type, dissection, table', device_throughput_table')) :
    dissection.dns_bytes = frame.transport_header + sizeof_udphdr ∧
      dissection.dns_bytes_len = frame.caplen.toInt32.toInt - dissection.dns_bytes ∧
      (dissection.mac_id, table') = address_table_lookup (looked_up table frame dissection)
        dissection.entry.ip_destination frame.ether_dhost :=
  run_dissect_ip_response hudp hport (run_get_flow_entry_for_packet_ip hip h)

end response

end bismark_passive.main
