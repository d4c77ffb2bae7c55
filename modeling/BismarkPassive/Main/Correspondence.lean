import BismarkPassive.AddressTable.Renaming
import BismarkPassive.Dns.Renaming
import BismarkPassive.FlowTable.Renaming
import BismarkPassive.Http.Agreement
import BismarkPassive.Main.Run

namespace bismark_passive.main

open bytes flow_table address_table packet_series dns http

/-! What the program reads of a packet -/

/-- The byte of a TCP header with the header's length. -/
def frame_t.doff (frame : frame_t) : UInt8 := (load8 (frame.transport_header + 12)).run frame.memory

/-- Where the program looks for the request of a TCP packet. -/
def frame_t.http_bytes (frame : frame_t) : Nat :=
  let hlen := (frame.doff >>> 4).toNat * 4
  frame.transport_header + sizeof_tcphdr + if sizeof_tcphdr < hlen then hlen - sizeof_tcphdr else hlen

def frame_t.dns_bytes (frame : frame_t) : Nat := frame.transport_header + sizeof_udphdr

def frame_t.dns_bytes_len (frame : frame_t) : Nat := (frame.caplen.toInt32.toInt - frame.dns_bytes).toNat

def frame_t.flow_key (frame : frame_t) : flow_key where
  ip_source := frame.saddr
  ip_destination := frame.daddr
  port_source := if frame.protocol = IPPROTO_TCP ∨ frame.protocol = IPPROTO_UDP then frame.port_source else 0
  port_destination := if frame.protocol = IPPROTO_TCP ∨ frame.protocol = IPPROTO_UDP then frame.port_destination else 0
  transport_protocol := frame.protocol

theorem frame_t.flow_key_ports {frame : frame_t} (h : frame.protocol = IPPROTO_TCP ∨ frame.protocol = IPPROTO_UDP) :
    frame.flow_key = ⟨frame.saddr, frame.daddr, frame.port_source, frame.port_destination, frame.protocol⟩ := by
  rw [frame_t.flow_key, if_pos h, if_pos h]

/-- The sessions have the same build and the same names. Their keyed hashes may
differ, but give corresponding addresses the same digest, and MAC addresses
theirs. Private addresses correspond to private ones. -/
structure Session.Corresponds (rename : Equiv.Perm UInt32) (s s' : Session) : Prop where
  target : s'.target = s.target
  build_id : s'.build_id = s.build_id
  bismark_id : s'.bismark_id = s.bismark_id
  start_timestamp : s'.start_timestamp_microseconds = s.start_timestamp_microseconds
  seed_hex_digest : s'.anonymization.seed_hex_digest = s.anonymization.seed_hex_digest
  addresses : ∀ address, anonymize_ip s' (rename address) = anonymize_ip s address
  macs : ∀ mac : mac_address_t, SameDigest s s' mac.toList
  is_address_private : ∀ address, is_address_private (rename address) = is_address_private address

/-- What the program reads of two IP packets is the same, except for the
addresses in the header and in address records, which correspond. The names
and the URL that it hashes have the same digests. -/
structure frame_t.PayloadCorresponds (rename : Equiv.Perm UInt32) (s s' : Session) (frame other : frame_t) : Prop where
  saddr : other.saddr = rename frame.saddr
  daddr : other.daddr = rename frame.daddr
  protocol : other.protocol = frame.protocol
  transport_header : other.transport_header = frame.transport_header
  ports : frame.protocol = IPPROTO_TCP ∨ frame.protocol = IPPROTO_UDP →
    other.port_source = frame.port_source ∧ other.port_destination = frame.port_destination
  request : s.target.enable_http_url = true → frame.protocol = IPPROTO_TCP → frame.port_destination = HTTP_PORT →
    other.doff = frame.doff ∧ other.bytes.drop frame.http_bytes = frame.bytes.drop frame.http_bytes ∧
      ∀ url, requested_url (frame.bytes.drop frame.http_bytes) = some url → SameDigest s s' url
  response : frame.protocol = IPPROTO_UDP → frame.port_source = NS_DEFAULTPORT →
    SameRecords rename s s' (fun address => frame.memory (frame.dns_bytes + address))
      (fun address => other.memory (frame.dns_bytes + address)) frame.dns_bytes_len

/-- The packets are the same except for the IP addresses in them. -/
structure frame_t.Corresponds (rename : Equiv.Perm UInt32) (s s' : Session) (frame other : frame_t) : Prop where
  ts : other.ts = frame.ts
  caplen : other.caplen = frame.caplen
  len : other.len = frame.len
  ether_dhost : other.ether_dhost = frame.ether_dhost
  ether_shost : other.ether_shost = frame.ether_shost
  ether_type : other.ether_type = frame.ether_type
  payload : frame.ether_type = ETHERTYPE_IP → frame.PayloadCorresponds rename s s' other

variable {rename : Equiv.Perm UInt32} {s s' : Session} {frame other : frame_t}

theorem run_load16_congr {memory memory' : Nat → UInt8} {address : Nat} (hhigh : memory' address = memory address)
    (hlow : memory' (address + 1) = memory (address + 1)) :
    (load16 address).run memory' = (load16 address).run memory := by
  simp only [load16, Reader.run_bind, run_load8, hhigh, hlow]
  rfl

/-- Packets with the same bytes before and after the two addresses of the IP
header correspond, provided the transport header begins after the addresses and
the program hashes and parses the rest alike. -/
theorem frame_t.Corresponds.of_bytes (hts : other.ts = frame.ts) (hcaplen : other.caplen = frame.caplen)
    (hlen : other.len = frame.len) (hbefore : other.bytes.take 26 = frame.bytes.take 26)
    (hafter : other.bytes.drop 34 = frame.bytes.drop 34) (hsaddr : other.saddr = rename frame.saddr)
    (hdaddr : other.daddr = rename frame.daddr) (hheader : 34 ≤ frame.transport_header)
    (hurls : s.target.enable_http_url = true → ∀ url, requested_url (frame.bytes.drop frame.http_bytes) = some url →
      SameDigest s s' url)
    (hrecords : frame.protocol = IPPROTO_UDP → frame.port_source = NS_DEFAULTPORT →
      SameRecords rename s s' (fun address => frame.memory (frame.dns_bytes + address))
        (fun address => other.memory (frame.dns_bytes + address)) frame.dns_bytes_len) :
    frame.Corresponds rename s s' other := by
  have hmemory_before (address : Nat) (h : address < 26) : other.memory address = frame.memory address := by
    have hbyte := congrArg (fun bytes => bytes[address]?) hbefore
    simp only [List.getElem?_take, if_pos h] at hbyte
    rw [frame_t.memory, frame_t.memory, List.getD_eq_getElem?_getD, List.getD_eq_getElem?_getD, hbyte]
  have hmemory_after (address : Nat) (h : 34 ≤ address) : other.memory address = frame.memory address := by
    have hbyte := congrArg (fun bytes => bytes[address - 34]?) hafter
    simp only [List.getElem?_drop, Nat.add_sub_cancel' h] at hbyte
    rw [frame_t.memory, frame_t.memory, List.getD_eq_getElem?_getD, List.getD_eq_getElem?_getD, hbyte]
  have htransport : other.transport_header = frame.transport_header := by
    rw [frame_t.transport_header, frame_t.transport_header, run_load8, run_load8, hmemory_before _ (by decide)]
  refine ⟨hts, hcaplen, hlen, ?_, ?_, ?_, fun _ => ⟨hsaddr, hdaddr, ?_, htransport, fun _ => ⟨?_, ?_⟩,
    fun hwanted _ _ => ⟨?_, ?_, hurls hwanted⟩, hrecords⟩⟩
  · simp (disch := decide) only [frame_t.ether_dhost, load_mac, Reader.run_bind, run_load8, hmemory_before]
    rfl
  · simp (disch := decide) only [frame_t.ether_shost, load_mac, Reader.run_bind, run_load8, hmemory_before]
    rfl
  · exact run_load16_congr (hmemory_before _ (by decide)) (hmemory_before _ (by decide))
  · exact hmemory_before _ (by decide)
  · rw [frame_t.port_source, htransport]
    exact run_load16_congr (hmemory_after _ hheader) (hmemory_after _ (by omega))
  · rw [frame_t.port_destination, htransport]
    exact run_load16_congr (hmemory_after _ (by omega)) (hmemory_after _ (by omega))
  · rw [frame_t.doff, htransport]
    exact hmemory_after _ (by omega)
  · have hbytes : 34 ≤ frame.http_bytes := by
      simp only [frame_t.http_bytes]
      omega
    obtain ⟨behind, hbehind⟩ := Nat.exists_eq_add_of_le hbytes
    rw [hbehind, ← List.drop_drop, ← List.drop_drop, hafter]

/-! What the program finds in corresponding packets -/

def dissection_t.renamed (rename : Equiv.Perm UInt32) (dissection : dissection_t) : dissection_t :=
  { dissection with entry := dissection.entry.renamed rename }

/-- What `get_flow_entry_for_packet` finds in an IP packet. -/
structure Found (target : Target) (frame : frame_t) (dissection : dissection_t) : Prop where
  key : dissection.entry.key = frame.flow_key
  request : 0 < dissection.http_bytes_len → target.enable_http_url = true ∧ frame.protocol = IPPROTO_TCP ∧
    frame.port_destination = HTTP_PORT ∧ dissection.http_bytes = frame.http_bytes
  response : 0 < dissection.dns_bytes_len → frame.protocol = IPPROTO_UDP ∧ frame.port_source = NS_DEFAULTPORT ∧
    dissection.dns_bytes = frame.dns_bytes ∧ dissection.dns_bytes_len.toNat = frame.dns_bytes_len

/-- `dissect_ip` finds the flow of the packet, and a payload only if its ports ask for it. -/
theorem run_dissect_ip_found (target : Target) (frame : frame_t) (table : address_table_t) :
    Found target frame ((dissect_ip target frame.caplen.toInt32.toInt frame.ether_shost frame.ether_dhost table).run
      frame.memory).1 := by
  -- The lengths stay at their initial value unless the payload is wanted.
  have hnone : ¬ (0 : Int) < -1 := by decide
  rw [run_dissect_ip_eq]
  by_cases htcp : frame.protocol = IPPROTO_TCP
  · rw [if_pos htcp]
    simp only [dissect_tcp, Reader.run_bind]
    split
    · rename_i hrequest
      simp only [Bool.and_eq_true, beq_iff_eq] at hrequest
      refine ⟨?_, fun _ => ⟨hrequest.1, htcp, hrequest.2, rfl⟩, fun h => absurd h hnone⟩
      rw [frame_t.flow_key_ports (.inl htcp)]
      rfl
    · refine ⟨?_, fun h => absurd h hnone, fun h => absurd h hnone⟩
      rw [frame_t.flow_key_ports (.inl htcp)]
      rfl
  rw [if_neg htcp]
  by_cases hudp : frame.protocol = IPPROTO_UDP
  · rw [if_pos hudp, run_dissect_udp_eq]
    split
    · rename_i hresponse
      refine ⟨?_, fun h => absurd h hnone, fun _ => ⟨hudp, hresponse, rfl, rfl⟩⟩
      rw [frame_t.flow_key_ports (.inr hudp)]
      rfl
    · refine ⟨?_, fun h => absurd h hnone, fun h => absurd h hnone⟩
      rw [frame_t.flow_key_ports (.inr hudp)]
      rfl
  · rw [if_neg hudp]
    refine ⟨?_, fun h => absurd h hnone, fun h => absurd h hnone⟩
    rw [frame_t.flow_key, if_neg (not_or.mpr ⟨htcp, hudp⟩), if_neg (not_or.mpr ⟨htcp, hudp⟩)]
    rfl

/-- The two dissections agree if the bytes they load do. -/
theorem run_dissect_tcp_corresponds (target : Target) (cap_length : Int) {tcp_header : Nat}
    {memory memory' : Nat → UInt8} (hsource : (load16 tcp_header).run memory' = (load16 tcp_header).run memory)
    (hdestination : (load16 (tcp_header + 2)).run memory' = (load16 (tcp_header + 2)).run memory)
    (hdoff : target.enable_http_url = true → (load16 (tcp_header + 2)).run memory = HTTP_PORT →
      (load8 (tcp_header + 12)).run memory' = (load8 (tcp_header + 12)).run memory)
    (dissection : dissection_t) :
    (dissect_tcp target cap_length tcp_header (dissection.renamed rename)).run memory' =
      ((dissect_tcp target cap_length tcp_header dissection).run memory).renamed rename := by
  simp only [dissect_tcp, Reader.run_bind, hsource, hdestination]
  split
  · rename_i hrequest
    simp only [Bool.and_eq_true, beq_iff_eq] at hrequest
    simp only [Reader.run_bind, Reader.run_pure, hdoff hrequest.1 hrequest.2]
    rfl
  · rfl

theorem after_lookup_corresponds {table table' : address_table_t} (htables : table.Corresponds rename table')
    (hprivate : ∀ address, is_address_private (rename address) = is_address_private address) (ip_address : UInt32)
    (mac : mac_address_t) :
    (after_lookup table ip_address mac).Corresponds rename (after_lookup table' (rename ip_address) mac) :=
  (address_table_lookup_corresponds htables hprivate ip_address mac).2

/-- A DNS message is found at the same place, and its receiver is looked up under the other name. -/
theorem run_dissect_udp_corresponds (cap_length : Int) {udp_header : Nat} {memory memory' : Nat → UInt8}
    (hsource : (load16 udp_header).run memory' = (load16 udp_header).run memory)
    (hdestination : (load16 (udp_header + 2)).run memory' = (load16 (udp_header + 2)).run memory)
    (hprivate : ∀ address, is_address_private (rename address) = is_address_private address)
    (ether_dhost : mac_address_t) (dissection : dissection_t) {table table' : address_table_t}
    (htables : table.Corresponds rename table') :
    let dissected := (dissect_udp cap_length udp_header ether_dhost dissection table).run memory
    let dissected' := (dissect_udp cap_length udp_header ether_dhost (dissection.renamed rename) table').run memory'
    dissected'.1 = dissected.1.renamed rename ∧ dissected.2.Corresponds rename dissected'.2 := by
  obtain ⟨hid, hlookup⟩ :=
    address_table_lookup_corresponds htables hprivate dissection.entry.ip_destination ether_dhost
  simp only [dissect_udp, Reader.run_bind, hsource, hdestination]
  split
  · simp only [Reader.run_pure]
    refine ⟨?_, hlookup⟩
    simp only [dissection_t.renamed, flow_table_entry_t.renamed, hid]
  · exact ⟨rfl, htables⟩

/-- In corresponding packets the program finds the same, except that the
addresses of the flow correspond. -/
theorem run_dissect_ip_corresponds (hs : Session.Corresponds rename s s')
    (h : frame.PayloadCorresponds rename s s' other) (cap_length : Int) (ether_shost ether_dhost : mac_address_t)
    {table table' : address_table_t} (htables : table.Corresponds rename table') :
    let dissected := (dissect_ip s.target cap_length ether_shost ether_dhost table).run frame.memory
    let dissected' := (dissect_ip s'.target cap_length ether_shost ether_dhost table').run other.memory
    dissected'.1 = dissected.1.renamed rename ∧ dissected.2.Corresponds rename dissected'.2 := by
  obtain ⟨hsaddr, hdaddr, hprotocol, hheader, hports, hrequest, -⟩ := h
  have hdissection : other.ip_dissection = frame.ip_dissection.renamed rename := by
    simp only [frame_t.ip_dissection, hsaddr, hdaddr, hprotocol]
    rfl
  have hlooked : (frame.look_up ether_shost ether_dhost table).Corresponds rename
      (other.look_up ether_shost ether_dhost table') := by
    rw [frame_t.look_up, frame_t.look_up, hsaddr, hdaddr]
    exact after_lookup_corresponds
      (after_lookup_corresponds htables hs.is_address_private frame.saddr ether_shost) hs.is_address_private
      frame.daddr ether_dhost
  simp only [frame_t.port_source, frame_t.port_destination, frame_t.doff, hheader] at hports hrequest
  rw [run_dissect_ip_eq, run_dissect_ip_eq, hdissection, hprotocol, hheader, hs.target]
  by_cases htcp : frame.protocol = IPPROTO_TCP
  · rw [if_pos htcp, if_pos htcp]
    obtain ⟨hsource, hdestination⟩ := hports (.inl htcp)
    have hrequested : s.target.enable_http_url = true →
        (load16 (frame.transport_header + 2)).run frame.memory = HTTP_PORT →
          (load8 (frame.transport_header + 12)).run other.memory =
            (load8 (frame.transport_header + 12)).run frame.memory :=
      fun hwanted hport => (hrequest hwanted htcp hport).1
    rw [run_dissect_tcp_corresponds s.target cap_length hsource hdestination hrequested]
    exact ⟨rfl, hlooked⟩
  rw [if_neg htcp, if_neg htcp]
  by_cases hudp : frame.protocol = IPPROTO_UDP
  · rw [if_pos hudp, if_pos hudp]
    obtain ⟨hsource, hdestination⟩ := hports (.inr hudp)
    exact run_dissect_udp_corresponds cap_length hsource hdestination hs.is_address_private ether_dhost
      frame.ip_dissection hlooked
  · rw [if_neg hudp, if_neg hudp]
    exact ⟨rfl, hlooked⟩

end bismark_passive.main
