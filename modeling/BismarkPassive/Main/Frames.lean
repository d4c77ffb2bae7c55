import BismarkPassive.Main.Dissection

namespace bismark_passive.main

open bytes flow_table address_table device_throughput

/-! IPv4 frames as they are sent -/

/-- An IPv4 header with its options, which fill whole words. -/
structure iphdr where
  tos : UInt8
  tot_len : UInt16
  id : UInt16
  frag_off : UInt16
  ttl : UInt8
  protocol : UInt8
  check : UInt16
  saddr : UInt32
  daddr : UInt32
  options : List UInt8
  options_words : options.length % 4 = 0
  options_le : options.length ≤ 40

theorem no_options_words : ([] : List UInt8).length % 4 = 0 := rfl

theorem no_options_le : ([] : List UInt8).length ≤ 40 := Nat.zero_le 40

def iphdr.ihl (header : iphdr) : Nat := 5 + header.options.length / 4

/-- The header up to its addresses, and from there to its end. -/
def iphdr.before_addresses (header : iphdr) : List UInt8 :=
  [.ofNat (4 * 16 + header.ihl), header.tos] ++ be16 header.tot_len ++ be16 header.id ++ be16 header.frag_off ++
    [header.ttl, header.protocol] ++ be16 header.check

def iphdr.bytes (header : iphdr) : List UInt8 :=
  header.before_addresses ++ (be32 header.saddr ++ (be32 header.daddr ++ header.options))

theorem iphdr.length_bytes (header : iphdr) : header.bytes.length = header.ihl * 4 := by
  have hwords := header.options_words
  simp only [iphdr.bytes, iphdr.before_addresses, iphdr.ihl, List.length_append, List.length_cons, List.length_nil,
    be16_length, be32_length]
  omega

theorem iphdr.ihl_le (header : iphdr) : header.ihl ≤ 15 := by
  have hle := header.options_le
  rw [iphdr.ihl]
  omega

/-- A TCP header with its options, which fill whole words. `res1` are the four
bits behind the data offset. -/
structure tcphdr where
  source : UInt16
  dest : UInt16
  seq : UInt32
  ack_seq : UInt32
  res1 : Fin 16
  flags : UInt8
  window : UInt16
  check : UInt16
  urg_ptr : UInt16
  options : List UInt8
  options_words : options.length % 4 = 0
  options_le : options.length ≤ 40

def tcphdr.doff (header : tcphdr) : Nat := 5 + header.options.length / 4

def tcphdr.bytes (header : tcphdr) : List UInt8 :=
  be16 header.source ++ (be16 header.dest ++ (be32 header.seq ++ (be32 header.ack_seq ++
    ([.ofNat (header.doff * 16 + header.res1), header.flags] ++ be16 header.window ++ be16 header.check ++
      be16 header.urg_ptr ++ header.options))))

theorem tcphdr.length_bytes (header : tcphdr) : header.bytes.length = header.doff * 4 := by
  have hwords := header.options_words
  simp only [tcphdr.bytes, tcphdr.doff, List.length_append, List.length_cons, List.length_nil, be16_length,
    be32_length]
  omega

theorem tcphdr.doff_le (header : tcphdr) : header.doff ≤ 15 := by
  have hle := header.options_le
  rw [tcphdr.doff]
  omega

/-! What the dissector makes of an IP packet over TCP or UDP -/

section dissected

variable {target : Target} {frame : frame_t} {table table' : address_table_t}
  {throughput throughput' : device_throughput_table_t} {ether_type : UInt16} {dissection : dissection_t}
  (hip : frame.ether_type = ETHERTYPE_IP)
  (h : (get_flow_entry_for_packet target frame.caplen.toInt32.toInt frame.len table throughput).run frame.memory =
    (ether_type, dissection, table', throughput'))

include hip h

/-- A TCP packet has no DNS payload, and in builds that look for requests a
packet to their port has its request where the header length says. -/
theorem run_get_flow_entry_for_packet_tcp (htcp : frame.protocol = IPPROTO_TCP) :
    dissection.entry.key =
        ⟨frame.saddr, frame.daddr, frame.port_source, frame.port_destination, frame.protocol⟩ ∧
      dissection.dns_bytes_len = -1 ∧
      (target.enable_http_url = true → frame.port_destination = HTTP_PORT →
        let hlen := ((load8 (frame.transport_header + 12)).run frame.memory >>> 4).toNat * 4
        dissection.http_bytes = frame.transport_header + sizeof_tcphdr +
            (if sizeof_tcphdr < hlen then hlen - sizeof_tcphdr else hlen) ∧
          dissection.http_bytes_len = frame.caplen.toInt32.toInt - dissection.http_bytes) := by
  have hdissect := run_get_flow_entry_for_packet_ip hip h
  rw [run_dissect_ip_eq, if_pos htcp] at hdissect
  simp only [dissect_tcp, Reader.run_bind, Prod.mk.injEq] at hdissect
  obtain ⟨rfl, -⟩ := hdissect
  split
  · exact ⟨rfl, rfl, fun _ _ => ⟨rfl, rfl⟩⟩
  · rename_i hnot
    refine ⟨rfl, rfl, fun henabled hport => absurd ?_ hnot⟩
    rw [henabled, Bool.true_and, beq_iff_eq]
    exact hport

/-- A UDP packet has a DNS payload if it comes from the DNS port. -/
theorem run_get_flow_entry_for_packet_udp (hudp : frame.protocol = IPPROTO_UDP) :
    dissection.entry.key =
        ⟨frame.saddr, frame.daddr, frame.port_source, frame.port_destination, frame.protocol⟩ ∧
      dissection.dns_bytes_len =
        if frame.port_source = NS_DEFAULTPORT then
          frame.caplen.toInt32.toInt - ((frame.transport_header + sizeof_udphdr : Nat) : Int)
        else -1 := by
  have hdissect := run_get_flow_entry_for_packet_ip hip h
  have hother : ¬frame.protocol = IPPROTO_TCP := by
    rw [hudp]
    decide
  rw [run_dissect_ip_eq, if_neg hother, if_pos hudp] at hdissect
  obtain ⟨hentry, hlength⟩ := run_dissect_udp_found hdissect
  rw [hentry, hlength]
  exact ⟨rfl, rfl⟩

end dissected

/-- A captured IPv4 frame: what was sent, and what lies in memory behind the
captured bytes. `trailer` is what the link layer adds behind the packet. -/
structure ipv4_capture where
  ts : timeval
  ether_dhost : mac_address_t
  ether_shost : mac_address_t
  header : iphdr
  data : List UInt8
  trailer : List UInt8
  behind : List UInt8

/-- The headers up to the transport header. -/
def ipv4_capture.headers (capture : ipv4_capture) : List UInt8 :=
  capture.ether_dhost.toList ++ capture.ether_shost.toList ++ (be16 ETHERTYPE_IP ++ capture.header.bytes)

def ipv4_capture.wire (capture : ipv4_capture) : List UInt8 := capture.headers ++ (capture.data ++ capture.trailer)

/-- What libpcap hands over of it when it captures at most `snaplen` bytes. -/
def ipv4_capture.frame (capture : ipv4_capture) (snaplen : Nat) : frame_t where
  ts := capture.ts
  caplen := .ofNat (min capture.wire.length snaplen)
  len := .ofNat capture.wire.length
  bytes := capture.wire.take snaplen ++ capture.behind

/-- The address of the transport header. -/
def ipv4_capture.transport (capture : ipv4_capture) : Nat := ETHER_HDR_LEN + capture.header.ihl * 4

/-- The least value that the C standard allows for `BUFSIZ`, which `main` gives
to `pcap_open_live` as the number of bytes to capture. -/
def MIN_BUFSIZ : Nat := 256

variable {capture : ipv4_capture} {snaplen : Nat}

theorem ipv4_capture.length_headers (capture : ipv4_capture) : capture.headers.length = capture.transport := by
  have hmac (mac : mac_address_t) : mac.toList.length = 6 := Vector.length_toList
  simp only [ipv4_capture.headers, ipv4_capture.transport, List.length_append, hmac, be16_length,
    iphdr.length_bytes, ETHER_HDR_LEN]
  omega

theorem ipv4_capture.transport_le (capture : ipv4_capture) : capture.transport ≤ 74 := by
  have hle := capture.header.ihl_le
  rw [ipv4_capture.transport, ETHER_HDR_LEN]
  omega

/-- Captured bytes are in memory. -/
theorem ipv4_capture.holds {content : List UInt8} (h : content <+: capture.wire) (hlength : content.length ≤ snaplen) :
    Holds (capture.frame snaplen).memory 0 content := by
  have hcaptured : content <+: capture.wire.take snaplen := by
    rw [List.prefix_take_iff]
    exact ⟨h, hlength⟩
  exact Holds.of_prefix (holds_getD _) (hcaptured.trans (List.prefix_append _ _))

variable (hsnaplen : MIN_BUFSIZ ≤ snaplen)
include hsnaplen

theorem ipv4_capture.holds_headers (capture : ipv4_capture) :
    Holds (capture.frame snaplen).memory 0 capture.headers := by
  refine capture.holds (List.prefix_append _ _) ?_
  have hle := capture.transport_le
  rw [capture.length_headers]
  exact hle.trans (le_trans (by decide) hsnaplen)

/-- What the dissector finds in the headers. -/
theorem ipv4_capture.holds_ip (capture : ipv4_capture) :
    (capture.frame snaplen).ether_type = ETHERTYPE_IP ∧
      Holds (capture.frame snaplen).memory ETHER_HDR_LEN capture.header.bytes := by
  have hheaders := capture.holds_headers hsnaplen
  have haddresses : (capture.ether_dhost.toList ++ capture.ether_shost.toList).length = 2 * ETH_ALEN := by
    rw [List.length_append, Vector.length_toList, Vector.length_toList, Nat.two_mul]
  obtain ⟨-, hbehind⟩ := holds_append.mp hheaders
  rw [haddresses, Nat.zero_add] at hbehind
  obtain ⟨htype, hip⟩ := holds_append.mp hbehind
  exact ⟨run_load16 htype, hip⟩

theorem ipv4_capture.addresses (capture : ipv4_capture) :
    (capture.frame snaplen).saddr = capture.header.saddr ∧ (capture.frame snaplen).daddr = capture.header.daddr := by
  have hip := (capture.holds_ip hsnaplen).2
  rw [iphdr.bytes, holds_append] at hip
  obtain ⟨-, haddresses⟩ := hip
  rw [holds_append, be32_length, holds_append] at haddresses
  exact ⟨run_load32 haddresses.1, run_load32 haddresses.2.1⟩

theorem ipv4_capture.protocol_eq (capture : ipv4_capture) :
    (capture.frame snaplen).protocol = capture.header.protocol := by
  have hip := (capture.holds_ip hsnaplen).2
  rw [iphdr.bytes, holds_append] at hip
  exact hip.1.2.2.2.2.2.2.2.2.2.1

theorem ipv4_capture.transport_header_eq (capture : ipv4_capture) :
    (capture.frame snaplen).transport_header = capture.transport := by
  have hip := (capture.holds_ip hsnaplen).2
  rw [iphdr.bytes, holds_append] at hip
  have hfirst : (capture.frame snaplen).memory ETHER_HDR_LEN = .ofNat (4 * 16 + capture.header.ihl) := hip.1.1
  have hnibble : ∀ ihl ≤ 15, (UInt8.ofNat (4 * 16 + ihl) &&& 0xf).toNat = ihl := by decide
  rw [frame_t.transport_header, run_load8, hfirst, hnibble _ capture.header.ihl_le, ipv4_capture.transport]

end bismark_passive.main
