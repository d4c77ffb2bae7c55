import BismarkPassive.Bytes.Bounds
import BismarkPassive.Main.Dissection
import BismarkPassive.Reference

namespace bismark_passive.main

open bytes address_table device_throughput

variable {memory : Nat → UInt8} {limit : Nat}

theorem within_load_mac (address : Nat) : (load_mac address).Within memory limit ↔ address + ETH_ALEN ≤ limit := by
  simp only [load_mac, Reader.within_bind, within_load8, ETH_ALEN]
  constructor
  · rintro ⟨-, -, -, -, -, hlast, -⟩
    omega
  · intro h
    refine ⟨?_, ?_, ?_, ?_, ?_, ?_, trivial⟩ <;> omega

/-- The headers that the program looks at are inside the capture: the addresses
of an IP packet, the ports of one over TCP or UDP, and the header length of a
request. -/
structure frame_t.HeadersInside (target : Target) (frame : frame_t) : Prop where
  ethernet : ETHER_HDR_LEN ≤ frame.caplen.toNat
  ip : frame.ether_type = ETHERTYPE_IP → ETHER_HDR_LEN + 20 ≤ frame.caplen.toNat
  ports : frame.ether_type = ETHERTYPE_IP → frame.protocol = IPPROTO_TCP ∨ frame.protocol = IPPROTO_UDP →
    frame.transport_header + 4 ≤ frame.caplen.toNat
  request : frame.ether_type = ETHERTYPE_IP → frame.protocol = IPPROTO_TCP → target.enable_http_url = true →
    frame.port_destination = HTTP_PORT → frame.transport_header + 13 ≤ frame.caplen.toNat

/-- A TCP header is read up to its ports, and up to its length if the port is HTTP's. -/
theorem within_dissect_tcp (target : Target) (cap_length : Int) (tcp_header : Nat) (dissection : dissection_t) :
    (dissect_tcp target cap_length tcp_header dissection).Within memory limit ↔
      tcp_header + 4 ≤ limit ∧
        (target.enable_http_url = true → (load16 (tcp_header + 2)).run memory = HTTP_PORT →
          tcp_header + 13 ≤ limit) := by
  simp only [dissect_tcp, Reader.within_bind, within_load16, Reader.within_ite, within_load8, Reader.within_pure,
    Bool.and_eq_true, beq_iff_eq]
  by_cases hrequest : target.enable_http_url = true ∧ (load16 (tcp_header + 2)).run memory = HTTP_PORT
  · rw [if_pos hrequest]
    constructor
    · rintro ⟨-, hports, hdoff, -⟩
      exact ⟨hports, fun _ _ => hdoff⟩
    · rintro ⟨hports, hdoff⟩
      exact ⟨by omega, hports, hdoff hrequest.1 hrequest.2, trivial⟩
  · rw [if_neg hrequest]
    constructor
    · rintro ⟨-, hports, -⟩
      exact ⟨hports, fun henabled hport => absurd ⟨henabled, hport⟩ hrequest⟩
    · rintro ⟨hports, -⟩
      exact ⟨by omega, hports, trivial⟩

theorem within_dissect_udp (cap_length : Int) (udp_header : Nat) (ether_dhost : mac_address_t)
    (dissection : dissection_t) (table : address_table_t) :
    (dissect_udp cap_length udp_header ether_dhost dissection table).Within memory limit ↔ udp_header + 4 ≤ limit := by
  simp only [dissect_udp, Reader.within_bind, within_load16, Reader.within_ite, Reader.within_pure, ite_self, and_true]
  omega

/-- An IP packet is read inside the frame exactly if its headers are inside. -/
theorem within_dissect_ip (target : Target) (cap_length : Int) (frame : frame_t) (table : address_table_t)
    (hether_type : frame.ether_type = ETHERTYPE_IP) (hethernet : ETHER_HDR_LEN ≤ frame.caplen.toNat) :
    (dissect_ip target cap_length frame.ether_shost frame.ether_dhost table).Within frame.memory
      frame.caplen.toNat ↔ frame.HeadersInside target := by
  have hprotocols : IPPROTO_TCP ≠ IPPROTO_UDP := by decide
  have hheader : ETHER_HDR_LEN = 14 := rfl
  have hprotocol : (load8 (ETHER_HDR_LEN + 9)).run frame.memory = frame.protocol := rfl
  have htransport : ETHER_HDR_LEN + ((load8 ETHER_HDR_LEN).run frame.memory &&& 0xf).toNat * 4 =
      frame.transport_header := rfl
  simp only [dissect_ip, Reader.within_bind, within_load8, within_load32, hprotocol, htransport, Reader.within_ite]
  by_cases htcp : frame.protocol = IPPROTO_TCP
  · have hudp : frame.protocol ≠ IPPROTO_UDP := htcp ▸ hprotocols
    rw [if_pos htcp, within_dissect_tcp]
    constructor
    · rintro ⟨-, -, -, haddresses, ⟨hports, hrequest⟩, -⟩
      exact ⟨hethernet, fun _ => by omega, fun _ _ => hports, fun _ _ => hrequest⟩
    · rintro ⟨-, hip, hports, hrequest⟩
      have hip := hip hether_type
      exact ⟨by omega, by omega, by omega, by omega,
        ⟨hports hether_type (.inl htcp), hrequest hether_type htcp⟩, trivial⟩
  · rw [if_neg htcp]
    by_cases hudp : frame.protocol = IPPROTO_UDP
    · rw [if_pos hudp, within_dissect_udp]
      constructor
      · rintro ⟨-, -, -, haddresses, hports⟩
        exact ⟨hethernet, fun _ => by omega, fun _ _ => hports, fun _ h => absurd h htcp⟩
      · rintro ⟨-, hip, hports, -⟩
        have hip := hip hether_type
        exact ⟨by omega, by omega, by omega, by omega, hports hether_type (.inr hudp)⟩
    · rw [if_neg hudp]
      constructor
      · rintro ⟨-, -, -, haddresses, -⟩
        exact ⟨hethernet, fun _ => by omega, fun _ h => absurd h (not_or.mpr ⟨htcp, hudp⟩), fun _ h => absurd h htcp⟩
      · rintro ⟨-, hip, -, -⟩
        have hip := hip hether_type
        exact ⟨by omega, by omega, by omega, by omega, trivial⟩

/-- No offset of a header is compared with the length of the capture. -/
theorem get_flow_entry_for_packet_within (target : Target) (frame : frame_t) (address_table : address_table_t)
    (throughput : device_throughput_table_t) :
    (get_flow_entry_for_packet target frame.caplen.toInt32.toInt frame.len address_table throughput).Within
      frame.memory frame.caplen.toNat ↔ frame.HeadersInside target := by
  have hlengths : ETHER_HDR_LEN = 14 ∧ ETH_ALEN = 6 := ⟨rfl, rfl⟩
  have hshost : (load_mac ETH_ALEN).run frame.memory = frame.ether_shost := rfl
  have hdhost : (load_mac 0).run frame.memory = frame.ether_dhost := rfl
  have htype : (load16 (2 * ETH_ALEN)).run frame.memory = frame.ether_type := rfl
  simp only [get_flow_entry_for_packet, Reader.within_bind, within_load_mac, within_load16, hshost, hdhost, htype,
    Reader.within_ite]
  by_cases hip : frame.ether_type = ETHERTYPE_IP
  · rw [if_pos hip]
    constructor
    · rintro ⟨-, -, hether_type, hwithin, -⟩
      exact (within_dissect_ip target _ frame address_table hip (by omega)).mp hwithin
    · intro hinside
      have hethernet := hinside.ethernet
      exact ⟨by omega, by omega, by omega,
        (within_dissect_ip target _ frame address_table hip hethernet).mpr hinside, trivial⟩
  · rw [if_neg hip]
    constructor
    · rintro ⟨-, -, hether_type, -⟩
      exact ⟨by omega, fun h => absurd h hip, fun h => absurd h hip, fun h => absurd h hip⟩
    · rintro ⟨hethernet, -⟩
      exact ⟨by omega, by omega, by omega, trivial⟩

/-- A payload that is reported lies between its offset and the end. -/
structure dissection_t.PayloadsEnd (dissection : dissection_t) (cap_length : Int) : Prop where
  dns : 0 < dissection.dns_bytes_len → dissection.dns_bytes + dissection.dns_bytes_len = cap_length
  http : 0 < dissection.http_bytes_len → dissection.http_bytes + dissection.http_bytes_len = cap_length

/-- Without payloads there is nothing to end. -/
theorem dissection_t.PayloadsEnd.of_none {dissection : dissection_t} (cap_length : Int)
    (hdns : dissection.dns_bytes_len = -1) (hhttp : dissection.http_bytes_len = -1) :
    dissection.PayloadsEnd cap_length := by
  constructor
  · intro hpositive
    rw [hdns] at hpositive
    omega
  · intro hpositive
    rw [hhttp] at hpositive
    omega

/-- A payload that is found in a segment ends with the captured bytes. -/
theorem dissect_tcp_payloads (target : Target) (cap_length : Int) (tcp_header : Nat) {dissection : dissection_t}
    (memory : Nat → UInt8) (hdns : dissection.dns_bytes_len = -1) (hhttp : dissection.http_bytes_len = -1) :
    ((dissect_tcp target cap_length tcp_header dissection).run memory).PayloadsEnd cap_length := by
  simp only [dissect_tcp, Reader.run_bind]
  split
  · simp only [Reader.run_bind, Reader.run_pure]
    constructor
    · intro hpositive
      dsimp only at hpositive
      omega
    · intro _
      dsimp only
      omega
  · apply dissection_t.PayloadsEnd.of_none
    · exact hdns
    · exact hhttp

/-- So does one that is found in a message. -/
theorem dissect_udp_payloads (cap_length : Int) (udp_header : Nat) (ether_dhost : mac_address_t)
    {dissection : dissection_t} (table : address_table_t) (memory : Nat → UInt8)
    (hdns : dissection.dns_bytes_len = -1) (hhttp : dissection.http_bytes_len = -1) :
    ((dissect_udp cap_length udp_header ether_dhost dissection table).run memory).1.PayloadsEnd cap_length := by
  simp only [dissect_udp, Reader.run_bind]
  split
  · simp only [Reader.run_pure]
    constructor
    · intro _
      dsimp only
      omega
    · intro hpositive
      dsimp only at hpositive
      omega
  · apply dissection_t.PayloadsEnd.of_none
    · exact hdns
    · exact hhttp

/-- The payloads end where the capture does, whatever the header lengths say. -/
theorem get_flow_entry_for_packet_payloads (target : Target) (frame : frame_t) (cap_length : Int)
    (address_table : address_table_t) (throughput : device_throughput_table_t) :
    ((get_flow_entry_for_packet target cap_length frame.len address_table throughput).run
      frame.memory).2.1.PayloadsEnd cap_length := by
  simp only [get_flow_entry_for_packet, Reader.run_bind]
  split
  · simp only [Reader.run_bind, Reader.run_pure, dissect_ip]
    split
    · simp only [Reader.run_bind, Reader.run_pure]
      exact dissect_tcp_payloads target cap_length _ frame.memory rfl rfl
    · split
      · exact dissect_udp_payloads cap_length _ _ _ frame.memory rfl rfl
      · exact dissection_t.PayloadsEnd.of_none cap_length rfl rfl
  · exact dissection_t.PayloadsEnd.of_none cap_length rfl rfl

/-- A payload of some bytes from an offset on is inside the capture. -/
def PayloadInside (caplen : UInt32) (offset : Nat) (length : Int) : Prop :=
  0 < length → offset + length ≤ caplen.toNat

theorem toInt32_toInt_le (length : UInt32) : length.toInt32.toInt ≤ length.toNat := by
  have hbits : length.toInt32.toInt = length.toBitVec.toInt := rfl
  have hnat : length.toNat = length.toBitVec.toNat := rfl
  rw [hbits, hnat, BitVec.toInt_eq_toNat_cond]
  split <;> omega

/-- A payload that ends with the captured bytes is inside the frame. -/
theorem dissection_t.PayloadsEnd.inside {frame : frame_t} {dissection : dissection_t}
    (hend : dissection.PayloadsEnd frame.caplen.toInt32.toInt) :
    PayloadInside frame.caplen dissection.dns_bytes dissection.dns_bytes_len ∧
      PayloadInside frame.caplen dissection.http_bytes dissection.http_bytes_len := by
  constructor
  · intro hpositive
    have hlength := hend.dns hpositive
    have hcaplen := toInt32_toInt_le frame.caplen
    omega
  · intro hpositive
    have hlength := hend.http hpositive
    have hcaplen := toInt32_toInt_le frame.caplen
    omega

/-- The dissection stays inside the capture of exactly the frames whose headers
are inside. -/
theorem get_flow_entry_for_packet_inside_iff (target : Target) (frame : frame_t) (address_table : address_table_t)
    (throughput : device_throughput_table_t) :
    let dissect := get_flow_entry_for_packet target frame.caplen.toInt32.toInt frame.len address_table throughput
    let dissection := (dissect.run frame.memory).2.1
    (dissect.Within frame.memory frame.caplen.toNat ∧
        PayloadInside frame.caplen dissection.dns_bytes dissection.dns_bytes_len ∧
        PayloadInside frame.caplen dissection.http_bytes dissection.http_bytes_len) ↔
      frame.HeadersInside target := by
  intro dissect dissection
  have hend : dissection.PayloadsEnd frame.caplen.toInt32.toInt :=
    get_flow_entry_for_packet_payloads target frame _ address_table throughput
  constructor
  · rintro ⟨hwithin, -⟩
    exact (get_flow_entry_for_packet_within target frame address_table throughput).mp hwithin
  · intro hheaders
    exact ⟨(get_flow_entry_for_packet_within target frame address_table throughput).mpr hheaders, hend.inside⟩

/-- Only the Ethernet header of an IP packet. -/
def headerless_frame : frame_t where
  ts := ⟨0, 0⟩
  caplen := 14
  len := 60
  bytes := [0, 0, 0, 0, 0, 1, 0, 0, 0, 0, 0, 2, 8, 0]

theorem get_flow_entry_for_packet_outside_headerless :
    ETHER_HDR_LEN ≤ headerless_frame.caplen.toNat ∧
      headerless_frame.bytes.length = headerless_frame.caplen.toNat ∧
      ¬ (get_flow_entry_for_packet reference_target headerless_frame.caplen.toInt32.toInt
        headerless_frame.len address_table_init device_throughput_table_init).Within headerless_frame.memory
          headerless_frame.caplen.toNat := by
  refine ⟨by decide, by decide, ?_⟩
  intro hwithin
  have hheaders := (get_flow_entry_for_packet_within _ headerless_frame _ _).mp hwithin
  have hip := hheaders.ip (by decide)
  exact absurd hip (by decide)

end bismark_passive.main
