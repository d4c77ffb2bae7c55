import BismarkPassive.AddressTable.Table
import BismarkPassive.DeviceThroughput
import BismarkPassive.Dns.Parser
import BismarkPassive.DropStatistics
import BismarkPassive.FlowTable.Table
import BismarkPassive.Http.Parser
import BismarkPassive.PacketSeries.Series

namespace bismark_passive.main

open bytes flow_table address_table packet_series dns http drop_statistics device_throughput

/-- The static variables of `main.c` that packets and updates work on. -/
structure state_t where
  packet_data : packet_series_t
  flow_table : flow_table_t
  dns_table : dns_table_t
  http_table : http_table_t
  address_table : address_table_t
  domain_whitelist : domain_whitelist_t
  bloom_whitelist : bloom_whitelist_t
  drop_statistics : drop_statistics_t
  device_throughput_table : device_throughput_table_t
  sequence_number : Int

/-- The tables after the initialisation in `main`. -/
def initial_state (target : Target) (domain_whitelist : domain_whitelist_t) (bloom_whitelist : bloom_whitelist_t) :
    state_t where
  packet_data := packet_series_init
  flow_table := flow_table_init
  dns_table := dns_table_init (some domain_whitelist) bloom_whitelist
  http_table := http_table_init
  address_table := address_table_init
  domain_whitelist := domain_whitelist
  bloom_whitelist := bloom_whitelist
  drop_statistics := drop_statistics_init target drop_statistics_zero
  device_throughput_table := device_throughput_table_init
  sequence_number := 0

/-- A captured packet: the `pcap_pkthdr`, and what lies in memory from the
captured bytes on, up to zero bytes without end. -/
structure frame_t where
  ts : timeval
  caplen : UInt32
  len : UInt32
  bytes : List UInt8

def frame_t.memory (frame : frame_t) (address : Nat) : UInt8 := frame.bytes.getD address 0

def load_mac (address : Nat) : Reader mac_address_t := do
  let byte0 ← load8 address
  let byte1 ← load8 (address + 1)
  let byte2 ← load8 (address + 2)
  let byte3 ← load8 (address + 3)
  let byte4 ← load8 (address + 4)
  let byte5 ← load8 (address + 5)
  pure #v[byte0, byte1, byte2, byte3, byte4, byte5]

/-- The results of `get_flow_entry_for_packet`, where pointers into the packet
are offsets. -/
structure dissection_t where
  entry : flow_table_entry_t
  mac_id : Int
  dns_bytes : Nat
  dns_bytes_len : Int
  http_bytes : Nat
  http_bytes_len : Int

/-- The values that `process_packet` passes in. -/
def dissection_init : dissection_t where
  entry := flow_table_entry_init
  mac_id := -1
  dns_bytes := 0
  dns_bytes_len := -1
  http_bytes := 0
  http_bytes_len := -1

def sizeof_tcphdr : Nat := 20
def sizeof_udphdr : Nat := 8

/-- The ports and, in builds that want it, the request of a TCP packet. -/
def dissect_tcp (target : Target) (cap_length : Int) (tcp_header : Nat) (dissection : dissection_t) :
    Reader dissection_t := do
  let source ← load16 tcp_header
  let dest ← load16 (tcp_header + 2)
  let dissection := { dissection with
    entry := { dissection.entry with port_source := source, port_destination := dest } }
  if target.enable_http_url && dest == HTTP_PORT then do
    let doff ← load8 (tcp_header + 12)
    let hlen := (doff >>> 4).toNat * 4
    let hlen := if sizeof_tcphdr < hlen then hlen - sizeof_tcphdr else hlen
    let http_bytes := tcp_header + sizeof_tcphdr + hlen
    pure { dissection with http_bytes := http_bytes, http_bytes_len := cap_length - http_bytes }
  else pure dissection

/-- The ports and, for DNS responses, the payload of a UDP packet and the id of
its destination. -/
def dissect_udp (cap_length : Int) (udp_header : Nat) (ether_dhost : mac_address_t) (dissection : dissection_t)
    (address_table : address_table_t) : Reader (dissection_t × address_table_t) := do
  let source ← load16 udp_header
  let dest ← load16 (udp_header + 2)
  let dissection := { dissection with
    entry := { dissection.entry with port_source := source, port_destination := dest } }
  if source == NS_DEFAULTPORT then
    let dns_bytes := udp_header + sizeof_udphdr
    let (mac_id, address_table) :=
      address_table_lookup address_table dissection.entry.ip_destination ether_dhost
    pure ({ dissection with
      dns_bytes := dns_bytes
      dns_bytes_len := cap_length - dns_bytes
      mac_id := mac_id }, address_table)
  else pure (dissection, address_table)

/-- What the function does to an IP packet. -/
def dissect_ip (target : Target) (cap_length : Int) (ether_shost ether_dhost : mac_address_t)
    (address_table : address_table_t) : Reader (dissection_t × address_table_t) := do
  let ihl ← load8 ETHER_HDR_LEN
  let protocol ← load8 (ETHER_HDR_LEN + 9)
  let saddr ← load32 (ETHER_HDR_LEN + 12)
  let daddr ← load32 (ETHER_HDR_LEN + 16)
  let dissection := { dissection_init with
    entry := { flow_table_entry_init with
      ip_source := saddr
      ip_destination := daddr
      transport_protocol := protocol } }
  let (_, address_table) := address_table_lookup address_table saddr ether_shost
  let (_, address_table) := address_table_lookup address_table daddr ether_dhost
  let transport_header := ETHER_HDR_LEN + (ihl &&& 0xf).toNat * 4
  if protocol = IPPROTO_TCP then do
    let dissection ← dissect_tcp target cap_length transport_header dissection
    pure (dissection, address_table)
  else if protocol = IPPROTO_UDP then
    dissect_udp cap_length transport_header ether_dhost dissection address_table
  else pure (dissection, address_table)

/-- `if (record(shost) || record(dhost)) ..`, in builds with frequent updates. -/
def record_throughput (target : Target) (table : device_throughput_table_t) (ether_shost ether_dhost : mac_address_t)
    (full_length : UInt32) : device_throughput_table_t :=
  if target.enable_frequent_updates then
    let (failed, table) := device_throughput_table_record table ether_shost full_length
    if failed = 0 then (device_throughput_table_record table ether_dhost full_length).2 else table
  else table

/-- Returns the ethertype, what was found in the packet, and the tables. -/
def get_flow_entry_for_packet (target : Target) (cap_length : Int) (full_length : UInt32)
    (address_table : address_table_t) (device_throughput_table : device_throughput_table_t) :
    Reader (UInt16 × dissection_t × address_table_t × device_throughput_table_t) := do
  let ether_dhost ← load_mac 0
  let ether_shost ← load_mac ETH_ALEN
  let ether_type ← load16 (2 * ETH_ALEN)
  let device_throughput_table :=
    record_throughput target device_throughput_table ether_shost ether_dhost full_length
  if ether_type = ETHERTYPE_IP then do
    let (dissection, address_table) ← dissect_ip target cap_length ether_shost ether_dhost address_table
    pure (ether_type, dissection, address_table, device_throughput_table)
  else pure (ether_type, dissection_init, address_table, device_throughput_table)

/-- The flow ids of the protocols that have no flows. -/
def reserved_flow_id (ether_type : UInt16) : Nat :=
  if ether_type = ETHERTYPE_AARP then FLOW_ID_AARP
  else if ether_type = ETHERTYPE_ARP then FLOW_ID_ARP
  else if ether_type = ETHERTYPE_ATALK then FLOW_ID_AT
  else if ether_type = ETHERTYPE_IPV6 then FLOW_ID_IPV6
  else if ether_type = ETHERTYPE_IPX then FLOW_ID_IPX
  else if ether_type = ETHERTYPE_REVARP then FLOW_ID_REVARP
  else FLOW_ID_ERROR

/-- The `switch` over the ethertype: the flow id and the flow table. -/
def process_flow (target : Target) (ether_type : UInt16) (entry : flow_table_entry_t) (timestamp_seconds : Int)
    (flow_table : flow_table_t) : UInt16 × flow_table_t :=
  if ether_type = ETHERTYPE_IP then
    let (id, flow_table) :=
      flow_table_process_flow target (fnv_hash target) flow_table entry timestamp_seconds
    (UInt16.ofNat id, flow_table)
  else (UInt16.ofNat (reserved_flow_id ether_type), flow_table)

/-- The local variables of `process_packet` at its end. -/
structure packet_locals where
  ether_type : UInt16
  dissection : dissection_t
  flow_id : UInt16
  packet_id : Int

/-- The DNS part of `process_packet`. -/
def process_dns (s : Session) (frame : frame_t) (dissection : dissection_t) (packet_id : Int)
    (dns_table : dns_table_t) : dns_table_t :=
  if 0 < dissection.dns_bytes_len ∧ 0 ≤ dissection.mac_id ∧ 0 ≤ packet_id then
    ((process_dns_packet s.externals dissection.dns_bytes_len.toNat dns_table (UInt16.ofInt packet_id)
      (UInt8.ofInt dissection.mac_id)).run fun address => frame.memory (dissection.dns_bytes + address)).2
  else dns_table

/-- The HTTP part of `process_packet`; `none` is a failing assertion. -/
def process_http (s : Session) (frame : frame_t) (dissection : dissection_t) (flow_id : UInt16)
    (http_table : http_table_t) : Option http_table_t :=
  if s.target.enable_http_url && decide (0 < dissection.http_bytes_len) then do
    let (_, http_table) ← process_http_packet s (frame.bytes.drop dissection.http_bytes)
      dissection.http_bytes_len http_table flow_id
    pure http_table
  else some http_table

def process_packet (s : Session) (state : state_t) (frame : frame_t) : Option (state_t × packet_locals) :=
  let (ether_type, dissection, address_table, device_throughput_table) :=
    (get_flow_entry_for_packet s.target frame.caplen.toInt32.toInt frame.len state.address_table
      state.device_throughput_table).run frame.memory
  let (flow_id, flow_table) :=
    process_flow s.target ether_type dissection.entry frame.ts.tv_sec state.flow_table
  let (packet_id, packet_data) :=
    packet_series_add_packet state.packet_data frame.ts frame.len flow_id.toNat
  let drop_statistics :=
    if packet_id < 0 then drop_statistics_process_packet state.drop_statistics frame.len
    else state.drop_statistics
  let dns_table := process_dns s frame dissection packet_id state.dns_table
  (process_http s frame dissection flow_id state.http_table).map fun http_table =>
    ({ state with
        packet_data := packet_data
        flow_table := flow_table
        dns_table := dns_table
        http_table := http_table
        address_table := address_table
        drop_statistics := drop_statistics
        device_throughput_table := device_throughput_table },
      { ether_type := ether_type
        dissection := dissection
        flow_id := flow_id
        packet_id := packet_id })

end bismark_passive.main
