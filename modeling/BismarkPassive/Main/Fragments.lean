import BismarkPassive.Bytes.Bounds
import BismarkPassive.Main.Frames
import BismarkPassive.Reference

namespace bismark_passive.main

open bytes flow_table address_table device_throughput

/-- A TCP segment or UDP message between two addresses: its ports, and the rest
of its transport header with what follows. -/
structure datagram_t where
  saddr : UInt32
  daddr : UInt32
  protocol : UInt8
  port_source : UInt16
  port_destination : UInt16
  rest : List UInt8
  whole : (protocol = IPPROTO_TCP ∧ 16 ≤ rest.length) ∨ (protocol = IPPROTO_UDP ∧ 4 ≤ rest.length)

def datagram_t.ports (datagram : datagram_t) : List UInt8 :=
  be16 datagram.port_source ++ be16 datagram.port_destination

def datagram_t.bytes (datagram : datagram_t) : List UInt8 := datagram.ports ++ datagram.rest

/-- The flow of the datagram. -/
def datagram_t.key (datagram : datagram_t) : flow_key :=
  ⟨datagram.saddr, datagram.daddr, datagram.port_source, datagram.port_destination, datagram.protocol⟩

/-- The fragment offset in bytes. -/
def iphdr.offset (header : iphdr) : Nat := (header.frag_off &&& 0x1fff).toNat * 8

def iphdr.more_fragments (header : iphdr) : Bool := header.frag_off &&& 0x2000 != 0

/-- The frame carries these bytes of the datagram. Its IP options are its own. -/
structure ipv4_capture.Carries (capture : ipv4_capture) (datagram : datagram_t) (offset : Nat) (data : List UInt8)
    (more : Bool) : Prop where
  saddr : capture.header.saddr = datagram.saddr
  daddr : capture.header.daddr = datagram.daddr
  protocol : capture.header.protocol = datagram.protocol
  offset : capture.header.offset = offset
  more : capture.header.more_fragments = more
  data : capture.data = data

/-- The frames carry the datagram's bytes from the offset on, split where the
sender liked between words of eight bytes. -/
inductive Fragments (datagram : datagram_t) : Nat → List UInt8 → List ipv4_capture → Prop
  | last {offset : Nat} {data : List UInt8} {capture : ipv4_capture}
      (hcarries : capture.Carries datagram offset data false) : Fragments datagram offset data [capture]
  | more {offset : Nat} {data rest : List UInt8} {capture : ipv4_capture} {captures : List ipv4_capture}
      (hcarries : capture.Carries datagram offset data true) (hwords : data.length % 8 = 0) (hne : data ≠ [])
      (hrest : Fragments datagram (offset + data.length) rest captures) :
      Fragments datagram offset (data ++ rest) (capture :: captures)

/-- The dissector gives the frame the datagram's flow, and takes no later
fragment for a DNS response. -/
def ipv4_capture.InFlow (capture : ipv4_capture) (target : Target) (snaplen : Nat) (datagram : datagram_t) : Prop :=
  ∀ (table : address_table_t) (throughput : device_throughput_table_t),
    let frame := capture.frame snaplen
    let dissection := ((get_flow_entry_for_packet target frame.caplen.toInt32.toInt frame.len table
      throughput).run frame.memory).2.1
    dissection.entry.key = datagram.key ∧ (capture.header.offset ≠ 0 → dissection.dns_bytes_len ≤ 0)

/-- Behind the IP header of the frame lie the bytes of the datagram's ports. -/
def ipv4_capture.ShowsPorts (capture : ipv4_capture) (snaplen : Nat) (datagram : datagram_t) : Prop :=
  Holds (capture.frame snaplen).memory capture.transport datagram.ports

/-- More bytes were captured than the headers of a DNS response. -/
def ipv4_capture.LooksLikeDns (capture : ipv4_capture) (snaplen : Nat) (datagram : datagram_t) : Prop :=
  datagram.protocol = IPPROTO_UDP ∧ datagram.port_source = NS_DEFAULTPORT ∧
    capture.transport + sizeof_udphdr < min capture.wire.length snaplen

variable {target : Target} {capture : ipv4_capture} {captures : List ipv4_capture} {datagram : datagram_t}
  {snaplen offset : Nat} {data : List UInt8} {more : Bool}

theorem toInt32_ofNat {length : Nat} (h : length < 2 ^ 31) : (UInt32.ofNat length).toInt32.toInt = length := by
  have hbits : (UInt32.ofNat length).toInt32.toInt = (BitVec.ofNat 32 length).toInt := rfl
  rw [hbits, BitVec.toInt_eq_toNat_cond, BitVec.toNat_ofNat]
  omega

theorem shows_ports_iff (hsnaplen : MIN_BUFSIZ ≤ snaplen) :
    capture.ShowsPorts snaplen datagram ↔
      (capture.frame snaplen).port_source = datagram.port_source ∧
        (capture.frame snaplen).port_destination = datagram.port_destination := by
  rw [ipv4_capture.ShowsPorts, datagram_t.ports, holds_append, be16_length, holds_be16_iff, holds_be16_iff,
    frame_t.port_source, frame_t.port_destination, capture.transport_header_eq hsnaplen]

section snaplen

variable (hsnaplen : MIN_BUFSIZ ≤ snaplen) (hint : snaplen < 2 ^ 31)
include hsnaplen hint

/-- What the dissector makes of one fragment. -/
theorem dissected_in_flow_iff (hcarries : capture.Carries datagram offset data more) (table : address_table_t)
    (throughput : device_throughput_table_t) :
    let frame := capture.frame snaplen
    let dissection := ((get_flow_entry_for_packet target frame.caplen.toInt32.toInt frame.len table
      throughput).run frame.memory).2.1
    (dissection.entry.key = datagram.key ∧ (capture.header.offset ≠ 0 → dissection.dns_bytes_len ≤ 0)) ↔
      capture.ShowsPorts snaplen datagram ∧ (offset ≠ 0 → ¬ capture.LooksLikeDns snaplen datagram) := by
  intro frame dissection
  rcases hfound : (get_flow_entry_for_packet target frame.caplen.toInt32.toInt frame.len table
    throughput).run frame.memory with ⟨ether_type, found, table', throughput'⟩
  have hip := (capture.holds_ip hsnaplen).1
  have hprotocol : frame.protocol = datagram.protocol := (capture.protocol_eq hsnaplen).trans hcarries.protocol
  obtain ⟨hsaddr, hdaddr⟩ := capture.addresses hsnaplen
  have hdissection : dissection = found := congrArg (fun result => result.2.1) hfound
  have hkey : found.entry.key =
      ⟨frame.saddr, frame.daddr, frame.port_source, frame.port_destination, frame.protocol⟩ →
      (found.entry.key = datagram.key ↔ capture.ShowsPorts snaplen datagram) := by
    intro hfields
    rw [hfields, shows_ports_iff hsnaplen, datagram_t.key, flow_key.mk.injEq]
    simp only [frame, hsaddr, hdaddr, hcarries.saddr, hcarries.daddr, true_and]
    exact ⟨fun h => ⟨h.1, h.2.1⟩, fun h => ⟨h.1, h.2, hprotocol⟩⟩
  have hcaplen : frame.caplen.toInt32.toInt = (min capture.wire.length snaplen : Nat) :=
    toInt32_ofNat (by omega)
  rw [hdissection, hcarries.offset]
  obtain ⟨htcp, -⟩ | ⟨hudp, -⟩ := datagram.whole
  · obtain ⟨hfields, hdns, -⟩ := run_get_flow_entry_for_packet_tcp hip hfound (hprotocol.trans htcp)
    rw [hkey hfields, hdns]
    refine and_congr_right fun _ => iff_of_true (fun _ => by decide) fun _ hlooks => ?_
    exact absurd (htcp.symm.trans hlooks.1) (by decide)
  · obtain ⟨hfields, hdns⟩ := run_get_flow_entry_for_packet_udp hip hfound (hprotocol.trans hudp)
    rw [hkey hfields, hdns]
    refine and_congr_right fun hshows => imp_congr_right fun _ => ?_
    have hsource := ((shows_ports_iff hsnaplen).mp hshows).1
    rw [ipv4_capture.LooksLikeDns, hsource, hcaplen, capture.transport_header_eq hsnaplen]
    split
    · rename_i hport
      simp only [hudp, hport, true_and]
      omega
    · rename_i hport
      simp only [hport, false_and, and_false, not_false_iff]
      decide

/-- The first fragment needs its ports; a later one must not look like DNS as well. -/
theorem in_flow_iff (hcarries : capture.Carries datagram offset data more) :
    capture.InFlow target snaplen datagram ↔
      capture.ShowsPorts snaplen datagram ∧ (offset ≠ 0 → ¬ capture.LooksLikeDns snaplen datagram) := by
  constructor
  · intro hflow
    exact (dissected_in_flow_iff hsnaplen hint hcarries address_table_init device_throughput_table_init).mp
      (hflow address_table_init device_throughput_table_init)
  · intro hshows table throughput
    exact (dissected_in_flow_iff hsnaplen hint hcarries table throughput).mpr hshows

omit hint in
/-- The first fragment shows the ports. -/
theorem shows_ports_of_prefix (hcarries : capture.Carries datagram offset data more)
    (hports : datagram.ports <+: data) :
    capture.ShowsPorts snaplen datagram := by
  have hwire : capture.headers ++ datagram.ports <+: capture.wire := by
    rw [ipv4_capture.wire, List.prefix_append_right_inj, hcarries.data]
    exact hports.trans (List.prefix_append _ _)
  have hlength : (capture.headers ++ datagram.ports).length ≤ snaplen := by
    have hle := capture.transport_le
    rw [List.length_append, capture.length_headers, datagram_t.ports, List.length_append, be16_length, be16_length]
    exact (Nat.add_le_add_right hle _).trans (le_trans (by decide) hsnaplen)
  have hheld := capture.holds hwire hlength
  rw [holds_append, capture.length_headers, Nat.zero_add] at hheld
  exact hheld.2

omit hsnaplen hint in
/-- Fragments lie behind the offset that they start from. -/
theorem Fragments.offset_le (hfragments : Fragments datagram offset data captures) :
    ∀ capture ∈ captures, offset ≤ capture.header.offset := by
  induction hfragments with
  | last hcarries =>
    intro capture hmem
    rw [List.mem_singleton.mp hmem, hcarries.offset]
  | more hcarries hwords hne hrest ih =>
    intro capture hmem
    obtain rfl | hmem := List.mem_cons.mp hmem
    · rw [hcarries.offset]
    · exact (Nat.le_add_right _ _).trans (ih capture hmem)

omit hsnaplen hint in
/-- Each fragment carries the part of the datagram at its own offset. -/
theorem Fragments.carries (hfragments : Fragments datagram offset data captures) :
    ∀ capture ∈ captures, ∃ data more, capture.Carries datagram capture.header.offset data more := by
  induction hfragments with
  | last hcarries =>
    intro capture hmem
    rw [List.mem_singleton.mp hmem, hcarries.offset]
    exact ⟨_, _, hcarries⟩
  | more hcarries hwords hne hrest ih =>
    intro capture hmem
    obtain rfl | hmem := List.mem_cons.mp hmem
    · rw [hcarries.offset]
      exact ⟨_, _, hcarries⟩
    · exact ih capture hmem

omit hint in
/-- Only the first fragment lies at offset zero, and it shows the ports. -/
theorem Fragments.shows_ports (hfragments : Fragments datagram 0 datagram.bytes captures) :
    ∀ capture ∈ captures, capture.header.offset = 0 → capture.ShowsPorts snaplen datagram := by
  generalize hbytes : datagram.bytes = bytes at hfragments
  intro capture hmem hfirst
  cases hfragments with
  | last hcarries =>
    rw [List.mem_singleton.mp hmem]
    exact shows_ports_of_prefix hsnaplen hcarries (hbytes ▸ List.prefix_append _ _)
  | @more _ data rest first _ hcarries hwords hne hrest =>
    have hpositive := List.length_pos_of_ne_nil hne
    obtain rfl | hmem := List.mem_cons.mp hmem
    · refine shows_ports_of_prefix hsnaplen hcarries ?_
      refine List.prefix_of_prefix_length_le (hbytes ▸ List.prefix_append datagram.ports datagram.rest)
        (List.prefix_append data rest) ?_
      rw [datagram_t.ports, List.length_append, be16_length, be16_length]
      omega
    · have hlater := hrest.offset_le capture hmem
      omega

/-- All frames of a datagram belong to its flow exactly if behind the IP header
of every later fragment lie by chance the bytes of the ports, and the fragment
does not look like a DNS response. -/
theorem datagram_in_one_flow_iff (target : Target) (hfragments : Fragments datagram 0 datagram.bytes captures) :
    (∀ capture ∈ captures, capture.InFlow target snaplen datagram) ↔
      ∀ capture ∈ captures, capture.header.offset ≠ 0 →
        capture.ShowsPorts snaplen datagram ∧ ¬ capture.LooksLikeDns snaplen datagram := by
  refine forall₂_congr fun capture hmem => ?_
  obtain ⟨data, more, hcarries⟩ := hfragments.carries capture hmem
  rw [in_flow_iff hsnaplen hint hcarries]
  constructor
  · exact fun hflow hlater => ⟨hflow.1, hflow.2 hlater⟩
  · intro hchance
    by_cases hfirst : capture.header.offset = 0
    · exact ⟨hfragments.shows_ports hsnaplen capture hmem hfirst, fun hlater => absurd hfirst hlater⟩
    · exact ⟨(hchance hfirst).1, fun hlater => (hchance hlater).2⟩

end snaplen

/-- A UDP message from port 1000 to port 2000 whose payload has the bytes
`0, 53` where its second fragment starts. -/
def split_datagram : datagram_t where
  saddr := 0x08080808
  daddr := 0xc0a80102
  protocol := IPPROTO_UDP
  port_source := 1000
  port_destination := 2000
  rest := [0, 18, 0, 0, 0, 53, 0, 9, 0, 0, 0, 0, 0, 0]
  whole := .inr ⟨rfl, by decide⟩

/-- A frame with a header without options. -/
def split_capture (frag_off : UInt16) (data : List UInt8) : ipv4_capture where
  ts := ⟨0, 0⟩
  ether_dhost := .replicate ETH_ALEN 1
  ether_shost := .replicate ETH_ALEN 2
  header :=
    { tos := 0
      tot_len := .ofNat (20 + data.length)
      id := 7
      frag_off := frag_off
      ttl := 64
      protocol := split_datagram.protocol
      check := 0
      saddr := split_datagram.saddr
      daddr := split_datagram.daddr
      options := []
      options_words := no_options_words
      options_le := no_options_le }
  data := data
  trailer := []
  behind := []

theorem split_capture_carries (frag_off : UInt16) (data : List UInt8) :
    (split_capture frag_off data).Carries split_datagram ((frag_off &&& 0x1fff).toNat * 8) data
      (frag_off &&& 0x2000 != 0) :=
  ⟨rfl, rfl, rfl, rfl, rfl, rfl⟩

/-- Its two fragments. -/
def split_captures : List ipv4_capture :=
  [split_capture 0x2000 (split_datagram.bytes.take 8), split_capture 1 (split_datagram.bytes.drop 8)]

theorem split_captures_fragments : Fragments split_datagram 0 split_datagram.bytes split_captures := by
  have hlast : Fragments split_datagram 8 (split_datagram.bytes.drop 8)
      [split_capture 1 (split_datagram.bytes.drop 8)] := .last (split_capture_carries 1 _)
  have hsplit : Fragments split_datagram 0 (split_datagram.bytes.take 8 ++ split_datagram.bytes.drop 8)
      split_captures := .more (split_capture_carries 0x2000 _) (by decide) (by decide) hlast
  rwa [List.take_append_drop] at hsplit

/-- The second one does not show the ports. -/
theorem datagram_in_one_flow_iff_split :
    split_captures.length = 2 ∧
      ¬ ∀ capture ∈ split_captures, capture.InFlow reference_target 8192 split_datagram := by
  refine ⟨rfl, fun hflow => ?_⟩
  have hsnaplen : MIN_BUFSIZ ≤ 8192 := by decide
  have hchance := (datagram_in_one_flow_iff hsnaplen (by decide) reference_target split_captures_fragments).mp hflow
  obtain ⟨hshows, -⟩ := hchance _ (List.mem_cons_of_mem _ List.mem_cons_self) (by decide)
  exact absurd ((shows_ports_iff hsnaplen).mp hshows).1 (by decide)

/-- The second fragment is given the ports 53 and 9 and a DNS payload. -/
theorem later_fragment_taken_for_dns :
    Fragments split_datagram 0 split_datagram.bytes
        [split_capture 0x2000 (split_datagram.bytes.take 8), split_capture 1 (split_datagram.bytes.drop 8)] ∧
      let frame := (split_capture 1 (split_datagram.bytes.drop 8)).frame 8192
      let dissection := ((get_flow_entry_for_packet reference_target frame.caplen.toInt32.toInt frame.len
        address_table_init device_throughput_table_init).run frame.memory).2.1
      dissection.entry.port_source = 53 ∧ dissection.entry.port_destination = 9 ∧ 0 < dissection.dns_bytes_len :=
  ⟨split_captures_fragments, by decide, by decide, by decide⟩

end bismark_passive.main
