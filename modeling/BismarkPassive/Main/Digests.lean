import BismarkPassive.Dns.Records
import BismarkPassive.Main.Decoding
import BismarkPassive.Printed
import Mathlib.Data.Nat.Digits.Lemmas

namespace bismark_passive.main

open bytes machine flow_table address_table dns

/-! The fields of a line that show an address -/

def a_address : Line → Option cstring
  | .a packet_id mac_id domain_anonymized domain address_digest ttl =>
    (Line.a packet_id mac_id domain_anonymized domain address_digest ttl).fields[4]?
  | _ => none

def flow_source : Line → Option cstring
  | .flow id source_anonymized source_digest destination_anonymized destination_digest transport_protocol
      port_source port_destination =>
    (Line.flow id source_anonymized source_digest destination_anonymized destination_digest transport_protocol
      port_source port_destination).fields[2]?
  | _ => none

def flow_destination : Line → Option cstring
  | .flow id source_anonymized source_digest destination_anonymized destination_digest transport_protocol
      port_source port_destination =>
    (Line.flow id source_anonymized source_digest destination_anonymized destination_digest transport_protocol
      port_source port_destination).fields[4]?
  | _ => none

def mapped_address : Line → Option cstring
  | .address mac ip => (Line.address mac ip).fields[1]?
  | _ => none

/-- The digest of an address as it is printed. -/
def printed_address (s : Session) (address : UInt32) : Option cstring := (anonymize_ip s address).map hexadecimal

/-- The bytes of the digest that `anonymize_ip` uses. -/
def digest_bytes (s : Session) (address : UInt32) : List UInt8 :=
  (s.externals.sha1_hmac s.anonymization.seed (s.target.bytes32 address)).toList.take 8

/-! Each section prints the digest of the address that it stores -/

section sections

variable {s : Session} (hanonymized : s.target.disable_anonymization = false) {line : Line}

include hanonymized

theorem a_line_address {table : dns_table_t} {entry : dns_a_entry_t} (hline : a_line s table entry = some line) :
    a_address line = printed_address s entry.ip_address := by
  simp only [a_line, hanonymized, Bool.false_eq_true, if_false, Option.bind_eq_bind, Option.bind_eq_some_iff,
    Option.pure_def, Option.some.injEq] at hline
  obtain ⟨digest, hdigest, _, _, rfl⟩ := hline
  rw [printed_address, hdigest]
  rfl

/-- A flow's line shows each address as `printed_address` does. -/
theorem flow_line_addresses {entry : flow_table_entry_t} (hentry : Anonymized entry) {idx : Slot}
    (hline : flow_line s idx entry = some line) :
    flow_source line = printed_address s entry.ip_source ∧
      flow_destination line = printed_address s entry.ip_destination := by
  simp only [flow_line, address_digest, hanonymized, hentry.1, hentry.2, Bool.or_self, Bool.false_eq_true, if_false,
    Option.bind_eq_bind, Option.bind_eq_some_iff, Option.pure_def, Option.some.injEq] at hline
  obtain ⟨source_digest, hsource, destination_digest, hdestination, rfl⟩ := hline
  rw [printed_address, printed_address, hsource, hdestination]
  exact ⟨rfl, rfl⟩

theorem address_line_address {entry : address_table_entry_t} (hline : address_line s entry = some line) :
    mapped_address line = printed_address s entry.ip_address := by
  simp only [address_line, hanonymized, Bool.false_eq_true, if_false, Option.bind_eq_bind, Option.bind_eq_some_iff,
    Option.pure_def, Option.some.injEq] at hline
  obtain ⟨digest, hdigest, _, _, _, _, rfl⟩ := hline
  rw [printed_address, hdigest]
  rfl

end sections

/-! Different digest bytes are printed differently -/

/-- The word that these bytes make, the least significant first. -/
def word_of_bytes (bytes : List UInt8) : UInt64 := bytes.foldr (fun byte word => word <<< 8 ||| byte.toUInt64) 0

/-- The words of a digest are read with the least significant byte first. -/
theorem word_of_bytes_toNat {bytes : List UInt8} (hlength : bytes.length ≤ 8) :
    (word_of_bytes bytes).toNat = Nat.ofDigits 256 (bytes.map UInt8.toNat) := by
  induction bytes with
  | nil => rfl
  | cons byte bytes ih =>
    rw [List.length_cons] at hlength
    have hbytes : ∀ digit ∈ bytes.map UInt8.toNat, digit < 256 := by
      intro digit hdigit
      obtain ⟨byte, _, rfl⟩ := List.mem_map.mp hdigit
      exact byte.toNat_lt
    have hword := Nat.ofDigits_lt_base_pow_length (by decide : 1 < 256) hbytes
    have hpower : 256 ^ (bytes.map UInt8.toNat).length ≤ 256 ^ 7 :=
      Nat.pow_le_pow_right (by decide) (by rw [List.length_map]; omega)
    rw [← ih (by omega)] at hword
    have hbyte : byte.toNat < 2 ^ 8 := byte.toNat_lt
    rw [word_of_bytes, List.foldr_cons, ← word_of_bytes, List.map_cons, Nat.ofDigits_cons, ← ih (by omega),
      UInt64.toNat_or, UInt64.toNat_shiftLeft, UInt8.toNat_toUInt64]
    have hshift : ((8 : UInt64).toNat % 64) = 8 := rfl
    rw [hshift, Nat.shiftLeft_eq, Nat.mod_eq_of_lt (by omega), Nat.mul_comm,
      ← Nat.two_pow_add_eq_or_of_lt hbyte, Nat.add_comm]

/-- The word determines its bytes. -/
theorem word_of_bytes_injective {first second : List UInt8} (hlength : first.length = second.length)
    (hsecond : second.length ≤ 8) (heq : word_of_bytes first = word_of_bytes second) : first = second := by
  have hdigits (bytes : List UInt8) : ∀ digit ∈ bytes.map UInt8.toNat, digit < 256 := by
    intro digit hdigit
    obtain ⟨byte, _, rfl⟩ := List.mem_map.mp hdigit
    exact byte.toNat_lt
  have hvalue := congrArg UInt64.toNat heq
  rw [word_of_bytes_toNat (hlength ▸ hsecond), word_of_bytes_toNat hsecond] at hvalue
  have hmap := Nat.ofDigits_inj_of_len_eq (by decide : 1 < 256) (by simpa using hlength) (hdigits first)
    (hdigits second) hvalue
  exact List.map_injective_iff.mpr (fun _ _ => UInt8.toNat_inj.mp) hmap

/-- Both byte orders keep different bytes apart. -/
theorem u64_of_bytes_injective (target : Target) {first second : List UInt8} (hlength : first.length = second.length)
    (hsecond : second.length ≤ 8) (heq : target.u64_of_bytes first = target.u64_of_bytes second) :
    first = second := by
  unfold Target.u64_of_bytes at heq
  cases hbig : target.big_endian with
  | false =>
    rw [hbig] at heq
    exact word_of_bytes_injective hlength hsecond heq
  | true =>
    rw [hbig] at heq
    exact List.reverse_injective (word_of_bytes_injective (by simpa using hlength) (by simpa using hsecond) heq)

/-- The text determines the digest. -/
theorem printed_address_injective {s : Session} {first second : UInt32} {text : cstring}
    (hfirst : printed_address s first = some text) (hsecond : printed_address s second = some text) :
    digest_bytes s first = digest_bytes s second := by
  unfold printed_address anonymize_ip anonymization_process at hfirst hsecond
  cases hinitialized : s.anonymization.initialized with
  | false => simp [hinitialized] at hfirst
  | true =>
    simp only [hinitialized, if_true, Option.bind_eq_bind, Option.bind_some, Option.pure_def, Option.map_some,
      Option.some.injEq] at hfirst hsecond
    have hwords := hexadecimal_injective (hfirst.trans hsecond.symm)
    have hlength (address : UInt32) : (digest_bytes s address).length = 8 := by
      rw [digest_bytes, List.length_take, Vector.length_toList]
      decide
    exact u64_of_bytes_injective s.target (by rw [hlength, hlength]) (by rw [hlength]) hwords

/-! The frames -/

def capture_t.payload (capture : capture_t) (address : Nat) : UInt8 :=
  capture.frame.memory (capture.locals.dissection.dns_bytes + address)

/-- The records that the DNS parser gets to in a packet that it is given. -/
def capture_t.dns_records (s : Session) (capture : capture_t) : List resource_record_t :=
  if 0 < capture.locals.dissection.dns_bytes_len ∧ 0 ≤ capture.locals.dissection.mac_id ∧
      0 ≤ capture.locals.packet_id then
    packet_records s.externals capture.payload capture.locals.dissection.dns_bytes_len.toNat
  else []

/-- The entry that a record of the packet adds to the A table. -/
def capture_t.a_entry (capture : capture_t) (record : resource_record_t) : Option dns_a_entry_t :=
  record.a_entry capture.payload (.ofInt capture.locals.packet_id) (.ofInt capture.locals.dissection.mac_id)

def capture_t.cname_entry (s : Session) (capture : capture_t) (record : resource_record_t) :
    Option dns_cname_entry_t :=
  record.cname_entry s.externals capture.payload capture.locals.dissection.dns_bytes_len.toNat
    (.ofInt capture.locals.packet_id) (.ofInt capture.locals.dissection.mac_id)

/-- A packet adds the entries of its records to the DNS table. -/
theorem ProcessedPacket.dns_records {s : Session} {state state' : state_t} {capture : capture_t}
    (h : ProcessedPacket s state capture.frame state' capture.locals) :
    state'.dns_table = state.dns_table.record_all ((capture.dns_records s).filterMap capture.a_entry)
      ((capture.dns_records s).filterMap (capture.cname_entry s)) := by
  rw [h.dns, process_dns, capture_t.dns_records]
  split
  · exact run_process_dns_packet_eq state.dns_table
  · exact state.dns_table.record_all_nil.symm

theorem capture_t.a_entry_address {capture : capture_t} {record : resource_record_t} (haddress : record.IsAddress)
    {address : UInt32} (hdata : Holds capture.payload record.rdata (be32 address)) :
    ∃ entry, capture.a_entry record = some entry ∧ entry.ip_address = address := by
  rw [capture_t.a_entry, resource_record_t.a_entry, if_pos haddress, run_load32 hdata]
  exact ⟨_, rfl, rfl⟩

variable {s : Session} {domain_whitelist : domain_whitelist_t} {bloom_whitelist : bloom_whitelist_t}

/-- A packet's flow has the addresses of the packet. -/
theorem main_run_flow_addresses {trace : main_trace} {capture : capture_t} {state : state_t}
    (run : main_run s domain_whitelist bloom_whitelist
      (trace ++ [(.process_packet capture.frame, .processed capture)]) state) (hflow : capture.HasFlow) :
    ∃ idx, capture.locals.flow_id.toNat = flow_id idx ∧ (state.flow_table.entries idx).Live ∧
      (state.flow_table.entries idx).ip_source = capture.frame.saddr ∧
      (state.flow_table.entries idx).ip_destination = capture.frame.daddr := by
  obtain ⟨state₀, run₀, hstep⟩ := Execution.snoc_iff.mp run
  obtain ⟨_, hpacket, -, -⟩ := main_step_packet hstep
  obtain ⟨hother, _⟩ | ⟨hip, _, hprocessed⟩ := hpacket.flow_cases
  · exact absurd hflow.1 hother
  · obtain ⟨idx, hid, hlive, hkey, -⟩ := hprocessed.accepted (main_run_flow_sound run₀) hflow.2
    have hdissected := hpacket.dissected_ip hip
    exact ⟨idx, hid, hlive, (congrArg flow_key.ip_source hkey).trans hdissected.ip_source,
      (congrArg flow_key.ip_destination hkey).trans hdissected.ip_destination⟩

/-- In an anonymising build an address is printed the same wherever a packet
carries it: as data of an address record, as source or as destination of an IP
packet. So it is in the address table, in either byte order of the host, and
addresses whose digests differ in the bytes used are printed differently. -/
theorem one_digest_per_address (hanonymized : s.target.disable_anonymization = false) {trace : main_trace}
    {capture : capture_t} {state : state_t}
    (run : main_run s domain_whitelist bloom_whitelist
      (trace ++ [(.process_packet capture.frame, .processed capture)]) state) (address : UInt32) :
    (∃ state₀, main_run s domain_whitelist bloom_whitelist trace state₀ ∧
      state.dns_table = state₀.dns_table.record_all ((capture.dns_records s).filterMap capture.a_entry)
        ((capture.dns_records s).filterMap (capture.cname_entry s))) ∧
    (∀ record ∈ capture.dns_records s, record.IsAddress → Holds capture.payload record.rdata (be32 address) →
      ∃ entry ∈ (capture.dns_records s).filterMap capture.a_entry, capture.a_entry record = some entry ∧
        ∀ line, a_line s state.dns_table entry = some line → a_address line = printed_address s address) ∧
    (capture.HasFlow → ∃ idx, capture.locals.flow_id.toNat = flow_id idx ∧ (state.flow_table.entries idx).Live ∧
      ∀ line, flow_line s idx (state.flow_table.entries idx) = some line →
        (Holds capture.frame.memory (ETHER_HDR_LEN + 12) (be32 address) →
          flow_source line = printed_address s address) ∧
        (Holds capture.frame.memory (ETHER_HDR_LEN + 16) (be32 address) →
          flow_destination line = printed_address s address)) ∧
    (∀ mac_id, (state.address_table.entries mac_id).ip_address = address →
      ∀ line, address_line s (state.address_table.entries mac_id) = some line →
        mapped_address line = printed_address s address) ∧
    ∀ other, digest_bytes s address ≠ digest_bytes s other → ∀ text, printed_address s address = some text →
      printed_address s other ≠ some text := by
  refine ⟨?_, ?_, ?_, ?_, ?_⟩
  · obtain ⟨state₀, run₀, hstep⟩ := Execution.snoc_iff.mp run
    exact ⟨state₀, run₀, (main_step_packet hstep).2.1.dns_records⟩
  · intro record hmem haddress hdata
    obtain ⟨entry, hentry, rfl⟩ := capture_t.a_entry_address haddress hdata
    exact ⟨entry, List.mem_filterMap.mpr ⟨record, hmem, hentry⟩, hentry, fun line => a_line_address hanonymized⟩
  · intro hflow
    obtain ⟨idx, hid, hlive, hsource, hdestination⟩ := main_run_flow_addresses run hflow
    refine ⟨idx, hid, hlive, fun line hline => ?_⟩
    obtain ⟨hsource_line, hdestination_line⟩ :=
      flow_line_addresses hanonymized (main_run_anonymized run idx hlive) hline
    rw [hsource_line, hdestination_line, hsource, hdestination]
    exact ⟨fun hdata => by rw [frame_t.saddr, run_load32 hdata], fun hdata => by rw [frame_t.daddr, run_load32 hdata]⟩
  · rintro mac_id rfl line hline
    exact address_line_address hanonymized hline
  · intro other hdiffer text htext hother
    exact hdiffer (printed_address_injective htext hother)

/-- A DNS response from 8.8.8.8 to 192.168.1.2 about a name of that address. -/
def address_response : frame_t where
  ts := ⟨0, 0⟩
  caplen := 69
  len := 69
  bytes := List.replicate 12 0 ++ [8, 0, 0x45, 0, 0, 55, 0, 0, 0, 0, 64, 17, 0, 0, 8, 8, 8, 8, 192, 168, 1, 2] ++
    [0, 53, 0x9c, 0x40, 0, 35, 0, 0] ++ [0, 1, 0x81, 0x80, 0, 0, 0, 1, 0, 0, 0, 0] ++
    [0, 0, 1, 0, 1, 0, 0, 0, 60, 0, 4, 192, 168, 1, 2]

theorem address_response_processed :
    (main_step anonymizing_session (initial_state anonymizing_session.target domain_whitelist_init empty_bloom)
        (.process_packet address_response)).map (fun result =>
          (captured (.process_packet address_response, result.2)).map fun capture =>
            (capture.locals.ether_type, capture.locals.flow_id, capture.locals.dissection.dns_bytes)) =
      some (some (ETHERTYPE_IP, 4913, 42)) := by
  decide +kernel

theorem address_response_records :
    (main_step anonymizing_session (initial_state anonymizing_session.target domain_whitelist_init empty_bloom)
        (.process_packet address_response)).map (fun result =>
          (captured (.process_packet address_response, result.2)).map fun capture =>
            (capture.dns_records anonymizing_session).map fun record => (decide record.IsAddress, record.rdata)) =
      some (some [(true, 23)]) := by
  decide +kernel

theorem address_response_mapped :
    (main_step anonymizing_session (initial_state anonymizing_session.target domain_whitelist_init empty_bloom)
        (.process_packet address_response)).map (fun result => (result.1.address_table.entries 0).ip_address) =
      some 0xc0a80102 := by
  decide +kernel

/-- In a build that anonymises, 192.168.1.2 has one digest as data of the
response's record, as the response's destination and in the address table. -/
theorem one_digest_per_address_response :
    ∃ capture state record entry idx, main_run anonymizing_session domain_whitelist_init empty_bloom
        [(.process_packet address_response, .processed capture)] state ∧
      record ∈ capture.dns_records anonymizing_session ∧ capture.a_entry record = some entry ∧
      capture.locals.flow_id.toNat = flow_id idx ∧ (state.address_table.entries 0).ip_address = 0xc0a80102 ∧
      (∀ line, a_line anonymizing_session state.dns_table entry = some line →
        a_address line = printed_address anonymizing_session 0xc0a80102) ∧
      (∀ line, flow_line anonymizing_session idx (state.flow_table.entries idx) = some line →
        flow_destination line = printed_address anonymizing_session 0xc0a80102) ∧
      ∀ line, address_line anonymizing_session (state.address_table.entries 0) = some line →
        mapped_address line = printed_address anonymizing_session 0xc0a80102 := by
  obtain ⟨capture, state, hframe, hstep, run⟩ := @main_run_goes_on_packet anonymizing_session rfl
    domain_whitelist_init empty_bloom [] _ .nil address_response
  have hprocessed := address_response_processed
  have hrecords := address_response_records
  have hmapped := address_response_mapped
  rw [hstep] at hprocessed hrecords hmapped
  simp only [captured, Option.map_some, Option.some.injEq, Prod.mk.injEq] at hprocessed hrecords hmapped
  obtain ⟨hip, hflow_id, hdns_bytes⟩ := hprocessed
  rw [← hframe] at run
  obtain ⟨-, hdns, hflows, haddresses, -⟩ := one_digest_per_address rfl run 0xc0a80102
  obtain ⟨record, hrecord, hsame⟩ := List.map_eq_singleton_iff.mp hrecords
  obtain ⟨haddress, hrdata⟩ := Prod.mk.inj hsame
  have hmem : record ∈ capture.dns_records anonymizing_session := hrecord ▸ List.mem_cons_self
  have hdata : Holds capture.payload record.rdata (be32 0xc0a80102) := by
    rw [hrdata]
    unfold capture_t.payload
    rw [hdns_bytes, hframe]
    exact ⟨rfl, rfl, rfl, rfl, trivial⟩
  have hdestination : Holds capture.frame.memory (ETHER_HDR_LEN + 16) (be32 0xc0a80102) := by
    rw [hframe]
    exact ⟨rfl, rfl, rfl, rfl, trivial⟩
  obtain ⟨entry, -, hentry, ha_line⟩ := hdns record hmem (of_decide_eq_true haddress) hdata
  obtain ⟨idx, hid, -, hflow_line⟩ := hflows ⟨hip, by rw [hflow_id]; decide⟩
  rw [hframe] at run
  exact ⟨capture, state, record, entry, idx, run, hmem, hentry, hid, hmapped, ha_line,
    fun line hline => (hflow_line line hline).2 hdestination, haddresses 0 hmapped⟩

end bismark_passive.main
