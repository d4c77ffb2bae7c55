import BismarkPassive.Http.Agreement
import BismarkPassive.Http.Memory
import BismarkPassive.Http.Storage
import BismarkPassive.Main.Completion
import BismarkPassive.Main.Fragments

namespace bismark_passive.http

open bytes containers

/-- A request: `GET`, spaces, a URL, a space and further text, which a zero byte ends. -/
structure IsRequest (payload : List UInt8) (url : cstring) : Prop where
  short : url.length ≤ MAX_URL
  word : Word url
  shape : ∃ spaces text rest, Spaces spaces ∧ spaces ≠ [] ∧ url ≠ [] ∧
    payload = [71, 69, 84] ++ spaces ++ url ++ 32 :: text ++ 0 :: rest

variable {payload : List UInt8} {url : cstring}

/-- A request's URL is found, whatever follows the payload. -/
theorem IsRequest.requested_url (h : IsRequest payload url) (behind : List UInt8) :
    requested_url (payload ++ behind) = some url := by
  obtain ⟨spaces, text, rest, hspaces, hspaces_ne, hurl_ne, rfl⟩ := h.shape
  obtain ⟨first, spaces, rfl⟩ := List.exists_cons_of_ne_nil hspaces_ne
  obtain ⟨rfl, hmore⟩ := spaces_cons hspaces
  have hmethod : Word [71, 69, 84] := List.all_eq_true.mp (by decide)
  have hempty : Spaces [] := fun _ hbyte => nomatch hbyte
  have hpayload : [71, 69, 84] ++ 32 :: spaces ++ url ++ 32 :: text ++ 0 :: rest ++ behind =
      [] ++ [71, 69, 84] ++ 32 :: (spaces ++ url ++ 32 :: (text ++ 0 :: rest ++ behind)) := by simp
  have hkept : ¬ MAX_URL < url.length := not_lt.mpr h.short
  have htokenize : tokenize (([71, 69, 84] ++ 32 :: spaces ++ url ++ 32 :: text ++ 0 :: rest ++ behind).takeWhile
      (· != 0)) = some ([71, 69, 84], url) := by
    rw [hpayload, string_closed hempty hmethod, string_closed hmore h.word, tokenize,
      strtok_closed hempty hmethod (by decide)]
    simp only [Option.bind_eq_bind, Option.bind_some, strtok_closed hmore h.word hurl_ne, Option.pure_def]
  rw [http.requested_url, htokenize]
  simp [strcasecmp_eq, hkept]

/-- The entry of a stored URL holds the digest exactly if no byte of the digest
but its last one is zero. -/
theorem digest_prefix_stored (digest : digest_t) :
    digest.toList <+: strdup_digest digest ++ [0] ↔ 0 ∉ digest.toList.take (ANONYMIZATION_DIGEST_LENGTH - 1) := by
  have hstored : strdup_digest digest = digest.toList.takeWhile (· ≠ 0) := by
    simp only [strdup_digest, bne, ne_eq, decide_not, beq_eq_decide]
  have hlength : digest.toList.length = ANONYMIZATION_DIGEST_LENGTH := Vector.length_toList
  rw [hstored, ← le_length_takeWhile (by omega), Nat.sub_le_iff_le_add]
  constructor
  · intro hprefix
    have hle := hprefix.length_le
    rwa [List.length_append, List.length_singleton, hlength] at hle
  · intro hle
    by_cases hzero : 0 ∈ digest.toList
    · refine List.prefix_of_prefix_length_le (List.prefix_refl _) (string_starts hzero) ?_
      rwa [List.length_append, List.length_singleton, hlength]
    · have hwhole : digest.toList.takeWhile (· ≠ 0) = digest.toList :=
        List.takeWhile_eq_self_iff.mpr fun byte hbyte => decide_eq_true fun h => hzero (h ▸ hbyte)
      rw [hwhole]
      exact List.prefix_append _ _

/-- One entry with the flow id and a copy of the URL's digest is added, or
counted as dropped if the table is full. -/
def AddsUrl (s : Session) (table table' : http_table_t) (flow_id : UInt16) (url : cstring) : Prop :=
  if table.entries.items.length < HTTP_TABLE_URL_ENTRIES then
    ∃ digest entry, anonymize_url s url = some digest ∧ entry.flow_id = flow_id ∧
      digest.toList <+: entry.url ++ [0] ∧ table'.entries.items = table.entries.items ++ [entry] ∧
      table'.num_dropped_url_entries = table.num_dropped_url_entries
  else
    table'.entries.items = table.entries.items ∧
      table'.num_dropped_url_entries = table.num_dropped_url_entries + 1

/-- A URL is added as claimed exactly if its digest has no zero byte or the table is full. -/
theorem adds_url_iff {s : Session} {table : http_table_t} {flow_id : UInt16} {result : Int × http_table_t}
    (hadd : add_url s table flow_id url = some result) {digest : digest_t}
    (hdigest : anonymize_url s url = some digest) :
    AddsUrl s table result.2 flow_id url ↔ (table.entries.items.length < HTTP_TABLE_URL_ENTRIES →
      0 ∉ digest.toList.take (ANONYMIZATION_DIGEST_LENGTH - 1)) := by
  rw [add_url, hdigest] at hadd
  obtain rfl := Option.some.inj hadd
  by_cases hroom : table.entries.items.length < HTTP_TABLE_URL_ENTRIES
  · obtain ⟨hitems, hdropped⟩ := http_table_add_url_room hroom ⟨flow_id, strdup_digest digest⟩
    simp only [AddsUrl, hroom, if_true, forall_const, ← digest_prefix_stored digest]
    constructor
    · rintro ⟨digest', entry, hdigest', -, hprefix, hadded, -⟩
      rw [hdigest, Option.some.injEq] at hdigest'
      rw [hitems, List.append_cancel_left_eq, List.singleton_inj] at hadded
      rwa [← hdigest', ← hadded] at hprefix
    · exact fun hprefix => ⟨digest, _, hdigest, rfl, hprefix, hitems, hdropped⟩
  · have hfull := http_table_add_url_full
      (Nat.le_antisymm table.entries.length_le (Nat.not_lt.mp hroom)) ⟨flow_id, strdup_digest digest⟩
    simp only [AddsUrl, hroom, if_false, false_imp_iff, hfull, and_self]

end bismark_passive.http

namespace bismark_passive.main

open bytes flow_table address_table device_throughput http

/-- A whole TCP packet to the HTTP port in a frame of at least sixty bytes: the
link layer pads shorter ones. -/
structure ipv4_capture.Segment (capture : ipv4_capture) (header : tcphdr) (payload : List UInt8) : Prop where
  protocol : capture.header.protocol = IPPROTO_TCP
  unfragmented : capture.header.frag_off &&& 0x3fff = 0
  data : capture.data = header.bytes ++ payload
  tot_len : capture.header.tot_len.toNat = capture.header.ihl * 4 + capture.data.length
  port : header.dest = HTTP_PORT
  padding : capture.trailer ≠ [] → capture.wire.length = 60

/-- The bytes that `process_packet` hands to `process_http_packet`; without any
it does not call it. -/
def dissection_t.handed (dissection : dissection_t) (frame : frame_t) : List UInt8 :=
  (frame.bytes.drop dissection.http_bytes).take dissection.http_bytes_len.toNat

variable {s : Session} {state state' : state_t} {locals : packet_locals} {capture : ipv4_capture} {header : tcphdr}
  {payload : List UInt8} {snaplen : Nat}

/-- The whole frame is captured. -/
structure ipv4_capture.Whole (capture : ipv4_capture) (snaplen : Nat) : Prop where
  least : MIN_BUFSIZ ≤ snaplen
  int : snaplen < 2 ^ 31
  captured : capture.wire.length ≤ snaplen

theorem ipv4_capture.Whole.bytes (hwhole : capture.Whole snaplen) :
    (capture.frame snaplen).bytes = capture.wire ++ capture.behind := by
  rw [ipv4_capture.frame, List.take_of_length_le hwhole.captured]

theorem ipv4_capture.Whole.caplen (hwhole : capture.Whole snaplen) :
    (capture.frame snaplen).caplen.toInt32.toInt = capture.wire.length := by
  have hlt := hwhole.int
  have hcaptured := hwhole.captured
  rw [ipv4_capture.frame, Nat.min_eq_left hcaptured]
  exact toInt32_ofNat (by omega)

/-- The TCP header in memory. -/
theorem ipv4_capture.Segment.holds_tcp (hsegment : capture.Segment header payload) (hwhole : capture.Whole snaplen) :
    Holds (capture.frame snaplen).memory capture.transport header.bytes := by
  have hwire : capture.headers ++ header.bytes <+: capture.wire := by
    rw [ipv4_capture.wire, List.prefix_append_right_inj, hsegment.data, List.append_assoc]
    exact List.prefix_append _ _
  have hheld := capture.holds hwire (hwire.length_le.trans hwhole.captured)
  rw [holds_append, capture.length_headers, Nat.zero_add] at hheld
  exact hheld.2

theorem ipv4_capture.Segment.dest (hsegment : capture.Segment header payload) (hwhole : capture.Whole snaplen) :
    (capture.frame snaplen).port_destination = HTTP_PORT := by
  have htcp := hsegment.holds_tcp hwhole
  rw [tcphdr.bytes, holds_append, be16_length, holds_append] at htcp
  rw [frame_t.port_destination, capture.transport_header_eq hwhole.least, run_load16 htcp.2.1, hsegment.port]

/-- The header's length is read back from the capture. -/
theorem ipv4_capture.Segment.doff (hsegment : capture.Segment header payload) (hwhole : capture.Whole snaplen) :
    ((load8 ((capture.frame snaplen).transport_header + 12)).run (capture.frame snaplen).memory >>> 4).toNat =
      header.doff := by
  have htcp := hsegment.holds_tcp hwhole
  rw [tcphdr.bytes, holds_append, be16_length, holds_append, be16_length, holds_append, be32_length, holds_append,
    be32_length] at htcp
  have hbyte : (capture.frame snaplen).memory (capture.transport + 12) = .ofNat (header.doff * 16 + header.res1) :=
    htcp.2.2.2.2.1
  have hnibble : ∀ doff ≤ 15, ∀ res1 < 16, (UInt8.ofNat (doff * 16 + res1) >>> 4).toNat = doff := by decide
  rw [capture.transport_header_eq hwhole.least, run_load8, hbyte, hnibble _ header.doff_le _ header.res1.isLt]

section processed

variable (hsegment : capture.Segment header payload) (hwhole : capture.Whole snaplen)
  (henabled : s.target.enable_http_url = true)
  (hpacket : ProcessedPacket s state (capture.frame snaplen) state' locals)

include hsegment hwhole henabled hpacket

/-- The length of a header without options is not subtracted a second time. -/
theorem ipv4_capture.Segment.http_bytes :
    locals.dissection.http_bytes = capture.transport + (if header.doff = 5 then 40 else header.doff * 4) ∧
      locals.dissection.http_bytes_len = capture.wire.length - locals.dissection.http_bytes := by
  have hip := (capture.holds_ip hwhole.least).1
  have htcp : (capture.frame snaplen).protocol = IPPROTO_TCP :=
    (capture.protocol_eq hwhole.least).trans hsegment.protocol
  obtain ⟨-, -, hhttp⟩ := run_get_flow_entry_for_packet_tcp hip hpacket.found htcp
  obtain ⟨hbytes, hlen⟩ := hhttp henabled (hsegment.dest hwhole)
  rw [hsegment.doff hwhole, capture.transport_header_eq hwhole.least, sizeof_tcphdr] at hbytes
  rw [hwhole.caplen] at hlen
  refine ⟨?_, hlen⟩
  have hdoff : 5 ≤ header.doff := Nat.le_add_right 5 _
  rw [hbytes]
  split <;> split <;> omega

/-- What is handed over of the payload and the padding. -/
theorem ipv4_capture.Segment.handed :
    locals.dissection.handed (capture.frame snaplen) =
      if header.doff = 5 then (payload ++ capture.trailer).drop 20 else payload ++ capture.trailer := by
  obtain ⟨hbytes, hlen⟩ := hsegment.http_bytes hwhole henabled hpacket
  have htail : ∀ offset, capture.wire.drop (capture.transport + (header.doff * 4 + offset)) =
      (payload ++ capture.trailer).drop offset := by
    intro offset
    have hwire : capture.wire = capture.headers ++ (header.bytes ++ (payload ++ capture.trailer)) := by
      rw [ipv4_capture.wire, hsegment.data, List.append_assoc]
    rw [hwire, ← capture.length_headers, List.drop_length_add_append, ← header.length_bytes,
      List.drop_length_add_append]
  have htake : locals.dissection.handed (capture.frame snaplen) = capture.wire.drop locals.dissection.http_bytes := by
    rw [dissection_t.handed, hlen, hwhole.bytes]
    by_cases hinside : locals.dissection.http_bytes ≤ capture.wire.length
    · rw [List.drop_append_of_le_length hinside]
      exact List.take_left' (by rw [List.length_drop]; omega)
    · have hnone : ((capture.wire.length : Int) - locals.dissection.http_bytes).toNat = 0 := by omega
      rw [hnone, List.take_zero, List.drop_eq_nil_of_le (by omega)]
  rw [htake, hbytes]
  split
  · rename_i hfive
    have hoffset : capture.transport + 40 = capture.transport + (header.doff * 4 + 20) := by omega
    rw [hoffset, htail]
  · exact htail 0

omit henabled hpacket hwhole in
theorem ipv4_capture.Segment.length_wire :
    capture.wire.length =
      capture.transport + header.doff * 4 + payload.length + capture.trailer.length := by
  rw [ipv4_capture.wire, List.length_append, List.length_append, capture.length_headers, hsegment.data,
    List.length_append, header.length_bytes]
  omega

/-- The payload and nothing else is handed over exactly if the header has
options and the frame is not padded, or has none and there is no payload. -/
theorem ipv4_capture.Segment.handed_iff :
    locals.dissection.handed (capture.frame snaplen) = payload ↔
      if header.doff = 5 then payload = [] else capture.trailer = [] := by
  have hlength := hsegment.length_wire
  have htransport : 34 ≤ capture.transport := by
    rw [ipv4_capture.transport, iphdr.ihl, ETHER_HDR_LEN]
    omega
  have hdoff : 5 ≤ header.doff := Nat.le_add_right 5 _
  rw [hsegment.handed hwhole henabled hpacket]
  split
  · have hshort : capture.trailer ≠ [] → payload.length + capture.trailer.length ≤ 6 := by
      intro hpadded
      have hpadding := hsegment.padding hpadded
      omega
    constructor
    · intro hhanded
      by_contra hne
      have hpositive := List.length_pos_of_ne_nil hne
      have hlengths := congrArg List.length hhanded
      rw [List.length_drop, List.length_append] at hlengths
      by_cases hpadded : capture.trailer = []
      · rw [hpadded, List.length_nil] at hlengths
        omega
      · have hle := hshort hpadded
        omega
    · rintro rfl
      rw [List.nil_append]
      by_cases hpadded : capture.trailer = []
      · rw [hpadded, List.drop_nil]
      · have hle := hshort hpadded
        exact List.drop_eq_nil_of_le (by omega)
  · exact List.append_right_eq_self

end processed

/-- The packet is processed to its end, its payload is what the request is
looked for in, and a request in it adds its URL. -/
def ServesRequests (s : Session) (state : state_t) (frame : frame_t) (payload : List UInt8) : Prop :=
  ∃ state' locals, process_packet s state frame = some (state', locals) ∧
    locals.dissection.handed frame = payload ∧
    ∀ url, IsRequest payload url → AddsUrl s state.http_table state'.http_table locals.flow_id url

variable (hanonymized : s.target.disable_anonymization = false) (henabled : s.target.enable_http_url = true)
  (hinitialized : s.anonymization.initialized = true)

include hanonymized henabled in
/-- The parser adds the URL of a request that is handed to it. -/
theorem ProcessedPacket.add_url {frame : frame_t} (hpacket : ProcessedPacket s state frame state' locals)
    (hhanded : locals.dissection.handed frame = payload) {url : cstring}
    (hrequest : IsRequest payload url) :
    ∃ result, http.add_url s state.http_table locals.flow_id url = some result ∧ state'.http_table = result.2 := by
  have hne : payload ≠ [] := by
    obtain ⟨spaces, text, rest, -, -, -, hshape⟩ := hrequest.shape
    simp [hshape]
  have hpositive : 0 < locals.dissection.http_bytes_len := by
    by_contra hnot
    have hzero : locals.dissection.http_bytes_len.toNat = 0 := by omega
    rw [dissection_t.handed, hzero, List.take_zero] at hhanded
    exact hne hhanded.symm
  obtain ⟨behind, hbytes⟩ : ∃ behind, frame.bytes.drop locals.dissection.http_bytes = payload ++ behind := by
    rw [← hhanded, dissection_t.handed]
    exact ⟨_, (List.take_append_drop _ _).symm⟩
  have hhttp := hpacket.http
  rw [process_http, henabled, Bool.true_and, if_pos (decide_eq_true hpositive), hbytes,
    process_http_packet_eq hanonymized hpositive, hrequest.requested_url] at hhttp
  simp only [Option.bind_eq_bind, Option.bind_eq_some_iff, Option.pure_def, Option.some.injEq] at hhttp
  obtain ⟨result, hadd, htable⟩ := hhttp
  exact ⟨result, hadd, htable.symm⟩

include hanonymized henabled hinitialized in
/-- Requests are found exactly where the header has options, and their digests
are kept where only the last byte may be zero. -/
theorem requests_served_iff (hwhole : capture.Whole snaplen) (hsegment : capture.Segment header payload)
    (state : state_t) :
    ServesRequests s state (capture.frame snaplen) payload ↔
      (if header.doff = 5 then payload = [] else capture.trailer = []) ∧
        ∀ url, IsRequest payload url → state.http_table.entries.items.length < HTTP_TABLE_URL_ENTRIES →
          0 ∉ (s.externals.sha1_hmac s.anonymization.seed url).toList.take (ANONYMIZATION_DIGEST_LENGTH - 1) := by
  have hdigest (url : cstring) :
      anonymize_url s url = some (s.externals.sha1_hmac s.anonymization.seed url) := by
    rw [anonymize_url, anonymization_process, if_pos hinitialized]
  constructor
  · rintro ⟨state', locals, hprocess, hhanded, hadds⟩
    have hpacket := process_packet_spec hprocess
    refine ⟨(hsegment.handed_iff hwhole henabled hpacket).mp hhanded, fun url hrequest => ?_⟩
    obtain ⟨result, hadd, htable⟩ := hpacket.add_url hanonymized henabled hhanded hrequest
    have hadded := hadds url hrequest
    rw [htable] at hadded
    exact (adds_url_iff hadd (hdigest url)).mp hadded
  · rintro ⟨hplaced, hkept⟩
    obtain ⟨state', locals, hprocess⟩ := process_packet_completes hinitialized state (capture.frame snaplen)
    have hpacket := process_packet_spec hprocess
    have hhanded := (hsegment.handed_iff hwhole henabled hpacket).mpr hplaced
    refine ⟨state', locals, hprocess, hhanded, fun url hrequest => ?_⟩
    obtain ⟨result, hadd, htable⟩ := hpacket.add_url hanonymized henabled hhanded hrequest
    rw [htable]
    exact (adds_url_iff hadd (hdigest url)).mpr (hkept url hrequest)

/-- `"GET /a x"` and a zero byte -/
def get_payload : List UInt8 := [71, 69, 84, 32, 47, 97, 32, 120, 0]

theorem get_payload_request : IsRequest get_payload [47, 97] where
  short := by decide
  word := List.all_eq_true.mp (by decide)
  shape := ⟨[32], [120], [], List.all_eq_true.mp (by decide), by decide, by decide, rfl⟩

/-- A TCP header to the HTTP port. -/
def get_header (options : List UInt8) (options_words : options.length % 4 = 0) (options_le : options.length ≤ 40) :
    tcphdr where
  source := 40000
  dest := HTTP_PORT
  seq := 1
  ack_seq := 1
  res1 := 0
  flags := 0x18
  window := 1000
  check := 0
  urg_ptr := 0
  options := options
  options_words := options_words
  options_le := options_le

/-- The packet with the header and the payload. -/
def get_capture (header : tcphdr) : ipv4_capture where
  ts := ⟨0, 0⟩
  ether_dhost := .replicate ETH_ALEN 1
  ether_shost := .replicate ETH_ALEN 2
  header :=
    { tos := 0
      tot_len := .ofNat (20 + (header.doff * 4 + 9))
      id := 7
      frag_off := 0x4000
      ttl := 64
      protocol := IPPROTO_TCP
      check := 0
      saddr := 0xc0a80102
      daddr := 0x08080808
      options := []
      options_words := no_options_words
      options_le := no_options_le }
  data := header.bytes ++ get_payload
  trailer := []
  behind := []

/-- The example's capture is a segment. -/
theorem get_capture_segment {header : tcphdr} (hport : header.dest = HTTP_PORT) :
    (get_capture header).Segment header get_payload where
  protocol := rfl
  unfragmented := by
    have hflags : (get_capture header).header.frag_off = 0x4000 := rfl
    rw [hflags]
    decide
  data := rfl
  tot_len := by
    have hdoff := header.doff_le
    have hpayload : get_payload.length = 9 := rfl
    have hihl : (get_capture header).header.ihl = 5 := by simp [get_capture, iphdr.ihl]
    have hdata : (get_capture header).data.length = header.doff * 4 + 9 := by
      rw [get_capture, List.length_append, header.length_bytes, hpayload]
    rw [hihl, hdata, get_capture, UInt16.toNat_ofNat']
    omega
  port := hport
  padding := fun hne => absurd rfl hne

/-- With a header of six words. -/
def long_header : tcphdr := get_header [2, 4, 5, 180] rfl (by decide)

def short_header : tcphdr := get_header [] no_options_words no_options_le

def request_session : Session :=
  { two_urls_session with target := { two_urls_session.target with enable_http_url := true } }

def request_state : state_t := initial_state request_session.target domain_whitelist_init empty_bloom

/-- A segment whose header carries options. -/
theorem requests_served_iff_long_header :
    ServesRequests request_session request_state ((get_capture long_header).frame 8192) get_payload ↔
      (if long_header.doff = 5 then get_payload = [] else (get_capture long_header).trailer = []) ∧
        ∀ url, IsRequest get_payload url →
          request_state.http_table.entries.items.length < HTTP_TABLE_URL_ENTRIES →
            0 ∉ (request_session.externals.sha1_hmac request_session.anonymization.seed url).toList.take
              (ANONYMIZATION_DIGEST_LENGTH - 1) :=
  requests_served_iff rfl rfl rfl ⟨by decide, by decide, by decide⟩ (get_capture_segment rfl) request_state

/-- Behind a header without options the request is not found. -/
theorem request_missed :
    (get_capture short_header).Segment short_header get_payload ∧ IsRequest get_payload [47, 97] ∧
      ¬ ServesRequests request_session request_state ((get_capture short_header).frame 8192) get_payload ∧
      ∀ state' locals,
        process_packet request_session request_state ((get_capture short_header).frame 8192) = some (state', locals) →
          locals.dissection.handed ((get_capture short_header).frame 8192) = [] ∧
            state'.http_table = request_state.http_table := by
  have hsegment : (get_capture short_header).Segment short_header get_payload := get_capture_segment rfl
  have hwhole : (get_capture short_header).Whole 8192 := ⟨by decide, by decide, by decide⟩
  have hhanded {state' : state_t} {locals : packet_locals}
      (hpacket : ProcessedPacket request_session request_state ((get_capture short_header).frame 8192) state' locals) :
      locals.dissection.handed ((get_capture short_header).frame 8192) = [] :=
    (hsegment.handed hwhole rfl hpacket).trans rfl
  refine ⟨hsegment, get_payload_request, ?_, fun state' locals hprocess => ?_⟩
  · rintro ⟨state', locals, hprocess, hwanted, -⟩
    rw [hhanded (process_packet_spec hprocess)] at hwanted
    exact absurd hwanted (by decide)
  · have hpacket := process_packet_spec hprocess
    refine ⟨hhanded hpacket, ?_⟩
    obtain ⟨hbytes, hlen⟩ := hsegment.http_bytes hwhole rfl hpacket
    have hoffset : locals.dissection.http_bytes = 74 := hbytes.trans rfl
    have hwire : (get_capture short_header).wire.length = 63 := rfl
    rw [hoffset, hwire] at hlen
    have hhttp := hpacket.http
    have hnone : decide (0 < locals.dissection.http_bytes_len) = false := by
      rw [hlen]
      decide
    rw [process_http, hnone, Bool.and_false, if_neg Bool.false_ne_true, Option.some.injEq] at hhttp
    exact hhttp.symm

end bismark_passive.main
