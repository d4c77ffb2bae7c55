import BismarkPassive.Machine.Lockstep
import BismarkPassive.Main.Correspondence
import BismarkPassive.Main.Decoding
import BismarkPassive.Main.Digests

namespace bismark_passive.main

open bytes machine flow_table address_table packet_series dns http drop_statistics

variable {rename : Equiv.Perm UInt32} {s s' : Session} {same : Prop}

/-! One packet in each of two runs -/

/-- The dissections of two corresponding packets, by the type of the frame. -/
theorem ProcessedPacket.found_corresponds (hs : Session.Corresponds rename s s') {frame other : frame_t}
    (h : frame.Corresponds rename s s' other) {state state' second second' : state_t} {locals locals' : packet_locals}
    (htables : state.address_table.Corresponds rename second.address_table)
    (hfirst : ProcessedPacket s state frame state' locals)
    (hsecond : ProcessedPacket s' second other second' locals') :
    locals'.ether_type = locals.ether_type ∧ state'.address_table.Corresponds rename second'.address_table ∧
      ((locals.ether_type ≠ ETHERTYPE_IP ∧ locals.dissection = dissection_init ∧
          locals'.dissection = dissection_init) ∨
        (locals.ether_type = ETHERTYPE_IP ∧ frame.PayloadCorresponds rename s s' other ∧
          locals'.dissection = locals.dissection.renamed rename ∧ Found s.target frame locals.dissection)) := by
  have hfound := hfirst.found
  have hfound' := hsecond.found
  have htype : (load16 (2 * ETH_ALEN)).run other.memory = (load16 (2 * ETH_ALEN)).run frame.memory := h.ether_type
  simp only [get_flow_entry_for_packet, Reader.run_bind, htype] at hfound hfound'
  by_cases hip : (load16 (2 * ETH_ALEN)).run frame.memory = ETHERTYPE_IP
  · rw [if_pos hip] at hfound hfound'
    simp only [Reader.run_bind, Reader.run_pure, Prod.mk.injEq] at hfound hfound'
    obtain ⟨htype, hdissection, haddress, -⟩ := hfound
    obtain ⟨htype', hdissection', haddress', -⟩ := hfound'
    have hpayload := h.payload hip
    have hshost : (load_mac ETH_ALEN).run other.memory = frame.ether_shost := h.ether_shost
    have hdhost : (load_mac 0).run other.memory = frame.ether_dhost := h.ether_dhost
    rw [h.caplen, hshost, hdhost] at hdissection' haddress'
    obtain ⟨hrenamed, hcorresponds⟩ := run_dissect_ip_corresponds hs hpayload frame.caplen.toInt32.toInt
      frame.ether_shost frame.ether_dhost htables
    refine ⟨htype'.symm.trans htype, ?_, .inr ⟨htype.symm.trans hip, hpayload, ?_, ?_⟩⟩
    · rw [← haddress, ← haddress']
      exact hcorresponds
    · rw [← hdissection, ← hdissection']
      exact hrenamed
    · rw [← hdissection]
      exact run_dissect_ip_found s.target frame state.address_table
  · rw [if_neg hip] at hfound hfound'
    simp only [Reader.run_pure, Prod.mk.injEq] at hfound hfound'
    obtain ⟨htype, hdissection, haddress, -⟩ := hfound
    obtain ⟨htype', hdissection', haddress', -⟩ := hfound'
    refine ⟨htype'.symm.trans htype, ?_, .inl ⟨htype ▸ hip, hdissection.symm, hdissection'.symm⟩⟩
    rw [← haddress, ← haddress']
    exact htables

/-- The flow is assigned the same slot, and the tables keep corresponding. -/
theorem process_flow_corresponds {target : Target} {ether_type : UInt16} {entry entry' : flow_table_entry_t}
    (hentry : ether_type = ETHERTYPE_IP → entry' = entry.renamed rename ∧
      probes target (fnv_hash target) (entry.key.renamed rename) = probes target (fnv_hash target) entry.key)
    (timestamp_seconds : Int) {table other : flow_table_t} (h : table.Corresponds rename other) :
    (process_flow target ether_type entry' timestamp_seconds other).1 =
        (process_flow target ether_type entry timestamp_seconds table).1 ∧
      (process_flow target ether_type entry timestamp_seconds table).2.Corresponds rename
        (process_flow target ether_type entry' timestamp_seconds other).2 := by
  unfold process_flow
  by_cases hip : ether_type = ETHERTYPE_IP
  · obtain ⟨rfl, hprobes⟩ := hentry hip
    obtain ⟨hid, htables⟩ := flow_table_process_flow_corresponds h entry hprobes timestamp_seconds
    rw [if_pos hip, if_pos hip]
    exact ⟨congrArg UInt16.ofNat hid, htables⟩
  · rw [if_neg hip, if_neg hip]
    exact ⟨rfl, h⟩

/-- The records of the DNS payload are the same. -/
theorem process_dns_corresponds {frame other : frame_t} (h : frame.PayloadCorresponds rename s s' other)
    {dissection : dissection_t} (hfound : Found s.target frame dissection) (packet_id : Int)
    {table table' : dns_table_t}
    (htables : table.Corresponds rename s s' table') :
    (process_dns s frame dissection packet_id table).Corresponds rename s s'
      (process_dns s' other (dissection.renamed rename) packet_id table') := by
  unfold process_dns
  rw [dissection_t.renamed]
  by_cases hwanted : 0 < dissection.dns_bytes_len ∧ 0 ≤ dissection.mac_id ∧ 0 ≤ packet_id
  · rw [if_pos hwanted, if_pos hwanted]
    obtain ⟨hudp, hport, hbytes, hlen⟩ := hfound.response hwanted.1
    have hrecords := h.response hudp hport
    simp only [hbytes, hlen, run_process_dns_packet_eq, hrecords.a_entries, hrecords.cname_entries]
    exact htables.record_all (fun entry hentry => hrecords.a_name _ _ hentry)
      fun entry hentry => hrecords.cname_names _ _ hentry
  · rw [if_neg hwanted, if_neg hwanted]
    exact htables

/-- The digests of the HTTP payload are the same; their flow ids need the same probe path. -/
theorem process_http_agrees (hs : Session.Corresponds rename s s')
    (hanonymized : s.target.disable_anonymization = false) {frame other : frame_t}
    (h : frame.PayloadCorresponds rename s s' other) {dissection : dissection_t}
    (hfound : Found s.target frame dissection) {table table' result result' : http_table_t}
    (htables : table.Agrees same table') {flow_id flow_id' : UInt16} (hflow : same → flow_id' = flow_id)
    (hfirst : process_http s frame dissection flow_id table = some result)
    (hsecond : process_http s' other (dissection.renamed rename) flow_id' table' = some result') :
    result.Agrees same result' := by
  unfold process_http at hfirst hsecond
  rw [dissection_t.renamed, hs.target] at hsecond
  by_cases hwanted : (s.target.enable_http_url && decide (0 < dissection.http_bytes_len)) = true
  · rw [if_pos hwanted] at hfirst hsecond
    simp only [Bool.and_eq_true, decide_eq_true_eq] at hwanted
    obtain ⟨henabled, htcp, hport, hbytes⟩ := hfound.request hwanted.2
    obtain ⟨-, hpayload, hurl⟩ := h.request henabled htcp hport
    rw [hbytes] at hfirst hsecond
    rw [hpayload] at hsecond
    simp only [Option.bind_eq_bind, Option.bind_eq_some_iff, Option.pure_def, Option.some.injEq] at hfirst hsecond
    obtain ⟨⟨_, first⟩, hprocess, rfl⟩ := hfirst
    obtain ⟨⟨_, second⟩, hprocess', rfl⟩ := hsecond
    exact process_http_packet_agrees hanonymized hs.target hwanted.2 hurl htables hflow hprocess hprocess'
  · rw [if_neg hwanted, Option.some.injEq] at hfirst hsecond
    rw [← hfirst, ← hsecond]
    exact htables

/-! The states of two runs on corresponding packets -/

/-- The tables agree except for the addresses in them, which correspond, and
for what depends on the flow ids, which is the same only under `same`. -/
structure state_t.Corresponds (rename : Equiv.Perm UInt32) (s s' : Session) (same : Prop) (state other : state_t) :
    Prop where
  packet_data : state.packet_data.Agrees same other.packet_data
  flow_table : same → state.flow_table.Corresponds rename other.flow_table
  dns_table : state.dns_table.Corresponds rename s s' other.dns_table
  http_table : state.http_table.Agrees same other.http_table
  address_table : state.address_table.Corresponds rename other.address_table
  domain_whitelist : other.domain_whitelist = state.domain_whitelist
  bloom_whitelist : other.bloom_whitelist = state.bloom_whitelist
  drop_statistics : other.drop_statistics = state.drop_statistics
  sequence_number : other.sequence_number = state.sequence_number

/-- The runs start alike. -/
theorem initial_state_corresponds (target : Target) (domain_whitelist : domain_whitelist_t)
    (bloom_whitelist : bloom_whitelist_t) :
    (initial_state target domain_whitelist bloom_whitelist).Corresponds rename s s' same
      (initial_state target domain_whitelist bloom_whitelist) where
  packet_data := packet_series_init_agrees
  flow_table _ := flow_table_init_corresponds
  dns_table := dns_table_init_corresponds _ _
  http_table := http_table_init_agrees
  address_table := address_table_init_corresponds
  domain_whitelist := rfl
  bloom_whitelist := rfl
  drop_statistics := rfl
  sequence_number := rfl

/-- The flow of the packet and the one it corresponds to have the same probe path. -/
def frame_t.SamePath (rename : Equiv.Perm UInt32) (target : Target) (frame : frame_t) : Prop :=
  frame.ether_type = ETHERTYPE_IP →
    probes target (fnv_hash target) (frame.flow_key.renamed rename) = probes target (fnv_hash target) frame.flow_key

/-- Corresponding packets keep the states corresponding. -/
theorem ProcessedPacket.corresponds (hs : Session.Corresponds rename s s')
    (hanonymized : s.target.disable_anonymization = false) {frame other : frame_t}
    (h : frame.Corresponds rename s s' other) (hpath : same → frame.SamePath rename s.target)
    {state state' second second' : state_t} {locals locals' : packet_locals}
    (hstates : state.Corresponds rename s s' same second) (hfirst : ProcessedPacket s state frame state' locals)
    (hsecond : ProcessedPacket s' second other second' locals') :
    state'.Corresponds rename s s' same second' := by
  obtain ⟨htype, haddress, hdissection⟩ := hfirst.found_corresponds hs h hstates.address_table hsecond
  have htype_frame : locals.ether_type = frame.ether_type :=
    run_get_flow_entry_for_packet_ether_type _ _ _ _ hfirst.found
  have hflows : same → locals'.flow_id = locals.flow_id ∧ state'.flow_table.Corresponds rename second'.flow_table := by
    intro hsame
    have hentry : locals.ether_type = ETHERTYPE_IP →
        locals'.dissection.entry = locals.dissection.entry.renamed rename ∧
        probes s.target (fnv_hash s.target) (locals.dissection.entry.key.renamed rename) =
          probes s.target (fnv_hash s.target) locals.dissection.entry.key := by
      intro hip
      obtain ⟨hother, _⟩ | ⟨_, _, hrenamed, hfound⟩ := hdissection
      · exact absurd hip hother
      · rw [hrenamed, hfound.key]
        exact ⟨rfl, hpath hsame (htype_frame ▸ hip)⟩
    have hprocess := process_flow_corresponds hentry frame.ts.tv_sec (hstates.flow_table hsame)
    have hsecond_flow := hsecond.flow
    rw [hs.target, htype, h.ts] at hsecond_flow
    rw [hfirst.flow, hsecond_flow] at hprocess
    exact hprocess
  have hids : same → (locals'.flow_id.toNat : Int) = locals.flow_id.toNat := fun hsame => by rw [(hflows hsame).1]
  have hseries := packet_series_add_packet_agrees hstates.packet_data frame.ts frame.len hids
  have hsecond_series := hsecond.series
  rw [h.ts, h.len] at hsecond_series
  rw [hfirst.series, hsecond_series] at hseries
  obtain ⟨hid, hseries⟩ := hseries
  simp only at hid
  refine ⟨hseries, fun hsame => (hflows hsame).2, ?_, ?_, haddress, ?_, ?_, ?_, ?_⟩
  · rw [hfirst.dns, hsecond.dns, hid]
    obtain ⟨_, hinit, hinit'⟩ | ⟨_, hpayload, hrenamed, hfound⟩ := hdissection
    · rw [hinit, hinit']
      exact hstates.dns_table
    · rw [hrenamed]
      exact process_dns_corresponds hpayload hfound _ hstates.dns_table
  · have hhttp := hfirst.http
    have hhttp' := hsecond.http
    obtain ⟨_, hinit, hinit'⟩ | ⟨_, hpayload, hrenamed, hfound⟩ := hdissection
    · -- There is no request in packets of other protocols.
      rw [hinit] at hhttp
      rw [hinit'] at hhttp'
      have hnone : ¬ (0 : Int) < dissection_init.http_bytes_len := by decide
      simp only [process_http, hnone, decide_false, Bool.and_false, Bool.false_eq_true, if_false,
        Option.some.injEq] at hhttp hhttp'
      rw [← hhttp, ← hhttp']
      exact hstates.http_table
    · rw [hrenamed] at hhttp'
      exact process_http_agrees hs hanonymized hpayload hfound hstates.http_table (fun hsame => (hflows hsame).1)
        hhttp hhttp'
  · rw [hfirst.domain_whitelist, hsecond.domain_whitelist, hstates.domain_whitelist]
  · rw [hfirst.bloom_whitelist, hsecond.bloom_whitelist, hstates.bloom_whitelist]
  · rw [hfirst.drops, hsecond.drops, hid, h.len, hstates.drop_statistics]
  · rw [hfirst.sequence_number, hsecond.sequence_number, hstates.sequence_number]

/-! One update in each of two runs -/

/-- Everything in an update except the flow ids and the flow records. -/
def update_t.without_flows (update : update_t) : update_t :=
  { update with
    packets := update.packets.map Line.without_flow_id
    flows := []
    urls := update.urls.map Line.without_flow_id }

theorem map_some_inj {lines lines' : List Line} : lines.map some = lines'.map some ↔ lines = lines' :=
  List.map_inj_right fun _ _ => Option.some.inj

/-- The sections before the first table. -/
theorem write_update_preamble {state state' : state_t} {io : update_io} {update : update_t}
    (h : write_update s state io = some (state', update)) :
    ∃ handle₀ handle₁ handle₂ handle₃, io.open_file = some handle₀ ∧
      write_section (write_header s state io) handle₀ = some (update.header, handle₁) ∧
      write_section (write_whitelist state) handle₁ = some (update.whitelist, handle₂) ∧
      write_section (write_anonymization s) handle₂ = some (update.anonymization, handle₃) := by
  obtain ⟨handle₀, handle₁, handle₂, handle₃, _, _, _, _, _, _, _, _, hopen, hheader, hwhitelist, hanonymization, -⟩ :=
    write_update_eq_some_iff.mp h
  exact ⟨handle₀, handle₁, handle₂, handle₃, hopen, hheader, hwhitelist, hanonymization⟩

/-- The parts of an update that show no table are the same. -/
theorem write_update_preamble_corresponds (hs : Session.Corresponds rename s s')
    {state state' second second' : state_t} {io : update_io} {update update' : update_t}
    (hstates : state.Corresponds rename s s' same second) (hfirst : write_update s state io = some (state', update))
    (hsecond : write_update s' second io = some (second', update')) :
    update'.header = update.header ∧ update'.whitelist = update.whitelist ∧
      update'.anonymization = update.anonymization := by
  have hheader_writer : write_header s' second io = write_header s state io := by
    rw [write_header, write_header, hs.build_id, hs.bismark_id, hs.start_timestamp, hstates.sequence_number]
  have hwhitelist_writer : write_whitelist second = write_whitelist state := by
    rw [write_whitelist, write_whitelist, hstates.sequence_number, hstates.domain_whitelist]
  have hanonymization_writer : write_anonymization s' = write_anonymization s := by
    rw [write_anonymization, write_anonymization, hs.target, anonymization_write_update, hs.seed_hex_digest,
      anonymization_write_update]
  obtain ⟨_, _, _, _, hopen, hheader, hwhitelist, hanonymization⟩ := write_update_preamble hfirst
  obtain ⟨_, _, _, _, hopen', hheader', hwhitelist', hanonymization'⟩ := write_update_preamble hsecond
  rw [hopen, Option.some.injEq] at hopen'
  rw [← hopen', hheader_writer, hheader, Option.some.injEq, Prod.mk.injEq] at hheader'
  rw [← hheader'.2, hwhitelist_writer, hwhitelist, Option.some.injEq, Prod.mk.injEq] at hwhitelist'
  rw [← hwhitelist'.2, hanonymization_writer, hanonymization, Option.some.injEq, Prod.mk.injEq] at hanonymization'
  exact ⟨hheader'.1.symm, hwhitelist'.1.symm, hanonymization'.1.symm⟩

section updated

variable (hs : Session.Corresponds rename s s') (hanonymized : s.target.disable_anonymization = false)
  {state state' second second' : state_t} {io : update_io} {update update' : update_t}
  (hstates : state.Corresponds rename s s' same second) (hfirst : Updated s state io state' update)
  (hsecond : Updated s' second io second' update')

include hs hstates hfirst hsecond

/-- An update leaves corresponding tables behind. -/
theorem Updated.reset_corresponds : state'.Corresponds rename s s' same second' := by
  rw [hfirst.reset, hsecond.reset, reset_state, reset_state, hs.target, hstates.domain_whitelist,
    hstates.bloom_whitelist, hstates.drop_statistics, hstates.sequence_number]
  refine ⟨packet_series_init_agrees, fun hsame => ?_, dns_table_init_corresponds _ _, ?_,
    hstates.address_table.reset_added, rfl, rfl, rfl, rfl⟩
  · exact flow_table_advance_base_timestamp_corresponds ((hstates.flow_table hsame).mark_sent all_slots) _
  · dsimp only
    split
    · exact http_table_init_agrees
    · exact hstates.http_table

/-- The URL sections agree apart from flow ids. -/
theorem Updated.urls_corresponds :
    update'.urls.map Line.without_flow_id = update.urls.map Line.without_flow_id ∧
      (same → update'.urls = update.urls) := by
  obtain ⟨hunwanted, hurls⟩ | ⟨hwanted, lines, hlines, hurls⟩ := hfirst.urls
  · obtain ⟨_, hurls'⟩ | ⟨hwanted', _⟩ := hsecond.urls
    · rw [hurls, hurls']
      exact ⟨rfl, fun _ => rfl⟩
    · rw [hs.target, hunwanted] at hwanted'
      cases hwanted'
  · obtain ⟨hunwanted', _⟩ | ⟨_, lines', hlines', hurls'⟩ := hsecond.urls
    · rw [hs.target, hwanted] at hunwanted'
      cases hunwanted'
    · have hagree := url_lines_agree hstates.http_table io.heap hlines hlines'
      rw [hurls, hurls', hstates.http_table.num_dropped]
      refine ⟨?_, fun hsame => ?_⟩
      · simp only [List.cons_append, List.map_cons, List.map_append, hagree]
      · rw [hstates.http_table.eq_of_same hsame, hlines, map_some_inj] at hlines'
        rw [hlines']

include hanonymized

/-- The DNS sections are the same. -/
theorem Updated.dns_corresponds : update'.dns = update.dns := by
  obtain ⟨a_lines, cname_lines, ha, hcname, hdns⟩ := hfirst.dns
  obtain ⟨a_lines', cname_lines', ha', hcname', hdns'⟩ := hsecond.dns
  obtain ⟨ha_same, hcname_same, hsection⟩ := dns_section_corresponds hstates.dns_table hanonymized hs.target
    hs.addresses a_lines cname_lines
  rw [ha_same, ha, map_some_inj] at ha'
  rw [hcname_same, hcname, map_some_inj] at hcname'
  rw [hdns, hdns', ← ha', ← hcname', hsection]

theorem Updated.addresses_corresponds : update'.addresses = update.addresses := by
  obtain ⟨lines, hlines, haddresses⟩ := hfirst.addresses
  obtain ⟨lines', hlines', haddresses'⟩ := hsecond.addresses
  obtain ⟨hsame, hsection⟩ := address_section_corresponds hstates.address_table hanonymized hs.target hs.addresses
    hs.macs lines
  rw [hsame, hlines, map_some_inj] at hlines'
  rw [haddresses, haddresses', ← hlines', hsection]

end updated

/-! Two runs -/

/-- The events are the same except for the IP addresses in packets. -/
inductive main_event.Corresponds (rename : Equiv.Perm UInt32) (s s' : Session) : main_event → main_event → Prop where
  | process_packet {frame other : frame_t} (h : frame.Corresponds rename s s' other) :
      Corresponds rename s s' (.process_packet frame) (.process_packet other)
  | write_update (io : update_io) (healthy : io.Healthy) :
      Corresponds rename s s' (.write_update io healthy) (.write_update io healthy)

def main_event.SamePath (rename : Equiv.Perm UInt32) (target : Target) : main_event → Prop
  | .process_packet frame => frame.SamePath rename target
  | .write_update .. => True

/-- Updates that agree except for the flow ids and records, and under `same`
in these too. -/
inductive main_output.Agrees (same : Prop) : main_output → main_output → Prop where
  | processed (capture capture' : capture_t) : Agrees same (.processed capture) (.processed capture')
  | written {update update' : update_t} (hwithout : update'.without_flows = update.without_flows)
      (hsame : same → update' = update) : Agrees same (.written update) (.written update')

/-- One step of the two runs in lockstep. -/
theorem main_step_corresponds (hs : Session.Corresponds rename s s')
    (hanonymized : s.target.disable_anonymization = false)
    {state state' second second' : state_t} {event event' : main_event} {output output' : main_output}
    (hflags : ∀ idx, (state.flow_table.entries idx).Live → Anonymized (state.flow_table.entries idx))
    (hstates : state.Corresponds rename s s' same second) (hevents : event.Corresponds rename s s' event')
    (hpath : same → event.SamePath rename s.target) (hstep : main_step s state event = some (state', output))
    (hstep' : main_step s' second event' = some (second', output')) :
    state'.Corresponds rename s s' same second' ∧ output.Agrees same output' := by
  cases hevents with
  | process_packet h =>
    obtain ⟨capture, hevent, rfl, hpacket, _⟩ | ⟨_, _, _, hevent, _⟩ := main_step_cases hstep
    · obtain ⟨capture', hevent', rfl, hpacket', _⟩ | ⟨_, _, _, hevent', _⟩ := main_step_cases hstep'
      · cases hevent
        cases hevent'
        exact ⟨hpacket.corresponds hs hanonymized h hpath hstates hpacket', .processed capture capture'⟩
      · cases hevent'
    · cases hevent
  | write_update io healthy =>
    simp only [main_step, Option.map_eq_some_iff, Prod.mk.injEq] at hstep hstep'
    obtain ⟨⟨_, update⟩, hwrite, rfl, rfl⟩ := hstep
    obtain ⟨⟨_, update'⟩, hwrite', rfl, rfl⟩ := hstep'
    have hfirst := write_update_spec healthy hwrite
    have hsecond := write_update_spec healthy hwrite'
    obtain ⟨hheader, hwhitelist, hanonymization⟩ := write_update_preamble_corresponds hs hstates hwrite hwrite'
    obtain ⟨hpackets, hpackets_same⟩ := packet_section_agrees hstates.packet_data
    obtain ⟨hurls, hurls_same⟩ := hfirst.urls_corresponds hs hstates hsecond
    have hdns := hfirst.dns_corresponds hs hanonymized hstates hsecond
    have haddresses := hfirst.addresses_corresponds hs hanonymized hstates hsecond
    have hdrops : update'.drops = update.drops := by
      rw [hfirst.drops, hsecond.drops, hstates.drop_statistics]
    refine ⟨hfirst.reset_corresponds hs hstates hsecond, .written ?_ fun hsame => ?_⟩
    · simp only [update_t.without_flows, hheader, hwhitelist, hanonymization, hfirst.packets, hsecond.packets,
        hpackets, hurls, hdns, haddresses, hdrops]
    · have hflows : update'.flows = update.flows := by
        rw [hfirst.flows, hsecond.flows]
        exact flow_section_corresponds hanonymized hs.target hs.addresses (hstates.flow_table hsame) hflags
      have hpackets' : update'.packets = update.packets := by
        rw [hfirst.packets, hsecond.packets, hpackets_same hsame]
      cases update
      cases update'
      simp only [update_t.mk.injEq]
      exact ⟨hheader, hwhitelist, hanonymization, hpackets', hflows, hdns, haddresses, hdrops, hurls_same hsame⟩

/-- What agrees step by step agrees in the updates. -/
theorem updates_agree {trace trace' : main_trace}
    (h : List.Forall₂ (main_output.Agrees same) (trace.map Prod.snd) (trace'.map Prod.snd)) :
    (updates trace').map update_t.without_flows = (updates trace).map update_t.without_flows ∧
      (same → updates trace' = updates trace) := by
  induction trace generalizing trace' with
  | nil =>
    obtain rfl := List.map_eq_nil_iff.mp (List.forall₂_nil_left_iff.mp h)
    exact ⟨rfl, fun _ => rfl⟩
  | cons first trace ih =>
    obtain ⟨event, output⟩ := first
    obtain ⟨output', _, houtput, hrest, hsplit⟩ := List.forall₂_cons_left_iff.mp h
    obtain ⟨⟨event', _⟩, trace', rfl, rfl, rfl⟩ := List.map_eq_cons_iff.mp hsplit
    obtain ⟨hwithout, hsame⟩ := ih hrest
    cases houtput with
    | processed capture capture' => exact ⟨hwithout, hsame⟩
    | written hwithout' hsame' =>
      refine ⟨?_, fun h => ?_⟩
      · simp only [updates, List.filterMap_cons, update_of, List.map_cons, hwithout']
        exact congrArg _ hwithout
      · simp only [updates, List.filterMap_cons, update_of, hsame' h]
        exact congrArg _ (hsame h)

/-- In an anonymising build the updates of two runs whose packets differ only
in the IP addresses, which correspond and have the same digests, differ only in
the flow ids and the flow table's section. They do not differ at all if the
flows that correspond have the same probe paths, that is, if the unkeyed hash
of their addresses leads to the same slots. -/
theorem updates_reveal_probe_paths (hs : Session.Corresponds rename s s')
    (hanonymized : s.target.disable_anonymization = false) {domain_whitelist : domain_whitelist_t}
    {bloom_whitelist : bloom_whitelist_t} {trace trace' : main_trace} {state state' : state_t}
    (run : main_run s domain_whitelist bloom_whitelist trace state)
    (run' : main_run s' domain_whitelist bloom_whitelist trace' state')
    (hevents : List.Forall₂ (main_event.Corresponds rename s s') (trace.map Prod.fst) (trace'.map Prod.fst)) :
    (updates trace').map update_t.without_flows = (updates trace).map update_t.without_flows ∧
      ((∀ event ∈ trace.map Prod.fst, event.SamePath rename s.target) → updates trace' = updates trace) := by
  generalize hsame : (∀ event ∈ trace.map Prod.fst, event.SamePath rename s.target) = same
  have hpaths : ∀ event ∈ trace.map Prod.fst, same → event.SamePath rename s.target := by
    intro event hevent h
    rw [← hsame] at h
    exact h event hevent
  have hinitial := @initial_state_corresponds rename s s' same s.target domain_whitelist bloom_whitelist
  rw [main_run, hs.target] at run'
  have hlockstep := Execution.lockstep
    (fun event event' => (same → event.SamePath rename s.target) ∧ event.Corresponds rename s s' event')
    (state_t.Corresponds rename s s' same) (main_output.Agrees same) hinitial
    (fun trace state second event event' _ _ _ _ run hstates hevent hstep hstep' =>
      main_step_corresponds hs hanonymized (main_run_anonymized run) hstates hevent.2 hevent.1 hstep hstep')
    run run' ((List.forall₂_and_left _ _).mpr ⟨hpaths, hevents⟩)
  exact updates_agree hlockstep.2

/-! Runs of one packet -/

/-- A keyed hash that begins with the hashed bytes. -/
def spelled (data : List UInt8) : digest_t := Vector.ofFn fun i => data.getD i.val 0

def spelling_session : Session :=
  { anonymizing_session with
    externals := { anonymizing_session.externals with sha1_hmac := fun _ data => spelled data } }

/-- The session with a keyed hash in which two addresses have changed places. -/
def swapped_session (first second : UInt32) : Session :=
  { spelling_session with
    externals := { spelling_session.externals with
      sha1_hmac := fun _ data =>
        spelled (if data = reference_target.bytes32 first then reference_target.bytes32 second
          else if data = reference_target.bytes32 second then reference_target.bytes32 first else data) } }

/-- An address is determined by its bytes. -/
theorem bytes32_injective {first second : UInt32}
    (h : reference_target.bytes32 first = reference_target.bytes32 second) : first = second := by
  have hdigits (word : UInt32) : word.toUInt8.toNat = word.toNat % 256 ∧
      (word >>> 8).toUInt8.toNat = word.toNat / 256 % 256 ∧
      (word >>> 16).toUInt8.toNat = word.toNat / 65536 % 256 ∧
      (word >>> 24).toUInt8.toNat = word.toNat / 16777216 % 256 := by
    refine ⟨?_, ?_, ?_, ?_⟩ <;>
      simp [UInt32.toNat_shiftRight, Nat.shiftRight_eq_div_pow]
  have hbytes : [first.toUInt8, (first >>> 8).toUInt8, (first >>> 16).toUInt8, (first >>> 24).toUInt8] =
      [second.toUInt8, (second >>> 8).toUInt8, (second >>> 16).toUInt8, (second >>> 24).toUInt8] := h
  simp only [List.cons.injEq, and_true, ← UInt8.toNat_inj] at hbytes
  have hfirst := hdigits first
  have hsecond := hdigits second
  have hfirst_lt := first.toNat_lt
  have hsecond_lt := second.toNat_lt
  exact UInt32.toNat_inj.mp (by omega)

/-- Swapping two addresses of one kind gives a corresponding session. -/
theorem swapped_session_corresponds {first second : UInt32}
    (hprivate : is_address_private first = is_address_private second) :
    Session.Corresponds (Equiv.swap first second) spelling_session (swapped_session first second) where
  target := rfl
  build_id := rfl
  bismark_id := rfl
  start_timestamp := rfl
  seed_hex_digest := rfl
  addresses address := by
    have hdigest : (if reference_target.bytes32 (Equiv.swap first second address) = reference_target.bytes32 first
        then reference_target.bytes32 second
        else if reference_target.bytes32 (Equiv.swap first second address) = reference_target.bytes32 second
        then reference_target.bytes32 first else reference_target.bytes32 (Equiv.swap first second address)) =
        reference_target.bytes32 address := by
      rw [Equiv.swap_apply_def]
      by_cases hfirst : address = first
      · rw [if_pos hfirst, hfirst]
        split
        · rename_i hsame
          exact hsame
        · rw [if_pos rfl]
      · rw [if_neg hfirst]
        by_cases hsecond : address = second
        · rw [if_pos hsecond, if_pos rfl, hsecond]
        · rw [if_neg hsecond, if_neg fun hsame => hfirst (bytes32_injective hsame),
            if_neg fun hsame => hsecond (bytes32_injective hsame)]
    exact congrArg (fun data => some (reference_target.u64_of_bytes ((spelled data).toList.take 8))) hdigest
  macs mac := by
    have hlength (word : UInt32) : mac.toList ≠ reference_target.bytes32 word := by
      intro hsame
      have hlengths : mac.toList.length = 4 := congrArg List.length hsame
      rw [Vector.length_toList] at hlengths
      exact absurd hlengths (by decide)
    have hdigest : (if mac.toList = reference_target.bytes32 first then reference_target.bytes32 second
        else if mac.toList = reference_target.bytes32 second then reference_target.bytes32 first else mac.toList) =
        mac.toList := by
      rw [if_neg (hlength first), if_neg (hlength second)]
    exact congrArg (fun data => some (spelled data)) hdigest
  is_address_private address := by
    rw [Equiv.swap_apply_def]
    split
    · rename_i hfirst
      rw [hfirst, hprivate]
    · split
      · rename_i hsecond
        rw [hsecond, hprivate]
      · rfl

/-- A TCP packet from 192.168.1.2 to this address. -/
def tcp_frame_to (a b c d : UInt8) : frame_t :=
  { tcp_frame 0 with
    bytes := List.replicate 12 0 ++ [8, 0, 0x45, 0, 0, 24, 0, 0, 0, 0, 64, 6, 0, 0, 192, 168, 1, 2, a, b, c, d] ++
      [0x9c, 0x40, 0, 80] }

section tcp

variable (a b c d : UInt8)

theorem tcp_frame_to_saddr : (tcp_frame_to a b c d).saddr = 0xc0a80102 := run_load32 ⟨rfl, rfl, rfl, rfl, trivial⟩

theorem tcp_frame_to_transport_header : (tcp_frame_to a b c d).transport_header = 34 := by
  have hihl : (load8 ETHER_HDR_LEN).run (tcp_frame_to a b c d).memory = 0x45 := rfl
  rw [frame_t.transport_header, hihl]
  decide

end tcp

/-- The example's frames differ in their destination alone. -/
theorem tcp_frame_to_corresponds {a b c d : UInt8} {other : UInt32} (hdaddr : (tcp_frame_to a b c d).daddr = other)
    (hpublic : is_address_private other = false) :
    (tcp_frame_to 8 8 8 8).Corresponds (Equiv.swap 0x08080808 other) spelling_session
      (swapped_session 0x08080808 other) (tcp_frame_to a b c d) := by
  have hne : (0xc0a80102 : UInt32) ≠ other := by
    rintro rfl
    exact absurd hpublic (by decide)
  have hfirst : (tcp_frame_to 8 8 8 8).daddr = 0x08080808 := run_load32 ⟨rfl, rfl, rfl, rfl, trivial⟩
  have hprotocol : (tcp_frame_to 8 8 8 8).protocol = IPPROTO_TCP := rfl
  apply @frame_t.Corresponds.of_bytes _ _ _ (tcp_frame_to 8 8 8 8) (tcp_frame_to a b c d) rfl rfl rfl rfl rfl
  · rw [tcp_frame_to_saddr, tcp_frame_to_saddr, Equiv.swap_apply_of_ne_of_ne (by decide) hne]
  · rw [hfirst, hdaddr, Equiv.swap_apply_left]
  · exact (tcp_frame_to_transport_header 8 8 8 8).ge
  · intro hwanted
    cases hwanted
  · intro hudp
    rw [hprotocol] at hudp
    exact absurd hudp (by decide)

/-- A packet and an update: the update shows the packet's flow id. -/
theorem one_packet_update {s : Session} (hinitialized : s.anonymization.initialized = true) {frame : frame_t}
    {flow_id : UInt16} (hshown : (flow_id.toNat : Int) < FLOW_TABLE_ENTRIES)
    (hprocessed : (main_step s (initial_state s.target domain_whitelist_init empty_bloom)
        (.process_packet frame)).map (fun result =>
          (captured (.process_packet frame, result.2)).map fun capture =>
            (capture.locals.flow_id, capture.locals.packet_id)) = some (some (flow_id, 0))) :
    ∃ trace state update, main_run s domain_whitelist_init empty_bloom trace state ∧
      trace.map Prod.fst = [.process_packet frame, .write_update (healthy_io 100) (healthy_io_healthy 100)] ∧
      updates trace = [update] ∧ (update.packet_lines[0]?.bind Line.shown_flow_id) = some (flow_id.toNat : Int) := by
  obtain ⟨capture, state₁, hframe, hstep, run₁⟩ :=
    main_run_goes_on_packet hinitialized (.nil : main_run s domain_whitelist_init empty_bloom _ _) frame
  obtain ⟨update, state₂, run₂⟩ := main_run_goes_on_update hinitialized run₁ empty_bloom_lookup
    (healthy_io_healthy 100) rfl rfl
  rw [hstep] at hprocessed
  simp only [captured, Option.map_some, Option.some.injEq, Prod.mk.injEq] at hprocessed
  obtain ⟨hid, hposition⟩ := hprocessed
  have hone : period ([] ++ [(.process_packet frame, .processed capture)]) = [capture] := rfl
  have hstored : stored (period ([] ++ [(.process_packet frame, .processed capture)])) = [capture] := by
    rw [hone]
    simp [stored, hposition]
  have hline := main_run_packet_lines run₂ 0
  rw [hstored, List.getElem?_cons_zero, Option.map_some] at hline
  refine ⟨_, state₂, update, run₂, rfl, rfl, ?_⟩
  rw [hline, Option.bind_some]
  simp only [stored_line, packet_line, packet_entry, Line.shown_flow_id, hid, if_neg (not_le.mpr hshown)]

/-- The example's events correspond one by one. -/
theorem one_packet_corresponds {a b c d : UInt8} {other : UInt32} (hdaddr : (tcp_frame_to a b c d).daddr = other)
    (hpublic : is_address_private other = false) {trace trace' : main_trace}
    (hevents : trace.map Prod.fst =
      [.process_packet (tcp_frame_to 8 8 8 8), .write_update (healthy_io 100) (healthy_io_healthy 100)])
    (hevents' : trace'.map Prod.fst =
      [.process_packet (tcp_frame_to a b c d), .write_update (healthy_io 100) (healthy_io_healthy 100)]) :
    List.Forall₂ (main_event.Corresponds (Equiv.swap 0x08080808 other) spelling_session
      (swapped_session 0x08080808 other)) (trace.map Prod.fst) (trace'.map Prod.fst) := by
  rw [hevents, hevents']
  exact .cons (.process_packet (tcp_frame_to_corresponds hdaddr hpublic)) (.cons (.write_update _ _) .nil)

theorem tcp_frame_to_8_8_8_8_processed :
    (main_step spelling_session (initial_state spelling_session.target domain_whitelist_init empty_bloom)
        (.process_packet (tcp_frame_to 8 8 8 8))).map (fun result =>
          (captured (.process_packet (tcp_frame_to 8 8 8 8), result.2)).map fun capture =>
            (capture.locals.flow_id, capture.locals.packet_id)) = some (some (16786, 0)) := by
  decide +kernel

theorem tcp_frame_to_8_8_4_4_processed :
    (main_step (swapped_session 0x08080808 0x08080404)
        (initial_state (swapped_session 0x08080808 0x08080404).target domain_whitelist_init empty_bloom)
        (.process_packet (tcp_frame_to 8 8 4 4))).map (fun result =>
          (captured (.process_packet (tcp_frame_to 8 8 4 4), result.2)).map fun capture =>
            (capture.locals.flow_id, capture.locals.packet_id)) = some (some (11706, 0)) := by
  decide +kernel

/-- A packet to 8.8.8.8 and one to 8.8.4.4 get different flow ids, although the
two addresses have changed places in the keyed hash. -/
theorem flow_ids_tell_addresses_apart :
    Session.Corresponds (Equiv.swap 0x08080808 0x08080404) spelling_session
        (swapped_session 0x08080808 0x08080404) ∧
      spelling_session.target.disable_anonymization = false ∧
      ∃ trace trace' state state',
        main_run spelling_session domain_whitelist_init empty_bloom trace state ∧
        main_run (swapped_session 0x08080808 0x08080404) domain_whitelist_init empty_bloom trace' state' ∧
        List.Forall₂ (main_event.Corresponds (Equiv.swap 0x08080808 0x08080404) spelling_session
          (swapped_session 0x08080808 0x08080404)) (trace.map Prod.fst) (trace'.map Prod.fst) ∧
        updates trace ≠ updates trace' := by
  obtain ⟨trace, state, update, run, hevents, hupdates, hshown⟩ :=
    one_packet_update rfl (by decide) tcp_frame_to_8_8_8_8_processed
  obtain ⟨trace', state', update', run', hevents', hupdates', hshown'⟩ :=
    one_packet_update rfl (by decide) tcp_frame_to_8_8_4_4_processed
  have hdaddr : (tcp_frame_to 8 8 4 4).daddr = 0x08080404 := run_load32 ⟨rfl, rfl, rfl, rfl, trivial⟩
  refine ⟨swapped_session_corresponds (by decide), rfl, trace, trace', state, state', run, run',
    one_packet_corresponds hdaddr (by decide) hevents hevents', fun hsame => ?_⟩
  rw [hupdates, hupdates', List.cons.injEq] at hsame
  rw [hsame.1, hshown'] at hshown
  exact absurd hshown (by decide)

theorem tcp_frame_to_8_0_1_197_processed :
    (main_step (swapped_session 0x08080808 0x080001c5)
        (initial_state (swapped_session 0x08080808 0x080001c5).target domain_whitelist_init empty_bloom)
        (.process_packet (tcp_frame_to 8 0 1 197))).map (fun result =>
          (captured (.process_packet (tcp_frame_to 8 0 1 197), result.2)).map fun capture =>
            (capture.locals.flow_id, capture.locals.packet_id)) = some (some (16786, 0)) := by
  decide +kernel

/-- A packet to 8.8.8.8 and one to 8.0.1.197, whose flows have the same probe
path, cannot be told apart. -/
theorem updates_reveal_probe_paths_equal :
    ∃ trace trace' state state' update,
      main_run spelling_session domain_whitelist_init empty_bloom trace state ∧
      main_run (swapped_session 0x08080808 0x080001c5) domain_whitelist_init empty_bloom trace' state' ∧
      trace.map Prod.fst = [.process_packet (tcp_frame_to 8 8 8 8),
        .write_update (healthy_io 100) (healthy_io_healthy 100)] ∧
      trace'.map Prod.fst = [.process_packet (tcp_frame_to 8 0 1 197),
        .write_update (healthy_io 100) (healthy_io_healthy 100)] ∧
      updates trace = [update] ∧ updates trace' = [update] := by
  obtain ⟨trace, state, update, run, hevents, hupdates, _⟩ :=
    one_packet_update rfl (by decide) tcp_frame_to_8_8_8_8_processed
  obtain ⟨trace', state', _, run', hevents', _, _⟩ :=
    one_packet_update rfl (by decide) tcp_frame_to_8_0_1_197_processed
  have hdaddr : (tcp_frame_to 8 0 1 197).daddr = 0x080001c5 := run_load32 ⟨rfl, rfl, rfl, rfl, trivial⟩
  have hsame := (updates_reveal_probe_paths (swapped_session_corresponds (by decide)) rfl run run'
    (one_packet_corresponds hdaddr (by decide) hevents hevents')).2
  refine ⟨trace, trace', state, state', update, run, run', hevents, hevents', hupdates, ?_⟩
  rw [← hupdates]
  apply hsame
  rw [hevents]
  intro event hevent
  obtain rfl | hevent := List.mem_cons.mp hevent
  · intro _
    decide +kernel
  · obtain rfl := List.mem_singleton.mp hevent
    trivial

end bismark_passive.main
