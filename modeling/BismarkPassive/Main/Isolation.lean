import BismarkPassive.Main.Overflow

namespace bismark_passive.main

open machine flow_table address_table packet_series dns http drop_statistics

variable {s : Session}

/-- The tables of the two states on which the processing of a packet depends
agree. -/
structure Alike (s : Session) (first second : state_t) : Prop where
  packet_data : first.packet_data = second.packet_data
  flow_table : first.flow_table = second.flow_table
  dns_table : first.dns_table = second.dns_table
  address_table : first.address_table = second.address_table
  http_table : s.target.enable_http_url = true → first.http_table = second.http_table

/-- What is found in a packet does not depend on the throughput table. -/
theorem get_flow_entry_for_packet_alike {target : Target} {frame : frame_t} {table : address_table_t}
    {throughput throughput' : device_throughput.device_throughput_table_t}
    {found found' : UInt16 × dissection_t × address_table_t × device_throughput.device_throughput_table_t}
    (hfirst : (get_flow_entry_for_packet target frame.caplen.toInt32.toInt frame.len table throughput).run
      frame.memory = found)
    (hsecond : (get_flow_entry_for_packet target frame.caplen.toInt32.toInt frame.len table throughput').run
      frame.memory = found') :
    found.1 = found'.1 ∧ found.2.1 = found'.2.1 ∧ found.2.2.1 = found'.2.2.1 := by
  obtain ⟨ether_type, dissection, table₁, throughput₁⟩ := found
  obtain ⟨ether_type', dissection', table₂, throughput₂⟩ := found'
  obtain rfl := (run_get_flow_entry_for_packet_ether_type _ _ _ _ hfirst).trans
    (run_get_flow_entry_for_packet_ether_type _ _ _ _ hsecond).symm
  obtain ⟨hother, rfl, rfl⟩ | ⟨hip, _⟩ := run_get_flow_entry_for_packet _ _ _ _ hfirst
  · obtain ⟨_, rfl, rfl⟩ | ⟨hip, _⟩ := run_get_flow_entry_for_packet _ _ _ _ hsecond
    · exact ⟨rfl, rfl, rfl⟩
    · exact absurd hip hother
  · rw [run_get_flow_entry_for_packet_ether_type _ _ _ _ hfirst] at hip
    obtain ⟨hdissection, htable⟩ := Prod.mk.inj
      ((run_get_flow_entry_for_packet_ip hip hfirst).symm.trans (run_get_flow_entry_for_packet_ip hip hsecond))
    exact ⟨rfl, hdissection, htable⟩

/-- A packet keeps two states alike, and its results are the same in both. -/
theorem ProcessedPacket.alike {first second first' second' : state_t} {frame : frame_t}
    {locals locals' : packet_locals} (halike : Alike s first second)
    (hfirst : ProcessedPacket s first frame first' locals) (hsecond : ProcessedPacket s second frame second' locals') :
    Alike s first' second' ∧ locals = locals' := by
  obtain ⟨htype, hdissection, haddress⟩ :=
    get_flow_entry_for_packet_alike hfirst.found (halike.address_table ▸ hsecond.found)
  have hflow := hfirst.flow
  have hseries := hfirst.series
  have hdns := hfirst.dns
  have hhttp := hfirst.http
  simp only at htype hdissection haddress
  rw [htype, hdissection, halike.flow_table, hsecond.flow, Prod.mk.injEq] at hflow
  rw [halike.packet_data, ← hflow.1, hsecond.series, Prod.mk.injEq] at hseries
  rw [hdissection, ← hseries.1, halike.dns_table, ← hsecond.dns] at hdns
  refine ⟨⟨hseries.2.symm, hflow.2.symm, hdns, haddress, fun hwanted => ?_⟩, ?_⟩
  · rw [hdissection, ← hflow.1, halike.http_table hwanted, hsecond.http] at hhttp
    exact (Option.some.inj hhttp).symm
  · cases locals
    cases locals'
    simp only [packet_locals.mk.injEq]
    exact ⟨htype, hdissection, hflow.1.symm, hseries.1.symm⟩

/-- The same packets keep two states alike, and the packet series refuses the
same ones in both. -/
theorem period_alike {first₀ second₀ first second : state_t} {frames : List frame_t} {trace trace' : main_trace}
    (halike : Alike s first₀ second₀) (hfirst : Execution (main_step s) first₀ trace first)
    (hframes : Processes frames trace) (hsecond : Execution (main_step s) second₀ trace' second)
    (hframes' : Processes frames trace') :
    Alike s first second ∧ refused_sizes trace = refused_sizes trace' := by
  induction frames using List.reverseRecOn generalizing trace trace' first second with
  | nil =>
    obtain rfl := hframes.eq_nil
    obtain rfl := hframes'.eq_nil
    rw [Execution.nil_iff.mp hfirst, Execution.nil_iff.mp hsecond]
    exact ⟨halike, rfl⟩
  | append_singleton frames frame ih =>
    obtain ⟨trace, capture, state, rfl, hframe, hprocessed, run, hpacket⟩ := hframes.last hfirst
    obtain ⟨trace', capture', state', rfl, hframe', hprocessed', run', hpacket'⟩ := hframes'.last hsecond
    obtain ⟨hbefore, hrefused⟩ := ih run hprocessed run' hprocessed'
    obtain ⟨hafter, hlocals⟩ := hpacket.alike hbefore hpacket'
    rw [refused_sizes_snoc, refused_sizes_snoc, hrefused, hlocals, hframe, hframe']
    exact ⟨hafter, rfl⟩

/-- The packet and DNS sections of the two updates are the same. -/
theorem Updated.packets_and_dns_alike {first second first' second' : state_t} {io io' : update_io}
    {update update' : update_t} (halike : Alike s first second) (hfirst : Updated s first io first' update)
    (hsecond : Updated s second io' second' update') :
    update.packets = update'.packets ∧ update.dns = update'.dns := by
  obtain ⟨a_lines, cname_lines, ha, hcname, hdns⟩ := hfirst.dns
  obtain ⟨a_lines', cname_lines', ha', hcname', hdns'⟩ := hsecond.dns
  rw [halike.dns_table, ha', List.map_inj_right fun _ _ => Option.some.inj] at ha
  rw [halike.dns_table, hcname', List.map_inj_right fun _ _ => Option.some.inj] at hcname
  rw [hfirst.packets, hsecond.packets, hdns, hdns', halike.packet_data, halike.dns_table, ha, hcname]
  exact ⟨rfl, rfl⟩

/-- Where the heap shows through the strings of the URL table, it is the same. -/
def SameHeap (s : Session) (table : http_table_t) (heap heap' : heap_t) : Prop :=
  s.target.enable_http_url = true → ∀ (idx : Nat) (entry : http_url_entry), table.entries.items[idx]? = some entry →
    printed_behind (heap idx) entry = printed_behind (heap' idx) entry

/-- The URL sections are the same exactly if the heap shows the same behind each digest. -/
theorem Updated.urls_alike_iff {first second first' second' : state_t} {io io' : update_io}
    {update update' : update_t} (halike : Alike s first second) (hfirst : Updated s first io first' update)
    (hsecond : Updated s second io' second' update') :
    update.urls = update'.urls ↔ SameHeap s first.http_table io.heap io'.heap := by
  obtain ⟨hunwanted, hurls⟩ | ⟨hwanted, lines, hlines, hurls⟩ := hfirst.urls
  · obtain ⟨_, hurls'⟩ | ⟨hwanted, _⟩ := hsecond.urls
    · rw [hurls, hurls', SameHeap, hunwanted]
      simp
    · rw [hunwanted] at hwanted
      cases hwanted
  · obtain ⟨hunwanted, _⟩ | ⟨_, lines', hlines', hurls'⟩ := hsecond.urls
    · rw [hunwanted] at hwanted
      cases hwanted
    · have htables := halike.http_table hwanted
      rw [← htables] at hlines' hurls'
      rw [hurls, hurls', List.append_left_inj, List.cons_inj_right, SameHeap, ← url_lines_eq_iff, hlines, hlines',
        List.map_inj_right fun _ _ => Option.some.inj]
      simp [hwanted]

/-- The states after two updates are alike if they agree on the two tables that
updates keep. -/
theorem Updated.reset_alike {domain_whitelist : domain_whitelist_t} {bloom_whitelist : bloom_whitelist_t}
    {first second first' second' : state_t} {io io' : update_io} {update update' : update_t}
    (hwhitelists : first.Whitelists domain_whitelist bloom_whitelist)
    (hwhitelists' : second.Whitelists domain_whitelist bloom_whitelist) (hfirst : Updated s first io first' update)
    (hsecond : Updated s second io' second' update') (hflow : first'.flow_table = second'.flow_table)
    (haddress : first'.address_table = second'.address_table) : Alike s first' second' := by
  refine ⟨?_, hflow, ?_, haddress, fun hwanted => ?_⟩
  · rw [hfirst.reset, hsecond.reset]
    rfl
  · rw [hfirst.reset, hsecond.reset]
    simp only [reset_state, hwhitelists.domain, hwhitelists.bloom, hwhitelists'.domain, hwhitelists'.bloom]
  · rw [hfirst.reset, hsecond.reset]
    simp only [reset_state, hwanted, if_true]

/-- The drop sections of two periods with the same packets differ by what was
in the counters that the initialisation does not reach. -/
theorem drops_alike_iff {first second : drop_statistics_t} {sizes : List UInt32} :
    drop_section ((drop_statistics_init s.target first).process_all sizes) =
        drop_section ((drop_statistics_init s.target second).process_all sizes) ↔
      ∀ size : SizeSlot, s.target.sizeof_pointer / 4 ≤ size.val → size.val < DROP_STATISTICS_MAXIMUM_PACKET_SIZE →
        first.packet_sizes size = second.packet_sizes size := by
  rw [drop_section_eq_iff]
  refine forall_congr' fun size => ?_
  rw [process_all_packet_sizes, process_all_packet_sizes, add_left_inj]
  by_cases hcleared : size.val < s.target.sizeof_pointer / 4
  · simp [drop_statistics_init, hcleared]
  · simp only [drop_statistics_init, if_neg hcleared]
    exact ⟨fun hsame _ => hsame, fun hsame => hsame (by omega)⟩

/-- A run that completes an update, processes these packets, and completes the
next update. -/
structure updated_period (s : Session) (domain_whitelist : domain_whitelist_t) (bloom_whitelist : bloom_whitelist_t)
    (frames : List frame_t) where
  trace : main_trace
  before : state_t
  run : main_run s domain_whitelist bloom_whitelist trace before
  io : update_io
  healthy : io.Healthy
  reset : state_t
  update : update_t
  completed : main_step s before (.write_update io healthy) = some (reset, .written update)
  packets : main_trace
  pending : state_t
  processed : Execution (main_step s) reset packets pending
  processes : Processes frames packets
  next_io : update_io
  next_healthy : next_io.Healthy
  final : state_t
  next_update : update_t
  next_completed : main_step s pending (.write_update next_io next_healthy) = some (final, .written next_update)

section periods

variable {domain_whitelist : domain_whitelist_t} {bloom_whitelist : bloom_whitelist_t} {frames : List frame_t}

/-- The drop section of the second update shows the counters that the first one
left, and the packets refused since. -/
theorem updated_period.next_drops (period : updated_period s domain_whitelist bloom_whitelist frames) :
    period.next_update.drops = drop_section ((drop_statistics_init s.target
      period.before.drop_statistics).process_all (refused_sizes period.packets)) := by
  have hleft : period.reset.drop_statistics = drop_statistics_init s.target period.before.drop_statistics := by
    rw [(main_step_update period.completed).reset]
    rfl
  rw [(main_step_update period.next_completed).drops, period_drop_statistics period.processed period.processes, hleft]

/-- Two runs that agree on the flow table and the address table after an update
report the same packets, DNS records, URLs and drops for the same next packets
exactly if they also agreed on the drop counters that the initialisation does
not clear, which is all but the first `sizeof_pointer / 4`, and on the heap
behind the URL digests. -/
theorem periods_isolated_iff (first second : updated_period s domain_whitelist bloom_whitelist frames)
    (hflow : first.reset.flow_table = second.reset.flow_table)
    (haddress : first.reset.address_table = second.reset.address_table) :
    (first.next_update.packets = second.next_update.packets ∧ first.next_update.dns = second.next_update.dns ∧
      first.next_update.urls = second.next_update.urls ∧ first.next_update.drops = second.next_update.drops) ↔
    (∀ size : SizeSlot, s.target.sizeof_pointer / 4 ≤ size.val → size.val < DROP_STATISTICS_MAXIMUM_PACKET_SIZE →
      first.before.drop_statistics.packet_sizes size = second.before.drop_statistics.packet_sizes size) ∧
    SameHeap s first.pending.http_table first.next_io.heap second.next_io.heap := by
  have hcompleted := main_step_update first.completed
  have hcompleted' := main_step_update second.completed
  have hnext := main_step_update first.next_completed
  have hnext' := main_step_update second.next_completed
  have hreset := hcompleted.reset_alike (main_run_whitelists first.run) (main_run_whitelists second.run)
    hcompleted' hflow haddress
  obtain ⟨halike, hrefused⟩ :=
    period_alike hreset first.processed first.processes second.processed second.processes
  obtain ⟨hpackets, hdns⟩ := hnext.packets_and_dns_alike halike hnext'
  rw [first.next_drops, second.next_drops, ← hrefused, drops_alike_iff, hnext.urls_alike_iff halike hnext']
  exact ⟨fun hsame => ⟨hsame.2.2.2, hsame.2.2.1⟩, fun hsame => ⟨hpackets, hdns, hsame.2, hsame.1⟩⟩

/-- The counters that the initialisation does not clear count all packets that
were ever refused. -/
theorem main_run_uncleared {trace : main_trace} {state : state_t}
    (run : main_run s domain_whitelist bloom_whitelist trace state) {size : SizeSlot}
    (huncleared : s.target.sizeof_pointer / 4 ≤ size.val) :
    state.drop_statistics.packet_sizes size = UInt32.ofNat (size_count (refused_sizes trace) size.val) := by
  refine run.invariant (fun trace state => state.drop_statistics.packet_sizes size =
    UInt32.ofNat (size_count (refused_sizes trace) size.val)) ?_ ?_
  · rw [initial_state, initial_drop_statistics]
    rfl
  · intro trace state event state' output run hcounted hstep
    obtain ⟨capture, rfl, rfl, hpacket, _⟩ | ⟨io, healthy, update, rfl, rfl, hupdate⟩ := main_step_cases hstep
    · have hdrops : state'.drop_statistics = state.drop_statistics.process_all
          (if capture.locals.packet_id < 0 then [capture.frame.len] else []) := by
        rw [hpacket.drops]
        split <;> rfl
      rw [hdrops, process_all_packet_sizes, hcounted, refused_sizes_snoc, size_count, size_count, size_count,
        List.countP_append, UInt32.ofNat_add]
    · have hkept : state'.drop_statistics.packet_sizes size = state.drop_statistics.packet_sizes size := by
        rw [hupdate.reset]
        exact if_neg (not_lt.mpr huncleared)
      have hrefused :
          refused_sizes (trace ++ [(.write_update io healthy, .written update)]) = refused_sizes trace := by
        simp [refused_sizes, captured]
      rw [hkept, hrefused, hcounted]

end periods

/-- Packets, an update, further packets, and another update. -/
theorem two_updates (earlier frames : List frame_t) :
    ∃ period : updated_period initialized_session domain_whitelist_init empty_bloom frames,
      Processes earlier period.trace ∧ period.io = healthy_io 100 ∧ period.next_io = healthy_io 200 := by
  obtain ⟨trace, before, hearlier, _, run⟩ :=
    @main_run_goes_on_packets initialized_session _ _ rfl domain_whitelist_init empty_bloom .nil earlier
  obtain ⟨update, reset, run'⟩ := main_run_goes_on_update rfl run empty_bloom_lookup (healthy_io_healthy 100) rfl rfl
  obtain ⟨before', run₁, hcompleted⟩ := Execution.snoc_iff.mp run'
  obtain rfl := run.deterministic run₁
  obtain ⟨packets, pending, hframes, hprocessed, run''⟩ := main_run_goes_on_packets rfl run' frames
  obtain ⟨next_update, final, run'''⟩ :=
    main_run_goes_on_update rfl run'' empty_bloom_lookup (healthy_io_healthy 200) rfl rfl
  obtain ⟨pending', run₂, hnext⟩ := Execution.snoc_iff.mp run'''
  obtain rfl := run''.deterministic run₂
  exact ⟨⟨trace, before, run, _, _, reset, update, hcompleted, packets, pending, hprocessed, hframes, _, _, final,
    next_update, hnext⟩, hearlier, rfl, rfl⟩

/-- What the first update leaves if only packets of other protocols came before. -/
theorem two_updates_reset {earlier frames : List frame_t}
    {period : updated_period initialized_session domain_whitelist_init empty_bloom frames}
    (hearlier : Processes earlier period.trace) (hother : ∀ frame ∈ earlier, frame.ether_type ≠ ETHERTYPE_IP)
    (hio : period.io = healthy_io 100) :
    period.reset.flow_table = flow_table_advance_base_timestamp (flow_table_init.mark_sent all_slots) 100 ∧
      period.reset.address_table = address_table_init.reset_added ∧ period.reset.sequence_number = 1 := by
  obtain ⟨hflow, haddress, hsequence⟩ := period_other_packets period.run hearlier hother
  have hreset := (main_step_update period.completed).reset
  refine ⟨?_, ?_, ?_⟩
  · rw [hreset, hio, hflow]
    rfl
  · rw [hreset, haddress]
    rfl
  · rw [hreset, reset_state, hsequence]
    rfl

/-- The example's other frames are not IP. -/
theorem other_frames {count : Nat} {len : UInt32} :
    ∀ frame ∈ List.replicate count (other_frame len), frame.ether_type ≠ ETHERTYPE_IP := by
  intro frame hframe
  have hmemory : (other_frame len).memory = fun _ => 0 := by
    funext address
    simp [frame_t.memory, other_frame]
  rw [List.eq_of_mem_replicate hframe, frame_t.ether_type, hmemory]
  decide

/-- A packet that was stored before the first update leaves no trace in the second. -/
theorem periods_isolated_stored :
    ∃ first second : updated_period initialized_session domain_whitelist_init empty_bloom [other_frame 60],
      Processes [other_frame 100] first.trace ∧ Processes [] second.trace ∧
      first.next_update.packets = second.next_update.packets ∧ first.next_update.dns = second.next_update.dns ∧
      first.next_update.urls = second.next_update.urls ∧ first.next_update.drops = second.next_update.drops := by
  obtain ⟨first, hfirst, hio, _⟩ := two_updates (List.replicate 1 (other_frame 100)) [other_frame 60]
  obtain ⟨second, hsecond, hio', _⟩ := two_updates (List.replicate 0 (other_frame 100)) [other_frame 60]
  obtain ⟨hflow, haddress, _⟩ := two_updates_reset hfirst other_frames hio
  obtain ⟨hflow', haddress', _⟩ := two_updates_reset hsecond other_frames hio'
  refine ⟨first, second, hfirst, hsecond, (periods_isolated_iff first second (hflow.trans hflow'.symm)
    (haddress.trans haddress'.symm)).mpr ⟨fun size huncleared _ => ?_, fun hwanted => by cases hwanted⟩⟩
  obtain ⟨_, hrefused⟩ := period_refused rfl first.run hfirst
  obtain ⟨_, hrefused'⟩ := period_refused rfl second.run hsecond
  rw [main_run_uncleared first.run huncleared, main_run_uncleared second.run huncleared, hrefused, hrefused']
  rfl

/-- A packet that was refused before the first update is reported again by the
second, although nothing happened between the two. -/
theorem drops_reported_again :
    ∃ first second : updated_period initialized_session domain_whitelist_init empty_bloom [],
      Processes (List.replicate 65537 (other_frame 100)) first.trace ∧ Processes [] second.trace ∧
      first.reset.flow_table = second.reset.flow_table ∧ first.reset.address_table = second.reset.address_table ∧
      first.reset.sequence_number = second.reset.sequence_number ∧ first.io = second.io ∧
      first.next_io = second.next_io ∧ first.next_update.drops ≠ second.next_update.drops := by
  obtain ⟨first, hfirst, hio, hnext_io⟩ := two_updates (List.replicate 65537 (other_frame 100)) []
  obtain ⟨second, hsecond, hio', hnext_io'⟩ := two_updates (List.replicate 0 (other_frame 100)) []
  obtain ⟨hflow, haddress, hsequence⟩ := two_updates_reset hfirst other_frames hio
  obtain ⟨hflow', haddress', hsequence'⟩ := two_updates_reset hsecond other_frames hio'
  refine ⟨first, second, hfirst, hsecond, hflow.trans hflow'.symm, haddress.trans haddress'.symm,
    hsequence.trans hsequence'.symm, hio.trans hio'.symm, hnext_io.trans hnext_io'.symm, fun heq => ?_⟩
  obtain ⟨_, hrefused⟩ := period_refused rfl first.run hfirst
  obtain ⟨_, hrefused'⟩ := period_refused rfl second.run hsecond
  rw [first.next_drops, second.next_drops, first.processes.eq_nil, second.processes.eq_nil, drops_alike_iff] at heq
  have hsame := heq 100 (by decide) (by decide)
  rw [main_run_uncleared first.run (by decide), main_run_uncleared second.run (by decide), hrefused, hrefused',
    List.drop_replicate, List.map_replicate] at hsame
  exact absurd hsame (by decide)

end bismark_passive.main
