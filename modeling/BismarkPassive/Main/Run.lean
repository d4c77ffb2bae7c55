import BismarkPassive.Dns.Offers
import BismarkPassive.FlowTable.Assign
import BismarkPassive.Main.Dissection
import BismarkPassive.Main.Steps

namespace bismark_passive.main

open machine flow_table address_table packet_series dns http drop_statistics

/-- The slot that a packet's flow is inserted into, if it is. -/
def packet_insertion (s : Session) (state : state_t) (frame : frame_t) (locals : packet_locals) : Option Slot :=
  if locals.ether_type = ETHERTYPE_IP then
    flow_table_insertion s.target (fnv_hash s.target) state.flow_table locals.dissection.entry frame.ts.tv_sec
  else none

/-- The mappings that a packet adds to the address table. -/
def packet_mappings (state : state_t) (frame : frame_t) (locals : packet_locals) : List address_table_entry_t :=
  if locals.ether_type = ETHERTYPE_IP then looked_up_mappings state.address_table frame locals.dissection else []

/-- A packet that has been processed, with what the program made of it. The
last two fields are not values of the program, but say what it did to the flow
table and the address table. -/
structure capture_t where
  frame : frame_t
  locals : packet_locals
  insertion : Option Slot
  new_mappings : List address_table_entry_t

inductive main_event where
  | process_packet (frame : frame_t)
  | write_update (io : update_io) (healthy : io.Healthy)

inductive main_output where
  | processed (capture : capture_t)
  | written (update : update_t)

/-- The capture loop hands over a packet, or the alarm asks for an update. A
step is `none` when the process ends in it. -/
def main_step (s : Session) (state : state_t) : main_event → Option (state_t × main_output)
  | .process_packet frame =>
    (process_packet s state frame).map fun (state', locals) =>
      (state', .processed ⟨frame, locals, packet_insertion s state frame locals, packet_mappings state frame locals⟩)
  | .write_update io _ => (write_update s state io).map fun (state', update) => (state', .written update)

abbrev main_trace := List (main_event × main_output)

/-- The runs from the initialised tables. -/
abbrev main_run (s : Session) (domain_whitelist : domain_whitelist_t) (bloom_whitelist : bloom_whitelist_t) :
    main_trace → state_t → Prop :=
  Execution (main_step s) (initial_state s.target domain_whitelist bloom_whitelist)

/-- The two ways a step of the program goes. -/
theorem main_step_cases {s : Session} {state state' : state_t} {event : main_event} {output : main_output}
    (h : main_step s state event = some (state', output)) :
    (∃ capture : capture_t, event = .process_packet capture.frame ∧ output = .processed capture ∧
      ProcessedPacket s state capture.frame state' capture.locals ∧
      capture.insertion = packet_insertion s state capture.frame capture.locals ∧
      capture.new_mappings = packet_mappings state capture.frame capture.locals) ∨
    (∃ io healthy update, event = .write_update io healthy ∧ output = .written update ∧
      Updated s state io state' update) := by
  cases event with
  | process_packet frame =>
    simp only [main_step, Option.map_eq_some_iff, Prod.mk.injEq] at h
    obtain ⟨⟨state'', locals⟩, hprocess, rfl, rfl⟩ := h
    exact .inl ⟨_, rfl, rfl, process_packet_spec hprocess, rfl, rfl⟩
  | write_update io healthy =>
    simp only [main_step, Option.map_eq_some_iff, Prod.mk.injEq] at h
    obtain ⟨⟨state'', update⟩, hwrite, rfl, rfl⟩ := h
    exact .inr ⟨io, healthy, update, rfl, rfl, write_update_spec healthy hwrite⟩

def captured : main_event × main_output → Option capture_t
  | (_, .processed capture) => some capture
  | (_, .written _) => none

def update_of : main_event × main_output → Option update_t
  | (_, .processed _) => none
  | (_, .written update) => some update

/-- The packets since the last update. -/
def period (trace : main_trace) : List capture_t := since captured trace

/-- The updates of a run, oldest first. -/
def updates (trace : main_trace) : List update_t := trace.filterMap update_of

@[simp] theorem period_snoc_processed (trace : main_trace) (event : main_event) (capture : capture_t) :
    period (trace ++ [(event, .processed capture)]) = period trace ++ [capture] :=
  since_snoc_of_some trace rfl

@[simp] theorem period_snoc_written (trace : main_trace) (event : main_event) (update : update_t) :
    period (trace ++ [(event, .written update)]) = [] :=
  since_snoc_of_none trace rfl

@[simp] theorem updates_snoc_processed (trace : main_trace) (event : main_event) (capture : capture_t) :
    updates (trace ++ [(event, .processed capture)]) = updates trace := by
  simp [updates, update_of]

@[simp] theorem updates_snoc_written (trace : main_trace) (event : main_event) (update : update_t) :
    updates (trace ++ [(event, .written update)]) = updates trace ++ [update] := by
  simp [updates, update_of]

variable {s : Session} {domain_whitelist : domain_whitelist_t} {bloom_whitelist : bloom_whitelist_t}

theorem ProcessedPacket.dissected {state state' : state_t} {frame : frame_t} {locals : packet_locals}
    (h : ProcessedPacket s state frame state' locals) :
    (locals.ether_type ≠ ETHERTYPE_IP ∧ locals.dissection = dissection_init ∧
      state'.address_table = state.address_table) ∨
    (locals.ether_type = ETHERTYPE_IP ∧
      Dissected state.address_table frame locals.dissection state'.address_table) :=
  run_get_flow_entry_for_packet s.target frame state.address_table state.device_throughput_table h.found

theorem ProcessedPacket.dissected_ip {state state' : state_t} {frame : frame_t} {locals : packet_locals}
    (h : ProcessedPacket s state frame state' locals) (hip : locals.ether_type = ETHERTYPE_IP) :
    Dissected state.address_table frame locals.dissection state'.address_table :=
  (h.dissected.resolve_left fun hother => hother.1 hip).2

/-- A packet is stored in the next place of the packet series, or discarded. -/
theorem ProcessedPacket.series_cases {state state' : state_t} {frame : frame_t} {locals : packet_locals}
    (h : ProcessedPacket s state frame state' locals) :
    (state.packet_data.length < PACKET_DATA_BUFFER_ENTRIES ∧ locals.packet_id = (state.packet_data.length : Int) ∧
      state'.packet_data.length = state.packet_data.length + 1 ∧
      state'.packet_data.discarded_by_overflow = state.packet_data.discarded_by_overflow) ∨
    (state.packet_data.length = PACKET_DATA_BUFFER_ENTRIES ∧ locals.packet_id = -1 ∧
      state'.packet_data = state.packet_data.discard) := by
  rcases packet_series_add_packet_cases state.packet_data frame.ts frame.len locals.flow_id.toNat with
    ⟨hroom, hid, hitems, hdiscarded, _⟩ | ⟨hfull, hdiscard⟩
  · rw [h.series] at hid hitems hdiscarded
    exact .inl ⟨hroom, hid, (congrArg List.length hitems).trans List.length_append, hdiscarded⟩
  · rw [h.series, Prod.mk.injEq] at hdiscard
    exact .inr ⟨hfull, hdiscard⟩

/-- A packet offers the DNS table entries with its own ids, whatever is in the
table, and only if it has a DNS payload, a mapping and a place in the series. -/
theorem process_dns_offers (s : Session) (frame : frame_t) (dissection : dissection_t) (packet_id : Int) :
    ∃ as cnames, HaveIds (UInt16.ofInt packet_id) (UInt8.ofInt dissection.mac_id) as cnames ∧
      (as = [] ∧ cnames = [] ∨ 0 ≤ dissection.mac_id ∧ 0 ≤ packet_id) ∧
      ∀ table, process_dns s frame dissection packet_id table = table.record_all as cnames := by
  unfold process_dns
  by_cases hwanted : 0 < dissection.dns_bytes_len ∧ 0 ≤ dissection.mac_id ∧ 0 ≤ packet_id
  · obtain ⟨result, as, cnames, hids, hoffer⟩ := @run_process_dns_packet_offers s.externals
      (fun address => frame.memory (dissection.dns_bytes + address)) dissection.dns_bytes_len.toNat
      (UInt16.ofInt packet_id) (UInt8.ofInt dissection.mac_id)
    refine ⟨as, cnames, hids, .inr hwanted.2, fun table => ?_⟩
    rw [if_pos hwanted]
    exact congrArg Prod.snd (hoffer table)
  · exact ⟨[], [], .nil, .inl ⟨rfl, rfl⟩, fun table => by rw [if_neg hwanted, table.record_all_nil]⟩

/-- The whitelists stay those the program started with. -/
structure state_t.Whitelists (state : state_t) (domain_whitelist : domain_whitelist_t)
    (bloom_whitelist : bloom_whitelist_t) : Prop where
  domain : state.domain_whitelist = domain_whitelist
  bloom : state.bloom_whitelist = bloom_whitelist
  dns_whitelist : state.dns_table.whitelist = some domain_whitelist
  dns_bloom : state.dns_table.bloom = bloom_whitelist

/-- The whitelists stay as they were loaded. -/
theorem main_run_whitelists {trace : main_trace} {state : state_t}
    (run : main_run s domain_whitelist bloom_whitelist trace state) :
    state.Whitelists domain_whitelist bloom_whitelist := by
  refine run.invariant (fun _ state => state.Whitelists domain_whitelist bloom_whitelist)
    ⟨rfl, rfl, rfl, rfl⟩ ?_
  intro trace state event state' output run h hstep
  obtain ⟨capture, rfl, rfl, hpacket, _⟩ | ⟨io, healthy, update, rfl, rfl, hupdate⟩ := main_step_cases hstep
  · obtain ⟨as, cnames, _, _, hoffer⟩ :=
      process_dns_offers s capture.frame capture.locals.dissection capture.locals.packet_id
    have hdns : state'.dns_table = state.dns_table.record_all as cnames := hpacket.dns.trans (hoffer _)
    refine ⟨hpacket.domain_whitelist.trans h.domain, hpacket.bloom_whitelist.trans h.bloom, ?_, ?_⟩
    · rw [hdns]
      exact h.dns_whitelist
    · rw [hdns]
      exact h.dns_bloom
  · rw [hupdate.reset]
    exact ⟨h.domain, h.bloom, congrArg some h.domain, h.bloom⟩

/-- Every packet of the period was processed in a state of the run. -/
theorem period_processed {trace : main_trace} {state : state_t}
    (run : main_run s domain_whitelist bloom_whitelist trace state) {capture : capture_t}
    (hmem : capture ∈ period trace) :
    ∃ before state₀ state₁, main_run s domain_whitelist bloom_whitelist before state₀ ∧
      ProcessedPacket s state₀ capture.frame state₁ capture.locals ∧
      capture.insertion = packet_insertion s state₀ capture.frame capture.locals := by
  obtain ⟨⟨event, output⟩, hevent, hreport⟩ := mem_of_mem_since hmem
  obtain ⟨before, _, state₀, state₁, _, hbefore, hstep⟩ := run.step_of_mem hevent
  obtain ⟨other, rfl, rfl, hpacket, hinsertion, _⟩ | ⟨_, _, _, rfl, rfl, _⟩ := main_step_cases hstep
  · obtain rfl : other = capture := by simpa [captured] using hreport
    exact ⟨before, state₀, state₁, hbefore, hpacket, hinsertion⟩
  · simp [captured] at hreport

/-- A step that processes a packet is `process_packet` on its frame. -/
theorem main_step_packet {state state' : state_t} {frame : frame_t} {capture : capture_t}
    (h : main_step s state (.process_packet frame) = some (state', .processed capture)) :
    capture.frame = frame ∧ ProcessedPacket s state frame state' capture.locals ∧
      capture.insertion = packet_insertion s state frame capture.locals ∧
      capture.new_mappings = packet_mappings state frame capture.locals := by
  obtain ⟨capture', hevent, houtput, hpacket⟩ | ⟨_, _, _, hevent, _⟩ := main_step_cases h
  · cases hevent
    cases houtput
    exact ⟨rfl, hpacket⟩
  · cases hevent

/-- A step that writes an update is `write_update`. -/
theorem main_step_update {state state' : state_t} {io : update_io} {healthy : io.Healthy} {update : update_t}
    (h : main_step s state (.write_update io healthy) = some (state', .written update)) :
    Updated s state io state' update := by
  obtain ⟨_, hevent, _⟩ | ⟨_, _, _, hevent, houtput, hupdate⟩ := main_step_cases h
  · cases hevent
  · cases hevent
    cases houtput
    exact hupdate

/-- An update that completes: the state it was written from and what it wrote. -/
theorem main_run_update {trace : main_trace} {state : state_t} {io : update_io} {healthy : io.Healthy}
    {update : update_t}
    (run : main_run s domain_whitelist bloom_whitelist
      (trace ++ [(.write_update io healthy, .written update)]) state) :
    ∃ state₀, main_run s domain_whitelist bloom_whitelist trace state₀ ∧ Updated s state₀ io state update := by
  obtain ⟨state₀, run₀, hstep⟩ := Execution.snoc_iff.mp run
  exact ⟨state₀, run₀, main_step_update hstep⟩

/-! The flow table within the program -/

/-- A packet is a call on the flow table if it is an IP packet, and leaves the
table alone otherwise. -/
theorem ProcessedPacket.flow_cases {state state' : state_t} {frame : frame_t} {locals : packet_locals}
    (h : ProcessedPacket s state frame state' locals) :
    (locals.ether_type ≠ ETHERTYPE_IP ∧ packet_insertion s state frame locals = none ∧
      state'.flow_table = state.flow_table) ∨
    (locals.ether_type = ETHERTYPE_IP ∧
      flow_table_process_flow s.target (fnv_hash s.target) state.flow_table locals.dissection.entry
        frame.ts.tv_sec = (locals.flow_id.toNat, state'.flow_table) ∧
      Processed s.target (fnv_hash s.target) state.flow_table locals.dissection.entry frame.ts.tv_sec
        locals.flow_id.toNat (packet_insertion s state frame locals) state'.flow_table) := by
  have hflow := h.flow
  unfold process_flow at hflow
  unfold packet_insertion
  by_cases hip : locals.ether_type = ETHERTYPE_IP
  · have hspec := flow_table_process_flow_spec s.target (fnv_hash s.target) state.flow_table
      locals.dissection.entry frame.ts.tv_sec
    rw [if_pos hip, Prod.mk.injEq] at hflow
    have hid : locals.flow_id.toNat = (flow_table_process_flow s.target (fnv_hash s.target) state.flow_table
        locals.dissection.entry frame.ts.tv_sec).1 := by
      rw [← hflow.1, UInt16.toNat_ofNat']
      exact Nat.mod_eq_of_lt hspec.id_lt
    rw [if_pos hip, hid, ← hflow.2]
    exact .inr ⟨hip, rfl, hspec⟩
  · rw [if_neg hip, Prod.mk.injEq] at hflow
    rw [if_neg hip]
    exact .inl ⟨hip, rfl, hflow.2.symm⟩

/-- The flow table goes through a run of its own. -/
theorem main_run_flow_run {trace : main_trace} {state : state_t}
    (run : main_run s domain_whitelist bloom_whitelist trace state) :
    ∃ flow_trace, flow_run s (fnv_hash s.target) flow_trace state.flow_table := by
  refine run.invariant (fun _ state => ∃ flow_trace, flow_run s (fnv_hash s.target) flow_trace state.flow_table)
    ⟨[], .nil⟩ ?_
  rintro trace state event state' output run ⟨flow_trace, hflow⟩ hstep
  obtain ⟨capture, rfl, rfl, hpacket, _⟩ | ⟨io, healthy, update, rfl, rfl, hupdate⟩ := main_step_cases hstep
  · obtain ⟨_, _, hsame⟩ | ⟨_, hprocess, _⟩ := hpacket.flow_cases
    · exact ⟨flow_trace, hsame ▸ hflow⟩
    · have hprocessed : flow_step s (fnv_hash s.target) state.flow_table
          (.process_flow capture.locals.dissection.entry capture.frame.ts.tv_sec) =
          some (state'.flow_table, .processed capture.locals.flow_id.toNat
            (flow_table_insertion s.target (fnv_hash s.target) state.flow_table
              capture.locals.dissection.entry capture.frame.ts.tv_sec)) := by
        rw [flow_step, hprocess]
      exact ⟨_, hflow.snoc hprocessed⟩
  · obtain ⟨handle, handle', hwrite⟩ := hupdate.flow_written
    have hwritten : flow_step s (fnv_hash s.target) state.flow_table (.write_update handle) =
        some (state.flow_table.mark_sent all_slots, .done) := by
      rw [flow_step, hwrite]
      rfl
    have hadvanced : flow_step s (fnv_hash s.target) (state.flow_table.mark_sent all_slots)
        (.advance_base_timestamp io.current_timestamp) = some (state'.flow_table, .done) := by
      rw [flow_step, hupdate.reset]
      rfl
    exact ⟨_, (hflow.snoc hwritten).snoc hadvanced⟩

theorem main_run_flow_sound {trace : main_trace} {state : state_t}
    (run : main_run s domain_whitelist bloom_whitelist trace state) :
    state.flow_table.Sound s.target (fnv_hash s.target) := by
  obtain ⟨_, hflow⟩ := main_run_flow_run run
  exact flow_run_sound hflow

end bismark_passive.main
