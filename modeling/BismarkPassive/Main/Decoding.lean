import BismarkPassive.FlowTable.Times
import BismarkPassive.Main.FlowRecords
import BismarkPassive.PacketSeries.FlowIds

namespace bismark_passive.main

open machine flow_table packet_series

variable {s : Session} {domain_whitelist : domain_whitelist_t} {bloom_whitelist : bloom_whitelist_t}

/-- The packets within each update period are at most an expiration time apart. -/
def ShortPeriods (trace : main_trace) : Prop :=
  ∀ before after, trace = before ++ after → ∀ first ∈ period before, ∀ second ∈ period before,
    first.frame.ts.tv_sec - second.frame.ts.tv_sec ≤ FLOW_TABLE_EXPIRATION_SECONDS

theorem ShortPeriods.init {trace : main_trace} {event : main_event × main_output}
    (h : ShortPeriods (trace ++ [event])) : ShortPeriods trace :=
  fun before after htrace => h before (after ++ [event]) (by rw [htrace, List.append_assoc])

theorem ShortPeriods.whole {trace : main_trace} (h : ShortPeriods trace) :
    ∀ first ∈ period trace, ∀ second ∈ period trace,
      first.frame.ts.tv_sec - second.frame.ts.tv_sec ≤ FLOW_TABLE_EXPIRATION_SECONDS :=
  h trace [] (List.append_nil trace).symm

/-- The record, if it has this id. -/
def with_flow_id (id : Nat) : Line → Option Line
  | .flow id' source_anonymized source destination_anonymized destination protocol sport dport =>
    if id' = id then
      some (.flow id' source_anonymized source destination_anonymized destination protocol sport dport)
    else none
  | _ => none

/-- All flow records that have been sent, oldest first. -/
def sent_records (trace : main_trace) : List Line := (updates trace).flatMap update_t.flow_records

/-- The most recent flow record with this id. -/
def latest_record (trace : main_trace) (id : Nat) : Option Line := latest (with_flow_id id) (sent_records trace)

/-- A flow's line shows the slot of its entry and no other. -/
theorem flow_line_with_id {idx other : Slot} {entry : flow_table_entry_t} {line : Line}
    (h : flow_line s idx entry = some line) :
    with_flow_id (flow_id other) line = if idx = other then some line else none := by
  simp only [flow_line, Option.bind_eq_bind, Option.bind_eq_some_iff, Option.pure_def, Option.some.injEq] at h
  obtain ⟨_, _, _, _, rfl⟩ := h
  by_cases hslot : idx = other
  · simp [with_flow_id, hslot]
  · have hid : flow_id idx ≠ flow_id other := fun heq => hslot (flow_id_injective heq)
    simp [with_flow_id, hslot, hid]

/-- Among the records of a table, the one with a slot's id is the slot's, if it
is waiting to be sent. -/
theorem latest_flow_lines (table : flow_table_t) (idx : Slot) {range : List Slot} (hnodup : range.Nodup) :
    latest (with_flow_id (flow_id idx)) (flow_lines s table range) =
      if idx ∈ range ∧ (table.entries idx).occupied = .ENTRY_OCCUPIED_BUT_UNSENT then
        flow_line s idx (table.entries idx)
      else none := by
  induction range with
  | nil => simp [flow_lines]
  | cons first range ih =>
    obtain ⟨hnotmem, hrange⟩ := List.nodup_cons.mp hnodup
    have hsplit : flow_lines s table (first :: range) =
        flow_lines s table [first] ++ flow_lines s table range := by
      rw [flow_lines, ← List.singleton_append, List.filterMap_append]
      rfl
    have hfirst : latest (with_flow_id (flow_id idx)) (flow_lines s table [first]) =
        if first = idx ∧ (table.entries first).occupied = .ENTRY_OCCUPIED_BUT_UNSENT then
          flow_line s first (table.entries first)
        else none := by
      by_cases hunsent : (table.entries first).occupied = .ENTRY_OCCUPIED_BUT_UNSENT
      · cases hline : flow_line s first (table.entries first) with
        | none => simp [flow_lines, hunsent, hline]
        | some line =>
          have hone : flow_lines s table [first] = [line] := by simp [flow_lines, hunsent, hline]
          rw [hone, latest, List.reverse_singleton, List.findSome?_singleton, flow_line_with_id hline]
          simp only [hunsent, and_true]
      · simp [flow_lines, hunsent]
    rw [hsplit, latest_append, ih hrange, hfirst]
    by_cases hslot : first = idx
    · subst hslot
      simp [hnotmem]
    · have hne : idx ≠ first := fun h => hslot h.symm
      simp [hslot, hne]

/-- The most recent record with a slot's id is the one of the entry. -/
def RecordSent (s : Session) (trace : main_trace) (table : flow_table_t) (idx : Slot) : Prop :=
  ∃ record, flow_line s idx (table.entries idx) = some record ∧ latest_record trace (flow_id idx) = some record

/-- That is so for all entries that have been sent. -/
def Recorded (s : Session) (trace : main_trace) (table : flow_table_t) : Prop :=
  ∀ idx, (table.entries idx).occupied = .ENTRY_OCCUPIED → RecordSent s trace table idx

theorem latest_record_snoc_processed (trace : main_trace) (event : main_event) (capture : capture_t) (id : Nat) :
    latest_record (trace ++ [(event, .processed capture)]) id = latest_record trace id := by
  rw [latest_record, sent_records, updates_snoc_processed]
  rfl

theorem latest_record_snoc_written (trace : main_trace) (event : main_event) (update : update_t) (id : Nat) :
    latest_record (trace ++ [(event, .written update)]) id =
      (latest (with_flow_id id) update.flow_records).or (latest_record trace id) := by
  rw [latest_record, sent_records, updates_snoc_written, List.flatMap_append, List.flatMap_singleton, latest_append]
  rfl

/-- After an update it is so for all live entries that it was written from. -/
theorem Recorded.update {trace : main_trace} {state state' : state_t} {io : update_io} {healthy : io.Healthy}
    {update : update_t} (h : Recorded s trace state.flow_table) (hupdate : Updated s state io state' update)
    {idx : Slot} (hlive : (state.flow_table.entries idx).Live) :
    RecordSent s (trace ++ [(.write_update io healthy, .written update)]) state.flow_table idx := by
  unfold RecordSent
  rw [latest_record_snoc_written, hupdate.flow_records, latest_flow_lines _ _ nodup_all_slots]
  obtain hoccupied | hunsent := hlive
  · obtain ⟨record, hline, hlatest⟩ := h idx hoccupied
    refine ⟨record, hline, ?_⟩
    rw [if_neg (by simp [hoccupied]), Option.none_or, hlatest]
  · obtain ⟨record, hline⟩ := hupdate.composed idx hunsent
    refine ⟨record, hline, ?_⟩
    rw [if_pos ⟨mem_all_slots idx, hunsent⟩, hline, Option.some_or]

/-- It stays so while the entry keeps its flow and no update is written. -/
theorem RecordSent.congr {trace : main_trace} {table table' : flow_table_t} {idx : Slot}
    (h : RecordSent s trace table idx) (hrecord : (table'.entries idx).SameRecord (table.entries idx)) :
    RecordSent s trace table' idx := by
  obtain ⟨record, hline, hlatest⟩ := h
  exact ⟨record, (flow_line_congr s idx hrecord).trans hline, hlatest⟩

theorem RecordSent.snoc_processed {trace : main_trace} {table : flow_table_t} {idx : Slot}
    (h : RecordSent s trace table idx) (event : main_event) (capture : capture_t) :
    RecordSent s (trace ++ [(event, .processed capture)]) table idx := by
  obtain ⟨record, hline, hlatest⟩ := h
  exact ⟨record, hline, (latest_record_snoc_processed ..).trans hlatest⟩

/-- In every run the entries that were sent are the latest records sent under their ids. -/
theorem main_run_recorded {trace : main_trace} {state : state_t}
    (run : main_run s domain_whitelist bloom_whitelist trace state) : Recorded s trace state.flow_table := by
  refine run.invariant (fun trace state => Recorded s trace state.flow_table) ?_ ?_
  · intro idx hoccupied
    simp [initial_state, flow_table_init, flow_table_entry_init] at hoccupied
  · intro trace state event state' output run hrecorded hstep idx hoccupied
    obtain ⟨capture, rfl, rfl, hpacket, _⟩ | ⟨io, healthy, update, rfl, rfl, hupdate⟩ := main_step_cases hstep
    · apply RecordSent.snoc_processed
      obtain ⟨_, _, hsame⟩ | ⟨_, _, hprocessed⟩ := hpacket.flow_cases
      · rw [hsame] at hoccupied ⊢
        exact hrecorded idx hoccupied
      · have hold : packet_insertion s state capture.frame capture.locals ≠ some idx := by
          intro hnew
          rw [(hprocessed.arrives hnew).2.1] at hoccupied
          cases hoccupied
        obtain ⟨_, hsame, hrecord⟩ := hprocessed.survivor hold (.inl hoccupied)
        exact (hrecorded idx (hsame.symm.trans hoccupied)).congr hrecord
    · rw [hupdate.reset] at hoccupied ⊢
      obtain ⟨hlive, hrecord⟩ := advance_mark_sent_survivor (.inl hoccupied)
      exact (hrecorded.update hupdate hlive).congr hrecord

/-- Both addresses of an entry are printed as digests. -/
def Anonymized (entry : flow_table_entry_t) : Prop :=
  entry.ip_source_unanonymized = false ∧ entry.ip_destination_unanonymized = false

theorem Anonymized.congr {entry other : flow_table_entry_t} (h : Anonymized other) (hrecord : entry.SameRecord other) :
    Anonymized entry :=
  ⟨hrecord.source.trans h.1, hrecord.destination.trans h.2⟩

/-- Both addresses of every live entry are printed as digests. -/
theorem main_run_anonymized {trace : main_trace} {state : state_t}
    (run : main_run s domain_whitelist bloom_whitelist trace state) :
    ∀ idx, (state.flow_table.entries idx).Live → Anonymized (state.flow_table.entries idx) := by
  refine run.invariant
    (fun _ state => ∀ idx, (state.flow_table.entries idx).Live → Anonymized (state.flow_table.entries idx)) ?_ ?_
  · intro idx hlive
    exact ⟨rfl, rfl⟩
  · intro trace state event state' output run h hstep idx hlive
    obtain ⟨capture, rfl, rfl, hpacket, _⟩ | ⟨io, healthy, update, rfl, rfl, hupdate⟩ := main_step_cases hstep
    · obtain ⟨_, _, hsame⟩ | ⟨hip, _, hprocessed⟩ := hpacket.flow_cases
      · rw [hsame] at hlive ⊢
        exact h idx hlive
      · by_cases hnew : packet_insertion s state capture.frame capture.locals = some idx
        · obtain ⟨hother, _⟩ | ⟨_, hdissected⟩ := hpacket.dissected
          · exact absurd hip hother
          · exact Anonymized.congr ⟨hdissected.source_anonymized, hdissected.destination_anonymized⟩
              (hprocessed.arrives hnew).2.2
        · obtain ⟨hold, _, hrecord⟩ := hprocessed.survivor hnew hlive
          exact (h idx hold).congr hrecord
    · rw [hupdate.reset] at hlive ⊢
      obtain ⟨hold, hrecord⟩ := advance_mark_sent_survivor hlive
      exact (h idx hold).congr hrecord

/-- The packet got an id from the flow table. -/
def capture_t.HasFlow (capture : capture_t) : Prop :=
  capture.locals.ether_type = ETHERTYPE_IP ∧ capture.locals.flow_id.toNat ≠ FLOW_ID_ERROR

/-- The flow of a packet is still in the slot of its id, and no packet of the
period finds it expired. -/
structure Remembered (captures : List capture_t) (table : flow_table_t) (capture : capture_t) (idx : Slot) : Prop where
  flow_id : capture.locals.flow_id.toNat = flow_id idx
  live : (table.entries idx).Live
  key : (table.entries idx).key = capture.key
  seen : (table.entries idx).occupied = .ENTRY_OCCUPIED_BUT_UNSENT ∨
    ∃ other ∈ captures, table.last_seen idx = other.frame.ts.tv_sec

/-- Another packet of the period keeps the flow in its slot. -/
theorem Remembered.processed {captures : List capture_t} {table table' : flow_table_t} {capture other : capture_t}
    {idx : Slot} {insertion : Option Slot} (h : Remembered captures table capture idx)
    (hsound : table.Sound s.target (fnv_hash s.target))
    (hprocessed : Processed s.target (fnv_hash s.target) table other.locals.dissection.entry other.frame.ts.tv_sec
      other.locals.flow_id.toNat insertion table')
    (hshort : ∀ earlier ∈ captures,
      other.frame.ts.tv_sec - earlier.frame.ts.tv_sec ≤ FLOW_TABLE_EXPIRATION_SECONDS) :
    Remembered (captures ++ [other]) table' capture idx := by
  have hfresh : ¬ (table.entries idx).Expired table.base_timestamp_seconds other.frame.ts.tv_sec := by
    obtain hunsent | ⟨earlier, hmem, hseen⟩ := h.seen
    · exact unsent_not_expired hunsent _ _
    · rintro ⟨_, hold⟩
      have := hshort earlier hmem
      rw [flow_table_t.last_seen] at hseen
      omega
  obtain ⟨_, hoccupied, hrecord⟩ := hprocessed.stays h.live hfresh
  have hlive : (table'.entries idx).Live := by
    rw [flow_table_entry_t.Live, hoccupied]
    exact h.live
  refine ⟨h.flow_id, hlive, hrecord.key.trans h.key, ?_⟩
  obtain ⟨_, _, htime⟩ | ⟨_, hsame, hbase, _⟩ := hprocessed.live_cases hsound hlive
  · exact .inr ⟨other, by simp, htime⟩
  · rw [flow_table_t.last_seen, hsame, hbase]
    obtain hunsent | ⟨earlier, hmem, hseen⟩ := h.seen
    · exact .inl hunsent
    · exact .inr ⟨earlier, List.mem_append_left _ hmem, hseen⟩

/-- In a short period the flow of every packet stays in the slot of its id. -/
theorem main_run_remembered {trace : main_trace} {state : state_t}
    (run : main_run s domain_whitelist bloom_whitelist trace state) (hshort : ShortPeriods trace) :
    ∀ capture ∈ period trace, capture.HasFlow → ∃ idx, Remembered (period trace) state.flow_table capture idx := by
  revert hshort
  refine run.invariant (fun trace state => ShortPeriods trace → ∀ capture ∈ period trace, capture.HasFlow →
    ∃ idx, Remembered (period trace) state.flow_table capture idx) ?_ ?_
  · intro _ capture hmem
    cases hmem
  · intro trace state event state' output run ih hstep hshort
    obtain ⟨other, rfl, rfl, hpacket, _⟩ | ⟨io, healthy, update, rfl, rfl, hupdate⟩ := main_step_cases hstep
    · have hwhole := hshort.whole
      rw [period_snoc_processed] at hwhole ⊢
      intro capture hmem hflow
      obtain hold | hlast := List.mem_append.mp hmem
      · obtain ⟨idx, hremembered⟩ := ih hshort.init capture hold hflow
        refine ⟨idx, ?_⟩
        obtain ⟨_, _, hsame⟩ | ⟨_, _, hprocessed⟩ := hpacket.flow_cases
        · rw [hsame]
          refine ⟨hremembered.flow_id, hremembered.live, hremembered.key, ?_⟩
          exact hremembered.seen.imp_right fun ⟨earlier, hmem, hseen⟩ => ⟨earlier, List.mem_append_left _ hmem, hseen⟩
        · refine hremembered.processed (main_run_flow_sound run) hprocessed fun earlier hearlier => ?_
          exact hwhole other (by simp) earlier (List.mem_append_left _ hearlier)
      · obtain rfl := List.mem_singleton.mp hlast
        obtain ⟨hother, _⟩ | ⟨_, _, hprocessed⟩ := hpacket.flow_cases
        · exact absurd hflow.1 hother
        · obtain ⟨idx, hid, hlive, hkey, hseen⟩ := hprocessed.accepted (main_run_flow_sound run) hflow.2
          exact ⟨idx, hid, hlive, hkey, .inr ⟨capture, by simp, hseen⟩⟩
    · rw [period_snoc_written]
      intro capture hmem
      cases hmem

/-- No two lines of a table show one id. -/
theorem flow_lines_unique {table : flow_table_t} {range : List Slot} {first second : Line}
    (hfirst : first ∈ flow_lines s table range) (hsecond : second ∈ flow_lines s table range)
    (hsame : first.shown_flow_id = second.shown_flow_id) : first = second := by
  have hline {line : Line} (h : line ∈ flow_lines s table range) :
      ∃ idx, flow_line s idx (table.entries idx) = some line := by
    obtain ⟨idx, _, hidx⟩ := List.mem_filterMap.mp h
    split at hidx
    · exact ⟨idx, hidx⟩
    · cases hidx
  obtain ⟨idx, hidx⟩ := hline hfirst
  obtain ⟨other, hother⟩ := hline hsecond
  rw [flow_line_flow_id hidx, flow_line_flow_id hother, Option.some.injEq, Nat.cast_inj] at hsame
  obtain rfl := flow_id_injective hsame
  exact Option.some.inj (hidx.symm.trans hother)

/-- Every packet line of an update that shows the id its packet got from the
flow table can be decoded: the most recent record with this id is the one of
the packet's flow. All packets and all records of the update with one id are of
one flow. -/
theorem packet_line_decodes {trace : main_trace} {state : state_t} {io : update_io} {healthy : io.Healthy}
    {update : update_t}
    (run : main_run s domain_whitelist bloom_whitelist
      (trace ++ [(.write_update io healthy, .written update)]) state) (hshort : ShortPeriods trace) :
    (∀ (index id : Nat) line, update.packet_lines[index]? = some line → line.shown_flow_id = some (id : Int) →
      ∃ capture, (stored (period trace))[index]? = some capture ∧ line = stored_line (period trace) index capture ∧
        (capture.HasFlow → capture.locals.flow_id.toNat = id →
          ∃ record, flow_record s id capture.key = some record ∧
            latest_record (trace ++ [(.write_update io healthy, .written update)]) id = some record)) ∧
    (∀ first ∈ period trace, ∀ second ∈ period trace, first.HasFlow → second.HasFlow →
      first.locals.flow_id = second.locals.flow_id → first.key = second.key) ∧
    ∀ first ∈ update.flow_records, ∀ second ∈ update.flow_records,
      first.shown_flow_id = second.shown_flow_id → first = second := by
  obtain ⟨state₀, run₀, hupdate⟩ := main_run_update run
  have hremembered := main_run_remembered run₀ hshort
  refine ⟨fun index id line hline hshown => ?_, fun first hfirst second hsecond hflow hflow' hsame => ?_, ?_⟩
  · rw [main_run_packet_lines run, Option.map_eq_some_iff] at hline
    obtain ⟨capture, hstored, rfl⟩ := hline
    refine ⟨capture, hstored, rfl, fun hflow hid => ?_⟩
    have hmem : capture ∈ period trace := List.mem_of_mem_filter (List.mem_of_getElem? hstored)
    obtain ⟨idx, hidx⟩ := hremembered capture hmem hflow
    have hsent : RecordSent s (trace ++ [(.write_update io healthy, .written update)]) state₀.flow_table idx :=
      (main_run_recorded run₀).update hupdate hidx.live
    obtain ⟨record, hrecord, hlatest⟩ := hsent
    obtain ⟨hsource, hdestination⟩ := main_run_anonymized run₀ idx hidx.live
    rw [flow_line_eq_record hsource hdestination, hidx.key] at hrecord
    rw [← hid, hidx.flow_id]
    exact ⟨record, hrecord, hlatest⟩
  · obtain ⟨idx, hidx⟩ := hremembered first hfirst hflow
    obtain ⟨other, hother⟩ := hremembered second hsecond hflow'
    have hslot : idx = other := by
      apply flow_id_injective
      rw [← hidx.flow_id, ← hother.flow_id, hsame]
    rw [← hidx.key, ← hother.key, hslot]
  · rw [hupdate.flow_records]
    exact fun first hfirst second hsecond => flow_lines_unique hfirst hsecond

/-- A single packet makes a short period. -/
theorem shortPeriods_singleton (event : main_event) (capture : capture_t) :
    ShortPeriods [(event, .processed capture)] := by
  intro before after htrace first hfirst second hsecond
  cases before with
  | nil => cases hfirst
  | cons head tail =>
    simp only [List.cons_append, List.cons.injEq, List.nil_eq, List.append_eq_nil_iff] at htrace
    obtain ⟨rfl, rfl, _⟩ := htrace
    have hone : period [(event, .processed capture)] = [capture] := rfl
    rw [hone, List.mem_singleton] at hfirst hsecond
    rw [hfirst, hsecond, sub_self]
    decide

/-- The line of a first TCP packet is decoded by the record in the same update. -/
theorem packet_line_decodes_tcp :
    ∃ update state trace key record, main_run initialized_session domain_whitelist_init empty_bloom trace state ∧
      updates trace = [update] ∧ (update.packet_lines[0]?.bind Line.shown_flow_id) = some 16786 ∧
      flow_record initialized_session 16786 key = some record ∧ latest_record trace 16786 = some record := by
  obtain ⟨capture, state₁, run₁, _, hip, hid, hposition⟩ := tcp_run
  obtain ⟨update, state₂, run₂⟩ := main_run_goes_on_update rfl run₁ empty_bloom_lookup (healthy_io_healthy 100) rfl rfl
  have hstored : stored (period [(.process_packet (tcp_frame 0), .processed capture)]) = [capture] := by
    have hone : period [(main_event.process_packet (tcp_frame 0), .processed capture)] = [capture] := rfl
    simp [hone, stored, hposition]
  have hline := main_run_packet_lines run₂ 0
  rw [hstored, List.getElem?_cons_zero, Option.map_some] at hline
  have hshown : (stored_line (period [(.process_packet (tcp_frame 0), .processed capture)]) 0
      capture).shown_flow_id = some 16786 := by
    simp only [stored_line, packet_line, packet_entry, Line.shown_flow_id, hid]
    decide
  obtain ⟨capture', hcapture', _, hdecodes⟩ := (packet_line_decodes run₂
    (shortPeriods_singleton _ capture)).1 0 16786 _ hline hshown
  rw [hstored, List.getElem?_cons_zero, Option.some.injEq] at hcapture'
  subst hcapture'
  obtain ⟨record, hrecord, hlatest⟩ := hdecodes ⟨hip, by rw [hid]; decide⟩ (by rw [hid]; rfl)
  exact ⟨update, state₂, _, capture.key, record, run₂, rfl, by rw [hline, Option.bind_some, hshown], hrecord, hlatest⟩

end bismark_passive.main
