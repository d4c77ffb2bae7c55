import BismarkPassive.Main.Uninterrupted

namespace bismark_passive.main

open machine files flow_table address_table packet_series dns http drop_statistics

variable {s : Session} {bismark_mac : mac_address_t} {periods : alarm_periods} {trace : signal_trace} {p : process_t}
  {handler : handler_t} {interrupted : List handler_t} {waiting : share_t}
  {domain_whitelist : domain_whitelist_t} {bloom_whitelist : bloom_whitelist_t}

/-! Packets -/

/-- A packet's records wait to be sent. -/
theorem SharedOut.records (h : SharedOut s trace waiting) {event : signal_event} (packets : List packet_data_t)
    (flows : List (Slot × flow_table_entry_t)) :
    SharedOut s (trace ++ [(event, .recorded packets flows)])
      ⟨waiting.packets ++ packets, waiting.flows ++ flows⟩ := by
  obtain ⟨shares, hshares, hpackets, hflows⟩ := h
  refine ⟨shares, ?_, ?_, ?_⟩
  · rw [staged_updates_snoc]
    simpa [signal_output.update] using hshares
  · rw [recorded_packets_snoc, hpackets, List.append_assoc]
    rfl
  · rw [recorded_flows_snoc, hflows, List.append_assoc]
    rfl

/-- A packet writes no file. -/
theorem NothingOverwritten.records {directory : Directory cstring (List Line)}
    (h : NothingOverwritten trace directory) {event : signal_event} {packets : List packet_data_t}
    {flows : List (Slot × flow_table_entry_t)} :
    NothingOverwritten (trace ++ [(event, .recorded packets flows)]) directory := by
  have hsame : staged_updates (trace ++ [(event, .recorded packets flows)]) = staged_updates trace := by
    rw [staged_updates_snoc]
    exact List.append_nil _
  exact ⟨hsame ▸ h.nodup, hsame ▸ h.kept, hsame ▸ h.only⟩

/-- A packet that is recorded waits in the packet series, and its flow, if it
is new, in the flow table. -/
theorem Holds.packet {tables tables' : state_t} {capture : capture_t}
    (h : Holds tables.packet_data.packet_data.items tables.flow_table waiting)
    (hpacket : ProcessedPacket s tables capture.frame tables' capture.locals)
    (hinsertion : capture.insertion = packet_insertion s tables capture.frame capture.locals) :
    Holds tables'.packet_data.packet_data.items tables'.flow_table
      ⟨waiting.packets ++ tables'.packet_data.packet_data.items.drop tables.packet_data.length,
        waiting.flows ++ inserted_flows [capture]⟩ := by
  have hextends := packet_series_add_packet_extends tables.packet_data capture.frame.ts capture.frame.len
    capture.locals.flow_id.toNat
  rw [hpacket.series] at hextends
  obtain ⟨more, hmore⟩ := hextends
  constructor
  case held =>
    rw [← h.held, packet_series_t.length, ← hmore, List.drop_left]
  case pending =>
    have hflows : inserted_flows [capture] =
        capture.insertion.toList.map fun idx => (idx, capture.locals.dissection.entry) := by
      simp [inserted_flows]
    rw [hflows, hinsertion]
    obtain ⟨_, hnone, hsame⟩ | ⟨_, _, hprocessed⟩ := hpacket.flow_cases
    · rw [hnone, hsame]
      simpa using h.pending
    · exact hprocessed.pending h.pending

/-- A packet between handlers keeps the account. -/
theorem keeps_packet (hshared : SharedOut s trace waiting) (hkept : NothingOverwritten trace p.directory)
    (hrunning : p.status = .running) (hsafe : p.Safe s periods (staged_updates trace) waiting)
    (hhandlers : p.handlers = []) {frame : frame_t} {tables : state_t} {output : main_output}
    (hstep : main_step s p.tables (.process_packet frame) = some (tables, output)) :
    Accounted s periods (trace ++ [(.process_packet frame, .recorded
        (tables.packet_data.packet_data.items.drop p.tables.packet_data.length)
        (inserted_flows (captured (.process_packet frame, output)).toList))]) { p with tables := tables } := by
  have hnone (handlers' : List handler_t) (heq : handlers' = []) (freed : Bool) (named : Prop) (init : reset_t)
      (current : List handler_t) (h : FreedSafely freed named init handlers' current) : freed ≠ true := by
    rintro hfreed
    obtain ⟨⟨other, hother, _⟩, _⟩ := h hfreed
    rw [heq] at hother
    exact absurd hother List.not_mem_nil
  have hcurrent := hsafe.current
  have hnames := hsafe.names
  rw [current_nil hhandlers] at hcurrent hnames
  obtain ⟨capture, hevent, rfl, hpacket, hinsertion, _⟩ | ⟨_, _, _, hevent, _⟩ := main_step_cases hstep
  · cases hevent
    have hcurrent' : process_t.current s periods { p with tables := tables } = [] := current_nil hhandlers
    refine ⟨_, hshared.records _ _, hkept.records, ?_, fun _ => ?_, fun hexited => ?_⟩
    · rw [hrunning]
      decide
    · constructor
      case signals => exact hsafe.signals
      case current =>
        rw [hcurrent']
        exact Holds.packet hcurrent hpacket hinsertion
      case names =>
        rw [hcurrent', staged_updates_snoc, hpacket.sequence_number]
        simpa [signal_output.update] using hnames
      case dns_freed => exact fun hfreed => absurd hfreed (hnone _ hhandlers _ _ _ _ hsafe.dns_freed)
      case http_freed => exact fun hfreed => absurd hfreed (hnone _ hhandlers _ _ _ _ hsafe.http_freed)
    · rw [show (process_t.status { p with tables := tables }) = .running from hrunning] at hexited
      cases hexited
  · cases hevent

/-! Signals -/

/-- No alarm is being handled. -/
theorem current_of_no_alarm (hnone : ∀ handler ∈ p.handlers, handler.signal ≠ .SIGALRM) :
    p.current s periods = p.handlers := by
  cases hhandlers : p.handlers with
  | nil => exact current_nil hhandlers
  | cons handler interrupted =>
    apply current_of_active hhandlers
    apply not_idle_of_signal
    exact hnone handler (hhandlers ▸ List.mem_cons_self)

/-! Alarms that write no update -/

/-- Nothing has changed but the table that only the frequent updates use. -/
structure FrequentOnly (p p' : process_t) : Prop where
  tables : ∃ table, p'.tables = { p.tables with device_throughput_table := table }
  dns_freed : p'.dns_freed = p.dns_freed
  http_freed : p'.http_freed = p.http_freed
  directory : p'.directory = p.directory
  status : p'.status = p.status

/-- The handlers below an alarm end the process, and none of them minds how
many alarms there have been. -/
theorem CurrentSafe.frequent {p' : process_t} (h : CurrentSafe s periods p waiting interrupted)
    (hsignals : ∀ outer ∈ interrupted, outer.signal ≠ .SIGALRM) (hfrequent : FrequentOnly p p') :
    CurrentSafe s periods p' waiting interrupted := by
  obtain ⟨table, htables⟩ := hfrequent.tables
  cases interrupted with
  | nil =>
    show Holds p'.tables.packet_data.packet_data.items p'.tables.flow_table waiting
    rw [htables]
    exact h
  | cons outer rest =>
    have houter : outer.signal ≠ .SIGALRM := hsignals outer List.mem_cons_self
    obtain ⟨hsafe, _⟩ := h
    refine ⟨⟨hsafe.succeeds, hsafe.alarm, fun heq => absurd heq houter, ?_⟩, fun heq => absurd heq houter⟩
    rw [htables, hfrequent.directory]
    exact hsafe.position

/-- A handler that is not about to drop the strings may leave the stack. -/
theorem FreedSafely.frequent {freed : Bool} {named : Prop} {init : reset_t} {current handlers' : List handler_t}
    (h : FreedSafely freed named init (handler :: interrupted) current) (hposition : handler.position ≠ .reset init)
    (hhandlers' : interrupted ⊆ handlers') : FreedSafely freed named init handlers' current := by
  intro hfreed
  obtain ⟨⟨other, hother, hinit⟩, hnone⟩ := h hfreed
  refine ⟨⟨other, ?_, hinit⟩, hnone⟩
  obtain rfl | hother := List.mem_cons.mp hother
  · exact absurd hinit hposition
  · exact hhandlers' hother

theorem handler_t.Idle.position_ne (hidle : handler.Idle s periods p) (table : reset_t) :
    handler.position ≠ .reset table := by
  intro hposition
  have h := hidle.2
  rw [hposition] at h
  exact h

/-- What an alarm that writes no update leaves is safe for the update below it. -/
theorem process_t.Safe.frequent {p' : process_t} {staged : List (cstring × Option (List Line))}
    (h : p.Safe s periods staged waiting) (hhandlers : p.handlers = handler :: interrupted)
    (hidle : handler.Idle s periods p) (hfrequent : FrequentOnly p p') (hcurrent' : p'.current s periods = interrupted)
    (hsignals' : List.Sublist (p'.handlers.map handler_t.signal) (p.handlers.map handler_t.signal))
    (hhandlers' : interrupted ⊆ p'.handlers) : p'.Safe s periods staged waiting := by
  obtain ⟨table, htables⟩ := hfrequent.tables
  have hsignals := h.signals
  have hcurrent := h.current
  have hnames := h.names
  have hdns := h.dns_freed
  have hhttp := h.http_freed
  rw [current_of_idle hhandlers hidle] at hcurrent hnames hdns hhttp
  rw [hhandlers] at hsignals hdns hhttp
  constructor
  case signals => exact h.signals.sublist hsignals'
  case current =>
    rw [hcurrent']
    refine hcurrent.frequent (fun outer houter heq => ?_) hfrequent
    apply (List.nodup_cons.mp hsignals).1
    rw [hidle.1, ← heq]
    exact List.mem_map_of_mem houter
  case names =>
    rw [hcurrent', htables]
    exact hnames
  case dns_freed =>
    rw [hcurrent', hfrequent.dns_freed, htables]
    exact hdns.frequent (hidle.position_ne _) hhandlers'
  case http_freed =>
    rw [hcurrent', hfrequent.http_freed, htables]
    exact hhttp.frequent (hidle.position_ne _) hhandlers'

/-- Such a handler never ends the process. -/
theorem keeps_idle (hshared : SharedOut s trace waiting) (hkept : NothingOverwritten trace p.directory)
    (hrunning : p.status = .running) (hsafe : p.Safe s periods (staged_updates trace) waiting)
    (hhandlers : p.handlers = handler :: interrupted) (hidle : handler.Idle s periods p)
    (hcomposes : handler.Composes s periods bismark_mac p) :
    KeepsAccount s bismark_mac periods trace p handler interrupted := by
  have hgoes {p' : process_t} (hfrequent : FrequentOnly p p') (hcurrent' : p'.current s periods = interrupted)
      (hsignals' : List.Sublist (p'.handlers.map handler_t.signal) (p.handlers.map handler_t.signal))
      (hhandlers' : interrupted ⊆ p'.handlers) : Accounted s periods (trace ++ [(.step, .silent)]) p' := by
    refine Accounted.goes_on hshared ?_ (hfrequent.status.trans hrunning)
      (hsafe.frequent hhandlers hidle hfrequent hcurrent' hsignals' hhandlers')
    rw [hfrequent.directory]
    exact hkept.pending hsafe.names_ne_pending (.refl _)
  have hmoves {p' : process_t} {position : position_t}
      (hhandlers' : p'.handlers = { handler with position := position } :: interrupted)
      (hfrequent : FrequentOnly p p') (hidle' : handler_t.Idle s periods p' { handler with position := position }) :
      Accounted s periods (trace ++ [(.step, .silent)]) p' := by
    refine hgoes hfrequent (current_of_idle hhandlers' hidle') ?_ ?_
    · rw [hhandlers', hhandlers]
      exact List.Sublist.refl _
    · rw [hhandlers']
      exact List.subset_cons_self _ _
  obtain ⟨signal, io, position⟩ := handler
  obtain ⟨hsignal, hposition⟩ := id hidle
  obtain rfl : signal = .SIGALRM := hsignal
  unfold KeepsAccount handler_step
  cases position with
  | count_alarm =>
    have hdue : ¬ update_due s periods (p.alarm_count + 1) := hposition
    simp only [process_t.UsesFreed, if_false, if_neg hdue]
    exact hmoves rfl ⟨⟨_, rfl⟩, rfl, rfl, rfl, rfl⟩ ⟨rfl, hdue⟩
  | write_frequent_update =>
    have hdue : ¬ update_due s periods p.alarm_count := hposition
    simp only [process_t.UsesFreed, if_false, if_true]
    by_cases henabled : s.target.enable_frequent_updates = true
    · obtain ⟨hopened, hrenamed, hprints⟩ : io.frequent.opened ∧ io.frequent.renamed ∧ _ := hcomposes henabled hidle
      have hwrites : write_frequent_update s bismark_mac p.tables io.frequent =
          some { p.tables with device_throughput_table := device_throughput.device_throughput_table_init } := by
        rw [write_frequent_update, hopened, hrenamed, hprints]
        rfl
      simp only [if_pos henabled, hwrites]
      exact hmoves rfl ⟨⟨_, rfl⟩, rfl, rfl, rfl, rfl⟩ ⟨rfl, hdue⟩
    · simp only [if_neg henabled]
      exact hmoves rfl ⟨⟨_, rfl⟩, rfl, rfl, rfl, rfl⟩ ⟨rfl, hdue⟩
  | upload_failures_check =>
    have hdue : ¬ update_due s periods p.alarm_count := hposition
    simp only [process_t.UsesFreed, if_false, hdue, false_and]
    exact hmoves rfl ⟨⟨_, rfl⟩, rfl, rfl, rfl, rfl⟩ ⟨rfl, hdue⟩
  | handler_end =>
    simp only [process_t.UsesFreed, if_false, if_true]
    have hsignals := hsafe.signals
    rw [hhandlers] at hsignals
    refine hgoes ⟨⟨_, rfl⟩, rfl, rfl, rfl, rfl⟩ (current_below_alarm hsignals rfl rfl) ?_ (List.Subset.refl _)
    rw [hhandlers]
    exact List.sublist_cons_self _ _
  | _ => exact absurd hposition id

/-! Signals that arrive -/

section deliver

variable {staged : List (cstring × Option (List Line))} {signal : signal_t} {io : handler_io}

/-- A signal may arrive unless the update it interrupts is about to drop strings. -/
theorem FreedSafely.interrupted_at {freed : Bool} {named : Prop} {init : reset_t}
    {handlers current current' : List handler_t}
    (h : FreedSafely freed named init handlers current)
    (hharmless : ∀ handler ∈ current.head?, handler.position = .reset init → ¬ named) :
    FreedSafely freed named init (handler :: handlers) current' := by
  intro hfreed
  obtain ⟨⟨other, hother, hinit⟩, hnone⟩ := h hfreed
  refine ⟨⟨other, List.mem_cons_of_mem _ hother, hinit⟩, .inl ?_⟩
  obtain hnone | ⟨innermost, hinnermost, hinit⟩ := hnone
  · exact hnone
  · exact hharmless innermost hinnermost hinit

/-- None of the handlers is of a signal that is not theirs. -/
theorem signal_ne_of_not_mem {handlers : List handler_t} {other : signal_t}
    (h : other ∉ handlers.map handler_t.signal) (handler : handler_t) (hhandler : handler ∈ handlers) :
    handler.signal ≠ other := by
  rintro rfl
  exact h (List.mem_map_of_mem hhandler)

/-- An alarm that writes no update does not disturb the one it interrupts. -/
theorem process_t.Safe.deliver_idle (h : p.Safe s periods staged waiting)
    (hsignal : signal_t.SIGALRM ∉ p.handlers.map handler_t.signal)
    (hdue : ¬ update_due s periods (p.alarm_count + 1)) :
    (handle_signals p .SIGALRM io).Safe s periods staged waiting := by
  have hnone := signal_ne_of_not_mem hsignal
  have hcurrent' : (handle_signals p .SIGALRM io).current s periods = p.handlers := current_of_idle rfl ⟨rfl, hdue⟩
  have hcurrent := h.current
  have hnames := h.names
  have hdns := h.dns_freed
  have hhttp := h.http_freed
  rw [current_of_no_alarm hnone] at hcurrent hnames hdns hhttp
  have hfreed {freed : Bool} {named : Prop} {init : reset_t} {handler : handler_t}
      (hold : FreedSafely freed named init p.handlers p.handlers) :
      FreedSafely freed named init (handler :: p.handlers) p.handlers := by
    intro hfreed
    obtain ⟨⟨other, hother, hinit⟩, hnone⟩ := hold hfreed
    exact ⟨⟨other, List.mem_cons_of_mem _ hother, hinit⟩, hnone⟩
  constructor
  case signals => exact List.nodup_cons.mpr ⟨hsignal, h.signals⟩
  case current =>
    rw [hcurrent']
    exact hcurrent.frequent hnone ⟨⟨_, rfl⟩, rfl, rfl, rfl, rfl⟩
  case names =>
    rw [hcurrent']
    exact hnames
  case dns_freed =>
    rw [hcurrent']
    exact hfreed hdns
  case http_freed =>
    rw [hcurrent']
    exact hfreed hhttp

/-- Everything still waits in the tables when an update is interrupted at a
harmless point. -/
theorem process_t.Safe.holds (h : p.Safe s periods staged waiting)
    (hspares : ∀ handler ∈ (p.current s periods).head?, handler.position.Spares p signal) :
    Holds p.tables.packet_data.packet_data.items p.tables.flow_table waiting := by
  have hcurrent := h.current
  cases hcase : p.current s periods with
  | nil =>
    rw [hcase] at hcurrent
    exact hcurrent
  | cons handler interrupted =>
    rw [hcase] at hcurrent hspares
    exact hcurrent.1.position.holds (hspares handler rfl)

/-- No update has had the current sequence number then. -/
theorem next_number_of_spares
    (hspares : ∀ handler ∈ (p.current s periods).head?, handler.position.Spares p signal) :
    next_number p.tables.sequence_number (p.current s periods) = p.tables.sequence_number := by
  unfold next_number
  cases hcase : (p.current s periods).head? with
  | none => exact Int.add_zero _
  | some handler =>
    have hposition := hspares handler hcase
    cases hat : handler.position with
    | increment_sequence_number =>
      rw [hat] at hposition
      exact absurd hposition id
    | _ => simp [position_t.staged, hat]

/-- A handler that an alarm interrupts is not of an alarm, and may go on after it. -/
theorem process_t.Safe.interrupted_quiet (h : p.Safe s periods staged waiting)
    (hsignal : signal_t.SIGALRM ∉ p.handlers.map handler_t.signal)
    (hspares : ∀ handler ∈ (p.current s periods).head?, handler.position.Spares p .SIGALRM) :
    ∀ outer ∈ p.handlers.head?, outer.io.Succeeds ∧ outer.position ≠ .count_alarm ∧ outer.position.Quiet := by
  intro outer houter
  have hnone := signal_ne_of_not_mem hsignal
  have hcurrent := h.current
  rw [current_of_no_alarm hnone] at hcurrent hspares
  have hspared := hspares outer houter
  cases hhandlers : p.handlers with
  | nil =>
    rw [hhandlers] at houter
    cases houter
  | cons first rest =>
    rw [hhandlers] at houter hcurrent
    obtain rfl : first = outer := Option.some.inj houter
    exact ⟨hcurrent.1.succeeds,
      fun heq => hnone first (hhandlers ▸ List.mem_cons_self) (hcurrent.1.alarm heq),
      hspared.quiet⟩

/-- A signal that writes an update and arrives at a harmless point. -/
theorem process_t.Safe.deliver_active (h : p.Safe s periods staged waiting)
    (hsignal : signal ∉ p.handlers.map handler_t.signal)
    (hdue : signal = .SIGALRM → update_due s periods (p.alarm_count + 1)) (hsucceeds : io.Succeeds)
    (hspares : ∀ handler ∈ (p.current s periods).head?, handler.position.Spares p signal) :
    (handle_signals p signal io).Safe s periods staged waiting := by
  have hnext := next_number_of_spares hspares
  have hholds := h.holds hspares
  have hactive : ¬ handler_t.Idle s periods (handle_signals p signal io)
      ⟨signal, io, if signal = .SIGALRM then .count_alarm else .gzopen⟩ := by
    rintro ⟨hidle, hposition⟩
    obtain rfl : signal = .SIGALRM := hidle
    exact hposition (hdue rfl)
  have hcurrent' := current_of_active rfl hactive
  have hfreed {init : reset_t} {freed : Bool} {named : Prop}
      (hold : FreedSafely freed named init p.handlers (p.current s periods))
      (hharmless : ∀ position, position_t.Spares p signal position → position = .reset init → ¬ named) :
      FreedSafely freed named init (handle_signals p signal io).handlers (handle_signals p signal io).handlers :=
    hold.interrupted_at fun handler hhandler hinit => hharmless _ (hspares handler hhandler) hinit
  constructor
  case signals => exact List.nodup_cons.mpr ⟨hsignal, h.signals⟩
  case current =>
    rw [hcurrent']
    refine ⟨⟨hsucceeds, ?_, ?_, ?_⟩, ?_⟩
    · intro hposition
      by_contra hother
      simp [hother] at hposition
    · intro halarm hposition
      exact absurd (if_pos halarm) hposition
    · show position_t.Safe s p.tables p.directory waiting (if signal = .SIGALRM then .count_alarm else .gzopen)
      split <;> exact hholds
    · intro halarm
      obtain rfl : signal = .SIGALRM := halarm
      exact h.interrupted_quiet hsignal hspares
  case names =>
    rw [hcurrent']
    intro update hupdate
    obtain ⟨number, hlt, hname⟩ := h.names update hupdate
    rw [hnext] at hlt
    exact ⟨number, hlt.trans_le (le_next_number _ _), hname⟩
  case dns_freed =>
    rw [hcurrent']
    refine hfreed h.dns_freed fun position hposition hinit => ?_
    subst hinit
    exact hposition
  case http_freed =>
    rw [hcurrent']
    refine hfreed h.http_freed fun position hposition hinit => ?_
    subst hinit
    exact not_not_intro hposition

end deliver

/-! A packet, an alarm and a `SIGTERM` -/

/-- Every call that a handler makes succeeds. -/
def healthy_handler_io (current_timestamp : Int) : handler_io where
  update := healthy_io current_timestamp
  gzclose_returns := 0
  frequent :=
    { opened := true
      fprintf_returns := fun _ => 1
      current_timestamp := current_timestamp
      renamed := true }
  upload_failures := 0

theorem healthy_handler_io_succeeds (current_timestamp : Int) : (healthy_handler_io current_timestamp).Succeeds :=
  ⟨rfl, healthy_io_healthy current_timestamp, rfl, rfl⟩

/-- The process has processed a TCP packet. -/
theorem tcp_signal_run :
    ∃ output p, signal_run initialized_session bismark_mac default_periods domain_whitelist_init empty_bloom
        [(.process_packet (tcp_frame 0), output)] p ∧ p.Ready ∧ p.handlers = [] ∧ output.packets.length = 1 ∧
      output.flows.length = 1 ∧ output.update = none ∧
      ∀ name, (bloom_whitelist_lookup p.tables.dns_table.bloom name).isSome := by
  obtain ⟨capture, tables, hframe, hstep, run⟩ := @main_run_goes_on_packet initialized_session rfl
    domain_whitelist_init empty_bloom [] _ .nil (tcp_frame 0)
  have hprocessed := tcp_frame_processed
  rw [hstep] at hprocessed
  simp only [captured, Option.map_some, Option.some.injEq, Prod.mk.injEq] at hprocessed
  obtain ⟨_, hpacket, _⟩ := main_step_packet hstep
  have hlength : tables.packet_data.length = 1 := by
    obtain ⟨_, _, hlength, _⟩ | ⟨_, hid, _⟩ := hpacket.series_cases
    · exact hlength
    · rw [hprocessed.2.2.2] at hid
      exact absurd hid (by decide)
  have hsignal : signal_step initialized_session bismark_mac default_periods
      (process_init initialized_session.target domain_whitelist_init empty_bloom) (.process_packet (tcp_frame 0)) =
      some ({ process_init initialized_session.target domain_whitelist_init empty_bloom with tables := tables },
        .recorded tables.packet_data.packet_data.items (inserted_flows [capture])) := by
    have hrunning : (process_init initialized_session.target domain_whitelist_init empty_bloom).status = .running ∧
        (process_init initialized_session.target domain_whitelist_init empty_bloom).handlers = [] := ⟨rfl, rfl⟩
    rw [signal_step, if_pos hrunning]
    show Option.map _ (main_step initialized_session
      (initial_state initialized_session.target domain_whitelist_init empty_bloom) _) = _
    rw [hstep]
    rfl
  refine ⟨_, _, Execution.nil.snoc hsignal, ⟨rfl, rfl, rfl⟩, rfl, hlength, ?_, rfl, ?_⟩
  · simp [signal_output.flows, inserted_flows, hprocessed.1]
  · show ∀ name, (bloom_whitelist_lookup tables.dns_table.bloom name).isSome
    rw [(main_run_whitelists run).dns_bloom]
    exact empty_bloom_lookup

/-- A signal that is not blocked is delivered. -/
theorem signal_step_deliver (signal : signal_t) (io : handler_io) (hrunning : p.status = .running)
    (hsignal : signal ∉ p.handlers.map handler_t.signal) :
    signal_step s bismark_mac periods p (.deliver signal io) = some (handle_signals p signal io, .silent) :=
  if_pos ⟨hrunning, hsignal⟩

/-- A `SIGTERM` whose handler is not interrupted stages an update and ends the process. -/
theorem process_t.Ready.terminates (h : p.Ready) (hinitialized : s.anonymization.initialized = true)
    (hbloom : ∀ name, (bloom_whitelist_lookup p.tables.dns_table.bloom name).isSome) {io : handler_io}
    (hsucceeds : io.Succeeds) :
    ∃ lines p', Stages s bismark_mac periods (handle_signals p .SIGTERM io)
        [(update_filename s p.tables.sequence_number, some lines)] p' ∧ p'.status = .exited := by
  obtain ⟨tables, update, hwrite⟩ := write_update_completes hinitialized hbloom hsucceeds.healthy hsucceeds.opened
    hsucceeds.renamed
  obtain ⟨lines, directory, _, hupdate⟩ := @process_t.Ready.write_update s bismark_mac periods p
    ⟨.SIGTERM, io, .gzopen⟩ p.handlers p.tables tables p.directory h hsucceeds update hwrite
  obtain ⟨p', hexit, hexited⟩ := @process_t.Ready.exits s bismark_mac periods p ⟨.SIGTERM, io, .gzopen⟩ p.handlers
    tables directory h signal_t.noConfusion
  exact ⟨lines, p', hupdate.trans hexit, hexited⟩

/-- The process has processed a TCP packet when an alarm arrives. -/
theorem tcp_alarm_run :
    ∃ output p, signal_run initialized_session bismark_mac default_periods domain_whitelist_init empty_bloom
        [(.process_packet (tcp_frame 0), output), (.deliver .SIGALRM (healthy_handler_io 100), .silent)] p ∧
      Along (signal_step initialized_session bismark_mac default_periods)
        (process_init initialized_session.target domain_whitelist_init empty_bloom)
        (Harmless initialized_session default_periods bismark_mac)
        [(.process_packet (tcp_frame 0), output), (.deliver .SIGALRM (healthy_handler_io 100), .silent)] ∧
      p.Ready ∧ p.handlers = [⟨.SIGALRM, healthy_handler_io 100, .count_alarm⟩] ∧ output.packets.length = 1 ∧
      output.flows.length = 1 ∧ output.update = none ∧
      ∀ name, (bloom_whitelist_lookup p.tables.dns_table.bloom name).isSome := by
  obtain ⟨output, p, run, hready, hhandlers, hpackets, hflows, hupdate, hbloom⟩ := @tcp_signal_run bismark_mac
  have halarm : signal_t.SIGALRM ∉ p.handlers.map handler_t.signal := by simp [hhandlers]
  have hnone : ∀ handler ∈ (p.current initialized_session default_periods).head?,
      handler.position.Spares p .SIGALRM := by
    rw [current_nil hhandlers]
    exact fun _ h => absurd h (by simp)
  have hharmless : Harmless initialized_session default_periods bismark_mac p
      (.deliver .SIGALRM (healthy_handler_io 100)) := Or.inr ⟨healthy_handler_io_succeeds 100, hnone⟩
  have hpacket : Along (signal_step initialized_session bismark_mac default_periods)
      (process_init initialized_session.target domain_whitelist_init empty_bloom)
      (Harmless initialized_session default_periods bismark_mac)
      [(.process_packet (tcp_frame 0), output)] := Along.nil.step_from .nil trivial
  refine ⟨output, handle_signals p .SIGALRM (healthy_handler_io 100),
    run.snoc (signal_step_deliver .SIGALRM (healthy_handler_io 100) hready.running halarm),
    hpacket.step_from run hharmless, ⟨hready.running, hready.dns_freed, hready.http_freed⟩, ?_, hpackets, hflows,
    hupdate,
    hbloom⟩
  rw [handle_signals, hhandlers]
  rfl

/-- An alarm that writes an update has been counted. -/
theorem process_t.Ready.count_alarm (h : p.Ready) {io : handler_io}
    (hhandlers : p.handlers = [⟨.SIGALRM, io, .count_alarm⟩]) (hdue : update_due s periods (p.alarm_count + 1)) :
    ∃ p' : process_t, Stages s bismark_mac periods p []
        (p'.at_position ⟨.SIGALRM, io, .count_alarm⟩ [] p.tables p.directory .gzopen) ∧ p'.Ready := by
  have hfreed : ¬ p.UsesFreed s.target (handler_t.position ⟨.SIGALRM, io, .count_alarm⟩) := id
  refine ⟨{ p with alarm_count := p.alarm_count + 1 }, ?_, h.running, h.dns_freed, h.http_freed⟩
  refine stages_silent_step hhandlers h.running trivial ?_
  rw [handler_step, if_neg hfreed]
  simp only [if_pos hdue, process_t.at_position]

/-- The alarm has staged its update, but not incremented the sequence number. -/
theorem tcp_staged_run :
    ∃ trace p lines,
      signal_run initialized_session bismark_mac default_periods domain_whitelist_init empty_bloom trace p ∧
      p.Ready ∧ p.handlers.map handler_t.signal = [.SIGALRM] ∧
      (∃ output steps, trace = [(.process_packet (tcp_frame 0), output),
        (.deliver .SIGALRM (healthy_handler_io 100), .silent)] ++ steps ∧ ∀ step ∈ steps, step.1 = .step) ∧
      staged_updates trace = [(update_filename initialized_session p.tables.sequence_number, some lines)] ∧
      ∀ name, (bloom_whitelist_lookup p.tables.dns_table.bloom name).isSome := by
  obtain ⟨output, p, run, _, hready, hhandlers, _, _, hupdate, hbloom⟩ := @tcp_alarm_run bismark_mac
  have hio := healthy_handler_io_succeeds 100
  obtain ⟨p', hcount, hready'⟩ :=
    @process_t.Ready.count_alarm initialized_session bismark_mac default_periods p hready _
    hhandlers (Nat.mod_one _)
  obtain ⟨_, _, hwrite⟩ := @write_update_completes initialized_session rfl p.tables _ hbloom hio.healthy hio.opened
    hio.renamed
  obtain ⟨lines, hlines⟩ := write_update_composed hwrite
  obtain ⟨directory, hstage⟩ := @process_t.Ready.stage initialized_session bismark_mac default_periods p'
    ⟨.SIGALRM, healthy_handler_io 100, .count_alarm⟩ [] p.tables p.directory hready' hio _ hlines
  obtain ⟨trace, hsteps, _, hevents, hstaged⟩ := hcount.trans hstage
  refine ⟨_, _, lines, run.trans hsteps, ⟨hready'.running, hready'.dns_freed, hready'.http_freed⟩, rfl,
    ⟨output, trace, rfl, hevents⟩, ?_, ?_⟩
  · have hsilent : signal_output.silent.update = none := rfl
    have hsequence : p.tables.sequence_number = p.tables.printed.sequence_number :=
      (state_t.printed_sequence_number p.tables).symm
    rw [staged_updates_append, hstaged, hsequence]
    simp only [staged_updates, List.filterMap_cons, List.filterMap_nil, hupdate, hsilent, List.nil_append]
    rfl
  · intro name
    simp only [process_t.at_position, state_t.printed_dns_table]
    exact hbloom name

/-! Whole runs -/

/-- Nothing has been recorded at the start. -/
theorem accounted_init :
    Accounted s periods [] (process_init s.target domain_whitelist bloom_whitelist) := by
  refine ⟨⟨[], []⟩, ⟨[], .nil, rfl, rfl⟩, ⟨List.nodup_nil, fun _ h => absurd h List.not_mem_nil, ?_⟩, ?_, fun _ => ?_,
    fun _ => rfl⟩
  · exact fun _ _ hentry => absurd rfl hentry
  · exact (by decide : status_t.running ≠ .undefined)
  · exact
      { signals := List.nodup_nil
        current := ⟨rfl, flow_table_init_pending⟩
        names := fun _ h => absurd h List.not_mem_nil
        dns_freed := fun hfreed => Bool.noConfusion hfreed
        http_freed := fun hfreed => Bool.noConfusion hfreed }

/-- A harmless event keeps the account. -/
theorem accounted_step (h : Accounted s periods trace p) {event : signal_event} {p' : process_t}
    {output : signal_output} (hharmless : Harmless s periods bismark_mac p event)
    (hstep : signal_step s bismark_mac periods p event = some (p', output)) :
    Accounted s periods (trace ++ [(event, output)]) p' := by
  obtain ⟨waiting, hshared, hkept, _, hrunning_safe, _⟩ := h
  cases event with
  | process_packet frame =>
    simp only [signal_step] at hstep
    split at hstep
    · rename_i hcan
      obtain ⟨⟨tables, output'⟩, hmain, heq⟩ := Option.map_eq_some_iff.mp hstep
      cases heq
      exact keeps_packet hshared hkept hcan.1 (hrunning_safe hcan.1) hcan.2 hmain
    · cases hstep
  | deliver signal io =>
    simp only [signal_step] at hstep
    split at hstep
    · rename_i hcan
      obtain ⟨hrunning, hsignal⟩ := hcan
      cases hstep
      have hsafe := hrunning_safe hrunning
      refine Accounted.goes_on hshared (hkept.pending hsafe.names_ne_pending (.refl _)) hrunning ?_
      by_cases hidle : signal = .SIGALRM ∧ ¬ update_due s periods (p.alarm_count + 1)
      · obtain ⟨rfl, hdue⟩ := hidle
        exact hsafe.deliver_idle hsignal hdue
      · obtain ⟨hsucceeds, hspares⟩ := hharmless.resolve_left hidle
        have hdue (halarm : signal = .SIGALRM) : update_due s periods (p.alarm_count + 1) := by
          by_contra hnot
          exact hidle ⟨halarm, hnot⟩
        exact hsafe.deliver_active hsignal hdue hsucceeds hspares
    · cases hstep
  | step =>
    simp only [signal_step] at hstep
    cases hhandlers : p.handlers with
    | nil =>
      rw [hhandlers] at hstep
      cases hstep
    | cons handler interrupted =>
      simp only [hhandlers] at hstep
      split at hstep
      · rename_i hrunning
        have hcomposes : handler.Composes s periods bismark_mac p := hharmless handler (by rw [hhandlers]; rfl)
        have hkeeps : KeepsAccount s bismark_mac periods trace p handler interrupted := by
          by_cases hidle : handler.Idle s periods p
          · exact keeps_idle hshared hkept hrunning (hrunning_safe hrunning) hhandlers hidle hcomposes
          · exact Active.keeps_account ⟨hshared, hkept, hrunning, hrunning_safe hrunning, hhandlers, hidle⟩ hcomposes
        have hresult := Option.some.inj hstep
        unfold KeepsAccount at hkeeps
        rw [hresult] at hkeeps
        exact hkeeps
      · cases hstep

/-- Signals that arrive at harmless points lose nothing and duplicate nothing:
no update file replaces another one, and when the process exits every packet of
the packet series and every flow of the flow table is in exactly one of them. -/
theorem termination_signals_stage_once (s : Session) (bismark_mac : mac_address_t) (periods : alarm_periods)
    (domain_whitelist : domain_whitelist_t) (bloom_whitelist : bloom_whitelist_t) (trace : signal_trace)
    (p : process_t) (run : signal_run s bismark_mac periods domain_whitelist bloom_whitelist trace p)
    (harmless : Along (signal_step s bismark_mac periods) (process_init s.target domain_whitelist bloom_whitelist)
      (Harmless s periods bismark_mac) trace) :
    NothingOverwritten trace p.directory ∧ p.status ≠ .undefined ∧ (p.status = .exited → StagedOnce s trace) := by
  have haccounted : Accounted s periods trace p :=
    run.invariant_along (Harmless s periods bismark_mac) (Accounted s periods) accounted_init
      (fun _ _ _ _ _ _ h hharmless hstep => accounted_step h hharmless hstep) harmless
  obtain ⟨waiting, hshared, hkept, hdefined, _, hempty⟩ := haccounted
  refine ⟨hkept, hdefined, fun hexited => ?_⟩
  obtain rfl := hempty hexited
  exact hshared

/-- A `SIGTERM` arrives before the alarm has been counted. -/
theorem termination_signals_stage_once_tcp :
    ∃ trace p, signal_run initialized_session (Vector.replicate ETH_ALEN 0) default_periods domain_whitelist_init
        empty_bloom trace p ∧ p.status = .exited ∧ recorded_packets trace ≠ [] ∧ recorded_flows trace ≠ [] ∧
      NothingOverwritten trace p.directory ∧ StagedOnce initialized_session trace := by
  obtain ⟨output, p, run, harmless, hready, hhandlers, hpackets, hflows, _, hbloom⟩ :=
    @tcp_alarm_run (Vector.replicate ETH_ALEN 0)
  have hio := healthy_handler_io_succeeds 100
  have hterm : signal_t.SIGTERM ∉ p.handlers.map handler_t.signal := by simp [hhandlers]
  have run' := run.snoc (signal_step_deliver .SIGTERM (healthy_handler_io 100) hready.running hterm)
  obtain ⟨_, p', ⟨trace, hsteps, hsteps_harmless, _⟩, hexited⟩ := @process_t.Ready.terminates initialized_session
    (Vector.replicate ETH_ALEN 0) default_periods p hready rfl hbloom _ hio
  have hrun := run'.trans hsteps
  have hspares : ∀ handler ∈ (p.current initialized_session default_periods).head?,
      handler.position.Spares p .SIGTERM := by
    intro handler hhandler
    have hdue : ¬ handler_t.Idle initialized_session default_periods p
        ⟨.SIGALRM, healthy_handler_io 100, .count_alarm⟩ := fun hidle => hidle.2 (Nat.mod_one _)
    rw [current_of_active hhandlers hdue] at hhandler
    obtain rfl := Option.some.inj hhandler
    trivial
  have hharmless : Harmless initialized_session default_periods (Vector.replicate ETH_ALEN 0) p
      (.deliver .SIGTERM (healthy_handler_io 100)) := Or.inr ⟨hio, hspares⟩
  obtain ⟨hkept, _, honce⟩ := termination_signals_stage_once _ _ _ _ _ _ _ hrun
    ((harmless.step_from run hharmless).append run' hsteps_harmless)
  refine ⟨_, p', hrun, hexited, ?_, ?_, hkept, honce hexited⟩
  · intro hnil
    have hlength := congrArg List.length hnil
    simp [recorded_packets, hpackets] at hlength
  · intro hnil
    have hlength := congrArg List.length hnil
    simp [recorded_flows, hflows] at hlength

/-- A `SIGTERM` arrives when the alarm has staged its update, but not incremented
the sequence number. The second update replaces the first one. -/
theorem termination_signals_overwrite_tcp :
    ∃ trace p, signal_run initialized_session (Vector.replicate ETH_ALEN 0) default_periods domain_whitelist_init
        empty_bloom trace p ∧ p.status = .exited ∧
      (∀ signal io output, (signal_event.deliver signal io, output) ∈ trace → io.Succeeds) ∧
      (∃ name contents replacement, staged_updates trace = [(name, some contents), (name, some replacement)]) ∧
      ¬ NothingOverwritten trace p.directory := by
  obtain ⟨_, p, lines, run, hready, hsignals, ⟨output, trace, rfl, hhandled⟩, hstaged, hbloom⟩ :=
    @tcp_staged_run (Vector.replicate ETH_ALEN 0)
  have hio := healthy_handler_io_succeeds 100
  have hterm : signal_t.SIGTERM ∉ p.handlers.map handler_t.signal := by simp [hsignals]
  have run' := run.snoc (signal_step_deliver .SIGTERM (healthy_handler_io 100) hready.running hterm)
  obtain ⟨lines', p', ⟨trace', hsteps, _, hevents, hstaged'⟩, hexited⟩ := @process_t.Ready.terminates
    initialized_session (Vector.replicate ETH_ALEN 0) default_periods p hready rfl hbloom _ hio
  have hupdates : staged_updates ([(.process_packet (tcp_frame 0), output),
      (.deliver .SIGALRM (healthy_handler_io 100), .silent)] ++ trace ++
        [(.deliver .SIGTERM (healthy_handler_io 100), .silent)] ++ trace') =
      [(update_filename initialized_session p.tables.sequence_number, some lines),
        (update_filename initialized_session p.tables.sequence_number, some lines')] := by
    rw [staged_updates_append, staged_updates_append, hstaged, hstaged']
    rfl
  refine ⟨_, p', run'.trans hsteps, hexited, ?_, ⟨_, lines, lines', hupdates⟩, ?_⟩
  · intro signal io event hmem
    simp only [List.mem_append, List.mem_cons, Prod.mk.injEq, signal_event.deliver.injEq, reduceCtorEq, false_and,
      List.not_mem_nil, or_false, false_or] at hmem
    obtain ((⟨⟨-, rfl⟩, -⟩ | hmem) | ⟨⟨-, rfl⟩, -⟩) | hmem := hmem
    · exact hio
    · cases hhandled _ hmem
    · exact hio
    · cases hevents _ hmem
  · intro hnothing
    have hnodup := hnothing.nodup
    rw [hupdates] at hnodup
    simp at hnodup

end bismark_passive.main
