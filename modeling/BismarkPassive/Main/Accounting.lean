import BismarkPassive.Main.HandlerSteps

namespace bismark_passive.main

open machine files flow_table address_table packet_series dns http drop_statistics

/-! Every statement of a handler keeps the account -/

section step

variable {s : Session} {bismark_mac : mac_address_t} {periods : alarm_periods} {trace : signal_trace} {p : process_t}
  {signal : signal_t} {io : handler_io} {interrupted : List handler_t} {waiting : share_t}

/-- The account after the next statement. -/
def KeepsAccount (s : Session) (bismark_mac : mac_address_t) (periods : alarm_periods) (trace : signal_trace)
    (p : process_t) (handler : handler_t) (interrupted : List handler_t) : Prop :=
  Accounted s periods (trace ++ [(.step, (handler_step s bismark_mac periods p handler interrupted).2)])
    (handler_step s bismark_mac periods p handler interrupted).1

/-- Opening the file keeps the account: nothing has been shared out yet. -/
theorem keeps_gzopen (h : Active s periods trace p ⟨signal, io, .gzopen⟩ interrupted waiting) :
    KeepsAccount s bismark_mac periods trace p ⟨signal, io, .gzopen⟩ interrupted := by
  have hsafe := h.handler_safe
  have hholds : Holds p.tables.packet_data.packet_data.items p.tables.flow_table waiting := hsafe.position
  have hopen : io.update.open_file =
      some { gzprintf_returns := io.update.gzprintf_returns, calls := 0, written := [] } := by
    rw [update_io.open_file, if_pos hsafe.succeeds.opened]
  rw [KeepsAccount, handler_step, if_neg (not_uses_freed h.safe h.handlers h.active)]
  simp only [hopen]
  refine h.moves trivial ⟨rfl, rfl, rfl⟩ (pendingOnly_truncate p.directory) position_t.noConfusion rfl
    ⟨p.tables.flow_table, ?_⟩
  exact
    { held := hholds.held
      pending := hholds.pending
      marks := (flow_table_t.mark_sent_nil _).symm
      unmarked := fun _ => rfl
      healthy := open_file_healthy hsafe.succeeds.healthy hopen
      opened := truncate_opened p.directory PENDING_UPDATE_FILENAME
      packet_lines := rfl
      flow_records := rfl
      composed := fun _ hmem => absurd hmem List.not_mem_nil }

/-- So does printing a part, which leaves packets and flows where they are. -/
theorem keeps_print {part : part_t} {writer : writer_t}
    (h : Active s periods trace p ⟨signal, io, .print part writer⟩ interrupted waiting)
    (hcomposes : handler_t.Composes s periods bismark_mac p ⟨signal, io, .print part writer⟩) :
    KeepsAccount s bismark_mac periods trace p ⟨signal, io, .print part writer⟩ interrupted := by
  have hsafe := h.handler_safe
  obtain ⟨sending, hwriting⟩ := hsafe.position
  obtain ⟨lines, hlines⟩ := exists_map_some hcomposes
  rw [KeepsAccount, handler_step, if_neg (not_uses_freed h.safe h.handlers h.active)]
  simp only [part.write_spec s p.tables io.update hwriting.healthy hlines]
  have hsame : SameNames p.tables (part.leaves p.tables) := by
    cases part <;> exact ⟨rfl, rfl, rfl⟩
  refine h.moves trivial hsame (pendingOnly_set_content hwriting.opened none) ?_ ?_ (hsafe.position.print hlines)
  · cases part <;> exact position_t.noConfusion
  · cases part <;> rfl

/-- So does a look at a flow entry. -/
theorem keeps_flow_entry {remaining : List Slot} {writer : writer_t}
    (h : Active s periods trace p ⟨signal, io, .flow_entry remaining writer⟩ interrupted waiting)
    (hcomposes : handler_t.Composes s periods bismark_mac p ⟨signal, io, .flow_entry remaining writer⟩) :
    KeepsAccount s bismark_mac periods trace p ⟨signal, io, .flow_entry remaining writer⟩ interrupted := by
  have hsafe := h.handler_safe
  obtain ⟨sending, passed, hslots, hwriting⟩ := hsafe.position
  have hfreed := not_uses_freed h.safe h.handlers h.active
  cases remaining with
  | nil =>
    rw [List.append_nil] at hslots
    subst hslots
    rw [KeepsAccount, handler_step, if_neg hfreed]
    exact h.moves trivial ⟨rfl, rfl, rfl⟩ (.refl _) position_t.noConfusion rfl ⟨sending, hwriting⟩
  | cons idx remaining =>
    have hnotmem := not_mem_passed hslots
    have hslots' : (passed ++ [idx]) ++ remaining = all_slots := by
      rw [List.append_assoc, List.singleton_append]
      exact hslots
    by_cases hunsent : (p.tables.flow_table.entries idx).occupied = .ENTRY_OCCUPIED_BUT_UNSENT
    · obtain ⟨line, hline⟩ := Option.isSome_iff_exists.mp (hcomposes hunsent)
      obtain ⟨hreturned, happend⟩ := gzprintf_healthy hwriting.healthy line
      rw [KeepsAccount, handler_step, if_neg hfreed]
      simp only [if_pos hunsent, hline, if_neg hreturned, happend]
      refine h.moves trivial ⟨rfl, rfl, rfl⟩ (pendingOnly_set_content hwriting.opened none) position_t.noConfusion rfl
        ⟨sending, passed, hslots, ?_, hwriting.record hnotmem hunsent hline⟩
      rw [← hwriting.entry hnotmem]
      exact hunsent
    · rw [KeepsAccount, handler_step, if_neg hfreed]
      simp only [if_neg hunsent]
      exact h.moves trivial ⟨rfl, rfl, rfl⟩ (.refl _) position_t.noConfusion rfl
        ⟨sending, passed ++ [idx], hslots', hwriting.skip hnotmem hunsent⟩

/-- Marking a flow moves it from those waiting to those being sent. -/
theorem keeps_mark_flow {idx : Slot} {remaining : List Slot} {writer : writer_t}
    (h : Active s periods trace p ⟨signal, io, .mark_flow idx remaining writer⟩ interrupted waiting) :
    KeepsAccount s bismark_mac periods trace p ⟨signal, io, .mark_flow idx remaining writer⟩ interrupted := by
  obtain ⟨sending, passed, hslots, hunsent, hwriting⟩ := h.handler_safe.position
  have hslots' : (passed ++ [idx]) ++ remaining = all_slots := by
    rw [List.append_assoc, List.singleton_append]
    exact hslots
  rw [KeepsAccount, handler_step, if_neg (not_uses_freed h.safe h.handlers h.active)]
  exact h.moves trivial ⟨rfl, rfl, rfl⟩ (.refl _) position_t.noConfusion rfl
    ⟨sending, passed ++ [idx], hslots', hwriting.mark (not_mem_passed hslots) hunsent⟩

/-- Closing the file completes its contents. -/
theorem keeps_gzclose {writer : writer_t}
    (h : Active s periods trace p ⟨signal, io, .gzclose writer⟩ interrupted waiting) :
    KeepsAccount s bismark_mac periods trace p ⟨signal, io, .gzclose writer⟩ interrupted := by
  have hsafe := h.handler_safe
  obtain ⟨sending, hwriting⟩ := hsafe.position
  rw [KeepsAccount, handler_step, if_neg (not_uses_freed h.safe h.handlers h.active)]
  simp only [if_pos hsafe.succeeds.closed]
  exact h.moves trivial ⟨rfl, rfl, rfl⟩ (pendingOnly_set_content hwriting.opened _) position_t.noConfusion rfl
    (.inr ⟨sending, hwriting.close⟩)

theorem keeps_snprintf {marked : List Slot}
    (h : Active s periods trace p ⟨signal, io, .snprintf marked⟩ interrupted waiting) :
    KeepsAccount s bismark_mac periods trace p ⟨signal, io, .snprintf marked⟩ interrupted := by
  rw [KeepsAccount, handler_step, if_neg (not_uses_freed h.safe h.handlers h.active)]
  refine h.moves trivial ⟨rfl, rfl, rfl⟩ (.refl _) position_t.noConfusion rfl ?_
  exact h.handler_safe.position.imp_right fun hwritten => ⟨rfl, hwritten⟩

theorem write_frequent_update_eq_some {tables tables' : state_t} {frequent : frequent_io}
    (h : write_frequent_update s bismark_mac tables frequent = some tables') :
    tables' = { tables with device_throughput_table := device_throughput.device_throughput_table_init } := by
  unfold write_frequent_update at h
  split at h
  · exact (Option.some.inj h).symm
  · cases h

/-- A frequent update does not touch what updates send. -/
theorem keeps_write_frequent_update
    (h : Active s periods trace p ⟨signal, io, .write_frequent_update⟩ interrupted waiting) :
    KeepsAccount s bismark_mac periods trace p ⟨signal, io, .write_frequent_update⟩ interrupted := by
  have hstaged : Staged p.tables.packet_data.packet_data.items p.tables.flow_table p.directory waiting :=
    h.handler_safe.position
  have hgoes (tables : state_t) (hsame : SameNames p.tables tables)
      (hstaged' : Staged tables.packet_data.packet_data.items tables.flow_table p.directory waiting) :
      Accounted s periods (trace ++ [(.step, .silent)]) (p.at_position ⟨signal, io, .write_frequent_update⟩ interrupted
        tables p.directory (if signal = .SIGALRM then .upload_failures_check else .handler_end)) := by
    apply h.moves trivial hsame (.refl _)
    · split <;> exact position_t.noConfusion
    · split <;> rfl
    · split <;> exact hstaged'
  rw [KeepsAccount, handler_step, if_neg (not_uses_freed h.safe h.handlers h.active)]
  simp only
  by_cases hfrequent : s.target.enable_frequent_updates = true
  · simp only [if_pos hfrequent]
    cases hwrite : write_frequent_update s bismark_mac p.tables io.frequent with
    | none => exact Accounted.exits h.shared (h.kept_pending (.refl _)) hstaged.empty
    | some tables =>
      obtain rfl := write_frequent_update_eq_some hwrite
      exact hgoes _ ⟨rfl, rfl, rfl⟩ hstaged
  · simp only [if_neg hfrequent]
    exact hgoes p.tables ⟨rfl, rfl, rfl⟩ hstaged

/-- The check only ends the process. -/
theorem keeps_upload_failures_check
    (h : Active s periods trace p ⟨signal, io, .upload_failures_check⟩ interrupted waiting) :
    KeepsAccount s bismark_mac periods trace p ⟨signal, io, .upload_failures_check⟩ interrupted := by
  have hstaged : Staged p.tables.packet_data.packet_data.items p.tables.flow_table p.directory waiting :=
    h.handler_safe.position
  rw [KeepsAccount, handler_step, if_neg (not_uses_freed h.safe h.handlers h.active)]
  simp only
  by_cases hfailures : update_due s periods p.alarm_count ∧ 0 < io.upload_failures
  · simp only [if_pos hfailures]
    exact Accounted.exits h.shared (h.kept_pending (.refl _)) hstaged.empty
  · simp only [if_neg hfailures]
    exact h.moves trivial ⟨rfl, rfl, rfl⟩ (.refl _) position_t.noConfusion rfl hstaged

/-! The statements after the staging -/

section reset

variable {table : reset_t} {tables : state_t} {handler : handler_t} {freed : Bool} {target : Target}
  {current_timestamp : Int}

theorem reset_advance : reset_t.reset target current_timestamp tables .flow_table_advance_base_timestamp =
    { tables with
      flow_table := flow_table.flow_table_advance_base_timestamp tables.flow_table current_timestamp } := rfl

/-- Each reset leaves the table that it is about empty of what was sent. -/
theorem position_t.Safe.reset {directory : Directory cstring (List Line)}
    (h : (position_t.reset table).Safe s tables directory waiting) :
    (table.next target).Safe s (table.reset target current_timestamp tables) directory waiting := by
  cases table with
  | packet_series_init =>
    obtain ⟨rfl, hpending, hrenamed⟩ := h
    exact ⟨⟨rfl, hpending⟩, rfl, hrenamed⟩
  | flow_table_advance_base_timestamp =>
    obtain ⟨⟨hheld, hpending⟩, rfl, hrenamed⟩ := h
    rw [reset_advance]
    exact ⟨⟨hheld, advance_pending hpending _⟩, rfl, hrenamed⟩
  | dns_table_init =>
    rw [reset_t.next]
    split <;> exact h
  | dns_table_destroy | http_table_destroy | http_table_init | drop_statistics_init => exact h

theorem reset_sequence_number :
    (table.reset target current_timestamp tables).sequence_number = tables.sequence_number := by
  cases table with
  | flow_table_advance_base_timestamp => rw [reset_advance]
  | _ => rfl

theorem reset_dns_table (hinit : table ≠ .dns_table_init) :
    (table.reset target current_timestamp tables).dns_table = tables.dns_table := by
  cases table with
  | flow_table_advance_base_timestamp => rw [reset_advance]
  | dns_table_init => exact absurd rfl hinit
  | _ => rfl

theorem reset_http_table (hinit : table ≠ .http_table_init) :
    (table.reset target current_timestamp tables).http_table = tables.http_table := by
  cases table with
  | flow_table_advance_base_timestamp => rw [reset_advance]
  | http_table_init => exact absurd rfl hinit
  | _ => rfl

theorem reset_next_staged : table.next target ≠ .count_alarm ∧ (table.next target).staged = 0 := by
  cases table <;> exact ⟨position_t.noConfusion, rfl⟩

/-- The strings are dropped right after they have been freed. -/
theorem reset_dns_freed (hposition : handler.position = .reset table)
    (h : FreedSafely freed (dns_table_t.Named tables.dns_table) .dns_table_init (handler :: interrupted)
      (handler :: interrupted)) :
    FreedSafely (table.dns_freed freed)
      (dns_table_t.Named (table.reset target current_timestamp tables).dns_table) .dns_table_init
      ({ handler with position := table.next target } :: interrupted)
      ({ handler with position := table.next target } :: interrupted) := by
  by_cases hinit : table = .dns_table_init
  · subst hinit
    intro hfreed
    cases hfreed
  · rw [reset_dns_table hinit]
    have helsewhere : handler.position ≠ .reset .dns_table_init := by simpa [hposition] using hinit
    cases table with
    | dns_table_destroy => exact fun _ => ⟨⟨_, List.mem_cons_self, rfl⟩, .inr ⟨_, rfl, rfl⟩⟩
    | dns_table_init => exact absurd rfl hinit
    | _ => exact h.moves helsewhere

/-- The URL strings are freed and dropped one after the other. -/
theorem reset_http_freed (hposition : handler.position = .reset table)
    (h : FreedSafely freed (tables.http_table.entries.items ≠ []) .http_table_init (handler :: interrupted)
      (handler :: interrupted)) :
    FreedSafely (table.http_freed freed)
      ((table.reset target current_timestamp tables).http_table.entries.items ≠ []) .http_table_init
      ({ handler with position := table.next target } :: interrupted)
      ({ handler with position := table.next target } :: interrupted) := by
  by_cases hinit : table = .http_table_init
  · subst hinit
    intro hfreed
    cases hfreed
  · rw [reset_http_table hinit]
    have helsewhere : handler.position ≠ .reset .http_table_init := by simpa [hposition] using hinit
    cases table with
    | http_table_destroy => exact fun _ => ⟨⟨_, List.mem_cons_self, rfl⟩, .inr ⟨_, rfl, rfl⟩⟩
    | http_table_init => exact absurd rfl hinit
    | _ => exact h.moves helsewhere

end reset

/-- Resetting a table that has been sent keeps the account. -/
theorem keeps_reset {table : reset_t} (h : Active s periods trace p ⟨signal, io, .reset table⟩ interrupted waiting) :
    KeepsAccount s bismark_mac periods trace p ⟨signal, io, .reset table⟩ interrupted := by
  obtain ⟨hdns, hhttp⟩ := h.freed
  have hnext : table.next s.target ≠ .count_alarm ∧ (table.next s.target).staged = 0 := reset_next_staged
  rw [KeepsAccount, handler_step, if_neg (not_uses_freed h.safe h.handlers h.active)]
  refine Accounted.goes_on h.shared (h.kept_pending (.refl _)) h.running (h.safe.moves h.handlers h.active rfl rfl
    position_t.noConfusion hnext.1 h.handler_safe.position.reset ?_ (reset_dns_freed rfl hdns)
    (reset_http_freed rfl hhttp))
  rw [hnext.2]
  exact congrArg (· + 0) reset_sequence_number

/-- The next update will have another name. -/
theorem keeps_increment_sequence_number
    (h : Active s periods trace p ⟨signal, io, .increment_sequence_number⟩ interrupted waiting) :
    KeepsAccount s bismark_mac periods trace p ⟨signal, io, .increment_sequence_number⟩ interrupted := by
  obtain ⟨hdns, hhttp⟩ := h.freed
  rw [KeepsAccount, handler_step, if_neg (not_uses_freed h.safe h.handlers h.active)]
  refine Accounted.goes_on h.shared (h.kept_pending (.refl _)) h.running (h.safe.moves h.handlers h.active rfl rfl
    position_t.noConfusion position_t.noConfusion h.handler_safe.position ?_ (hdns.moves (by simp))
    (hhttp.moves (by simp)))
  exact Int.add_zero _

/-- An alarm that writes an update is counted. -/
theorem keeps_count_alarm (h : Active s periods trace p ⟨signal, io, .count_alarm⟩ interrupted waiting) :
    KeepsAccount s bismark_mac periods trace p ⟨signal, io, .count_alarm⟩ interrupted := by
  have hsafe := h.handler_safe
  obtain rfl : signal = .SIGALRM := hsafe.alarm rfl
  have hdue : update_due s periods (p.alarm_count + 1) := by
    by_contra hnot
    exact h.active ⟨rfl, hnot⟩
  obtain ⟨hdns, hhttp⟩ := h.freed
  have hcurrent := h.safe.current
  have hnames := h.safe.names
  rw [current_of_active h.handlers h.active] at hcurrent hnames
  rw [KeepsAccount, handler_step, if_neg (not_uses_freed h.safe h.handlers h.active)]
  simp only [if_pos hdue]
  refine Accounted.goes_on h.shared (h.kept_pending (.refl _)) h.running ?_
  have hcurrent' : process_t.current s periods
      { p with
        alarm_count := p.alarm_count + 1
        handlers := ⟨.SIGALRM, io, .gzopen⟩ :: interrupted } = ⟨.SIGALRM, io, .gzopen⟩ :: interrupted :=
    current_of_active rfl (not_idle_of_due position_t.noConfusion fun _ => hdue)
  constructor
  case signals =>
    have hsignals := h.safe.signals
    rw [h.handlers] at hsignals
    exact hsignals
  case current =>
    rw [hcurrent']
    exact ⟨⟨hsafe.succeeds, position_t.noConfusion, fun _ _ => hdue, hsafe.position⟩, hcurrent.2⟩
  case names =>
    rw [hcurrent']
    exact hnames
  case dns_freed =>
    rw [hcurrent']
    exact hdns.moves (by simp)
  case http_freed =>
    rw [hcurrent']
    exact hhttp.moves (by simp)

/-! Staging -/

/-- A staged update gets the share that was waiting. -/
theorem SharedOut.stages (h : SharedOut s trace waiting) {event : signal_event} {name : cstring}
    {contents : Option (List Line)} (hshown : waiting.ShownBy s contents) :
    SharedOut s (trace ++ [(event, .staged name contents)]) ⟨[], []⟩ := by
  obtain ⟨shares, hshares, hpackets, hflows⟩ := h
  refine ⟨shares ++ [waiting], ?_, ?_, ?_⟩
  · rw [staged_updates_snoc]
    exact List.rel_append hshares (.cons hshown .nil)
  · rw [recorded_packets_snoc, hpackets, List.flatMap_append]
    simp [signal_output.packets]
  · rw [recorded_flows_snoc, hflows, List.flatMap_append]
    simp [signal_output.flows]

/-- An update under a new name leaves the others as they are. -/
theorem NothingOverwritten.stages {directory directory' : Directory cstring (List Line)}
    (h : NothingOverwritten trace directory)
    (hnames : ∀ update ∈ staged_updates trace, update.1 ≠ PENDING_UPDATE_FILENAME)
    {event : signal_event} {name : cstring} (hfresh : ∀ update ∈ staged_updates trace, update.1 ≠ name)
    (hrename : directory.rename PENDING_UPDATE_FILENAME name = some directory') :
    NothingOverwritten (trace ++ [(event, .staged name (directory'.read name))]) directory' := by
  have hstaged : staged_updates (trace ++ [(event, .staged name (directory'.read name))]) =
      staged_updates trace ++ [(name, directory'.read name)] := staged_updates_snoc _ _ _
  constructor
  case nodup =>
    rw [hstaged, List.map_append, List.nodup_append]
    refine ⟨h.nodup, List.nodup_singleton _, ?_⟩
    rintro other hother _ hname rfl
    obtain ⟨update, hupdate, rfl⟩ := List.mem_map.mp hother
    exact hfresh update hupdate (List.mem_singleton.mp hname)
  case kept =>
    intro update hupdate
    rw [hstaged] at hupdate
    obtain hold | hnew := List.mem_append.mp hupdate
    · rw [rename_read_of_ne hrename (hfresh update hold) (hnames update hold)]
      exact h.kept update hold
    · rw [List.mem_singleton.mp hnew]
  case only =>
    intro other hother hentry
    rw [hstaged, List.map_append, List.mem_append]
    by_cases hnew : other = name
    · subst hnew
      exact .inr (List.mem_singleton_self _)
    · rw [rename_entries_of_ne hrename hnew hother] at hentry
      exact .inl (h.only other hother hentry)

section rename

variable {name : cstring} {marked : List Slot}

/-- No update has the name that is made from the current sequence number. -/
theorem Active.fresh_name (h : Active s periods trace p ⟨signal, io, .rename name marked⟩ interrupted waiting) :
    ∀ update ∈ staged_updates trace, update.1 ≠ update_filename s p.tables.sequence_number := by
  have hnames := h.safe.names
  rw [current_of_active h.handlers h.active] at hnames
  intro update hupdate heq
  obtain ⟨number, hlt, hname⟩ := hnames update hupdate
  obtain rfl := update_filename_injective s (hname.symm.trans heq)
  exact lt_irrefl _ (hlt.trans_eq (Int.add_zero _))

/-- The process right after the renaming, when nothing waits any more. -/
theorem Active.renamed_safe
    (h : Active s periods trace p ⟨signal, io, .rename name marked⟩ interrupted waiting)
    (hpending : p.tables.flow_table.Pending []) {directory : Directory cstring (List Line)}
    (hrenamed : directory.entries PENDING_UPDATE_FILENAME = none) {event : signal_event}
    {contents : Option (List Line)} :
    process_t.Safe s periods
      (p.at_position ⟨signal, io, .rename name marked⟩ interrupted p.tables directory .increment_sequence_number)
      (staged_updates (trace ++ [(event, .staged (update_filename s p.tables.sequence_number) contents)]))
      ⟨[], []⟩ := by
  have hsafe := h.handler_safe
  obtain ⟨hdns, hhttp⟩ := h.freed
  have hsignals := h.safe.signals
  have hcurrent := h.safe.current
  have hnames := h.safe.names
  rw [h.handlers] at hsignals
  rw [current_of_active h.handlers h.active] at hcurrent hnames
  have hdue (hsignal : signal = .SIGALRM) : update_due s periods p.alarm_count :=
    hsafe.due hsignal position_t.noConfusion
  have hcurrent' := @current_of_active s periods
    (p.at_position ⟨signal, io, .rename name marked⟩ interrupted p.tables directory .increment_sequence_number) _ _ rfl
    (not_idle_of_due position_t.noConfusion hdue)
  constructor
  case signals => exact hsignals
  case current =>
    rw [hcurrent']
    exact ⟨⟨hsafe.succeeds, position_t.noConfusion, fun hsignal _ => hdue hsignal, rfl, hpending, hrenamed⟩,
      hcurrent.2⟩
  case names =>
    rw [hcurrent', staged_updates_snoc]
    intro update hupdate
    obtain hold | hnew := List.mem_append.mp hupdate
    · obtain ⟨number, hlt, hname⟩ := hnames update hold
      exact ⟨number, hlt.trans (Int.add_lt_add_left (show (0 : Int) < 1 by decide) _), hname⟩
    · rw [List.mem_singleton.mp hnew]
      exact ⟨p.tables.sequence_number, Int.lt_add_one_of_le le_rfl, rfl⟩
  case dns_freed =>
    rw [hcurrent']
    exact hdns.moves (by simp)
  case http_freed =>
    rw [hcurrent']
    exact hhttp.moves (by simp)

/-- Renaming stages the update, under a name that is new. -/
theorem keeps_rename (h : Active s periods trace p ⟨signal, io, .rename name marked⟩ interrupted waiting) :
    KeepsAccount s bismark_mac periods trace p ⟨signal, io, .rename name marked⟩ interrupted := by
  have hsafe := h.handler_safe
  rw [KeepsAccount, handler_step, if_neg (not_uses_freed h.safe h.handlers h.active)]
  obtain hstaged | ⟨rfl, sending, hwritten⟩ := hsafe.position
  -- An alarm has staged everything in the meantime.
  · simp only [rename_eq_none hstaged.renamed]
    exact Accounted.exits h.shared (h.kept_pending (.refl _)) hstaged.empty
  · have hentry : p.directory.entries PENDING_UPDATE_FILENAME ≠ none := by
      obtain ⟨lines, hread, _⟩ := hwritten.shown
      intro hnone
      rw [Directory.read, hnone] at hread
      cases hread
    obtain ⟨directory, hrename⟩ := Option.isSome_iff_exists.mp (rename_isSome hentry (update_filename s _))
    have hshown : waiting.ShownBy s (directory.read (update_filename s p.tables.sequence_number)) := by
      rw [rename_read_new hrename]
      exact hwritten.shown
    have hpending : p.tables.flow_table.Pending [] := by
      rw [hwritten.marks]
      exact mark_sent_all_pending sending
    have hgone := rename_entries_old hrename (update_filename_ne_pending s _).symm
    simp only [hrename, if_pos hsafe.succeeds.renamed]
    refine ⟨⟨[], []⟩, h.shared.stages hshown, h.kept.stages h.safe.names_ne_pending h.fresh_name hrename, ?_,
      fun _ => h.renamed_safe hpending hgone, fun _ => rfl⟩
    rw [h.running]
    decide

end rename

/-- A handler that is done returns or ends the process. -/
theorem keeps_handler_end (h : Active s periods trace p ⟨signal, io, .handler_end⟩ interrupted waiting) :
    KeepsAccount s bismark_mac periods trace p ⟨signal, io, .handler_end⟩ interrupted := by
  have hstaged : Staged p.tables.packet_data.packet_data.items p.tables.flow_table p.directory waiting :=
    h.handler_safe.position
  rw [KeepsAccount, handler_step, if_neg (not_uses_freed h.safe h.handlers h.active)]
  simp only
  by_cases hsignal : signal = .SIGALRM
  · simp only [if_pos hsignal]
    obtain ⟨hdns, hhttp⟩ := h.freed
    have hsignals := h.safe.signals
    have hcurrent := h.safe.current
    have hnames := h.safe.names
    rw [current_of_active h.handlers h.active] at hcurrent hnames
    rw [h.handlers] at hsignals
    have hcurrent' : process_t.current s periods { p with handlers := interrupted } = interrupted :=
      current_below_alarm hsignals hsignal rfl
    refine Accounted.goes_on h.shared (h.kept_pending (.refl _)) h.running ?_
    constructor
    case signals => exact (List.nodup_cons.mp hsignals).2
    case current =>
      rw [hcurrent']
      cases interrupted with
      | nil => exact hstaged.toHolds
      | cons outer rest =>
        obtain ⟨hsucceeds, hcount, hquiet⟩ := hcurrent.2 hsignal outer rfl
        have houter : outer.signal ≠ .SIGALRM := by
          intro houter
          apply (List.nodup_cons.mp hsignals).1
          show signal ∈ (outer :: rest).map handler_t.signal
          rw [hsignal, ← houter]
          exact List.mem_cons_self
        exact ⟨⟨hsucceeds, fun heq => absurd heq hcount, fun heq => absurd heq houter, hquiet.safe hstaged⟩,
          fun heq => absurd heq houter⟩
    case names =>
      rw [hcurrent']
      intro update hupdate
      obtain ⟨number, hlt, hname⟩ := hnames update hupdate
      have hnumber : number < p.tables.sequence_number := hlt.trans_eq (Int.add_zero _)
      exact ⟨number, hnumber.trans_le (le_next_number _ _), hname⟩
    case dns_freed => exact hdns.returns (by simp)
    case http_freed => exact hhttp.returns (by simp)
  · simp only [if_neg hsignal]
    exact Accounted.exits h.shared (h.kept_pending (.refl _)) hstaged.empty

/-- Whatever statement of an update comes next. -/
theorem Active.keeps_account {handler : handler_t} (h : Active s periods trace p handler interrupted waiting)
    (hcomposes : handler.Composes s periods bismark_mac p) :
    KeepsAccount s bismark_mac periods trace p handler interrupted := by
  obtain ⟨signal, io, position⟩ := handler
  cases position with
  | count_alarm => exact keeps_count_alarm h
  | gzopen => exact keeps_gzopen h
  | print part writer => exact keeps_print h hcomposes
  | flow_entry remaining writer => exact keeps_flow_entry h hcomposes
  | mark_flow idx remaining writer => exact keeps_mark_flow h
  | gzclose writer => exact keeps_gzclose h
  | snprintf marked => exact keeps_snprintf h
  | rename name marked => exact keeps_rename h
  | increment_sequence_number => exact keeps_increment_sequence_number h
  | reset table => exact keeps_reset h
  | write_frequent_update => exact keeps_write_frequent_update h
  | upload_failures_check => exact keeps_upload_failures_check h
  | handler_end => exact keeps_handler_end h

end step

end bismark_passive.main
