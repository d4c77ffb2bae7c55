import BismarkPassive.Main.Interrupts

namespace bismark_passive.main

open machine files flow_table address_table packet_series dns http drop_statistics

variable {s : Session} {bismark_mac : mac_address_t} {periods : alarm_periods} {trace : signal_trace}
  {event : signal_event} {p p' : process_t} {handler : handler_t} {interrupted : List handler_t} {waiting : share_t}

/-! Steps that stage nothing -/

theorem SharedOut.silent (h : SharedOut s trace waiting) : SharedOut s (trace ++ [(event, .silent)]) waiting := by
  unfold SharedOut at h ⊢
  rw [staged_updates_snoc, recorded_packets_snoc, recorded_flows_snoc]
  simpa [signal_output.update, signal_output.packets, signal_output.flows] using h

theorem staged_updates_silent : staged_updates (trace ++ [(event, .silent)]) = staged_updates trace := by
  rw [staged_updates_snoc]
  exact List.append_nil _

/-- Only the pending file has changed. -/
structure PendingOnly (directory directory' : Directory cstring (List Line)) : Prop where
  read : ∀ name ≠ PENDING_UPDATE_FILENAME, directory'.read name = directory.read name
  entries : ∀ name ≠ PENDING_UPDATE_FILENAME, directory'.entries name = directory.entries name

section pending

variable {directory directory' : Directory cstring (List Line)}

theorem PendingOnly.refl (directory : Directory cstring (List Line)) : PendingOnly directory directory :=
  ⟨fun _ _ => rfl, fun _ _ => rfl⟩

theorem pendingOnly_truncate (directory : Directory cstring (List Line)) :
    PendingOnly directory (directory.truncate PENDING_UPDATE_FILENAME).2 :=
  ⟨fun _ hname => truncate_read_of_ne hname, fun _ hname => truncate_entries_of_ne hname⟩

theorem pendingOnly_set_content {handle : Handle} (hopened : directory.Opened PENDING_UPDATE_FILENAME handle)
    (content : Option (List Line)) : PendingOnly directory (directory.set_content handle.file content) :=
  ⟨fun _ hname => hopened.set_content_read_of_ne hname content, fun _ _ => rfl⟩

/-- What happens to the pending file concerns no update that has been staged. -/
theorem NothingOverwritten.pending (h : NothingOverwritten trace directory)
    (hnames : ∀ update ∈ staged_updates trace, update.1 ≠ PENDING_UPDATE_FILENAME)
    (hpending : PendingOnly directory directory') :
    NothingOverwritten (trace ++ [(event, .silent)]) directory' := by
  constructor
  case nodup =>
    rw [staged_updates_silent]
    exact h.nodup
  case kept =>
    rw [staged_updates_silent]
    intro update hupdate
    rw [hpending.read _ (hnames update hupdate)]
    exact h.kept update hupdate
  case only =>
    rw [staged_updates_silent]
    intro name hname hentry
    rw [hpending.entries name hname] at hentry
    exact h.only name hname hentry

end pending

/-- A step that writes nothing new and stays safe keeps the account. -/
theorem Accounted.goes_on (hshared : SharedOut s trace waiting)
    (hkept : NothingOverwritten (trace ++ [(event, .silent)]) p'.directory) (hrunning : p'.status = .running)
    (hsafe : p'.Safe s periods (staged_updates trace) waiting) :
    Accounted s periods (trace ++ [(event, .silent)]) p' := by
  refine ⟨waiting, hshared.silent, hkept, ?_, fun _ => ?_, fun hexited => ?_⟩
  · rw [hrunning]
    decide
  · rw [staged_updates_silent]
    exact hsafe
  · rw [hrunning] at hexited
    cases hexited

/-- The process may exit once nothing waits. -/
theorem Accounted.exits (hshared : SharedOut s trace waiting)
    (hkept : NothingOverwritten (trace ++ [(event, .silent)]) p.directory) (hempty : waiting = ⟨[], []⟩) :
    Accounted s periods (trace ++ [(event, .silent)]) p.exits := by
  refine ⟨waiting, hshared.silent, hkept, ?_, fun hrunning => ?_, fun _ => hempty⟩
  · exact (by decide : status_t.exited ≠ .undefined)
  · cases hrunning

/-! The flows once they have been sent -/

theorem mark_sent_all_pending (table : flow_table_t) : (table.mark_sent all_slots).Pending [] := by
  refine ⟨List.nodup_nil, fun idx => ?_, fun idx entry h => absurd h List.not_mem_nil⟩
  rw [List.map_nil, iff_false_right List.not_mem_nil, flow_table_t.mark_sent_all]
  exact flow_table_entry_t.sent_occupied_ne _

theorem advance_pending {table : flow_table_t} (h : table.Pending []) (new_timestamp : Int) :
    (flow_table_advance_base_timestamp table new_timestamp).Pending [] := by
  refine ⟨List.nodup_nil, fun idx => ?_, fun idx entry h => absurd h List.not_mem_nil⟩
  rw [List.map_nil, iff_false_right List.not_mem_nil]
  intro hunsent
  rw [flow_table_advance_base_timestamp_entries] at hunsent
  exact absurd ((h.unsent_iff idx).mp (flow_table_entry_t.rebase_unsent hunsent)) List.not_mem_nil

theorem not_mem_passed {passed remaining : List Slot} {idx : Slot} (h : passed ++ idx :: remaining = all_slots) :
    idx ∉ passed := by
  intro hmem
  have hnodup := nodup_all_slots
  rw [← h] at hnodup
  exact List.disjoint_of_nodup_append hnodup hmem List.mem_cons_self

/-! The parts in sequence -/

section print

variable {directory directory' : Directory cstring (List Line)} {tables : state_t} {writer : writer_t}

/-- After a part the handler is at the next one, with the part's lines in the
file. -/
theorem position_t.Safe.print {part : part_t} (h : (position_t.print part writer).Safe s tables directory waiting)
    {io : update_io} {lines : List Line} (hlines : part.lines s tables io = lines.map some) :
    (part.next { writer with stream := writer.stream.append lines }).Safe s (part.leaves tables)
      (directory.write writer.handle) waiting := by
  obtain ⟨sending, hwriting⟩ := h
  have hprint {more : List packet_data_t} (hpackets : lines.filter Line.is_packet = more.map packet_line)
      (hflows : lines.filter Line.is_flow = []) := hwriting.print hpackets hflows
  by_cases hpart : part = .packets
  · subst hpart
    obtain ⟨hpackets, hflows⟩ := packets_composed_show hlines
    rw [hwriting.held] at hpackets
    exact ⟨sending, hprint hpackets hflows⟩
  · obtain ⟨hpackets, hflows⟩ := part_t.composed_show hpart hlines
    have hnext := @hprint [] hpackets hflows
    rw [List.append_nil] at hnext
    cases part with
    | packets => exact absurd rfl hpart
    | flow_header => exact ⟨sending, [], List.nil_append _, hnext⟩
    | _ => exact ⟨sending, hnext⟩

end print

/-! A step of an update -/

/-- The innermost handler writes an update. -/
structure Active (s : Session) (periods : alarm_periods) (trace : signal_trace) (p : process_t) (handler : handler_t)
    (interrupted : List handler_t) (waiting : share_t) : Prop where
  shared : SharedOut s trace waiting
  kept : NothingOverwritten trace p.directory
  running : p.status = .running
  safe : p.Safe s periods (staged_updates trace) waiting
  handlers : p.handlers = handler :: interrupted
  active : ¬ handler.Idle s periods p

section active

variable {tables : state_t} {directory : Directory cstring (List Line)} {position : position_t}

theorem Active.handler_safe (h : Active s periods trace p handler interrupted waiting) :
    handler.Safe s periods p waiting := by
  have hcurrent := h.safe.current
  rw [current_of_active h.handlers h.active] at hcurrent
  exact hcurrent.1

/-- If strings are freed, the update under way is about to drop them, or there are none. -/
theorem Active.freed (h : Active s periods trace p handler interrupted waiting) :
    FreedSafely p.dns_freed (dns_table_t.Named p.tables.dns_table) .dns_table_init (handler :: interrupted)
        (handler :: interrupted) ∧
      FreedSafely p.http_freed (p.tables.http_table.entries.items ≠ []) .http_table_init (handler :: interrupted)
        (handler :: interrupted) := by
  have hdns := h.safe.dns_freed
  have hhttp := h.safe.http_freed
  rw [current_of_active h.handlers h.active, h.handlers] at hdns hhttp
  exact ⟨hdns, hhttp⟩

theorem Active.kept_pending (h : Active s periods trace p handler interrupted waiting)
    (hpending : PendingOnly p.directory directory) : NothingOverwritten (trace ++ [(event, .silent)]) directory :=
  h.kept.pending h.safe.names_ne_pending hpending

/-- The process with the handler at another position. -/
def process_t.at_position (p : process_t) (handler : handler_t) (interrupted : List handler_t) (tables : state_t)
    (directory : Directory cstring (List Line)) (position : position_t) : process_t :=
  { p with
    tables := tables
    directory := directory
    handlers := { handler with position := position } :: interrupted }

/-- What most steps leave alone. -/
structure SameNames (tables tables' : state_t) : Prop where
  sequence_number : tables'.sequence_number = tables.sequence_number
  dns_table : tables'.dns_table = tables.dns_table
  http_table : tables'.http_table = tables.http_table

def position_t.Ordinary : position_t → Prop
  | .count_alarm | .increment_sequence_number | .reset .dns_table_init | .reset .http_table_init => False
  | _ => True

/-- A step inside a handler keeps the account if its new position is safe. -/
theorem Active.moves (h : Active s periods trace p handler interrupted waiting)
    (hordinary : handler.position.Ordinary) (hsame : SameNames p.tables tables)
    (hpending : PendingOnly p.directory directory) (hcount : position ≠ .count_alarm) (hstaged : position.staged = 0)
    (hposition : position.Safe s tables directory waiting) :
    Accounted s periods (trace ++ [(event, .silent)])
      (p.at_position handler interrupted tables directory position) := by
  obtain ⟨hdns, hhttp⟩ := h.freed
  have hnot (other : position_t) (hother : ¬ other.Ordinary) : handler.position ≠ other :=
    fun heq => hother (heq ▸ hordinary)
  have hold : handler.position.staged = 0 := by
    cases hcase : handler.position <;> first | rfl | exact absurd hcase (hnot _ id)
  refine Accounted.goes_on h.shared (h.kept_pending hpending) h.running
    (h.safe.moves h.handlers h.active rfl rfl (hnot _ id) hcount hposition ?_ ?_ ?_)
  · show tables.sequence_number + position.staged = _
    rw [hsame.sequence_number, hstaged, hold]
  · show FreedSafely p.dns_freed (dns_table_t.Named tables.dns_table) _ _ _
    rw [hsame.dns_table]
    exact hdns.moves (hnot _ id)
  · show FreedSafely p.http_freed (tables.http_table.entries.items ≠ []) _ _ _
    rw [hsame.http_table]
    exact hhttp.moves (hnot _ id)

end active

end bismark_passive.main
