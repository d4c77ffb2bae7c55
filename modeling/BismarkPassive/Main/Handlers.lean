import BismarkPassive.Main.Staging

namespace bismark_passive.main

open machine files flow_table address_table packet_series dns http drop_statistics

/-! What the tables and the files are like while a handler is at a position -/

/-- The tables hold everything that waits for an update. -/
structure Holds (packets : List packet_data_t) (table : flow_table_t) (waiting : share_t) : Prop where
  held : packets = waiting.packets
  pending : table.Pending waiting.flows

/-- An update of what is waiting has got past these entries. -/
structure Begun (packets : List packet_data_t) (table : flow_table_t) (waiting : share_t) (sending : flow_table_t)
    (marked passed : List Slot) : Prop where
  held : packets = waiting.packets
  pending : sending.Pending waiting.flows
  marks : table = sending.mark_sent passed
  unmarked : marked = [] → table = sending

theorem Begun.holds {packets : List packet_data_t} {table sending : flow_table_t} {waiting : share_t}
    {marked passed : List Slot} (h : Begun packets table waiting sending marked passed) (hunmarked : marked = []) :
    Holds packets table waiting where
  held := h.held
  pending := h.unmarked hunmarked ▸ h.pending

/-- Its file shows these packets and the flows of these entries so far. -/
structure Writing (s : Session) (packets : List packet_data_t) (table : flow_table_t)
    (directory : Directory cstring (List Line)) (waiting : share_t) (sending : flow_table_t)
    (shown : List packet_data_t) (passed printed : List Slot) (writer : writer_t) : Prop
    extends Begun packets table waiting sending writer.marked passed where
  healthy : writer.stream.Healthy
  opened : directory.Opened PENDING_UPDATE_FILENAME writer.handle
  packet_lines : writer.stream.written.filter Line.is_packet = shown.map packet_line
  flow_records : writer.stream.written.filter Line.is_flow = flow_lines s sending printed
  composed : ∀ idx ∈ printed, (sending.entries idx).occupied = .ENTRY_OCCUPIED_BUT_UNSENT →
    ∃ line, flow_line s idx (sending.entries idx) = some line

/-- Its file is complete. -/
structure Written (s : Session) (packets : List packet_data_t) (table : flow_table_t)
    (directory : Directory cstring (List Line)) (waiting : share_t) (sending : flow_table_t)
    (marked : List Slot) : Prop
    extends Begun packets table waiting sending marked all_slots where
  shown : waiting.ShownBy s (directory.read PENDING_UPDATE_FILENAME)

/-- Everything has been staged, and there is no pending file. -/
structure Staged (packets : List packet_data_t) (table : flow_table_t) (directory : Directory cstring (List Line))
    (waiting : share_t) : Prop extends Holds packets table waiting where
  empty : waiting = ⟨[], []⟩
  renamed : directory.entries PENDING_UPDATE_FILENAME = none

/-- The packets that are shown before a part is printed. -/
def part_t.shown (waiting : share_t) : part_t → List packet_data_t
  | .header | .whitelist | .anonymization | .packets => []
  | _ => waiting.packets

def part_t.passed : part_t → List Slot
  | .header | .whitelist | .anonymization | .packets | .flow_header => []
  | _ => all_slots

/-- Once its file is complete an update may be overtaken by an alarm that
stages everything; it then finds no pending file. -/
def position_t.Safe (s : Session) (tables : state_t) (directory : Directory cstring (List Line)) (waiting : share_t) :
    position_t → Prop
  | .count_alarm | .gzopen => Holds tables.packet_data.packet_data.items tables.flow_table waiting
  | .print part writer => ∃ sending, Writing s tables.packet_data.packet_data.items tables.flow_table directory waiting
      sending (part.shown waiting) part.passed part.passed writer
  | .flow_entry remaining writer => ∃ sending passed, passed ++ remaining = all_slots ∧
      Writing s tables.packet_data.packet_data.items tables.flow_table directory waiting sending waiting.packets passed
        passed writer
  | .mark_flow idx remaining writer => ∃ sending passed, passed ++ idx :: remaining = all_slots ∧
      (sending.entries idx).occupied = .ENTRY_OCCUPIED_BUT_UNSENT ∧
      Writing s tables.packet_data.packet_data.items tables.flow_table directory waiting sending waiting.packets passed
        (passed ++ [idx]) writer
  | .gzclose writer => ∃ sending, Writing s tables.packet_data.packet_data.items tables.flow_table directory waiting
      sending waiting.packets all_slots all_slots writer
  | .snprintf marked =>
    Staged tables.packet_data.packet_data.items tables.flow_table directory waiting ∨
      ∃ sending, Written s tables.packet_data.packet_data.items tables.flow_table directory waiting sending marked
  | .rename name marked =>
    Staged tables.packet_data.packet_data.items tables.flow_table directory waiting ∨
      name = update_filename s tables.sequence_number ∧ ∃ sending,
        Written s tables.packet_data.packet_data.items tables.flow_table directory waiting sending marked
  | .increment_sequence_number | .reset .packet_series_init =>
    waiting = ⟨[], []⟩ ∧ tables.flow_table.Pending [] ∧ directory.entries PENDING_UPDATE_FILENAME = none
  | .reset _ | .write_frequent_update | .upload_failures_check | .handler_end =>
    Staged tables.packet_data.packet_data.items tables.flow_table directory waiting

/-- The handler has no file open, and its sequence number is not in use. -/
def position_t.Quiet : position_t → Prop
  | .print _ _ | .flow_entry _ _ | .mark_flow _ _ _ | .gzclose _ | .increment_sequence_number => False
  | _ => True

section positions

variable {s : Session} {tables : state_t} {directory : Directory cstring (List Line)} {waiting : share_t}
  {position : position_t}

/-- What an interrupting update needs. -/
theorem position_t.Safe.holds {p : process_t} {signal : signal_t}
    (h : position.Safe s p.tables directory waiting) (hspares : position.Spares p signal) :
    Holds p.tables.packet_data.packet_data.items p.tables.flow_table waiting := by
  cases position with
  | count_alarm | gzopen => exact h
  | print part writer =>
    obtain ⟨_, hwriting⟩ := h
    exact hwriting.toBegun.holds hspares.2
  | flow_entry remaining writer =>
    obtain ⟨_, _, _, hwriting⟩ := h
    exact hwriting.toBegun.holds hspares.2
  | mark_flow idx remaining writer =>
    obtain ⟨_, _, _, _, hwriting⟩ := h
    exact hwriting.toBegun.holds hspares.2
  | gzclose writer =>
    obtain ⟨_, hwriting⟩ := h
    exact hwriting.toBegun.holds hspares.2
  | snprintf marked =>
    obtain hstaged | ⟨_, hwritten⟩ := h
    · exact hstaged.toHolds
    · exact hwritten.toBegun.holds hspares
  | rename name marked =>
    obtain hstaged | ⟨_, _, hwritten⟩ := h
    · exact hstaged.toHolds
    · exact hwritten.toBegun.holds hspares
  | increment_sequence_number => exact absurd hspares id
  | reset table =>
    cases table with
    | packet_series_init =>
      obtain ⟨rfl, hpending, _⟩ := h
      exact ⟨hspares, hpending⟩
    | _ => exact h.toHolds
  | write_frequent_update | upload_failures_check | handler_end => exact h.toHolds

theorem position_t.Spares.quiet {p : process_t} (hspares : position.Spares p .SIGALRM) : position.Quiet := by
  cases position with
  | print | flow_entry | mark_flow | gzclose => exact hspares.1 rfl
  | increment_sequence_number => exact hspares
  | count_alarm | gzopen | snprintf | rename | reset => trivial
  | write_frequent_update | upload_failures_check | handler_end => trivial

/-- Where the interrupted handler goes on once an alarm has staged everything. -/
theorem position_t.Quiet.safe (h : position.Quiet)
    (hstaged : Staged tables.packet_data.packet_data.items tables.flow_table directory waiting) :
    position.Safe s tables directory waiting := by
  cases position with
  | count_alarm | gzopen => exact hstaged.toHolds
  | print | flow_entry | mark_flow | gzclose | increment_sequence_number => exact absurd h id
  | snprintf | rename => exact .inl hstaged
  | reset table =>
    cases table with
    | packet_series_init =>
      have hpending := hstaged.pending
      rw [hstaged.empty] at hpending
      exact ⟨hstaged.empty, hpending, hstaged.renamed⟩
    | _ => exact hstaged
  | write_frequent_update | upload_failures_check | handler_end => exact hstaged

end positions

/-! Printing -/

section printing

variable {s : Session} {packets shown : List packet_data_t} {table sending : flow_table_t}
  {directory : Directory cstring (List Line)} {waiting : share_t} {passed printed : List Slot} {writer : writer_t}

/-- The file after lines that show these packets and no flow. -/
theorem Writing.print (h : Writing s packets table directory waiting sending shown passed printed writer)
    {lines : List Line} {more : List packet_data_t} (hpackets : lines.filter Line.is_packet = more.map packet_line)
    (hflows : lines.filter Line.is_flow = []) :
    Writing s packets table (directory.write writer.handle) waiting sending (shown ++ more) passed printed
      { writer with stream := writer.stream.append lines } :=
  { h.toBegun with
    healthy := h.healthy.append lines
    opened := h.opened.set_content none
    packet_lines := by rw [gzFile.append_written, List.filter_append, h.packet_lines, hpackets, List.map_append]
    flow_records := by rw [gzFile.append_written, List.filter_append, h.flow_records, hflows, List.append_nil]
    composed := h.composed }

theorem flow_lines_append (first second : List Slot) :
    flow_lines s sending (first ++ second) = flow_lines s sending first ++ flow_lines s sending second :=
  List.filterMap_append

theorem flow_table_t.mark_sent_append (first second : List Slot) :
    sending.mark_sent (first ++ second) = (sending.mark_sent first).mark_sent second := by
  simp only [flow_table_t.mark_sent, flow_table_t.mk.injEq, and_self, and_true]
  funext idx
  by_cases hfirst : idx ∈ first <;> by_cases hsecond : idx ∈ second <;> simp [hfirst, hsecond, flow_table_entry_t.sent]
  split <;> simp_all

variable {idx : Slot}

/-- An entry that has not been passed is still as it was. -/
theorem Begun.entry {marked : List Slot} (h : Begun packets table waiting sending marked passed)
    (hnotmem : idx ∉ passed) : table.entries idx = sending.entries idx := by
  rw [h.marks, flow_table_t.mark_sent]
  exact if_neg hnotmem

/-- An entry without a new flow is skipped. -/
theorem Writing.skip (h : Writing s packets table directory waiting sending shown passed passed writer)
    (hnotmem : idx ∉ passed) (hsent : (table.entries idx).occupied ≠ .ENTRY_OCCUPIED_BUT_UNSENT) :
    Writing s packets table directory waiting sending shown (passed ++ [idx]) (passed ++ [idx]) writer := by
  have hskipped : (sending.entries idx).occupied ≠ .ENTRY_OCCUPIED_BUT_UNSENT := h.entry hnotmem ▸ hsent
  have hmarked : table = sending.mark_sent (passed ++ [idx]) := by
    rw [flow_table_t.mark_sent_append, ← h.marks, ← flow_table_t.mark_sent_cons_of_other hsent,
      flow_table_t.mark_sent_nil]
  refine { h with marks := hmarked, flow_records := ?_, composed := fun other hother hunsent => ?_ }
  · rw [h.flow_records, flow_lines_append]
    simp [flow_lines, hskipped]
  · obtain hother | hother := List.mem_append.mp hother
    · exact h.composed other hother hunsent
    · rw [List.mem_singleton.mp hother] at hunsent
      exact absurd hunsent hskipped

/-- The record of an entry is printed before the entry is marked. -/
theorem Writing.record (h : Writing s packets table directory waiting sending shown passed passed writer)
    (hnotmem : idx ∉ passed) (hunsent : (table.entries idx).occupied = .ENTRY_OCCUPIED_BUT_UNSENT) {line : Line}
    (hline : flow_line s idx (table.entries idx) = some line) :
    Writing s packets table (directory.write writer.handle) waiting sending shown passed (passed ++ [idx])
      { writer with stream := writer.stream.append [line] } := by
  rw [h.entry hnotmem] at hunsent hline
  have hpacket : Line.is_packet line = false := by
    simp only [flow_line, Option.bind_eq_bind, Option.bind_eq_some_iff, Option.pure_def, Option.some.injEq] at hline
    obtain ⟨_, _, _, _, rfl⟩ := hline
    rfl
  refine { h.toBegun with
    healthy := h.healthy.append [line]
    opened := h.opened.set_content none
    packet_lines := ?_
    flow_records := ?_
    composed := fun other hother hother_unsent => ?_ }
  · rw [gzFile.append_written, List.filter_append, h.packet_lines]
    simp [hpacket]
  · rw [gzFile.append_written, List.filter_append, h.flow_records, flow_lines_append]
    simp [flow_lines, hunsent, hline, flow_line_is_flow hline]
  · obtain hother | hother := List.mem_append.mp hother
    · exact h.composed other hother hother_unsent
    · rw [List.mem_singleton.mp hother]
      exact ⟨line, hline⟩

/-- Marking the entry whose record has been printed. -/
theorem Writing.mark
    (h : Writing s packets table directory waiting sending shown passed (passed ++ [idx]) writer)
    (hnotmem : idx ∉ passed) (hunsent : (sending.entries idx).occupied = .ENTRY_OCCUPIED_BUT_UNSENT) :
    Writing s packets
      (table.store idx { table.entries idx with occupied := .ENTRY_OCCUPIED }) directory waiting sending
      shown (passed ++ [idx]) (passed ++ [idx]) { writer with marked := idx :: writer.marked } := by
  have hentry : (table.entries idx).occupied = .ENTRY_OCCUPIED_BUT_UNSENT := (h.entry hnotmem).symm ▸ hunsent
  have hmarked : table.store idx { table.entries idx with occupied := .ENTRY_OCCUPIED } =
      sending.mark_sent (passed ++ [idx]) := by
    rw [flow_table_t.mark_sent_append, ← h.marks, ← flow_table_t.mark_sent_cons_of_unsent hentry,
      flow_table_t.mark_sent_nil]
  exact { h with marks := hmarked, unmarked := fun hnil => absurd hnil (List.cons_ne_nil _ _) }

/-- A closed file shows everything that was waiting. -/
theorem Writing.close
    (h : Writing s packets table directory waiting sending waiting.packets all_slots all_slots writer) :
    Written s packets table (directory.close writer.handle (some writer.stream.written)) waiting sending
      writer.marked :=
  { h.toBegun with
    shown := by
      rw [h.opened.close_read_self]
      refine ⟨_, rfl, h.packet_lines, ?_⟩
      rw [h.flow_records]
      exact h.pending.flow_lines_perm fun idx => h.composed idx (mem_all_slots idx) }

end printing

end bismark_passive.main
