import BismarkPassive.Main.Parts

namespace bismark_passive.main

open machine files flow_table address_table packet_series dns http drop_statistics

/-! What a run records, and what it stages -/

def signal_output.packets : signal_output → List packet_data_t
  | .recorded packets _ => packets
  | _ => []

def signal_output.flows : signal_output → List (Slot × flow_table_entry_t)
  | .recorded _ flows => flows
  | _ => []

def signal_output.update : signal_output → Option (cstring × Option (List Line))
  | .staged update_filename contents => some (update_filename, contents)
  | _ => none

/-- The packets of the packet series, from the first one on. -/
def recorded_packets (trace : signal_trace) : List packet_data_t := trace.flatMap fun step => step.2.packets

/-- The flows inserted into the flow table, from the first one on. -/
def recorded_flows (trace : signal_trace) : List (Slot × flow_table_entry_t) := trace.flatMap fun step => step.2.flows

/-- The update files in the order of their renaming, with what they contained then. -/
def staged_updates (trace : signal_trace) : List (cstring × Option (List Line)) :=
  trace.filterMap fun step => step.2.update

section snoc

variable (trace : signal_trace) (event : signal_event)

theorem recorded_packets_snoc (output : signal_output) :
    recorded_packets (trace ++ [(event, output)]) = recorded_packets trace ++ output.packets := by
  simp [recorded_packets]

theorem recorded_flows_snoc (output : signal_output) :
    recorded_flows (trace ++ [(event, output)]) = recorded_flows trace ++ output.flows := by
  simp [recorded_flows]

theorem staged_updates_snoc (output : signal_output) :
    staged_updates (trace ++ [(event, output)]) = staged_updates trace ++ output.update.toList := by
  simp only [staged_updates, List.filterMap_append, List.append_cancel_left_eq, List.filterMap_cons,
    List.filterMap_nil]
  cases output.update <;> rfl

end snoc

/-- No update file has replaced another one, and all of them are in the upload
directory as they were staged. -/
structure NothingOverwritten (trace : signal_trace) (directory : Directory cstring (List Line)) : Prop where
  nodup : ((staged_updates trace).map Prod.fst).Nodup
  kept : ∀ update ∈ staged_updates trace, directory.read update.1 = update.2
  only : ∀ name ≠ PENDING_UPDATE_FILENAME, directory.entries name ≠ none →
    name ∈ (staged_updates trace).map Prod.fst

/-- Packets and flows. -/
structure share_t where
  packets : List packet_data_t
  flows : List (Slot × flow_table_entry_t)

/-- The file shows these packets and these flows, and no others. -/
def share_t.ShownBy (s : Session) (share : share_t) (contents : Option (List Line)) : Prop :=
  ∃ lines, contents = some lines ∧ lines.filter Line.is_packet = share.packets.map packet_line ∧
    ((lines.filter Line.is_flow).map some).Perm (share.flows.map fun flow => flow_line s flow.1 flow.2)

/-- Of all packets and flows these are not in an update file yet; every other
one is in exactly one. -/
def SharedOut (s : Session) (trace : signal_trace) (waiting : share_t) : Prop :=
  ∃ shares, List.Forall₂ (fun share (update : cstring × Option (List Line)) => share.ShownBy s update.2) shares
      (staged_updates trace) ∧
    recorded_packets trace = shares.flatMap share_t.packets ++ waiting.packets ∧
    recorded_flows trace = shares.flatMap share_t.flows ++ waiting.flows

/-- Every packet and every flow is in exactly one update file. -/
def StagedOnce (s : Session) (trace : signal_trace) : Prop := SharedOut s trace ⟨[], []⟩

/-! When a signal does no harm -/

/-- No call on the file of the update fails. -/
structure handler_io.Succeeds (io : handler_io) : Prop where
  opened : io.update.opened = true
  healthy : io.update.Healthy
  closed : io.gzclose_returns = 0
  renamed : io.update.renamed = true

section harmless

variable (s : Session) (periods : alarm_periods)

/-- The handler of an alarm that only writes a frequent update. -/
def handler_t.Idle (p : process_t) (handler : handler_t) : Prop :=
  handler.signal = .SIGALRM ∧ match handler.position with
    | .count_alarm => ¬ update_due s periods (p.alarm_count + 1)
    | .write_frequent_update | .upload_failures_check | .handler_end => ¬ update_due s periods p.alarm_count
    | _ => False

instance (p : process_t) (handler : handler_t) : Decidable (handler.Idle s periods p) := by
  unfold handler_t.Idle
  refine @instDecidableAnd _ _ _ ?_
  split <;> infer_instance

/-- The innermost handler that writes an update, and those it has interrupted. -/
def process_t.current (p : process_t) : List handler_t :=
  match p.handlers with
  | [] => []
  | handler :: interrupted => if handler.Idle s periods p then interrupted else handler :: interrupted

/-- A signal whose handler writes an update finds the interrupted update at a
point where it does no harm. An alarm comes back, so that the interrupted
update must not have a file open then. -/
def position_t.Spares (p : process_t) (signal : signal_t) : position_t → Prop
  | .count_alarm | .gzopen => True
  | .print _ writer | .flow_entry _ writer | .mark_flow _ _ writer | .gzclose writer =>
    signal ≠ .SIGALRM ∧ writer.marked = []
  | .snprintf marked | .rename _ marked => marked = []
  | .increment_sequence_number => False
  | .reset .packet_series_init => p.tables.packet_data.packet_data.items = []
  | .reset .dns_table_init => ¬ dns_table_t.Named p.tables.dns_table
  | .reset .http_table_init => p.tables.http_table.entries.items = []
  | _ => True

/-- The statement can compose its lines, and if it is a frequent update that no
other update goes with, that one succeeds. -/
def handler_t.Composes (bismark_mac : mac_address_t) (p : process_t) (handler : handler_t) : Prop :=
  match handler.position with
  | .print part _ => ∀ line ∈ part.lines s p.tables handler.io.update, line.isSome
  | .flow_entry (idx :: _) _ => (p.tables.flow_table.entries idx).occupied = .ENTRY_OCCUPIED_BUT_UNSENT →
      (flow_line s idx (p.tables.flow_table.entries idx)).isSome
  | .write_frequent_update => s.target.enable_frequent_updates = true → handler.Idle s periods p →
      handler.io.frequent.opened ∧ handler.io.frequent.renamed ∧ prints_frequent handler.io.frequent.fprintf_returns 0
        (frequent_update_lines s bismark_mac p.tables handler.io.frequent)
  | _ => True

/-- A signal arrives at a harmless moment, or its handler writes no update; and
the handlers' calls succeed. -/
def Harmless (bismark_mac : mac_address_t) (p : process_t) : signal_event → Prop
  | .process_packet _ => True
  | .deliver signal io =>
    signal = .SIGALRM ∧ ¬ update_due s periods (p.alarm_count + 1) ∨
      io.Succeeds ∧ ∀ handler ∈ (p.current s periods).head?, handler.position.Spares p signal
  | .step => ∀ handler ∈ p.handlers.head?, handler.Composes s periods bismark_mac p

end harmless

end bismark_passive.main
