import BismarkPassive.Main.Termination

namespace bismark_passive.main

open machine files

/-! How many updates there are -/

/-- How many of these alarms write an update. The program counts alarms modulo
2^32, and writes an update at every multiple. -/
def updates_due (alarms_per_update alarms : Nat) : Nat :=
  alarms / 2 ^ 32 * ((2 ^ 32 - 1) / alarms_per_update + 1) + alarms % 2 ^ 32 / alarms_per_update

theorem updates_due_zero (alarms_per_update : Nat) : updates_due alarms_per_update 0 = 0 := by
  rw [updates_due, Nat.zero_div, Nat.zero_mod, Nat.zero_div, Nat.zero_mul]

/-- One more alarm makes an update due at each multiple. -/
theorem updates_due_succ (alarms_per_update alarms : Nat) :
    updates_due alarms_per_update (alarms + 1) =
      updates_due alarms_per_update alarms + if (alarms + 1) % 2 ^ 32 % alarms_per_update = 0 then 1 else 0 := by
  by_cases hwraps : (alarms + 1) % 2 ^ 32 = 0
  · have hlast : alarms % 2 ^ 32 = 2 ^ 32 - 1 := by omega
    have hrounds : (alarms + 1) / 2 ^ 32 = alarms / 2 ^ 32 + 1 := by omega
    rw [updates_due, updates_due, hwraps, hlast, hrounds, if_pos (Nat.zero_mod _), Nat.zero_div, Nat.add_zero,
      Nat.succ_mul]
    ring
  · have hnext : (alarms + 1) % 2 ^ 32 = alarms % 2 ^ 32 + 1 := by omega
    have hrounds : (alarms + 1) / 2 ^ 32 = alarms / 2 ^ 32 := by omega
    rw [updates_due, updates_due, hnext, hrounds, Nat.succ_div]
    simp only [Nat.dvd_iff_mod_eq_zero, Nat.add_assoc]

theorem updates_due_mono (alarms_per_update : Nat) : Monotone (updates_due alarms_per_update) := by
  apply monotone_nat_of_le_succ
  intro alarms
  rw [updates_due_succ]
  exact Nat.le_add_right _ _

def signal_event.alarms : signal_event → Nat
  | .deliver .SIGALRM _ => 1
  | _ => 0

def signal_event.terminations : signal_event → Nat
  | .deliver .SIGINT _ | .deliver .SIGTERM _ => 1
  | _ => 0

/-- The alarms that have arrived. -/
def alarms (trace : signal_trace) : Nat := (trace.map fun step => step.1.alarms).sum

/-- The signals that have arrived and end the process. -/
def terminations (trace : signal_trace) : Nat := (trace.map fun step => step.1.terminations).sum

theorem alarms_append (trace more : signal_trace) : alarms (trace ++ more) = alarms trace + alarms more := by
  rw [alarms, List.map_append, List.sum_append, alarms, alarms]

theorem terminations_append (trace more : signal_trace) :
    terminations (trace ++ more) = terminations trace + terminations more := by
  rw [terminations, List.map_append, List.sum_append, terminations, terminations]

section snoc

variable (trace : signal_trace) (event : signal_event) (output : signal_output)

theorem alarms_snoc : alarms (trace ++ [(event, output)]) = alarms trace + event.alarms := by
  rw [alarms_append, alarms, alarms, List.map_singleton, List.sum_singleton]

theorem terminations_snoc : terminations (trace ++ [(event, output)]) = terminations trace + event.terminations := by
  rw [terminations_append, terminations, terminations, List.map_singleton, List.sum_singleton]

end snoc

/-! What a handler still has to do -/

def position_t.uncounted : position_t → Nat
  | .count_alarm => 1
  | _ => 0

/-- Its update has still to be staged. -/
def position_t.unstaged : position_t → Nat
  | .gzopen | .print .. | .flow_entry .. | .mark_flow .. | .gzclose _ | .snprintf _ | .rename .. => 1
  | _ => 0

/-- The sequence number has still to be incremented for its update. -/
def position_t.unnumbered : position_t → Nat
  | .increment_sequence_number => 1
  | position => position.unstaged

def handler_t.uncounted (handler : handler_t) : Nat := handler.position.uncounted

def handler_t.unstaged (handler : handler_t) : Nat := handler.position.unstaged

def handler_t.unnumbered (handler : handler_t) : Nat := handler.position.unnumbered

def handler_t.terminates (handler : handler_t) : Nat := if handler.signal = .SIGALRM then 0 else 1

/-- All handlers together. -/
def process_t.total (p : process_t) (amount : handler_t → Nat) : Nat := (p.handlers.map amount).sum

theorem process_t.total_cons {p : process_t} {handler : handler_t} {interrupted : List handler_t}
    (hhandlers : p.handlers = handler :: interrupted) (amount : handler_t → Nat) :
    p.total amount = amount handler + (interrupted.map amount).sum := by
  rw [process_t.total, hhandlers, List.map_cons, List.sum_cons]

variable {s : Session} {bismark_mac : mac_address_t} {periods : alarm_periods}

/-- The update that becomes due when this statement counts an alarm. -/
def position_t.becomes_due (s : Session) (periods : alarm_periods) (alarm_count : UInt32) (position : position_t) :
    Nat :=
  if position.uncounted = 1 ∧ update_due s periods alarm_count then 1 else 0

/-- A handler that has moved from one position to another one, and what has
happened to its update. -/
structure Moved (s : Session) (periods : alarm_periods) (p : process_t) (handler : handler_t)
    (interrupted : List handler_t) (position : position_t) (p' : process_t) (output : signal_output) : Prop where
  handlers : p'.handlers = { handler with position := position } :: interrupted
  counted : position.uncounted = 0
  alarm_count : p'.alarm_count = p.alarm_count + .ofNat handler.position.uncounted
  staged : output.update.toList.length + position.unstaged =
    handler.position.unstaged + handler.position.becomes_due s periods p'.alarm_count
  numbered : p'.tables.sequence_number + position.unnumbered = p.tables.sequence_number +
    handler.position.unnumbered + handler.position.becomes_due s periods p'.alarm_count

section step

variable {p p' : process_t} {handler : handler_t} {interrupted : List handler_t} {output : signal_output}

/-- Most statements have nothing to do with alarms or numbers. -/
theorem Moved.elsewhere {position : position_t}
    (hhandlers : p'.handlers = { handler with position := position } :: interrupted)
    (hcounts : p'.alarm_count = p.alarm_count) (hnumber : p'.tables.sequence_number = p.tables.sequence_number)
    (huncounted : handler.position.uncounted = 0) (huncounted' : position.uncounted = 0)
    (hunstaged : position.unstaged = handler.position.unstaged)
    (hunnumbered : position.unnumbered = handler.position.unnumbered) :
    Moved s periods p handler interrupted position p' .silent where
  handlers := hhandlers
  counted := huncounted'
  alarm_count := by
    rw [hcounts, huncounted]
    exact (UInt32.add_zero _).symm
  staged := by
    have hdue : handler.position.becomes_due s periods p'.alarm_count = 0 :=
      if_neg fun h => absurd (h.1.symm.trans huncounted) Nat.one_ne_zero
    rw [hunstaged, hdue, Nat.add_zero]
    exact Nat.zero_add _
  numbered := by
    have hdue : handler.position.becomes_due s periods p'.alarm_count = 0 :=
      if_neg fun h => absurd (h.1.symm.trans huncounted) Nat.one_ne_zero
    rw [hunnumbered, hdue, hnumber]
    exact (Int.add_zero _).symm

theorem printing_sequence_number (tables : state_t) (writer : gzFile → writer_result × gzFile) (stream : gzFile) :
    (printing tables writer stream).2.1.sequence_number = tables.sequence_number := by
  rw [printing]

theorem part_t.write_sequence_number (part : part_t) (tables : state_t) (io : update_io) (stream : gzFile) :
    (part.write s tables io stream).2.1.sequence_number = tables.sequence_number := by
  cases part with
  | addresses => rw [part_t.write]
  | _ => exact printing_sequence_number tables _ stream

theorem part_t.next_counted (part : part_t) (writer : writer_t) :
    (part.next writer).uncounted = 0 ∧ (part.next writer).unstaged = 1 ∧ (part.next writer).unnumbered = 1 := by
  cases part <;> exact ⟨rfl, rfl, rfl⟩

theorem reset_t.next_counted (target : Target) (table : reset_t) :
    (table.next target).uncounted = 0 ∧ (table.next target).unstaged = 0 ∧ (table.next target).unnumbered = 0 := by
  cases table with
  | dns_table_init =>
    rw [reset_t.next]
    split <;> exact ⟨rfl, rfl, rfl⟩
  | _ => exact ⟨rfl, rfl, rfl⟩

theorem reset_t.reset_sequence_number (target : Target) (current_timestamp : Int) (tables : state_t)
    (table : reset_t) :
    (table.reset target current_timestamp tables).sequence_number = tables.sequence_number := by
  cases table <;> rw [reset_t.reset]

theorem write_frequent_update_sequence_number {tables tables' : state_t} {io : frequent_io}
    (h : write_frequent_update s bismark_mac tables io = some tables') :
    tables'.sequence_number = tables.sequence_number := by
  obtain ⟨-, hreset⟩ := Option.ite_none_right_eq_some.mp h
  rw [← Option.some.inj hreset]

/-- A statement ends the process, returns from the handler, or moves it. -/
inductive Stepped (s : Session) (periods : alarm_periods) (p : process_t) (handler : handler_t)
    (interrupted : List handler_t) : process_t × signal_output → Prop where
  | stops {p' : process_t} (hstopped : p'.status ≠ .running) : Stepped s periods p handler interrupted (p', .silent)
  | returns (hposition : handler.position = .handler_end) (halarm : handler.signal = .SIGALRM) :
    Stepped s periods p handler interrupted ({ p with handlers := interrupted }, .silent)
  | moves {position : position_t} {p' : process_t} {output : signal_output}
    (h : Moved s periods p handler interrupted position p' output) :
    Stepped s periods p handler interrupted (p', output)

/-- A step moves its handler to a position that the counts allow, returns, or ends the process. -/
theorem handler_step_stepped : Stepped s periods p handler interrupted
    (handler_step s bismark_mac periods p handler interrupted) := by
  have hexits : Stepped s periods p handler interrupted (p.exits, .silent) := .stops status_t.noConfusion
  rw [handler_step]
  split
  · exact .stops status_t.noConfusion
  obtain ⟨signal, io, position⟩ := handler
  cases position with
  | count_alarm =>
    by_cases hdue : update_due s periods (p.alarm_count + 1)
    · have hbecomes : position_t.count_alarm.becomes_due s periods (p.alarm_count + 1) = 1 := if_pos ⟨rfl, hdue⟩
      refine @Stepped.moves _ _ _ _ _ .gzopen _ _ ⟨?_, rfl, rfl, ?_, ?_⟩
      · dsimp only
        rw [if_pos hdue]
      · rw [hbecomes]
        rfl
      · simp only [hbecomes, position_t.unnumbered, position_t.unstaged]
        omega
    · have hbecomes : position_t.count_alarm.becomes_due s periods (p.alarm_count + 1) = 0 := if_neg fun h => hdue h.2
      refine @Stepped.moves _ _ _ _ _ .write_frequent_update _ _ ⟨?_, rfl, rfl, ?_, ?_⟩
      · dsimp only
        rw [if_neg hdue]
      · rw [hbecomes]
        rfl
      · simp only [hbecomes, position_t.unnumbered, position_t.unstaged]
        omega
  | gzopen =>
    dsimp only
    split
    · exact hexits
    · exact .moves (.elsewhere rfl rfl rfl rfl rfl rfl rfl)
  | print part writer =>
    have hnumber := part.write_sequence_number (s := s) p.tables io.update writer.stream
    dsimp only
    split
    · rename_i tables stream hwrite
      rw [hwrite] at hnumber
      obtain ⟨huncounted, hunstaged, hunnumbered⟩ := part.next_counted { writer with stream := stream }
      exact .moves (.elsewhere rfl rfl hnumber rfl huncounted hunstaged hunnumbered)
    · exact hexits
  | flow_entry remaining writer =>
    cases remaining with
    | nil => exact .moves (.elsewhere rfl rfl rfl rfl rfl rfl rfl)
    | cons idx remaining =>
      dsimp only
      split
      · split
        · exact hexits
        · split
          · exact hexits
          · exact .moves (.elsewhere rfl rfl rfl rfl rfl rfl rfl)
      · exact .moves (.elsewhere rfl rfl rfl rfl rfl rfl rfl)
  | rename update_filename marked =>
    dsimp only
    split
    · exact hexits
    · split
      · exact @Stepped.moves _ _ _ _ _ .increment_sequence_number _ _
          ⟨rfl, rfl, (UInt32.add_zero _).symm, rfl, (Int.add_zero _).symm⟩
      · exact hexits
  | increment_sequence_number =>
    refine @Stepped.moves _ _ _ _ _ (.reset .packet_series_init) _ _ ⟨rfl, rfl, (UInt32.add_zero _).symm, rfl, ?_⟩
    simp only [position_t.unnumbered, position_t.unstaged]
    rfl
  | reset table =>
    obtain ⟨huncounted, hunstaged, hunnumbered⟩ := table.next_counted s.target
    have hnumber := table.reset_sequence_number s.target io.update.current_timestamp p.tables
    exact .moves (.elsewhere rfl rfl hnumber rfl huncounted hunstaged hunnumbered)
  | write_frequent_update =>
    have hnext : ∀ position, (if signal = signal_t.SIGALRM then position_t.upload_failures_check else .handler_end) =
        position → position.uncounted = 0 ∧ position.unstaged = 0 ∧ position.unnumbered = 0 := by
      rintro _ rfl
      split <;> exact ⟨rfl, rfl, rfl⟩
    obtain ⟨huncounted, hunstaged, hunnumbered⟩ := hnext _ rfl
    dsimp only
    split
    · split
      · exact hexits
      · rename_i hwrite
        have hnumber := write_frequent_update_sequence_number hwrite
        exact .moves (.elsewhere rfl rfl hnumber rfl huncounted hunstaged hunnumbered)
    · exact .moves (.elsewhere rfl rfl rfl rfl huncounted hunstaged hunnumbered)
  | upload_failures_check =>
    dsimp only
    split
    · exact hexits
    · exact .moves (.elsewhere rfl rfl rfl rfl rfl rfl rfl)
  | handler_end =>
    dsimp only
    split
    · exact .returns rfl ‹_›
    · exact hexits
  | _ => exact .moves (.elsewhere rfl rfl rfl rfl rfl rfl rfl)

end step

/-! Whole runs -/

/-- What the signals that have arrived, the updates that have been staged and
the handlers that have not returned have to do with each other. -/
structure Punctual (s : Session) (periods : alarm_periods) (trace : signal_trace) (p : process_t) (counted : Nat) :
    Prop where
  alarm_count : p.alarm_count = .ofNat counted
  alarms : counted + p.total handler_t.uncounted = alarms trace
  terminations : p.total handler_t.terminates = terminations trace
  staged : (staged_updates trace).length + p.total handler_t.unstaged =
    updates_due (ALARMS_PER_UPDATE s.target periods) counted + p.total handler_t.terminates
  numbered : p.tables.sequence_number + p.total handler_t.unnumbered =
    updates_due (ALARMS_PER_UPDATE s.target periods) counted + p.total handler_t.terminates

section run

variable {trace : signal_trace} {p p' : process_t} {counted : Nat} {handler : handler_t} {interrupted : List handler_t}
  {position : position_t} {output : signal_output}

theorem position_t.uncounted_le (position : position_t) : position.uncounted ≤ 1 := by
  unfold position_t.uncounted
  split <;> decide

/-- Counting an alarm makes its update due when the count says so. -/
theorem updates_due_becomes (position : position_t) {alarm_count : UInt32}
    (hcount : alarm_count = .ofNat (counted + position.uncounted)) :
    updates_due (ALARMS_PER_UPDATE s.target periods) (counted + position.uncounted) =
      updates_due (ALARMS_PER_UPDATE s.target periods) counted + position.becomes_due s periods alarm_count := by
  obtain hnone | hone := Nat.le_one_iff_eq_zero_or_eq_one.mp position.uncounted_le
  · have hdue : position.becomes_due s periods alarm_count = 0 :=
      if_neg fun h => absurd (h.1.symm.trans hnone) Nat.one_ne_zero
    rw [hdue, hnone]
    rfl
  · rw [hone] at hcount ⊢
    rw [updates_due_succ, hcount]
    simp only [position_t.becomes_due, update_due, hone, true_and, UInt32.toNat_ofNat']

/-- A handler that moves on keeps the counts. -/
theorem Punctual.moves (h : Punctual s periods trace p counted) (hhandlers : p.handlers = handler :: interrupted)
    (hmoved : Moved s periods p handler interrupted position p' output) :
    Punctual s periods (trace ++ [(.step, output)]) p' (counted + handler.position.uncounted) := by
  have hcount : p'.alarm_count = .ofNat (counted + handler.position.uncounted) := by
    rw [hmoved.alarm_count, h.alarm_count, UInt32.ofNat_add]
  have hdue := @updates_due_becomes s periods counted handler.position _ hcount
  have hterminates : handler_t.terminates { handler with position := position } = handler.terminates := rfl
  have huncounted : handler_t.uncounted { handler with position := position } = 0 := hmoved.counted
  have hunstaged : handler_t.unstaged { handler with position := position } = position.unstaged := rfl
  have hunnumbered : handler_t.unnumbered { handler with position := position } = position.unnumbered := rfl
  have hhandler : handler.uncounted = handler.position.uncounted ∧ handler.unstaged = handler.position.unstaged ∧
      handler.unnumbered = handler.position.unnumbered := ⟨rfl, rfl, rfl⟩
  have hno_signal : signal_event.step.alarms = 0 ∧ signal_event.step.terminations = 0 := ⟨rfl, rfl⟩
  have halarms := h.alarms
  have hterminations := h.terminations
  have hstaged := h.staged
  have hnumbered := h.numbered
  have hmoved_staged := hmoved.staged
  have hmoved_numbered := hmoved.numbered
  rw [process_t.total_cons hhandlers] at halarms hterminations hstaged hnumbered
  refine ⟨hcount, ?_, ?_, ?_, ?_⟩
  · rw [alarms_snoc, process_t.total_cons hmoved.handlers]
    omega
  · rw [terminations_snoc, process_t.total_cons hmoved.handlers]
    omega
  · rw [staged_updates_snoc, List.length_append, process_t.total_cons hmoved.handlers,
      process_t.total_cons hmoved.handlers, hdue]
    rw [process_t.total_cons hhandlers] at hstaged
    omega
  · rw [process_t.total_cons hmoved.handlers, process_t.total_cons hmoved.handlers, hdue]
    rw [process_t.total_cons hhandlers] at hnumbered
    push_cast at hnumbered ⊢
    omega

/-- So does one that returns. -/
theorem Punctual.returns (h : Punctual s periods trace p counted) (hhandlers : p.handlers = handler :: interrupted)
    (hposition : handler.position = .handler_end) (halarm : handler.signal = .SIGALRM) :
    Punctual s periods (trace ++ [(.step, .silent)]) { p with handlers := interrupted } counted := by
  have hdone (amount : handler_t → Nat) (hnothing : amount handler = 0) :
      ({ p with handlers := interrupted } : process_t).total amount = p.total amount := by
    rw [process_t.total_cons hhandlers, hnothing, Nat.zero_add]
    rfl
  have huncounted : handler.uncounted = 0 := congrArg position_t.uncounted hposition
  have hunstaged : handler.unstaged = 0 := congrArg position_t.unstaged hposition
  have hunnumbered : handler.unnumbered = 0 := congrArg position_t.unnumbered hposition
  have hterminates : handler.terminates = 0 := if_pos halarm
  refine ⟨h.alarm_count, ?_, ?_, ?_, ?_⟩
  · rw [alarms_snoc, hdone _ huncounted]
    exact h.alarms
  · rw [terminations_snoc, hdone _ hterminates]
    exact h.terminations
  · rw [staged_updates_silent, hdone _ hunstaged, hdone _ hterminates]
    exact h.staged
  · rw [hdone _ hunnumbered, hdone _ hterminates]
    exact h.numbered

/-- What a handler that starts has to do. -/
theorem handle_signals_total (signal : signal_t) (io : handler_io) :
    (handle_signals p signal io).total handler_t.uncounted =
        p.total handler_t.uncounted + (signal_event.deliver signal io).alarms ∧
      (handle_signals p signal io).total handler_t.terminates =
        p.total handler_t.terminates + (signal_event.deliver signal io).terminations ∧
      (handle_signals p signal io).total handler_t.unstaged =
        p.total handler_t.unstaged + (signal_event.deliver signal io).terminations ∧
      (handle_signals p signal io).total handler_t.unnumbered =
        p.total handler_t.unnumbered + (signal_event.deliver signal io).terminations := by
  have hcons (amount : handler_t → Nat) := @process_t.total_cons (handle_signals p signal io) _ _ rfl amount
  rw [hcons, hcons, hcons, hcons]
  cases signal <;> exact ⟨Nat.add_comm _ _, Nat.add_comm _ _, Nat.add_comm _ _, Nat.add_comm _ _⟩

/-- A signal that arrives is owed its alarm or its termination. -/
theorem Punctual.arrives (h : Punctual s periods trace p counted) (signal : signal_t) (io : handler_io) :
    Punctual s periods (trace ++ [(.deliver signal io, .silent)]) (handle_signals p signal io) counted := by
  obtain ⟨huncounted, hterminates, hunstaged, hunnumbered⟩ := @handle_signals_total p signal io
  have halarms := h.alarms
  have hterminations := h.terminations
  have hstaged := h.staged
  have hnumbered := h.numbered
  refine ⟨h.alarm_count, ?_, ?_, ?_, ?_⟩
  · rw [alarms_snoc, huncounted]
    omega
  · rw [terminations_snoc, hterminates]
    omega
  · rw [staged_updates_silent, hunstaged, hterminates]
    omega
  · rw [hunnumbered, hterminates]
    push_cast
    have hsame : (handle_signals p signal io).tables.sequence_number = p.tables.sequence_number := rfl
    omega

/-- A packet has nothing to do with them. -/
theorem Punctual.records (h : Punctual s periods trace p counted) {frame : frame_t} {tables : state_t}
    {output : main_output} (hstep : main_step s p.tables (.process_packet frame) = some (tables, output))
    {packets : List packet_series.packet_data_t} {flows : List (flow_table.Slot × flow_table.flow_table_entry_t)} :
    Punctual s periods (trace ++ [(.process_packet frame, .recorded packets flows)]) { p with tables := tables }
      counted := by
  refine ⟨h.alarm_count, ?_, ?_, ?_, ?_⟩
  · rw [alarms_snoc]
    exact h.alarms
  · rw [terminations_snoc]
    exact h.terminations
  · have hnone : (signal_output.recorded packets flows).update = none := rfl
    rw [staged_updates_snoc, hnone, Option.toList_none, List.append_nil]
    exact h.staged
  · obtain ⟨capture, hevent, -, hpacket, -⟩ | ⟨_, _, _, hevent, -⟩ := main_step_cases hstep
    · have hnumber : tables.sequence_number = p.tables.sequence_number := hpacket.sequence_number
      rw [hnumber]
      exact h.numbered
    · cases hevent

/-- Each signal has at most one handler, and an alarm does not end the process. -/
theorem total_terminates_le (hsignals : (p.handlers.map handler_t.signal).Nodup) :
    p.total handler_t.terminates ≤ 2 := by
  have hcount : p.total handler_t.terminates = ((p.handlers.map handler_t.signal).filter (· ≠ .SIGALRM)).length := by
    rw [process_t.total]
    generalize p.handlers = handlers
    induction handlers with
    | nil => rfl
    | cons handler handlers ih =>
      rw [List.map_cons, List.sum_cons, ih, List.map_cons, List.filter_cons, handler_t.terminates]
      by_cases halarm : handler.signal = .SIGALRM
      · simp [halarm]
      · simp [halarm, Nat.add_comm]
  have hsubset : (p.handlers.map handler_t.signal).filter (· ≠ .SIGALRM) ⊆ [.SIGINT, .SIGTERM] := by
    intro signal hsignal
    have hother := (List.mem_filter.mp hsignal).2
    cases signal with
    | SIGALRM => cases hother
    | SIGINT => exact List.mem_cons_self
    | SIGTERM => exact List.mem_cons_of_mem _ List.mem_cons_self
  rw [hcount]
  exact (List.subperm_of_subset (hsignals.filter _) hsubset).length_le

/-- The process, or if it has ended what it was before its last statement, has
done what it should. -/
def Kept (s : Session) (periods : alarm_periods) (trace : signal_trace) (p : process_t) : Prop :=
  ∃ (counted : Nat) (q : process_t), (p.status = .running → p = q) ∧ (q.handlers.map handler_t.signal).Nodup ∧
    Punctual s periods trace q counted

/-- Each step keeps the counts, or ends the process with them as they were. -/
theorem Kept.step (h : Kept s periods trace p) {event : signal_event}
    (hstep : signal_step s bismark_mac periods p event = some (p', output)) :
    Kept s periods (trace ++ [(event, output)]) p' := by
  obtain ⟨counted, q, hsame, hsignals, hpunctual⟩ := h
  cases event with
  | process_packet frame =>
    obtain ⟨hidle, hstep⟩ := Option.ite_none_right_eq_some.mp hstep
    obtain rfl := hsame hidle.1
    obtain ⟨⟨tables, _⟩, hprocess, heq⟩ := Option.map_eq_some_iff.mp hstep
    obtain ⟨rfl, rfl⟩ := Prod.mk.inj heq
    exact ⟨counted, _, fun _ => rfl, hsignals, hpunctual.records hprocess⟩
  | deliver signal io =>
    obtain ⟨hfree, hstep⟩ := Option.ite_none_right_eq_some.mp hstep
    obtain rfl := hsame hfree.1
    obtain ⟨rfl, rfl⟩ := Prod.mk.inj (Option.some.inj hstep)
    exact ⟨counted, _, fun _ => rfl, List.nodup_cons.mpr ⟨hfree.2, hsignals⟩, hpunctual.arrives signal io⟩
  | step =>
    rw [signal_step] at hstep
    split at hstep
    · cases hstep
    rename_i handler interrupted hhandlers
    obtain ⟨hrunning, hstep⟩ := Option.ite_none_right_eq_some.mp hstep
    obtain rfl := hsame hrunning
    have hstepped := @handler_step_stepped s bismark_mac periods p handler interrupted
    rw [Option.some.inj hstep] at hstepped
    rw [hhandlers, List.map_cons] at hsignals
    cases hstepped with
    | stops hstopped =>
      have hsilent : Punctual s periods (trace ++ [(.step, .silent)]) p counted := by
        refine ⟨hpunctual.alarm_count, ?_, ?_, ?_, hpunctual.numbered⟩
        · rw [alarms_snoc]
          exact hpunctual.alarms
        · rw [terminations_snoc]
          exact hpunctual.terminations
        · rw [staged_updates_silent]
          exact hpunctual.staged
      rw [← List.map_cons, ← hhandlers] at hsignals
      exact ⟨counted, p, fun hrunning' => absurd hrunning' hstopped, hsignals, hsilent⟩
    | returns hposition halarm =>
      exact ⟨counted, _, fun _ => rfl, (List.nodup_cons.mp hsignals).2, hpunctual.returns hhandlers hposition halarm⟩
    | moves hmoved =>
      refine ⟨_, p', fun _ => rfl, ?_, hpunctual.moves hhandlers hmoved⟩
      rw [hmoved.handlers]
      exact hsignals

/-- In every run the counts are kept. -/
theorem signal_run_kept {domain_whitelist : domain_whitelist_t} {bloom_whitelist : bloom_whitelist_t}
    (run : signal_run s bismark_mac periods domain_whitelist bloom_whitelist trace p) : Kept s periods trace p := by
  refine run.invariant (Kept s periods) ?_ fun trace p event p' output _ h hstep => h.step hstep
  refine ⟨0, _, fun _ => rfl, List.nodup_nil, rfl, rfl, rfl, ?_, ?_⟩
  · rw [updates_due_zero]
    rfl
  · rw [updates_due_zero]
    rfl

/-- However the signals interrupt each other, there is at most one update for
every `ALARMS_PER_UPDATE` alarms and one for each signal that ends the process.
While no handler runs, there has been one for every `ALARMS_PER_UPDATE` alarms,
where the program counts alarms modulo 2^32, and the sequence number is that of
the next one. -/
theorem updates_keep_time {domain_whitelist : domain_whitelist_t} {bloom_whitelist : bloom_whitelist_t}
    (run : signal_run s bismark_mac periods domain_whitelist bloom_whitelist trace p) :
    (staged_updates trace).length ≤
        updates_due (ALARMS_PER_UPDATE s.target periods) (alarms trace) + terminations trace ∧
      terminations trace ≤ 2 ∧
      (p.status = .running → p.handlers = [] →
        terminations trace = 0 ∧ p.alarm_count = .ofNat (alarms trace) ∧
        (staged_updates trace).length = updates_due (ALARMS_PER_UPDATE s.target periods) (alarms trace) ∧
        p.tables.sequence_number = updates_due (ALARMS_PER_UPDATE s.target periods) (alarms trace)) := by
  obtain ⟨counted, q, hsame, hsignals, h⟩ := signal_run_kept run
  have halarms := h.alarms
  have hterminations := h.terminations
  have hstaged := h.staged
  have hdue := @updates_due_mono (ALARMS_PER_UPDATE s.target periods) counted (alarms trace) (by omega)
  refine ⟨by omega, hterminations ▸ total_terminates_le hsignals, fun hrunning hidle => ?_⟩
  obtain rfl := hsame hrunning
  have hnothing (amount : handler_t → Nat) : p.total amount = 0 := by
    rw [process_t.total, hidle]
    rfl
  have hnumbered := h.numbered
  rw [hnothing] at halarms hterminations hstaged hnumbered
  rw [hnothing] at hstaged hnumbered
  obtain rfl : counted = alarms trace := halarms
  exact ⟨hterminations.symm, h.alarm_count, hstaged, by omega⟩

end run

/-- An alarm whose update has been staged returns. -/
theorem process_t.Ready.returns {p : process_t} {io : handler_io} {tables : state_t}
    {directory : Directory cstring (List Line)} (h : p.Ready) (hno_frequent : s.target.enable_frequent_updates = false)
    (hno_failures : io.upload_failures = 0) :
    Stages s bismark_mac periods
      (p.at_position ⟨.SIGALRM, io, .count_alarm⟩ [] tables directory .write_frequent_update) []
      { p with tables := tables, directory := directory, handlers := [] } := by
  have hfrequent : Stages s bismark_mac periods
      (p.at_position ⟨.SIGALRM, io, .count_alarm⟩ [] tables directory .write_frequent_update) []
      (p.at_position ⟨.SIGALRM, io, .count_alarm⟩ [] tables directory .upload_failures_check) := by
    apply h.moves
    case hcomposes =>
      intro henabled
      rw [hno_frequent] at henabled
      cases henabled
    case hstep =>
      rw [handler_step, if_neg (h.not_uses_freed _ _)]
      simp only [hno_frequent, Bool.false_eq_true, if_false, if_true, process_t.at_position]
  have hfailures : Stages s bismark_mac periods
      (p.at_position ⟨.SIGALRM, io, .count_alarm⟩ [] tables directory .upload_failures_check) []
      (p.at_position ⟨.SIGALRM, io, .count_alarm⟩ [] tables directory .handler_end) := by
    apply h.moves
    case hcomposes => trivial
    case hstep =>
      rw [handler_step, if_neg (h.not_uses_freed _ _)]
      simp only [hno_failures, lt_irrefl, and_false, if_false, process_t.at_position]
  have hend : Stages s bismark_mac periods
      (p.at_position ⟨.SIGALRM, io, .count_alarm⟩ [] tables directory .handler_end) []
      { p with tables := tables, directory := directory, handlers := [] } := by
    have hrunning : (p.at_position ⟨.SIGALRM, io, .count_alarm⟩ [] tables directory .handler_end).status = .running :=
      h.running
    refine stages_silent_step rfl hrunning trivial ?_
    rw [handler_step, if_neg (h.not_uses_freed _ _)]
    rfl
  exact hfrequent.silent (hfailures.silent hend)

/-- What the handlers do themselves delivers no signal. -/
theorem no_signals (hsteps : ∀ step ∈ trace, step.1 = .step) : alarms trace = 0 ∧ terminations trace = 0 := by
  have hnone (delivered : signal_event → Nat) (hstep : delivered .step = 0) :
      (trace.map fun step => delivered step.1).sum = 0 := by
    apply List.sum_eq_zero
    intro count hcount
    obtain ⟨step, hmem, rfl⟩ := List.mem_map.mp hcount
    rw [hsteps step hmem, hstep]
  exact ⟨hnone signal_event.alarms rfl, hnone signal_event.terminations rfl⟩

/-- An alarm arrives at a process that has only been started, in a build that
writes an update at every alarm, and its handler returns. -/
theorem one_alarm_run : ∃ trace p,
    signal_run initialized_session (Vector.replicate ETH_ALEN 0) default_periods domain_whitelist_init
      empty_bloom trace p ∧ p.status = .running ∧ p.handlers = [] ∧ alarms trace = 1 := by
  have hio := healthy_handler_io_succeeds 100
  let start := process_init initialized_session.target domain_whitelist_init empty_bloom
  have harrives : signal_step initialized_session (Vector.replicate ETH_ALEN 0) default_periods start
      (.deliver .SIGALRM (healthy_handler_io 100)) =
      some (handle_signals start .SIGALRM (healthy_handler_io 100), .silent) :=
    signal_step_deliver .SIGALRM _ rfl List.not_mem_nil
  have hready : (handle_signals start .SIGALRM (healthy_handler_io 100)).Ready := ⟨rfl, rfl, rfl⟩
  obtain ⟨p', hcount, hready'⟩ := @process_t.Ready.count_alarm initialized_session (Vector.replicate ETH_ALEN 0)
    default_periods _ hready _ rfl (Nat.mod_one _)
  obtain ⟨tables, _, hwrite⟩ := @write_update_completes initialized_session rfl start.tables _ empty_bloom_lookup
    hio.healthy hio.opened hio.renamed
  obtain ⟨lines, directory, -, hupdate⟩ := @process_t.Ready.write_update initialized_session
    (Vector.replicate ETH_ALEN 0) default_periods p' ⟨.SIGALRM, healthy_handler_io 100, .count_alarm⟩ [] start.tables
    tables start.directory hready' hio _ hwrite
  have hreturns := @process_t.Ready.returns initialized_session (Vector.replicate ETH_ALEN 0) default_periods p'
    (healthy_handler_io 100) tables directory hready' rfl rfl
  obtain ⟨trace, hsteps, -, hevents, -⟩ := (hcount.trans hupdate).trans hreturns
  refine ⟨_, _, (Execution.nil.snoc harrives).trans hsteps, hready'.running, rfl, ?_⟩
  rw [alarms_append, (no_signals hevents).1]
  rfl

/-- A `SIGTERM` interrupts the handler of an alarm that has staged its update,
and stages another one. -/
theorem interrupted_alarm_run : ∃ trace p,
    signal_run initialized_session (Vector.replicate ETH_ALEN 0) default_periods domain_whitelist_init
      empty_bloom trace p ∧ alarms trace = 1 ∧ terminations trace = 1 ∧ (staged_updates trace).length = 2 := by
  obtain ⟨_, p, lines, run, hready, hsignals, ⟨output, trace, rfl, hhandled⟩, hstaged, hbloom⟩ :=
    @tcp_staged_run (Vector.replicate ETH_ALEN 0)
  have hterm : signal_t.SIGTERM ∉ p.handlers.map handler_t.signal := by simp [hsignals]
  have run' := run.snoc (signal_step_deliver .SIGTERM (healthy_handler_io 100) hready.running hterm)
  obtain ⟨lines', p', ⟨trace', hsteps, -, hevents, hstaged'⟩, -⟩ := @process_t.Ready.terminates
    initialized_session (Vector.replicate ETH_ALEN 0) default_periods p hready rfl hbloom _
    (healthy_handler_io_succeeds 100)
  obtain ⟨hno_alarm, hno_termination⟩ := no_signals hhandled
  obtain ⟨hno_alarm', hno_termination'⟩ := no_signals hevents
  refine ⟨_, p', run'.trans hsteps, ?_, ?_, ?_⟩
  · rw [alarms_append, alarms_append, alarms_append, hno_alarm, hno_alarm']
    rfl
  · rw [terminations_append, terminations_append, terminations_append, hno_termination, hno_termination']
    rfl
  · rw [staged_updates_append, staged_updates_append, hstaged, hstaged']
    rfl

/-- The handler of an alarm runs undisturbed, or a `SIGTERM` interrupts it. -/
theorem updates_keep_time_interrupted :
    (∃ trace p, signal_run initialized_session (Vector.replicate ETH_ALEN 0) default_periods domain_whitelist_init
        empty_bloom trace p ∧ p.handlers = [] ∧ alarms trace = 1 ∧ (staged_updates trace).length = 1 ∧
      p.tables.sequence_number = 1) ∧
    ∃ trace p, signal_run initialized_session (Vector.replicate ETH_ALEN 0) default_periods domain_whitelist_init
        empty_bloom trace p ∧ alarms trace = 1 ∧ terminations trace = 1 ∧ (staged_updates trace).length = 2 ∧
      (staged_updates trace).length ≤
        updates_due (ALARMS_PER_UPDATE initialized_session.target default_periods) (alarms trace) +
          terminations trace := by
  constructor
  · obtain ⟨trace, p, run, hrunning, hidle, halarms⟩ := one_alarm_run
    obtain ⟨-, -, hexact⟩ := updates_keep_time run
    obtain ⟨-, -, hstaged, hnumber⟩ := hexact hrunning hidle
    rw [halarms] at hstaged hnumber
    exact ⟨trace, p, run, hidle, halarms, hstaged, hnumber⟩
  · obtain ⟨trace, p, run, halarms, hterminations, hstaged⟩ := interrupted_alarm_run
    exact ⟨trace, p, run, halarms, hterminations, hstaged, (updates_keep_time run).1⟩

end bismark_passive.main
