import BismarkPassive.Main.Handlers

namespace bismark_passive.main

open machine files flow_table address_table packet_series dns http drop_statistics

/-! What holds between any two steps -/

/-- The strings of a table are freed only as long as a handler is about to drop
them, and if there are any, no update has interrupted it. -/
def FreedSafely (freed : Bool) (named : Prop) (init : reset_t) (handlers current : List handler_t) : Prop :=
  freed = true → (∃ handler ∈ handlers, handler.position = .reset init) ∧
    (¬ named ∨ ∃ handler ∈ current.head?, handler.position = .reset init)

/-- How many updates have been staged under the sequence number already. -/
def position_t.staged : position_t → Int
  | .increment_sequence_number => 1
  | _ => 0

/-- The smallest sequence number that no update has had. -/
def next_number (sequence_number : Int) (current : List handler_t) : Int :=
  sequence_number + ((current.head?.map fun handler => handler.position.staged).getD 0)

/-- No handler makes the next number smaller than the sequence number. -/
theorem le_next_number (sequence_number : Int) (current : List handler_t) :
    sequence_number ≤ next_number sequence_number current := by
  have hstaged (position : position_t) : 0 ≤ position.staged := by
    unfold position_t.staged
    split <;> decide
  unfold next_number
  cases current with
  | nil => exact (Int.add_zero _).ge
  | cons handler interrupted => exact Int.le_add_of_nonneg_right (hstaged handler.position)

section safe

variable (s : Session) (periods : alarm_periods)

structure handler_t.Safe (p : process_t) (waiting : share_t) (handler : handler_t) : Prop where
  succeeds : handler.io.Succeeds
  alarm : handler.position = .count_alarm → handler.signal = .SIGALRM
  due : handler.signal = .SIGALRM → handler.position ≠ .count_alarm → update_due s periods p.alarm_count
  position : handler.position.Safe s p.tables p.directory waiting

/-- An alarm comes back to the handler it has interrupted; the other signals
end the process. -/
def CurrentSafe (p : process_t) (waiting : share_t) : List handler_t → Prop
  | [] => Holds p.tables.packet_data.packet_data.items p.tables.flow_table waiting
  | handler :: interrupted => handler.Safe s periods p waiting ∧
      (handler.signal = .SIGALRM → ∀ outer ∈ interrupted.head?, outer.io.Succeeds ∧ outer.position ≠ .count_alarm ∧
        outer.position.Quiet)

structure process_t.Safe (p : process_t) (staged : List (cstring × Option (List Line))) (waiting : share_t) :
    Prop where
  signals : (p.handlers.map handler_t.signal).Nodup
  current : CurrentSafe s periods p waiting (p.current s periods)
  names : ∀ update ∈ staged, ∃ number < next_number p.tables.sequence_number (p.current s periods),
    update.1 = update_filename s number
  dns_freed : FreedSafely p.dns_freed (dns_table_t.Named p.tables.dns_table) .dns_table_init p.handlers
    (p.current s periods)
  http_freed : FreedSafely p.http_freed (p.tables.http_table.entries.items ≠ []) .http_table_init p.handlers
    (p.current s periods)

/-- Everything recorded is in exactly one update file or still waits for one,
and nothing waits any more when the process exits. -/
def Accounted (trace : signal_trace) (p : process_t) : Prop :=
  ∃ waiting, SharedOut s trace waiting ∧ NothingOverwritten trace p.directory ∧ p.status ≠ .undefined ∧
    (p.status = .running → p.Safe s periods (staged_updates trace) waiting) ∧
    (p.status = .exited → waiting = ⟨[], []⟩)

end safe

section current

variable {s : Session} {periods : alarm_periods} {p : process_t} {handler : handler_t} {interrupted : List handler_t}

theorem current_nil (hhandlers : p.handlers = []) : p.current s periods = [] := by
  rw [process_t.current, hhandlers]

theorem current_of_active (hhandlers : p.handlers = handler :: interrupted) (hactive : ¬ handler.Idle s periods p) :
    p.current s periods = handler :: interrupted := by
  rw [process_t.current, hhandlers]
  exact if_neg hactive

theorem current_of_idle (hhandlers : p.handlers = handler :: interrupted) (hidle : handler.Idle s periods p) :
    p.current s periods = interrupted := by
  rw [process_t.current, hhandlers]
  exact if_pos hidle

theorem not_idle_of_signal (hsignal : handler.signal ≠ .SIGALRM) : ¬ handler.Idle s periods p :=
  fun h => hsignal h.1

/-- An alarm that writes an update is never taken for one that does not. -/
theorem not_idle_of_due (hposition : handler.position ≠ .count_alarm)
    (hdue : handler.signal = .SIGALRM → update_due s periods p.alarm_count) : ¬ handler.Idle s periods p := by
  rintro ⟨hsignal, h⟩
  cases hcase : handler.position <;> simp only [hcase] at h hposition
  case count_alarm => exact absurd rfl hposition
  case write_frequent_update | upload_failures_check | handler_end => exact h (hdue hsignal)

/-- Below an alarm there are only handlers that end the process. -/
theorem current_below_alarm (hnodup : ((handler :: interrupted).map handler_t.signal).Nodup)
    (hsignal : handler.signal = .SIGALRM) (hhandlers : p.handlers = interrupted) :
    p.current s periods = interrupted := by
  cases interrupted with
  | nil => exact current_nil hhandlers
  | cons outer rest =>
    apply current_of_active hhandlers
    apply not_idle_of_signal
    rintro houter
    rw [List.map_cons, List.nodup_cons] at hnodup
    apply hnodup.1
    rw [hsignal, ← houter]
    exact List.mem_cons_self

end current

section freed

variable {freed : Bool} {named : Prop} {init : reset_t} {handler handler' : handler_t}
  {interrupted current : List handler_t}

/-- A handler that is elsewhere finds no freed strings, unless an interrupted
one has freed them. -/
theorem FreedSafely.elsewhere (h : FreedSafely freed named init (handler :: interrupted) (handler :: interrupted))
    (hposition : handler.position ≠ .reset init) (hfreed : freed = true) :
    (∃ other ∈ interrupted, other.position = .reset init) ∧ ¬ named := by
  obtain ⟨⟨other, hother, hinit⟩, hnamed⟩ := h hfreed
  constructor
  · obtain rfl | hother := List.mem_cons.mp hother
    · exact absurd hinit hposition
    · exact ⟨other, hother, hinit⟩
  · obtain hnone | ⟨innermost, hinnermost, hreset⟩ := hnamed
    · exact hnone
    · obtain rfl := Option.some.inj hinnermost
      exact absurd hreset hposition

theorem FreedSafely.moves (h : FreedSafely freed named init (handler :: interrupted) (handler :: interrupted))
    (hposition : handler.position ≠ .reset init) :
    FreedSafely freed named init (handler' :: interrupted) current := by
  intro hfreed
  obtain ⟨⟨other, hother, hinit⟩, hnone⟩ := h.elsewhere hposition hfreed
  exact ⟨⟨other, List.mem_cons_of_mem _ hother, hinit⟩, .inl hnone⟩

/-- A handler that returns. -/
theorem FreedSafely.returns (h : FreedSafely freed named init (handler :: interrupted) (handler :: interrupted))
    (hposition : handler.position ≠ .reset init) : FreedSafely freed named init interrupted current := by
  intro hfreed
  obtain ⟨hother, hnone⟩ := h.elsewhere hposition hfreed
  exact ⟨hother, .inl hnone⟩

end freed

/-! One step of an update -/

section active

variable {s : Session} {bismark_mac : mac_address_t} {periods : alarm_periods} {trace : signal_trace}
  {p p' : process_t} {handler : handler_t} {interrupted : List handler_t} {waiting : share_t}
  {staged : List (cstring × Option (List Line))}

/-- The handler has gone on to another position. -/
theorem process_t.Safe.moves (h : p.Safe s periods staged waiting) (hhandlers : p.handlers = handler :: interrupted)
    (hactive : ¬ handler.Idle s periods p) {position : position_t}
    (hhandlers' : p'.handlers = { handler with position := position } :: interrupted)
    (halarm : p'.alarm_count = p.alarm_count) (hcount : handler.position ≠ .count_alarm)
    (hcount' : position ≠ .count_alarm) (hposition : position.Safe s p'.tables p'.directory waiting)
    (hnumber : p'.tables.sequence_number + position.staged =
      p.tables.sequence_number + handler.position.staged)
    (hdns : FreedSafely p'.dns_freed (dns_table_t.Named p'.tables.dns_table) .dns_table_init p'.handlers p'.handlers)
    (hhttp : FreedSafely p'.http_freed (p'.tables.http_table.entries.items ≠ []) .http_table_init p'.handlers
      p'.handlers) :
    p'.Safe s periods staged waiting := by
  have hcurrent := h.current
  rw [current_of_active hhandlers hactive] at hcurrent
  obtain ⟨hsafe, hquiet⟩ := hcurrent
  have hdue (hsignal : handler.signal = .SIGALRM) : update_due s periods p'.alarm_count := by
    rw [halarm]
    exact hsafe.due hsignal hcount
  have hactive' : ¬ handler_t.Idle s periods p' { handler with position := position } := not_idle_of_due hcount' hdue
  have hcurrent' := current_of_active hhandlers' hactive'
  have hnames := h.names
  rw [current_of_active hhandlers hactive] at hnames
  constructor
  case signals =>
    have hsignals := h.signals
    rw [hhandlers] at hsignals
    rw [hhandlers']
    exact hsignals
  case current =>
    rw [hcurrent']
    exact ⟨⟨hsafe.succeeds, fun hposition => absurd hposition hcount', fun hsignal _ => hdue hsignal, hposition⟩,
      hquiet⟩
  case names =>
    rw [hcurrent']
    intro update hupdate
    obtain ⟨number, hlt, hname⟩ := hnames update hupdate
    exact ⟨number, hlt.trans_eq hnumber.symm, hname⟩
  case dns_freed =>
    rw [hcurrent', ← hhandlers']
    exact hdns
  case http_freed =>
    rw [hcurrent', ← hhandlers']
    exact hhttp

/-- A handler of a safe process uses no strings that are freed. -/
theorem not_uses_freed (h : p.Safe s periods staged waiting) (hhandlers : p.handlers = handler :: interrupted)
    (hactive : ¬ handler.Idle s periods p) : ¬ p.UsesFreed s.target handler.position := by
  have hdns := h.dns_freed
  have hhttp := h.http_freed
  rw [current_of_active hhandlers hactive, hhandlers] at hdns hhttp
  cases hposition : handler.position with
  | print part writer =>
    cases part with
    | dns =>
      rintro ⟨hfreed, hnamed⟩
      exact (hdns.elsewhere (by simp [hposition]) hfreed).2 hnamed
    | urls =>
      rintro ⟨_, hfreed, hnamed⟩
      exact (hhttp.elsewhere (by simp [hposition]) hfreed).2 hnamed
    | _ => exact id
  | reset table =>
    cases table with
    | dns_table_destroy =>
      rintro ⟨hfreed, hnamed⟩
      exact (hdns.elsewhere (by simp [hposition]) hfreed).2 hnamed
    | http_table_destroy =>
      rintro ⟨hfreed, hnamed⟩
      exact (hhttp.elsewhere (by simp [hposition]) hfreed).2 hnamed
    | _ => exact id
  | _ => exact id

theorem process_t.Safe.names_ne_pending (h : p.Safe s periods staged waiting) :
    ∀ update ∈ staged, update.1 ≠ PENDING_UPDATE_FILENAME := by
  intro update hupdate
  obtain ⟨number, _, hname⟩ := h.names update hupdate
  rw [hname]
  exact update_filename_ne_pending s number

end active

end bismark_passive.main
