import BismarkPassive.FlowTable.Times

namespace bismark_passive.flow_table

open probing machine

def FLOW_THRESHOLD : Nat := 10

/-- The arguments of the `fprintf` calls on the log of thresholded flows. -/
inductive log_line where
  | session (session_id : UInt64) (sequence_number : Int)
  | flow (id : Nat) (ip_source ip_destination : UInt32) (num_packets : BitVec 4)
  deriving DecidableEq

/-- The open log: what each `fprintf` returns, and the lines of the calls that
succeeded. -/
structure FILE where
  fprintf_returns : Nat → Int
  calls : Nat
  written : List log_line

def fprintf (handle : FILE) (line : log_line) : Int × FILE :=
  let returned := handle.fprintf_returns handle.calls
  (returned, { handle with
    calls := handle.calls + 1
    written := if 0 ≤ returned then handle.written ++ [line] else handle.written })

/-- `entries[idx].occupied == ENTRY_OCCUPIED_BUT_UNSENT && entries[idx].num_packets >= FLOW_THRESHOLD` -/
def flow_table_entry_t.Thresholded (entry : flow_table_entry_t) : Prop :=
  entry.occupied = .ENTRY_OCCUPIED_BUT_UNSENT ∧ FLOW_THRESHOLD ≤ entry.num_packets.toNat

instance (entry : flow_table_entry_t) : Decidable entry.Thresholded :=
  inferInstanceAs (Decidable (_ ∧ _))

def thresholded_line (idx : Slot) (entry : flow_table_entry_t) : log_line :=
  .flow (flow_id idx) entry.ip_source entry.ip_destination entry.num_packets

/-- The loop of `flow_table_write_thresholded_ips`. -/
def write_thresholded (table : flow_table_t) : List Slot → FILE → Int × FILE
  | [], handle => (0, handle)
  | idx :: rest, handle =>
    if (table.entries idx).Thresholded then
      let (returned, handle) := fprintf handle (thresholded_line idx (table.entries idx))
      if returned < 0 then (-1, handle) else write_thresholded table rest handle
    else write_thresholded table rest handle

/-- Returns the result and what the log holds. `fopen` is what the calls on the
opened file will return, `none` if it does not open. -/
def flow_table_write_thresholded_ips (table : flow_table_t) (session_id : UInt64) (sequence_number : Int)
    (fopen : Option (Nat → Int)) : Int × List log_line :=
  match fopen with
  | none => (-1, [])
  | some fprintf_returns =>
    let handle : FILE := { fprintf_returns := fprintf_returns, calls := 0, written := [] }
    let (returned, handle) := fprintf handle (.session session_id sequence_number)
    if returned < 2 then (-1, handle.written)
    else
      let end_of_loop := write_thresholded table all_slots handle
      (end_of_loop.1, end_of_loop.2.written)

/-- Every call on the file prints its line, and no line is that short. -/
def FILE.Healthy (handle : FILE) : Prop := ∀ call, 2 ≤ handle.fprintf_returns call

theorem fprintf_healthy {handle : FILE} (h : handle.Healthy) (line : log_line) :
    2 ≤ (fprintf handle line).1 ∧ (fprintf handle line).2.Healthy ∧
      (fprintf handle line).2.written = handle.written ++ [line] := by
  have hreturned := h handle.calls
  refine ⟨hreturned, h, ?_⟩
  simp only [fprintf]
  rw [if_pos (by omega)]

/-- A file that takes every line gets one for each entry over the threshold. -/
theorem write_thresholded_healthy (table : flow_table_t) (range : List Slot) {handle : FILE} (h : handle.Healthy) :
    (write_thresholded table range handle).1 = 0 ∧
      (write_thresholded table range handle).2.written = handle.written ++
        (range.filter fun idx => (table.entries idx).Thresholded).map fun idx =>
          thresholded_line idx (table.entries idx) := by
  induction range generalizing handle with
  | nil => simp [write_thresholded]
  | cons idx rest ih =>
    rw [write_thresholded]
    split
    · rename_i hthresholded
      obtain ⟨hreturned, hhealthy, hwritten⟩ := fprintf_healthy h (thresholded_line idx (table.entries idx))
      obtain ⟨hresult, hlines⟩ := ih hhealthy
      simp only
      rw [if_neg (by omega)]
      refine ⟨hresult, ?_⟩
      rw [hlines, hwritten, List.filter_cons_of_pos (by simpa using hthresholded), List.map_cons,
        List.append_assoc, List.singleton_append]
    · rename_i hother
      obtain ⟨hresult, hlines⟩ := ih h
      refine ⟨hresult, ?_⟩
      rw [hlines, List.filter_cons_of_neg (by simpa using hother)]

/-- A call whose `fprintf`s all succeed logs exactly the slots over the threshold. -/
theorem flow_table_write_thresholded_ips_healthy (table : flow_table_t) (session_id : UInt64)
    (sequence_number : Int) {fprintf_returns : Nat → Int} (h : ∀ call, 2 ≤ fprintf_returns call) :
    flow_table_write_thresholded_ips table session_id sequence_number (some fprintf_returns) =
      (0, .session session_id sequence_number ::
        (all_slots.filter fun idx => (table.entries idx).Thresholded).map fun idx =>
          thresholded_line idx (table.entries idx)) := by
  have hopened : ({ fprintf_returns := fprintf_returns, calls := 0, written := [] } : FILE).Healthy := h
  obtain ⟨hreturned, hhealthy, hwritten⟩ := fprintf_healthy hopened (.session session_id sequence_number)
  obtain ⟨hresult, hlines⟩ := write_thresholded_healthy table all_slots hhealthy
  simp only [flow_table_write_thresholded_ips]
  rw [if_neg (by omega), hresult, hlines, hwritten, List.nil_append, List.singleton_append]

/-- The log has the line of the slot that holds the flow. -/
def flow_table_t.Lists (table : flow_table_t) (key : flow_key) (log : List log_line) : Prop :=
  ∃ idx, (table.entries idx).Live ∧ (table.entries idx).key = key ∧
    thresholded_line idx (table.entries idx) ∈ log

/-- The log lists a flow exactly if an entry of it is over the threshold. -/
theorem lists_iff {table : flow_table_t} {key : flow_key} (session_id : UInt64) (sequence_number : Int)
    {fprintf_returns : Nat → Int} (h : ∀ call, 2 ≤ fprintf_returns call) :
    table.Lists key
        (flow_table_write_thresholded_ips table session_id sequence_number (some fprintf_returns)).2 ↔
      ∃ idx, (table.entries idx).key = key ∧ (table.entries idx).Thresholded := by
  simp only [flow_table_t.Lists, flow_table_write_thresholded_ips_healthy table session_id sequence_number h]
  constructor
  · rintro ⟨idx, -, hkey, hline⟩
    obtain hsession | hflow := List.mem_cons.mp hline
    · cases hsession
    · obtain ⟨slot, hslot, hline⟩ := List.mem_map.mp hflow
      simp only [thresholded_line, log_line.flow.injEq] at hline
      obtain rfl := flow_id_injective hline.1
      exact ⟨slot, hkey, by simpa using (List.mem_filter.mp hslot).2⟩
  · rintro ⟨idx, hkey, hthresholded⟩
    refine ⟨idx, .inr hthresholded.1, hkey, List.mem_cons_of_mem _ (List.mem_map.mpr ⟨idx, ?_, rfl⟩)⟩
    exact List.mem_filter.mpr ⟨mem_all_slots idx, by simpa using hthresholded⟩

/-! The packets of a flow -/

/-- A packet that the call counted towards the flow. -/
def accepted (key : flow_key) (event : flow_op × flow_output) : Bool := (packet_time key event).isSome

def accepted_packets (key : flow_key) (trace : List (flow_op × flow_output)) : Nat := trace.countP (accepted key)

/-- Neither an update nor another insertion of the flow. -/
def SameStay (key : flow_key) : flow_op × flow_output → Prop
  | (.process_flow new_entry _, .processed _ insertion) => new_entry.key = key → insertion = none
  | (.write_update _, _) => False
  | _ => True

/-- The slot holds the flow, unsent, and the counter has counted its packets
modulo its width. -/
structure flow_table_t.Counts (table : flow_table_t) (idx : Slot) (key : flow_key) (packets : Nat) : Prop where
  unsent : (table.entries idx).occupied = .ENTRY_OCCUPIED_BUT_UNSENT
  key_eq : (table.entries idx).key = key
  num_packets_eq : (table.entries idx).num_packets = BitVec.ofNat 4 packets

/-- No slot holds the flow. -/
def flow_table_t.Lacks (table : flow_table_t) (key : flow_key) : Prop :=
  ∀ idx, (table.entries idx).Live → (table.entries idx).key ≠ key

variable {s : Session} {target : Target} {hash_function : flow_key → UInt32} {table table' : flow_table_t}
  {idx : Slot} {key : flow_key} {packets : Nat}

theorem accepted_processed {new_entry : flow_table_entry_t} {timestamp_seconds : Int} {id : Nat}
    {insertion : Option Slot} :
    accepted key (.process_flow new_entry timestamp_seconds, .processed id insertion) =
      decide (new_entry.key = key ∧ id ≠ FLOW_ID_ERROR) := by
  simp only [accepted, packet_time]
  split
  · rename_i h
    simp [h]
  · rename_i h
    simp [h]

/-- A packet that gets the id of a slot is counted. -/
theorem accepted_packets_cons (new_entry : flow_table_entry_t) (timestamp_seconds : Int) (idx : Slot)
    (insertion : Option Slot) (trace : List (flow_op × flow_output)) :
    accepted_packets new_entry.key
        ((.process_flow new_entry timestamp_seconds, .processed (flow_id idx) insertion) :: trace) =
      1 + accepted_packets new_entry.key trace := by
  have haccepted : accepted new_entry.key
      (.process_flow new_entry timestamp_seconds, .processed (flow_id idx) insertion) = true := by
    rw [accepted_processed]
    simpa using flow_id_ne_error idx
  rw [accepted_packets, List.countP_cons_of_pos haccepted, Nat.add_comm, accepted_packets]

/-- The guard never stops the counter: its width does. -/
theorem touch_entry_num_packets (henabled : target.disable_flow_thresholding = false) (timestamp_seconds : Int)
    (hunsent : (table.entries idx).occupied = .ENTRY_OCCUPIED_BUT_UNSENT) :
    ((touch_entry target timestamp_seconds table idx).entries idx).num_packets =
      (table.entries idx).num_packets + 1 := by
  have hguard : (table.entries idx).num_packets.toNat < 63 := by
    have hwidth := (table.entries idx).num_packets.isLt
    omega
  simp only [touch_entry, flow_table_t.store_entries, if_pos]
  simp [henabled, hunsent, hguard]

theorem expire_entries_of_unsent (timestamp_seconds : Int) (visited : List Slot)
    (hunsent : (table.entries idx).occupied = .ENTRY_OCCUPIED_BUT_UNSENT) :
    (expire_entries timestamp_seconds table visited).entries idx = table.entries idx := by
  have hfresh : ¬ (table.entries idx).Expired table.base_timestamp_seconds timestamp_seconds := by
    simp [flow_table_entry_t.Expired, hunsent]
  rw [expire_entries_entries, flow_table_entry_t.lapse_of_not_expired hfresh, ite_self]

theorem flow_table_t.Counts.congr (h : table.Counts idx key packets)
    (hentry : table'.entries idx = table.entries idx) : table'.Counts idx key packets := by
  constructor <;> rw [hentry]
  · exact h.unsent
  · exact h.key_eq
  · exact h.num_packets_eq

/-- A call counts a packet of the flow if it accepts it, and nothing else. -/
theorem Processed.counts {new_entry : flow_table_entry_t} {timestamp_seconds : Int} {id : Nat}
    {insertion : Option Slot} (henabled : target.disable_flow_thresholding = false)
    (hsound : table.Sound target hash_function)
    (h : Processed target hash_function table new_entry timestamp_seconds id insertion table')
    (hcounts : table.Counts idx key packets) (hstay : new_entry.key = key → insertion = none) :
    table'.Counts idx key
      (packets + if new_entry.key = key ∧ id ≠ FLOW_ID_ERROR then 1 else 0) := by
  have hlive : (table.entries idx).Live := .inr hcounts.unsent
  cases h with
  | refused =>
    rw [if_neg (fun h => h.2 rfl), Nat.add_zero]
    exact hcounts.congr rfl
  | full =>
    rw [if_neg (fun h => h.2 rfl), Nat.add_zero]
    exact hcounts.congr rfl
  | matched visited slot hadmitted hsearch =>
    obtain ⟨hslot, hkey, -, -⟩ := search_found hsearch
    have hkept := expire_entries_of_unsent timestamp_seconds visited hcounts.unsent
    by_cases hsame : new_entry.key = key
    · have hidx : slot = idx := hsound.unique hslot hlive (hkey.trans (hsame.trans hcounts.key_eq.symm))
      subst hidx
      rw [if_pos ⟨hsame, flow_id_ne_error slot⟩]
      constructor
      · rw [touch_entry_occupied, hkept, hcounts.unsent]
      · rw [(touch_entry_record ..).key, hkept, hcounts.key_eq]
      · rw [touch_entry_num_packets henabled _ (hkept ▸ hcounts.unsent), hkept, hcounts.num_packets_eq]
        exact (BitVec.ofNat_add ..).symm
    · have hidx : idx ≠ slot := by
        rintro rfl
        exact hsame (hkey.symm.trans hcounts.key_eq)
      rw [if_neg (fun h => hsame h.1), Nat.add_zero]
      exact hcounts.congr ((touch_entry_other _ _ _ _ hidx).trans hkept)
  | inserted visited slot hadmitted hsearch =>
    have hsame : new_entry.key ≠ key := by
      intro hkey
      cases hstay hkey
    have hkept := expire_entries_of_unsent timestamp_seconds visited hcounts.unsent
    have hidx : idx ≠ slot := by
      rintro rfl
      exact search_available hsearch (hkept ▸ hlive)
    rw [if_neg (fun h => hsame h.1), Nat.add_zero]
    exact hcounts.congr ((insert_entry_other _ _ _ _ _ hidx).trans hkept)

/-- A flow that is not in the table only comes back by an insertion. -/
theorem Processed.lacks {new_entry : flow_table_entry_t} {timestamp_seconds : Int} {id : Nat}
    {insertion : Option Slot}
    (h : Processed target hash_function table new_entry timestamp_seconds id insertion table')
    (hlacks : table.Lacks key) (hstay : new_entry.key = key → insertion = none) : table'.Lacks key := by
  intro other hlive hkey
  by_cases hinsertion : insertion = some other
  · have hrecord := (h.arrives hinsertion).2.2
    have hnone := hstay (hrecord.key.symm.trans hkey)
    rw [hnone] at hinsertion
    cases hinsertion
  · obtain ⟨hlive', -, hrecord⟩ := h.survivor hinsertion hlive
    exact hlacks other hlive' (hrecord.key.symm.trans hkey)

/-- Moving the base keeps the counter or deletes the flow. -/
theorem advance_counts (hsound : table.Sound target hash_function) (hcounts : table.Counts idx key packets)
    (new_timestamp : Int) :
    (flow_table_advance_base_timestamp table new_timestamp).Counts idx key packets ∨
      (flow_table_advance_base_timestamp table new_timestamp).Lacks key := by
  have hlive : (table.entries idx).Live := .inr hcounts.unsent
  by_cases hold : (table.entries idx).last_update_time_seconds.toInt -
      (new_timestamp - table.base_timestamp_seconds) < FLOW_TABLE_MIN_UPDATE_OFFSET
  · right
    intro other hother hkey
    rw [flow_table_advance_base_timestamp_entries] at hother hkey
    rw [(flow_table_entry_t.rebase_record ..).key] at hkey
    obtain ⟨hother', hrecent⟩ := flow_table_entry_t.rebase_live hother
    obtain rfl := hsound.unique hother' hlive (hkey.trans hcounts.key_eq.symm)
    omega
  · left
    have hkept := flow_table_entry_t.rebase_of_kept hlive (not_lt.mp hold)
    constructor <;> rw [flow_table_advance_base_timestamp_entries, hkept]
    · exact hcounts.unsent
    · exact hcounts.key_eq
    · exact hcounts.num_packets_eq

theorem advance_lacks (hlacks : table.Lacks key) (new_timestamp : Int) :
    (flow_table_advance_base_timestamp table new_timestamp).Lacks key := by
  intro other hother hkey
  rw [flow_table_advance_base_timestamp_entries] at hother hkey
  rw [(flow_table_entry_t.rebase_record ..).key] at hkey
  exact hlacks other (flow_table_entry_t.rebase_live hother).1 hkey

/-- What one call does to the counter of a flow. -/
theorem flow_step_counts (henabled : s.target.disable_flow_thresholding = false)
    (hsound : table.Sound s.target hash_function) {op : flow_op} {output : flow_output}
    (hstep : flow_step s hash_function table op = some (table', output)) (hstay : SameStay key (op, output))
    (h : table.Counts idx key packets ∨ table.Lacks key) :
    table'.Counts idx key (packets + if accepted key (op, output) then 1 else 0) ∨ table'.Lacks key := by
  obtain ⟨new_entry, timestamp_seconds, id, insertion, rfl, rfl, hprocessed⟩ | ⟨handle, written, rfl, rfl, rfl⟩ |
    ⟨new_timestamp, rfl, rfl, rfl⟩ := flow_step_cases hstep
  · simp only [accepted_processed, decide_eq_true_eq]
    obtain hcounts | hlacks := h
    · exact .inl (hprocessed.counts henabled hsound hcounts hstay)
    · exact .inr (hprocessed.lacks hlacks hstay)
  · exact hstay.elim
  · have hother : accepted key (.advance_base_timestamp new_timestamp, .done) = false := rfl
    rw [hother, if_neg Bool.false_ne_true, Nat.add_zero]
    obtain hcounts | hlacks := h
    · exact advance_counts hsound hcounts new_timestamp
    · exact .inr (advance_lacks hlacks new_timestamp)

/-- What a run without updates does to it. -/
theorem counts_run (henabled : s.target.disable_flow_thresholding = false)
    (hsound : table.Sound s.target hash_function) (h : table.Counts idx key packets)
    {trace : List (flow_op × flow_output)} (run : Execution (flow_step s hash_function) table trace table')
    (hstay : ∀ event ∈ trace, SameStay key event) :
    table'.Counts idx key (packets + accepted_packets key trace) ∨ table'.Lacks key := by
  induction run with
  | nil => exact .inl h
  | snoc run hstep ih =>
    rename_i trace₁ middle table₁ op output
    have hbefore := ih fun event hevent => hstay event (List.mem_append_left _ hevent)
    have hafter := flow_step_counts henabled (hsound.run run) hstep (hstay _ (by simp)) hbefore
    rw [accepted_packets, List.countP_append, List.countP_singleton, ← Nat.add_assoc]
    exact hafter

/-- An inserted flow starts with one packet. -/
theorem Processed.inserted_counts {new_entry : flow_table_entry_t} {timestamp_seconds : Int} {id : Nat}
    (henabled : target.disable_flow_thresholding = false)
    (h : Processed target hash_function table new_entry timestamp_seconds id (some idx) table') :
    table'.Counts idx new_entry.key 1 := by
  obtain ⟨-, hunsent, hrecord⟩ := h.arrives rfl
  refine ⟨hunsent, hrecord.key, ?_⟩
  cases h with
  | inserted visited idx hadmitted hsearch =>
    simp only [insert_entry, flow_table_t.store_entries, if_pos, henabled]
    simp

theorem flow_table_t.Counts.not_lacks (h : table.Counts idx key packets) : ¬ table.Lacks key :=
  fun hlacks => hlacks idx (.inr h.unsent) h.key_eq

theorem flow_table_t.Counts.num_packets_toNat (h : table.Counts idx key packets) :
    (table.entries idx).num_packets.toNat = packets % 16 := by
  rw [h.num_packets_eq, BitVec.toNat_ofNat]

/-- Only the count modulo the counter's width decides whether the flow is listed. -/
theorem flow_table_t.Counts.lists_iff (h : table.Counts idx key packets)
    (hsound : table.Sound target hash_function) (session_id : UInt64) (sequence_number : Int)
    {fprintf_returns : Nat → Int} (hhealthy : ∀ call, 2 ≤ fprintf_returns call) :
    table.Lists key
        (flow_table_write_thresholded_ips table session_id sequence_number (some fprintf_returns)).2 ↔
      FLOW_THRESHOLD ≤ packets % 16 := by
  rw [flow_table.lists_iff session_id sequence_number hhealthy, ← h.num_packets_toNat]
  constructor
  · rintro ⟨other, hkey, hthresholded⟩
    obtain rfl := hsound.unique (.inr hthresholded.1) (.inr h.unsent) (hkey.trans h.key_eq.symm)
    exact hthresholded.2
  · intro hthreshold
    exact ⟨idx, h.key_eq, h.unsent, hthreshold⟩

theorem flow_table_t.Lacks.not_lists (h : table.Lacks key) (log : List log_line) : ¬ table.Lists key log :=
  fun ⟨idx, hlive, hkey, _⟩ => h idx hlive hkey

/-- The counter is the saturated count up to 15, and whenever it is back at 15. -/
theorem flow_table_t.Counts.saturates_iff (h : table.Counts idx key packets)
    (hsound : table.Sound target hash_function) :
    (∀ other, (table.entries other).Live → (table.entries other).key = key →
        (table.entries other).num_packets.toNat = min packets 15) ↔ packets ≤ 15 ∨ packets % 16 = 15 := by
  have hidx := h.num_packets_toNat
  constructor
  · intro hsaturates
    have hmin := hsaturates idx (.inr h.unsent) h.key_eq
    omega
  · intro hfew other hlive hkey
    obtain rfl := hsound.unique hlive (.inr h.unsent) (hkey.trans h.key_eq.symm)
    omega

/-- A packet of a flow that is not in the table is counted only by inserting it. -/
theorem Processed.lacks_rejects {new_entry : flow_table_entry_t} {timestamp_seconds : Int} {id : Nat}
    {insertion : Option Slot}
    (h : Processed target hash_function table new_entry timestamp_seconds id insertion table')
    (hlacks : table.Lacks key) (hstay : new_entry.key = key → insertion = none) :
    ¬ (new_entry.key = key ∧ id ≠ FLOW_ID_ERROR) := by
  rintro ⟨hkey, haccepted⟩
  cases h with
  | refused => exact haccepted rfl
  | full => exact haccepted rfl
  | matched visited slot hadmitted hsearch =>
    obtain ⟨hslot, hsame, -, -⟩ := search_found hsearch
    exact hlacks slot hslot (hsame.trans hkey)
  | inserted => cases hstay hkey

/-- A flow that has left the table stays away, and no packet of it is counted. -/
theorem lacks_run (hlacks : table.Lacks key) {trace : List (flow_op × flow_output)}
    (run : Execution (flow_step s hash_function) table trace table') (hstay : ∀ event ∈ trace, SameStay key event) :
    table'.Lacks key ∧ accepted_packets key trace = 0 := by
  induction run with
  | nil => exact ⟨hlacks, rfl⟩
  | snoc run hstep ih =>
    obtain ⟨hbefore, hnone⟩ := ih fun event hevent => hstay event (List.mem_append_left _ hevent)
    have hlast := hstay _ (List.mem_append_right _ List.mem_cons_self)
    rw [accepted_packets, List.countP_append, List.countP_singleton, ← accepted_packets, hnone, Nat.zero_add]
    obtain ⟨new_entry, timestamp_seconds, id, insertion, rfl, rfl, hprocessed⟩ |
      ⟨handle, written, rfl, rfl, rfl⟩ | ⟨new_timestamp, rfl, rfl, rfl⟩ := flow_step_cases hstep
    · refine ⟨hprocessed.lacks hbefore hlast, if_neg ?_⟩
      simpa only [accepted_processed, decide_eq_true_eq] using hprocessed.lacks_rejects hbefore hlast
    · exact hlast.elim
    · exact ⟨advance_lacks hbefore new_timestamp, rfl⟩

/-- The packet of the flow behind `count` others. -/
theorem exists_accepted_packet (key : flow_key) {trace : List (flow_op × flow_output)} {count : Nat}
    (h : count < accepted_packets key trace) :
    ∃ first event rest, trace = first ++ event :: rest ∧ accepted key event = true ∧
      accepted_packets key first = count := by
  induction trace using List.reverseRecOn with
  | nil => exact absurd h (Nat.not_lt_zero count)
  | append_singleton trace event ih =>
    by_cases hsmaller : count < accepted_packets key trace
    · obtain ⟨first, packet, rest, rfl, hpacket, hcount⟩ := ih hsmaller
      exact ⟨first, packet, rest ++ [event], List.append_assoc .., hpacket, hcount⟩
    · rw [accepted_packets, List.countP_append, List.countP_singleton, ← accepted_packets] at h
      split at h
      · rename_i hevent
        exact ⟨trace, event, [], rfl, hevent, by omega⟩
      · omega

/-- While the slot holds the flow, its counter never falls from one moment to a
later one. -/
def NeverDecreased (s : Session) (hash_function : flow_key → UInt32) (inserted : flow_table_t)
    (after : List (flow_op × flow_output)) (idx : Slot) (key : flow_key) : Prop :=
  ∀ first between rest earlier later, after = first ++ (between ++ rest) →
    Execution (flow_step s hash_function) inserted first earlier →
    Execution (flow_step s hash_function) earlier between later → ¬ later.Lacks key →
    (earlier.entries idx).num_packets.toNat ≤ (later.entries idx).num_packets.toNat

/-- A packet that is counted leaves the flow in the table. -/
theorem flow_step_accepted_counts (henabled : s.target.disable_flow_thresholding = false)
    (hsound : table.Sound s.target hash_function) {op : flow_op} {output : flow_output}
    (hstep : flow_step s hash_function table op = some (table', output)) (hstay : SameStay key (op, output))
    (haccepted : accepted key (op, output) = true) (hcounts : table.Counts idx key packets) :
    table'.Counts idx key (packets + 1) := by
  obtain ⟨new_entry, timestamp_seconds, id, insertion, rfl, rfl, hprocessed⟩ | ⟨handle, written, rfl, rfl, rfl⟩ |
    ⟨new_timestamp, rfl, rfl, rfl⟩ := flow_step_cases hstep
  · have hcounts' := hprocessed.counts henabled hsound hcounts hstay
    rw [accepted_processed, decide_eq_true_eq] at haccepted
    rwa [if_pos haccepted] at hcounts'
  · exact hstay.elim
  · cases haccepted

/-- A packet that is counted finds its flow in the table. -/
theorem accepted_packet_counts {inserted : flow_table_t} (henabled : s.target.disable_flow_thresholding = false)
    (hsound : inserted.Sound s.target hash_function) (hinserted : inserted.Counts idx key 1)
    {first : List (flow_op × flow_output)} (run : Execution (flow_step s hash_function) inserted first table)
    {op : flow_op} {output : flow_output} (hstep : flow_step s hash_function table op = some (table', output))
    (hstay : ∀ event ∈ first ++ [(op, output)], SameStay key event) (haccepted : accepted key (op, output) = true) :
    table.Counts idx key (1 + accepted_packets key first) := by
  obtain hcounts | hlacks := counts_run henabled hsound hinserted run
    fun event hevent => hstay event (List.mem_append_left _ hevent)
  · exact hcounts
  · have hlast := hstay _ (List.mem_append_right _ List.mem_cons_self)
    have hnone := (lacks_run hlacks (Execution.nil.snoc hstep)
      fun event hevent => List.mem_singleton.mp hevent ▸ hlast).2
    rw [List.nil_append, accepted_packets, List.countP_singleton, if_pos haccepted] at hnone
    cases hnone

/-- The sixteenth packet takes the counter from 15 to 0. -/
theorem sixteenth_packet_decreases {inserted : flow_table_t}
    (henabled : s.target.disable_flow_thresholding = false) (hsound : inserted.Sound s.target hash_function)
    (hinserted : inserted.Counts idx key 1) {after : List (flow_op × flow_output)}
    (run : Execution (flow_step s hash_function) inserted after table)
    (hstay : ∀ event ∈ after, SameStay key event) (hmany : 14 < accepted_packets key after) :
    ¬ NeverDecreased s hash_function inserted after idx key := by
  intro hnever
  obtain ⟨first, ⟨op, output⟩, rest, rfl, haccepted, hfourteen⟩ := exists_accepted_packet key hmany
  rw [← List.singleton_append] at run hstay hnever
  obtain ⟨later, hprefix, -⟩ := (List.append_assoc .. ▸ run).split
  obtain ⟨earlier, hfirst, hstep⟩ := Execution.snoc_iff.mp hprefix
  have hstay' : ∀ event ∈ first ++ [(op, output)], SameStay key event :=
    fun event hevent => hstay event (by rw [← List.append_assoc]; exact List.mem_append_left _ hevent)
  have hfifteen := accepted_packet_counts henabled hsound hinserted hfirst hstep hstay' haccepted
  have hsixteen := flow_step_accepted_counts henabled (hsound.run hfirst) hstep
    (hstay' _ (List.mem_append_right _ List.mem_cons_self)) haccepted hfifteen
  have hle := hnever first [(op, output)] rest earlier later rfl hfirst (Execution.nil.snoc hstep) hsixteen.not_lacks
  rw [hfifteen.num_packets_toNat, hsixteen.num_packets_toNat, hfourteen] at hle
  omega

/-- The counter never falls before the sixteenth packet, and falls with it. -/
theorem never_decreased_iff {inserted : flow_table_t}
    (henabled : s.target.disable_flow_thresholding = false) (hsound : inserted.Sound s.target hash_function)
    (hinserted : inserted.Counts idx key 1) {after : List (flow_op × flow_output)}
    (run : Execution (flow_step s hash_function) inserted after table)
    (hstay : ∀ event ∈ after, SameStay key event) :
    NeverDecreased s hash_function inserted after idx key ↔ 1 + accepted_packets key after ≤ 15 := by
  constructor
  · intro hnever
    by_contra hmany
    exact sixteenth_packet_decreases henabled hsound hinserted run hstay (by omega) hnever
  · intro hfew first between rest earlier later hafter hfirst hbetween hpresent
    subst hafter
    have hstay' : ∀ event ∈ first ++ between, SameStay key event :=
      fun event hevent => hstay event (by rw [← List.append_assoc]; exact List.mem_append_left _ hevent)
    obtain hlater | hlacks := counts_run henabled hsound hinserted (hfirst.trans hbetween) hstay'
    · obtain hearlier | hlacks := counts_run henabled hsound hinserted hfirst
        fun event hevent => hstay' event (List.mem_append_left _ hevent)
      · rw [hearlier.num_packets_toNat, hlater.num_packets_toNat]
        simp only [accepted_packets, List.countP_append] at hfew ⊢
        omega
      -- A flow that has been away is not back later.
      · have haway := lacks_run hlacks hbetween fun event hevent => hstay' event (List.mem_append_right _ hevent)
        exact absurd haway.1 hpresent
    · exact absurd hlacks hpresent

/-! Packets of one flow -/

theorem flow_step_process_flow (s : Session) (hash_function : flow_key → UInt32) (table : flow_table_t)
    (new_entry : flow_table_entry_t) (timestamp_seconds : Int) :
    flow_step s hash_function table (.process_flow new_entry timestamp_seconds) =
      some ((flow_table_process_flow s.target hash_function table new_entry timestamp_seconds).2,
        .processed (flow_table_process_flow s.target hash_function table new_entry timestamp_seconds).1
          (flow_table_insertion s.target hash_function table new_entry timestamp_seconds)) := rfl

/-- The first packet of a flow. -/
def first_packet (new_entry : flow_table_entry_t) (timestamp_seconds : Int) (idx : Slot) : flow_op × flow_output :=
  (.process_flow new_entry timestamp_seconds, .processed (flow_id idx) (some idx))

/-- In an empty table it finds a slot. -/
theorem first_packet_inserted (henabled : s.target.disable_flow_thresholding = false)
    (hash_function : flow_key → UInt32) (new_entry : flow_table_entry_t) (timestamp_seconds : Int) :
    ∃ idx table, flow_run s hash_function [first_packet new_entry timestamp_seconds idx] table ∧
      table.Counts idx new_entry.key 1 ∧ table.base_timestamp_seconds = timestamp_seconds := by
  have hprocessed := flow_table_process_flow_spec s.target hash_function flow_table_init new_entry timestamp_seconds
  have hvacant (slot : Slot) : ¬ (flow_table_init.entries slot).Live := by
    simp [flow_table_init, flow_table_entry_init, flow_table_entry_t.Live]
  generalize hid : (flow_table_process_flow s.target hash_function flow_table_init new_entry
    timestamp_seconds).1 = id at hprocessed
  generalize hinsertion : flow_table_insertion s.target hash_function flow_table_init new_entry
    timestamp_seconds = insertion at hprocessed
  generalize htable : (flow_table_process_flow s.target hash_function flow_table_init new_entry
    timestamp_seconds).2 = table at hprocessed
  cases hprocessed with
  | refused hrefused => exact absurd hrefused.1 (by decide)
  | matched visited idx hadmitted hsearch => exact absurd (search_found hsearch).1 (hvacant idx)
  | full hadmitted hsearch =>
    have hcrowded := (search_full_iff _ _ _ _ _).mp (congrArg Prod.snd hsearch)
    exact absurd (hcrowded 0 (by decide)).1 (hvacant _)
  | inserted visited idx hadmitted hsearch =>
    have hcounts := (Processed.inserted visited idx hadmitted hsearch).inserted_counts henabled
    rw [← htable] at hcounts
    refine ⟨idx, _, Execution.nil.snoc (by rw [flow_step_process_flow, hid, hinsertion]), hcounts, ?_⟩
    have hempty : (expire_entries timestamp_seconds flow_table_init visited).num_elements = 0 := by
      rw [expire_entries_of_not_expired fun slot _ hexpired => hvacant slot (.inl hexpired.1)]
      rfl
    rw [htable, insert_entry, if_pos hempty]

/-- Another packet of a flow that the table holds, at the time of its base. -/
theorem Processed.again {new_entry : flow_table_entry_t} {id : Nat} {insertion : Option Slot}
    (hsound : table.Sound target hash_function) (hcounts : table.Counts idx new_entry.key packets)
    (h : Processed target hash_function table new_entry table.base_timestamp_seconds id insertion table') :
    id = flow_id idx ∧ insertion = none ∧ table'.base_timestamp_seconds = table.base_timestamp_seconds := by
  have hholds : table.Holds table.base_timestamp_seconds new_entry.key idx :=
    ⟨.inr hcounts.unsent, hcounts.key_eq, by simp [flow_table_entry_t.Expired, hcounts.unsent]⟩
  have hfound := (search_outcome_iff hsound.probed).1.mpr hholds
  cases h with
  | refused hrefused =>
    have hoffset := hrefused.2
    simp [FLOW_TABLE_MAX_UPDATE_OFFSET, FLOW_TABLE_MIN_UPDATE_OFFSET] at hoffset
  | matched visited slot hadmitted hsearch =>
    rw [hsearch] at hfound
    obtain rfl := Outcome.found.inj hfound
    exact ⟨rfl, rfl, by simp⟩
  | full hadmitted hsearch =>
    rw [hsearch] at hfound
    cases hfound
  | inserted visited slot hadmitted hsearch =>
    rw [hsearch] at hfound
    cases hfound

/-- The packets of a flow after its first one, all at its second. -/
def further_packets (new_entry : flow_table_entry_t) (timestamp_seconds : Int) (idx : Slot) (count : Nat) :
    List (flow_op × flow_output) :=
  List.replicate count (.process_flow new_entry timestamp_seconds, .processed (flow_id idx) none)

/-- Packets at the base's own second are all counted. -/
theorem further_packets_run {new_entry : flow_table_entry_t} (henabled : s.target.disable_flow_thresholding = false)
    (hsound : table.Sound s.target hash_function) (hcounts : table.Counts idx new_entry.key packets) (count : Nat) :
    ∃ table', Execution (flow_step s hash_function) table
        (further_packets new_entry table.base_timestamp_seconds idx count) table' ∧
      table'.Sound s.target hash_function ∧ table'.Counts idx new_entry.key (packets + count) ∧
      table'.base_timestamp_seconds = table.base_timestamp_seconds := by
  induction count with
  | zero => exact ⟨table, .nil, hsound, hcounts, rfl⟩
  | succ count ih =>
    obtain ⟨middle, run, hsound', hcounts', hbase⟩ := ih
    have hprocessed := flow_table_process_flow_spec s.target hash_function middle new_entry
      middle.base_timestamp_seconds
    obtain ⟨hid, hinsertion, hbase'⟩ := hprocessed.again hsound' hcounts'
    have hstep : flow_step s hash_function middle (.process_flow new_entry table.base_timestamp_seconds) =
        some ((flow_table_process_flow s.target hash_function middle new_entry middle.base_timestamp_seconds).2,
          .processed (flow_id idx) none) := by
      rw [← hbase, flow_step_process_flow, hid, hinsertion]
    have hmore := hprocessed.counts henabled hsound' hcounts' fun _ => hinsertion
    rw [if_pos ⟨rfl, hid ▸ flow_id_ne_error idx⟩] at hmore
    refine ⟨_, ?_, flow_step_sound hsound' hstep, hmore, hbase'.trans hbase⟩
    rw [further_packets, List.replicate_succ']
    exact run.snoc hstep

theorem further_packets_same_stay (new_entry : flow_table_entry_t) (timestamp_seconds : Int) (idx : Slot)
    (count : Nat) : ∀ event ∈ further_packets new_entry timestamp_seconds idx count, SameStay new_entry.key event := by
  intro event hevent
  rw [List.eq_of_mem_replicate hevent]
  exact fun _ => rfl

/-- The first packet and those after it are counted towards the flow. -/
theorem accepted_first_packet (new_entry : flow_table_entry_t) (timestamp_seconds : Int) (idx : Slot) (count : Nat) :
    accepted_packets new_entry.key (first_packet new_entry timestamp_seconds idx ::
      further_packets new_entry timestamp_seconds idx count) = count + 1 := by
  induction count with
  | zero => exact accepted_packets_cons ..
  | succ count ih =>
    rw [first_packet, accepted_packets_cons] at ih ⊢
    rw [further_packets, List.replicate_succ, accepted_packets_cons]
    rw [further_packets] at ih
    omega

/-- A flow of any number of packets, the only one of its run. -/
theorem one_flow_run (henabled : s.target.disable_flow_thresholding = false)
    (hash_function : flow_key → UInt32) (new_entry : flow_table_entry_t) (timestamp_seconds : Int) (count : Nat) :
    ∃ idx inserted table,
      flow_run s hash_function [first_packet new_entry timestamp_seconds idx] inserted ∧
      Execution (flow_step s hash_function) inserted (further_packets new_entry timestamp_seconds idx count) table ∧
      table.Sound s.target hash_function ∧ table.Counts idx new_entry.key (1 + count) := by
  obtain ⟨idx, inserted, hfirst, hcounts, hbase⟩ :=
    first_packet_inserted henabled hash_function new_entry timestamp_seconds
  obtain ⟨table, run, hsound, hcounts', -⟩ := further_packets_run henabled (flow_run_sound hfirst) hcounts count
  rw [hbase] at run
  exact ⟨idx, inserted, table, hfirst, run, hsound, hcounts'⟩

end bismark_passive.flow_table
