import BismarkPassive.AddressTable.Ring
import BismarkPassive.Machine.Execution
import BismarkPassive.Reference

namespace bismark_passive.address_table

open ring_buffer machine

variable {s : Session} {table : address_table_t} {log : List address_table_entry_t} {sent : Nat}

/-- The mappings that an update sends: the new ones, or the last turn of them. -/
def unsent (log : List address_table_entry_t) (sent : Nat) : List address_table_entry_t :=
  (log.drop sent).drop ((log.drop sent).length - MAC_TABLE_ENTRIES)

/-- Where the mappings that an update sends begin in the log. -/
def unsent_start (log : List address_table_entry_t) (sent : Nat) : Nat :=
  sent + (log.length - sent - MAC_TABLE_ENTRIES)

theorem unsent_eq (log : List address_table_entry_t) (sent : Nat) :
    unsent log sent = log.drop (unsent_start log sent) := by
  rw [unsent, List.drop_drop, List.length_drop, unsent_start]

theorem address_table_t.Logs.added_eq_sub (h : table.Logs log sent) :
    table.added_since_last_update = log.length - unsent_start log sent := by
  have hsent := h.sent_le
  rw [h.added_eq, unsent_start, MAC_TABLE_ENTRIES_eq]
  omega

theorem address_table_t.Logs.unsent_start_le (h : table.Logs log sent) :
    unsent_start log sent ≤ log.length ∧ log.length ≤ unsent_start log sent + MAC_TABLE_ENTRIES := by
  have hsent := h.sent_le
  rw [unsent_start]
  omega

/-- The loop of the update visits exactly the mappings to be sent, oldest first. -/
theorem address_table_t.Logs.added_entries (h : table.Logs log sent) :
    table.added_ids.map (fun mac_id => table.entries (mac_slot mac_id)) = unsent log sent := by
  obtain ⟨hstart, hturn⟩ := h.unsent_start_le
  have hadded := h.added_eq_sub
  rw [unsent_eq]
  apply List.ext_getElem
  · rw [List.length_map, address_table_t.added_ids, List.length_map, List.length_range, List.length_drop]
    omega
  · intro i hi hi'
    rw [List.length_drop] at hi'
    have hid : NORM (table.last - (table.added_since_last_update - i) + 1) =
        ((unsent_start log sent + i : Nat) : Int) % 256 := by
      have hback := h.norm_last (show log.length - 1 - (unsent_start log sent + i) < log.length by omega)
      have hindex : log.length - 1 - (log.length - 1 - (unsent_start log sent + i)) =
          unsent_start log sent + i := by omega
      rw [hindex] at hback
      rw [← hback, hadded]
      congr 1
      omega
    have hrecent := h.recent (show unsent_start log sent + i < log.length by omega) (by omega)
    simp only [address_table_t.added_ids, List.getElem_map, List.getElem_range, hid, mac_slot_natCast,
      List.getElem_drop]
    exact (Option.some.inj ((List.getElem?_eq_getElem _).symm.trans hrecent)).symm

/-- The first id that an update prints is the slot of the first mapping it sends. -/
theorem address_table_t.Logs.first_id (h : table.Logs log sent) (hnonempty : log ≠ []) :
    NORM (table.last - table.added_since_last_update + 1) = (unsent_start log sent : Int) % 256 := by
  have hpos := List.length_pos_iff.mpr hnonempty
  obtain ⟨hstart, hturn⟩ := h.unsent_start_le
  rw [NORM_eq, h.added_eq_sub, h.last_eq]
  omega

/-- The lines of the section that are not mappings, around those that are. -/
def address_section (table : address_table_t) (lines : List Line) : List Line :=
  .addresses (NORM (table.last - table.added_since_last_update + 1)) MAC_TABLE_ENTRIES :: lines ++ [.blank]

/-- An update that completes has composed and printed the lines of the mappings
with the ids to be sent, and leaves none to be sent. -/
theorem address_table_write_update_composed {handle : gzFile} (hhandle : handle.Healthy)
    {table' : address_table_t} {handle' : gzFile} {result : Int}
    (hwrite : address_table_write_update s table handle = (some result, table', handle')) :
    result = 0 ∧ table' = table.reset_added ∧ ∃ lines : List Line,
      (table.added_ids.map fun mac_id => address_line s (table.entries (mac_slot mac_id))) = lines.map some ∧
      handle' = handle.append (address_section table lines) := by
  simp only [address_table_write_update, write_line_healthy hhandle, Prod.mk.injEq] at hwrite
  obtain ⟨hresult, htable, hhandle'⟩ := hwrite
  have hheader := hhandle.append
    [.addresses (NORM (table.last - table.added_since_last_update + 1)) MAC_TABLE_ENTRIES]
  obtain ⟨lines, hcomposed⟩ := write_lines_composed hheader hresult
  rw [hcomposed, write_lines_healthy hheader, write_blank_healthy (hheader.append _)] at hresult htable hhandle'
  refine ⟨(Option.some.inj hresult).symm, by simpa using htable.symm, lines, hcomposed, ?_⟩
  rw [← hhandle', gzFile.append_append, gzFile.append_append]
  rfl

/-- The mappings an update prints are those of the log that are to be sent. -/
theorem address_table_write_update_healthy (h : table.Logs log sent) {handle : gzFile} (hhandle : handle.Healthy)
    {table' : address_table_t} {handle' : gzFile} {result : Int}
    (hwrite : address_table_write_update s table handle = (some result, table', handle')) :
    result = 0 ∧ table' = table.reset_added ∧ ∃ lines : List Line,
      (unsent log sent).map (address_line s) = lines.map some ∧
      handle' = handle.append (address_section table lines) := by
  obtain ⟨hresult, htable, lines, hcomposed, hhandle'⟩ := address_table_write_update_composed hhandle hwrite
  refine ⟨hresult, htable, lines, ?_, hhandle'⟩
  rw [← hcomposed, ← h.added_entries, List.map_map]
  rfl

/-! The collector -/

def Line.is_address : Line → Bool
  | .address .. => true
  | _ => false

/-- The server's copy of the table. -/
abbrev collected_t := MacSlot → Option Line

/-- The collector stores the printed mappings from the printed first id on. -/
def collect (collected : collected_t) : List Line → collected_t
  | .addresses first _ :: lines => replay collected first.toNat (lines.filter Line.is_address)
  | _ => collected

/-- The calls on the address table. Updates are written to files that take
every line. -/
inductive address_op where
  | lookup (ip_address : UInt32) (mac : mac_address_t)
  | write_update (handle : gzFile) (healthy : handle.Healthy)

inductive address_output where
  | looked_up (mac_id : Int)
  | written (lines : List Line)

/-- One call; `none` when an update does not complete. -/
def address_step (s : Session) (table : address_table_t) : address_op → Option (address_table_t × address_output)
  | .lookup ip_address mac =>
    let (mac_id, table') := address_table_lookup table ip_address mac
    some (table', .looked_up mac_id)
  | .write_update handle _ =>
    match address_table_write_update s table handle with
    | (some 0, table', handle') => some (table', .written (handle'.written.drop handle.written.length))
    | _ => none

abbrev address_run (s : Session) : List (address_op × address_output) → address_table_t → Prop :=
  Execution (address_step s) address_table_init

/-- What the collector holds after all updates of a trace. -/
def collector (trace : List (address_op × address_output)) : collected_t :=
  trace.foldl (fun collected event =>
    match event.2 with
    | .written lines => collect collected lines
    | .looked_up _ => collected) fun _ => none

/-- Some lookup returned the slot. -/
def Used (trace : List (address_op × address_output)) (slot : MacSlot) : Prop :=
  ∃ op, (op, .looked_up slot.val) ∈ trace

theorem address_line_is_address {entry : address_table_entry_t} {line : Line}
    (h : address_line s entry = some line) : Line.is_address line = true := by
  unfold address_line at h
  split at h <;> simp only [Option.bind_eq_bind, Option.bind_eq_some_iff, Option.pure_def, Option.some.injEq] at h
  · obtain ⟨_, _, rfl⟩ := h
    rfl
  · obtain ⟨_, _, _, _, _, _, rfl⟩ := h
    rfl

/-- The anonymiser decides whether mappings can be composed, not the mapping. -/
theorem address_line_isSome_iff {entry : address_table_entry_t} : (address_line s entry).isSome ↔ s.Initialized := by
  have hmac (mac : mac_address_t) : ∃ hex, buffer_to_hex mac.toList = some hex :=
    Option.isSome_iff_exists.mp (buffer_to_hex_isSome (by rw [Vector.length_toList]; decide))
  rw [Session.Initialized]
  cases hdisable : s.target.disable_anonymization with
  | true =>
    obtain ⟨hex, hhex⟩ := hmac entry.mac_address
    simp [address_line, hdisable, hhex]
  | false =>
    cases hinitialized : s.anonymization.initialized with
    | false => simp [address_line, hdisable, anonymize_ip, anonymization_process, hinitialized]
    | true =>
      simp only [address_line, hdisable, anonymize_ip, anonymize_mac, anonymization_process, hinitialized,
        Bool.false_eq_true, if_false, if_true, Option.bind_eq_bind, Option.bind_some, Option.pure_def]
      obtain ⟨hex, hhex⟩ := hmac (Vector.ofFn fun i => if i.val < ETH_ALEN / 2 then entry.mac_address.get i
        else (s.externals.sha1_hmac s.anonymization.seed entry.mac_address.toList).get
          (i.castLE ETH_ALEN_le_digest_length))
      rw [hhex]
      simp

/-- The collector has the ring of the mappings sent so far. -/
structure Synchronised (s : Session) (trace : List (address_op × address_output)) (table : address_table_t)
    (log : List address_table_entry_t) (sent : Nat) : Prop where
  logs : table.Logs log sent
  used : ∀ slot, Used trace slot → slot.val < log.length
  composed : sent = 0 ∨ s.Initialized
  collected : collector trace = fun slot => (ring_of (log.take sent) slot).bind (address_line s)

theorem collector_snoc_lookup (trace : List (address_op × address_output)) (op : address_op) (mac_id : Int) :
    collector (trace ++ [(op, .looked_up mac_id)]) = collector trace := by
  simp [collector]

theorem collector_snoc_written (trace : List (address_op × address_output)) (op : address_op) (lines : List Line) :
    collector (trace ++ [(op, .written lines)]) = collect (collector trace) lines := by
  simp [collector]

/-- A lookup keeps the collector in step with the ring. -/
theorem Synchronised.lookup {trace : List (address_op × address_output)}
    (h : Synchronised s trace table log sent) (ip_address : UInt32) (mac : mac_address_t) :
    ∃ log' sent', Synchronised s
      (trace ++ [(.lookup ip_address mac, .looked_up (address_table_lookup table ip_address mac).1)])
      (address_table_lookup table ip_address mac).2 log' sent' := by
  have hused (op : address_op) (mac_id : Int) (slot : MacSlot)
      (hslot : Used (trace ++ [(op, .looked_up mac_id)]) slot) : Used trace slot ∨ mac_id = slot.val := by
    obtain ⟨op', hop'⟩ := hslot
    obtain hold | hnew := List.mem_append.mp hop'
    · exact .inl ⟨op', hold⟩
    · simp only [List.mem_singleton, Prod.mk.injEq, address_output.looked_up.injEq] at hnew
      exact .inr hnew.2.symm
  have hlogs := address_table_lookup_logs h.logs ip_address mac
  refine ⟨log ++ table.new_mapping ⟨ip_address, mac⟩, sent, hlogs, fun slot hslot => ?_, h.composed, ?_⟩
  · obtain hold | hnew := hused _ _ slot hslot
    · rw [List.length_append]
      exact Nat.lt_add_right _ (h.used slot hold)
    · cases hprivate : is_address_private ip_address with
      | false =>
        rw [address_table_lookup_public hprivate] at hnew
        omega
      | true =>
        obtain ⟨index, hindex, _, _, hid⟩ := address_table_lookup_id h.logs hprivate mac
        have hlt := (List.getElem?_eq_some_iff.mp hindex).1
        have := slot.isLt
        omega
  · rw [collector_snoc_lookup, h.collected, List.take_append_of_le_length h.logs.sent_le]

/-- Composed mappings are all that the collector stores. -/
theorem composed_addresses {entries : List address_table_entry_t} {lines : List Line}
    (hcomposed : entries.map (address_line s) = lines.map some) : lines.filter Line.is_address = lines := by
  apply List.filter_eq_self.mpr
  intro line hline
  have hmem : some line ∈ entries.map (address_line s) := by
    rw [hcomposed]
    exact List.mem_map_of_mem hline
  obtain ⟨entry, _, hentry⟩ := List.mem_map.mp hmem
  exact address_line_is_address hentry

/-- If an update had a mapping to send, the anonymiser works. -/
theorem Synchronised.composed_update {trace : List (address_op × address_output)}
    (h : Synchronised s trace table log sent) {lines : List Line}
    (hcomposed : (unsent log sent).map (address_line s) = lines.map some) : log.length = 0 ∨ s.Initialized := by
  cases hunsent : unsent log sent with
  | nil =>
    have hsent := h.logs.sent_le
    have hlength := congrArg List.length hunsent
    rw [unsent, List.length_drop, List.length_drop, MAC_TABLE_ENTRIES_eq, List.length_nil] at hlength
    have hall : log.length = sent := by omega
    rw [hall]
    exact h.composed
  | cons entry rest =>
    rw [hunsent] at hcomposed
    cases lines with
    | nil => simp at hcomposed
    | cons line lines =>
      simp only [List.map_cons, List.cons.injEq] at hcomposed
      exact .inr (address_line_isSome_iff.mp (Option.isSome_of_eq_some hcomposed.1))

/-- Storing the printed mappings from the printed first id on brings the
collector up to date. -/
theorem Synchronised.collect_update {trace : List (address_op × address_output)}
    (h : Synchronised s trace table log sent) {lines : List Line}
    (hcomposed : (unsent log sent).map (address_line s) = lines.map some) :
    collect (collector trace) (address_section table lines) =
      fun slot => (ring_of log slot).bind (address_line s) := by
  rw [address_section, List.cons_append, collect, List.filter_append, composed_addresses hcomposed]
  by_cases hnonempty : log = []
  · subst hnonempty
    obtain rfl : lines = [] := by simpa [unsent] using hcomposed.symm
    simpa [Line.is_address, replay] using h.collected
  · have hsent : (log.take sent).length = sent := by
      rw [List.length_take]
      exact min_eq_left h.logs.sent_le
    have hcatch := @replay_catches_up _ MAC_TABLE_ENTRIES _ (log.take sent) (log.drop sent)
    rw [List.take_append_drop, hsent] at hcatch
    have hstart : sent + ((log.drop sent).length - MAC_TABLE_ENTRIES) = unsent_start log sent := by
      rw [unsent_start, List.length_drop]
    have hfirst : (NORM (table.last - table.added_since_last_update + 1)).toNat =
        unsent_start log sent % MAC_TABLE_ENTRIES := by
      rw [h.logs.first_id hnonempty, MAC_TABLE_ENTRIES_eq]
      omega
    have hblank : [Line.blank].filter Line.is_address = [] := rfl
    rw [hfirst, replay_mod, h.collected, ← hcatch, hstart, hblank, List.append_nil,
      replay_bind _ _ _ hcomposed, unsent]

/-- An update that succeeds keeps it in step, too: what it prints is what the collector lacks. -/
theorem Synchronised.update {trace : List (address_op × address_output)}
    (h : Synchronised s trace table log sent) {handle : gzFile} (hhandle : handle.Healthy)
    {table' : address_table_t} {handle' : gzFile}
    (hwrite : address_table_write_update s table handle = (some 0, table', handle')) :
    Synchronised s (trace ++ [(.write_update handle hhandle,
      .written (handle'.written.drop handle.written.length))]) table' log log.length := by
  obtain ⟨_, rfl, lines, hcomposed, rfl⟩ := address_table_write_update_healthy h.logs hhandle hwrite
  refine ⟨h.logs.reset_added, fun slot hslot => h.used slot ?_, h.composed_update hcomposed, ?_⟩
  · obtain ⟨op, hop⟩ := hslot
    exact ⟨op, by simpa using hop⟩
  · rw [collector_snoc_written, gzFile.append_written, List.drop_left, List.take_length]
    exact h.collect_update hcomposed

/-- An update that completes leaves the collector with the whole log. -/
theorem Synchronised.step_update {trace : List (address_op × address_output)} {table' : address_table_t}
    {handle : gzFile} {healthy : handle.Healthy} {output : address_output}
    (h : Synchronised s trace table log sent)
    (hstep : address_step s table (.write_update handle healthy) = some (table', output)) :
    Synchronised s (trace ++ [(.write_update handle healthy, output)]) table' log log.length := by
  rcases hwrite : address_table_write_update s table handle with ⟨result, table₁, handle₁⟩
  rw [address_step, hwrite] at hstep
  cases result with
  | none => simp at hstep
  | some result =>
    obtain ⟨rfl, _⟩ := address_table_write_update_healthy h.logs healthy hwrite
    simp only [Option.some.injEq, Prod.mk.injEq] at hstep
    obtain ⟨rfl, rfl⟩ := hstep
    exact h.update healthy hwrite

theorem address_run_synchronised {trace : List (address_op × address_output)}
    (run : address_run s trace table) : ∃ log sent, Synchronised s trace table log sent := by
  refine run.invariant (fun trace table => ∃ log sent, Synchronised s trace table log sent) ?_ ?_
  · refine ⟨[], 0, address_table_init_logs, fun slot hslot => ?_, .inl rfl, rfl⟩
    simp [Used] at hslot
  · rintro trace table op table' output run ⟨log, sent, hsync⟩ hstep
    cases op with
    | lookup ip_address mac =>
      simp only [address_step, Option.some.injEq, Prod.mk.injEq] at hstep
      obtain ⟨rfl, rfl⟩ := hstep
      exact hsync.lookup ip_address mac
    | write_update handle healthy => exact ⟨log, log.length, hsync.step_update hstep⟩

/-- After every update the collector holds, in each slot that was ever used,
the line of the mapping that is in the table's slot. -/
theorem collector_reproduces_table {trace : List (address_op × address_output)} {handle : gzFile}
    {healthy : handle.Healthy} {lines : List Line}
    (run : address_run s (trace ++ [(.write_update handle healthy, .written lines)]) table) {slot : MacSlot}
    (hused : Used trace slot) :
    ∃ line, address_line s (table.entries slot) = some line ∧
      collector (trace ++ [(.write_update handle healthy, .written lines)]) slot = some line := by
  obtain ⟨table₀, run₀, hstep⟩ := Execution.snoc_iff.mp run
  obtain ⟨log, sent, hsync₀⟩ := address_run_synchronised run₀
  have hsync := hsync₀.step_update hstep
  have hslot := hsync₀.used slot hused
  obtain ⟨entry, hentry⟩ := Option.isSome_iff_exists.mp (ring_of_isSome_iff.mpr hslot)
  have hinitialized : s.Initialized := hsync.composed.resolve_left (by omega)
  obtain ⟨line, hline⟩ := Option.isSome_iff_exists.mp (address_line_isSome_iff.mpr hinitialized)
  refine ⟨line, by rw [hsync.logs.entries_eq slot entry hentry, hline], ?_⟩
  rw [hsync.collected, List.take_length]
  simp only [hentry, Option.bind_some, hline]

/-- The printed form of 01:01:01:01:01:01. -/
def one_mac_hex : cstring := [48, 49, 48, 49, 48, 49, 48, 49, 48, 49, 48, 49]

/-- One device is looked up before the only update. -/
theorem collector_reproduces_table_one_device :
    ∃ line, address_line reference_session ⟨0xc0a80102, Vector.replicate ETH_ALEN 1⟩ = some line ∧
      collector [(.lookup 0xc0a80102 (Vector.replicate ETH_ALEN 1), .looked_up 0),
        (.write_update healthy_file healthy_file_healthy,
          .written [.addresses 0 MAC_TABLE_ENTRIES, .address one_mac_hex 0xc0a80102, .blank])] 0 = some line := by
  have hfirst : address_run reference_session [(.lookup 0xc0a80102 (Vector.replicate ETH_ALEN 1), .looked_up 0)]
      (address_table_init.add ⟨0xc0a80102, Vector.replicate ETH_ALEN 1⟩) := Execution.nil.snoc rfl
  have run := Execution.snoc hfirst (show address_step reference_session _
    (.write_update healthy_file healthy_file_healthy) = some
      ((address_table_init.add ⟨0xc0a80102, Vector.replicate ETH_ALEN 1⟩).reset_added,
        .written [.addresses 0 MAC_TABLE_ENTRIES, .address one_mac_hex 0xc0a80102, .blank]) by rfl)
  have hused : Used [(.lookup 0xc0a80102 (Vector.replicate ETH_ALEN 1), .looked_up 0)] 0 :=
    ⟨_, List.mem_singleton_self _⟩
  exact collector_reproduces_table run hused

end bismark_passive.address_table
