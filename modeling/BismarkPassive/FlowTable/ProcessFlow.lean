import BismarkPassive.FlowTable.Probe

namespace bismark_passive.flow_table

open probing

/-- Visiting entries that have not expired changes nothing. -/
theorem expire_entries_of_not_expired {timestamp_seconds : Int} {table : flow_table_t} {visited : List Slot}
    (h : ∀ idx ∈ visited, ¬ (table.entries idx).Expired table.base_timestamp_seconds timestamp_seconds) :
    expire_entries timestamp_seconds table visited = table := by
  induction visited with
  | nil => rfl
  | cons idx rest ih =>
    obtain ⟨hidx, hrest⟩ := List.forall_mem_cons.mp h
    have hexpire : expire_entry timestamp_seconds table idx = table := if_neg hidx
    rw [expire_entries, List.foldl_cons, hexpire]
    exact ih hrest

/-- An entry that is live after expiry has not been touched by it. -/
theorem expire_entries_of_live {timestamp_seconds : Int} {table : flow_table_t} {visited : List Slot}
    {idx : Slot} (hlive : ((expire_entries timestamp_seconds table visited).entries idx).Live) :
    (expire_entries timestamp_seconds table visited).entries idx = table.entries idx := by
  rw [expire_entries_entries] at hlive ⊢
  split
  · rename_i hmem
    rw [if_pos hmem] at hlive
    exact flow_table_entry_t.lapse_of_not_expired (flow_table_entry_t.not_expired_of_lapse_live hlive)
  · rfl

/-- The search that the probe loop performs for a packet of this flow. -/
def flow_table_t.search (table : flow_table_t) (target : Target) (hash_function : flow_key → UInt32)
    (key : flow_key) (timestamp_seconds : Int) : List Slot × Outcome Slot :=
  scan (table.lapsed timestamp_seconds) key (probes target hash_function key) none

/-- Everything one call can do: the returned id, the slot of the entry it
inserts, and the table after it. -/
inductive Processed (target : Target) (hash_function : flow_key → UInt32) (table : flow_table_t)
    (new_entry : flow_table_entry_t) (timestamp_seconds : Int) : Nat → Option Slot → flow_table_t → Prop where
  | refused (hrefused : table.RefusesTime timestamp_seconds) :
      Processed target hash_function table new_entry timestamp_seconds FLOW_ID_ERROR none table.drop_flow
  | matched (visited : List Slot) (idx : Slot) (hadmitted : ¬ table.RefusesTime timestamp_seconds)
      (hsearch : table.search target hash_function new_entry.key timestamp_seconds = (visited, .found idx)) :
      Processed target hash_function table new_entry timestamp_seconds (flow_id idx) none
        (touch_entry target timestamp_seconds (expire_entries timestamp_seconds table visited) idx)
  | full (hadmitted : ¬ table.RefusesTime timestamp_seconds)
      (hsearch : table.search target hash_function new_entry.key timestamp_seconds =
        (probes target hash_function new_entry.key, .absent none)) :
      Processed target hash_function table new_entry timestamp_seconds FLOW_ID_ERROR none table.drop_flow
  | inserted (visited : List Slot) (idx : Slot) (hadmitted : ¬ table.RefusesTime timestamp_seconds)
      (hsearch : table.search target hash_function new_entry.key timestamp_seconds =
        (visited, .absent (some idx))) :
      Processed target hash_function table new_entry timestamp_seconds (flow_id idx) (some idx)
        (insert_entry target new_entry timestamp_seconds (expire_entries timestamp_seconds table visited) idx)

/-- A packet that finds every probe slot taken expires nothing on its way. -/
theorem search_full_not_expired {table : flow_table_t} {target : Target} {hash_function : flow_key → UInt32}
    {key : flow_key} {timestamp_seconds : Int}
    (h : (table.search target hash_function key timestamp_seconds).2 = .absent none) :
    ∀ idx ∈ probes target hash_function key,
      ¬ (table.entries idx).Expired table.base_timestamp_seconds timestamp_seconds := by
  intro idx hidx
  obtain ⟨other, hlive, _⟩ := scan_full_iff.mp h idx hidx
  exact flow_table_entry_t.not_expired_of_lapse_live (flow_table_entry_t.cell_live_iff.mp hlive).1

/-- A call goes one of these four ways. -/
theorem flow_table_process_flow_spec (target : Target) (hash_function : flow_key → UInt32)
    (table : flow_table_t) (new_entry : flow_table_entry_t) (timestamp_seconds : Int) :
    Processed target hash_function table new_entry timestamp_seconds
      (flow_table_process_flow target hash_function table new_entry timestamp_seconds).1
      (flow_table_insertion target hash_function table new_entry timestamp_seconds)
      (flow_table_process_flow target hash_function table new_entry timestamp_seconds).2 := by
  unfold flow_table_process_flow flow_table_insertion
  by_cases hrefused : table.RefusesTime timestamp_seconds
  · simp only [if_pos hrefused]
    exact .refused hrefused
  · simp only [if_neg hrefused, probe_loop_eq_scan]
    rcases hsearch : table.search target hash_function new_entry.key timestamp_seconds with ⟨visited, outcome⟩
    have hscan := hsearch
    rw [flow_table_t.search] at hscan
    rw [hscan]
    cases outcome with
    | found idx => exact .matched visited idx hrefused hsearch
    | absent available =>
      cases available with
      | some idx => exact .inserted visited idx hrefused hsearch
      | none =>
        have hvisited : visited = probes target hash_function new_entry.key := by
          have h := scan_full_visited (congrArg Prod.snd hscan)
          rw [hscan] at h
          exact h
        have hkeep := expire_entries_of_not_expired
          (search_full_not_expired (congrArg Prod.snd hsearch))
        subst hvisited
        simp only [scan_result, hkeep]
        exact .full hrefused hsearch

/-- The slot a search found holds the flow, not expired. -/
theorem search_found {table : flow_table_t} {target : Target} {hash_function : flow_key → UInt32}
    {key : flow_key} {timestamp_seconds : Int} {visited : List Slot} {idx : Slot}
    (h : table.search target hash_function key timestamp_seconds = (visited, .found idx)) :
    (table.entries idx).Live ∧ (table.entries idx).key = key ∧
      ¬ (table.entries idx).Expired table.base_timestamp_seconds timestamp_seconds ∧
      (expire_entries timestamp_seconds table visited).entries idx = table.entries idx := by
  have hcell := (scan_found (congrArg Prod.snd h)).1
  obtain ⟨hlive, hkey⟩ := flow_table_entry_t.cell_live_iff.mp hcell
  have hfresh := flow_table_entry_t.not_expired_of_lapse_live hlive
  have hlapse := flow_table_entry_t.lapse_of_not_expired hfresh
  rw [hlapse] at hlive hkey
  refine ⟨hlive, hkey, hfresh, ?_⟩
  rw [expire_entries_entries, hlapse, ite_self]

/-- Once the visited slots have lapsed, the same search runs on the table itself. -/
theorem search_eq_scan_cells {table : flow_table_t} {target : Target} {hash_function : flow_key → UInt32}
    {key : flow_key} {timestamp_seconds : Int} {visited : List Slot} {outcome : Outcome Slot}
    (h : table.search target hash_function key timestamp_seconds = (visited, outcome)) :
    scan (expire_entries timestamp_seconds table visited).cells key (probes target hash_function key) none =
      (visited, outcome) := by
  rw [flow_table_t.search] at h
  rw [← h]
  apply scan_congr
  rw [h]
  intro idx hidx
  rw [flow_table_t.cells, expire_entries_entries, if_pos hidx, flow_table_t.lapsed]

/-- The slot a search offers is free once the visited slots have lapsed. -/
theorem search_available {table : flow_table_t} {target : Target} {hash_function : flow_key → UInt32}
    {key : flow_key} {timestamp_seconds : Int} {visited : List Slot} {idx : Slot}
    (h : table.search target hash_function key timestamp_seconds = (visited, .absent (some idx))) :
    ¬ ((expire_entries timestamp_seconds table visited).entries idx).Live := by
  intro hlive
  have hscan := congrArg Prod.snd (search_eq_scan_cells h)
  exact (scan_available_reaches hscan).2 _ (flow_table_entry_t.cell_of_live hlive)

/-- The entries have the same record. -/
structure flow_table_entry_t.SameRecord (entry other : flow_table_entry_t) : Prop where
  key : entry.key = other.key
  source : entry.ip_source_unanonymized = other.ip_source_unanonymized
  destination : entry.ip_destination_unanonymized = other.ip_destination_unanonymized

theorem flow_table_entry_t.SameRecord.refl (entry : flow_table_entry_t) : entry.SameRecord entry :=
  ⟨rfl, rfl, rfl⟩

theorem flow_table_entry_t.SameRecord.trans {first second third : flow_table_entry_t}
    (h : first.SameRecord second) (h' : second.SameRecord third) : first.SameRecord third :=
  ⟨h.key.trans h'.key, h.source.trans h'.source, h.destination.trans h'.destination⟩

theorem flow_line_congr (s : Session) (idx : Slot) {entry other : flow_table_entry_t} (h : entry.SameRecord other) :
    flow_line s idx entry = flow_line s idx other := by
  have hkey := h.key
  simp only [flow_table_entry_t.key, flow_key.mk.injEq] at hkey
  simp only [flow_line, hkey, h.source, h.destination]

section touch

variable (target : Target) (timestamp_seconds : Int) (table : flow_table_t) (idx : Slot)

/-- A packet of a stored flow changes its time and its packet counter only. -/
theorem touch_entry_spec : ∃ num_packets : BitVec 4,
    touch_entry target timestamp_seconds table idx = table.store idx { table.entries idx with
      num_packets := num_packets
      last_update_time_seconds := Int16.ofInt (timestamp_seconds - table.base_timestamp_seconds) } := by
  unfold touch_entry
  simp only
  split
  · exact ⟨_, rfl⟩
  · exact ⟨(table.entries idx).num_packets, rfl⟩

@[simp] theorem touch_entry_base :
    (touch_entry target timestamp_seconds table idx).base_timestamp_seconds = table.base_timestamp_seconds := rfl

theorem touch_entry_other {other : Slot} (h : other ≠ idx) :
    (touch_entry target timestamp_seconds table idx).entries other = table.entries other := by
  obtain ⟨num_packets, htouch⟩ := touch_entry_spec target timestamp_seconds table idx
  rw [htouch, flow_table_t.store_entries, if_neg h]

/-- Touching an entry changes its time and its counter only. -/
theorem touch_entry_record (other : Slot) :
    ((touch_entry target timestamp_seconds table idx).entries other).SameRecord (table.entries other) := by
  obtain ⟨num_packets, htouch⟩ := touch_entry_spec target timestamp_seconds table idx
  rw [htouch, flow_table_t.store_entries]
  split
  · rename_i h
    rw [h]
    exact ⟨rfl, rfl, rfl⟩
  · exact .refl _

theorem touch_entry_occupied (other : Slot) :
    ((touch_entry target timestamp_seconds table idx).entries other).occupied =
      (table.entries other).occupied := by
  obtain ⟨num_packets, htouch⟩ := touch_entry_spec target timestamp_seconds table idx
  rw [htouch, flow_table_t.store_entries]
  split
  · rename_i h
    rw [h]
  · rfl

theorem touch_entry_last :
    ((touch_entry target timestamp_seconds table idx).entries idx).last_update_time_seconds =
      Int16.ofInt (timestamp_seconds - table.base_timestamp_seconds) := by
  obtain ⟨num_packets, htouch⟩ := touch_entry_spec target timestamp_seconds table idx
  rw [htouch, flow_table_t.store_entries, if_pos rfl]

end touch

section insert

variable (target : Target) (new_entry : flow_table_entry_t) (timestamp_seconds : Int) (table : flow_table_t)
  (idx : Slot)

theorem insert_entry_other {other : Slot} (h : other ≠ idx) :
    (insert_entry target new_entry timestamp_seconds table idx).entries other = table.entries other := by
  simp only [insert_entry, flow_table_t.store_entries, if_neg h]

theorem insert_entry_record :
    ((insert_entry target new_entry timestamp_seconds table idx).entries idx).SameRecord new_entry := by
  simp only [insert_entry, flow_table_t.store_entries, if_pos]
  exact ⟨rfl, rfl, rfl⟩

theorem insert_entry_key :
    ((insert_entry target new_entry timestamp_seconds table idx).entries idx).key = new_entry.key :=
  (insert_entry_record ..).key

theorem insert_entry_occupied :
    ((insert_entry target new_entry timestamp_seconds table idx).entries idx).occupied =
      .ENTRY_OCCUPIED_BUT_UNSENT := by
  simp only [insert_entry, flow_table_t.store_entries, if_pos]

end insert

section processed

variable {target : Target} {hash_function : flow_key → UInt32} {table table' : flow_table_t}
  {new_entry : flow_table_entry_t} {timestamp_seconds : Int} {id : Nat} {insertion : Option Slot}

/-- Outside the slot of an insertion, every live entry was live before, with
the same flow in it. -/
theorem Processed.survivor
    (h : Processed target hash_function table new_entry timestamp_seconds id insertion table') {idx : Slot}
    (hold : insertion ≠ some idx) (hlive : (table'.entries idx).Live) :
    (table.entries idx).Live ∧ (table'.entries idx).occupied = (table.entries idx).occupied ∧
      (table'.entries idx).SameRecord (table.entries idx) := by
  cases h with
  | refused => exact ⟨hlive, rfl, .refl _⟩
  | full => exact ⟨hlive, rfl, .refl _⟩
  | matched visited slot hadmitted hsearch =>
    rw [flow_table_entry_t.Live, touch_entry_occupied] at hlive
    have hsame := expire_entries_of_live hlive
    have hrecord := touch_entry_record target timestamp_seconds (expire_entries timestamp_seconds table visited)
      slot idx
    rw [hsame] at hrecord hlive
    exact ⟨hlive, by rw [touch_entry_occupied, hsame], hrecord⟩
  | inserted visited slot hadmitted hsearch =>
    have hne : idx ≠ slot := fun heq => hold (congrArg some heq.symm)
    rw [insert_entry_other _ _ _ _ _ hne] at hlive ⊢
    have hsame := expire_entries_of_live hlive
    rw [hsame] at hlive ⊢
    exact ⟨hlive, rfl, .refl _⟩

/-- A live entry that the packet does not find expired stays, with its flow. -/
theorem Processed.stays
    (h : Processed target hash_function table new_entry timestamp_seconds id insertion table') {idx : Slot}
    (hlive : (table.entries idx).Live)
    (hfresh : ¬ (table.entries idx).Expired table.base_timestamp_seconds timestamp_seconds) :
    insertion ≠ some idx ∧ (table'.entries idx).occupied = (table.entries idx).occupied ∧
      (table'.entries idx).SameRecord (table.entries idx) := by
  have hkept (visited : List Slot) :
      (expire_entries timestamp_seconds table visited).entries idx = table.entries idx := by
    rw [expire_entries_entries, flow_table_entry_t.lapse_of_not_expired hfresh, ite_self]
  cases h with
  | refused => exact ⟨by simp, rfl, .refl _⟩
  | full => exact ⟨by simp, rfl, .refl _⟩
  | matched visited slot hadmitted hsearch =>
    have hrecord := touch_entry_record target timestamp_seconds (expire_entries timestamp_seconds table visited)
      slot idx
    rw [hkept] at hrecord
    exact ⟨by simp, by rw [touch_entry_occupied, hkept], hrecord⟩
  | inserted visited slot hadmitted hsearch =>
    -- The slot of the insertion is free, and this one is not.
    have hne : idx ≠ slot := by
      rintro rfl
      exact search_available hsearch ((hkept visited).symm ▸ hlive)
    rw [insert_entry_other _ _ _ _ _ hne, hkept]
    exact ⟨fun heq => hne (Option.some.inj heq).symm, rfl, .refl _⟩

/-- An inserted entry is unsent and has the record of the packet's flow. -/
theorem Processed.arrives
    (h : Processed target hash_function table new_entry timestamp_seconds id insertion table') {idx : Slot}
    (hnew : insertion = some idx) :
    id = flow_id idx ∧ (table'.entries idx).occupied = .ENTRY_OCCUPIED_BUT_UNSENT ∧
      (table'.entries idx).SameRecord new_entry := by
  cases h with
  | refused => simp at hnew
  | full => simp at hnew
  | matched visited slot hadmitted hsearch => simp at hnew
  | inserted visited slot hadmitted hsearch =>
    obtain rfl := Option.some.inj hnew
    exact ⟨rfl, insert_entry_occupied .., insert_entry_record ..⟩

end processed

section refusal

variable (target : Target) (hash_function : flow_key → UInt32) (table : flow_table_t)

/-- Every probe slot of the flow holds a live entry of another flow, and none
of them may be expired. -/
def flow_table_t.Crowded (key : flow_key) (timestamp_seconds : Int) : Prop :=
  ∀ probe < HT_NUM_PROBES,
    let entry := table.entries (table_idx target (hash_function key) probe)
    entry.Live ∧ entry.key ≠ key ∧ ¬ entry.Expired table.base_timestamp_seconds timestamp_seconds

/-- What is live and has not expired stays live. -/
theorem flow_table_entry_t.lapse_live_iff {base timestamp_seconds : Int} {entry : flow_table_entry_t} :
    (entry.lapse base timestamp_seconds).Live ↔ entry.Live ∧ ¬ entry.Expired base timestamp_seconds := by
  constructor
  · intro hlive
    have hfresh := not_expired_of_lapse_live hlive
    rw [lapse_of_not_expired hfresh] at hlive
    exact ⟨hlive, hfresh⟩
  · rintro ⟨hlive, hfresh⟩
    rw [lapse_of_not_expired hfresh]
    exact hlive

/-- The search overlooks no free slot: it goes without an offer only where
there is none. -/
theorem search_full_iff (key : flow_key) (timestamp_seconds : Int) :
    (table.search target hash_function key timestamp_seconds).2 = .absent none ↔
      table.Crowded target hash_function key timestamp_seconds := by
  have hslot (idx : Slot) : (∃ other, table.lapsed timestamp_seconds idx = .live other ∧ other ≠ key) ↔
      (table.entries idx).Live ∧ (table.entries idx).key ≠ key ∧
        ¬ (table.entries idx).Expired table.base_timestamp_seconds timestamp_seconds := by
    simp only [flow_table_t.lapsed, flow_table_entry_t.cell_live_iff, flow_table_entry_t.lapse_live_iff,
      flow_table_entry_t.lapse_key]
    constructor
    · rintro ⟨other, ⟨⟨hlive, hfresh⟩, rfl⟩, hother⟩
      exact ⟨hlive, hother, hfresh⟩
    · rintro ⟨hlive, hother, hfresh⟩
      exact ⟨_, ⟨⟨hlive, hfresh⟩, rfl⟩, hother⟩
  rw [flow_table_t.search, scan_full_iff]
  simp only [hslot, probes, List.forall_mem_map, List.mem_range, flow_table_t.Crowded]

variable {target hash_function table}

theorem flow_id_ne_error (idx : Slot) : flow_id idx ≠ FLOW_ID_ERROR := by
  simp [flow_id, FLOW_ID_ERROR, FLOW_ID_FIRST_UNRESERVED]

/-- A call that ends with an id has an admitted time and found or was offered a
slot. -/
theorem Processed.accepted_iff {new_entry : flow_table_entry_t} {timestamp_seconds : Int} {id : Nat}
    {insertion : Option Slot} {table' : flow_table_t}
    (h : Processed target hash_function table new_entry timestamp_seconds id insertion table') :
    id ≠ FLOW_ID_ERROR ↔ ¬ table.RefusesTime timestamp_seconds ∧
      ¬ table.Crowded target hash_function new_entry.key timestamp_seconds := by
  rw [← search_full_iff]
  cases h with
  | refused hrefused =>
    exact ⟨fun h => absurd rfl h, fun h => absurd hrefused h.1⟩
  | full hadmitted hsearch =>
    rw [hsearch]
    exact ⟨fun h => absurd rfl h, fun h => absurd rfl h.2⟩
  | matched visited idx hadmitted hsearch =>
    rw [hsearch]
    exact ⟨fun _ => ⟨hadmitted, by simp⟩, fun _ => flow_id_ne_error idx⟩
  | inserted visited idx hadmitted hsearch =>
    rw [hsearch]
    exact ⟨fun _ => ⟨hadmitted, by simp⟩, fun _ => flow_id_ne_error idx⟩

/-- A refused packet changes the count of dropped flows only. -/
theorem Processed.refusal {new_entry : flow_table_entry_t} {timestamp_seconds : Int} {id : Nat}
    {insertion : Option Slot} {table' : flow_table_t}
    (h : Processed target hash_function table new_entry timestamp_seconds id insertion table')
    (hid : id = FLOW_ID_ERROR) : table' = table.drop_flow := by
  cases h with
  | refused => rfl
  | full => rfl
  | matched visited idx hadmitted hsearch => exact absurd hid (flow_id_ne_error idx)
  | inserted visited idx hadmitted hsearch => exact absurd hid (flow_id_ne_error idx)

/-- A flow is refused only when it must be, and a refusal changes nothing but
the number of refusals. -/
theorem flow_table_process_flow_refuses_iff (target : Target) (hash_function : flow_key → UInt32)
    (table : flow_table_t) (new_entry : flow_table_entry_t) (timestamp_seconds : Int) :
    let result := flow_table_process_flow target hash_function table new_entry timestamp_seconds
    (result.1 = FLOW_ID_ERROR ↔ table.RefusesTime timestamp_seconds ∨
        table.Crowded target hash_function new_entry.key timestamp_seconds) ∧
      (result.1 = FLOW_ID_ERROR → result.2.entries = table.entries ∧
        result.2.base_timestamp_seconds = table.base_timestamp_seconds ∧
        result.2.num_elements = table.num_elements ∧ result.2.num_expired_flows = table.num_expired_flows ∧
        result.2.num_dropped_flows = table.num_dropped_flows + 1) := by
  intro result
  have hprocessed := flow_table_process_flow_spec target hash_function table new_entry timestamp_seconds
  constructor
  · have haccepted := hprocessed.accepted_iff
    rw [← not_or] at haccepted
    exact not_iff_not.mp haccepted
  · intro hid
    have htable : result.2 = table.drop_flow := hprocessed.refusal hid
    rw [htable]
    exact ⟨rfl, rfl, rfl, rfl, rfl⟩

end refusal

end bismark_passive.flow_table
