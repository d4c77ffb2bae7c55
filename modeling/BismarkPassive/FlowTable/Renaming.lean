import BismarkPassive.FlowTable.Update
import Mathlib.Logic.Equiv.Defs

namespace bismark_passive.flow_table

variable {rename : Equiv.Perm UInt32}

def flow_key.renamed (rename : Equiv.Perm UInt32) (key : flow_key) : flow_key :=
  { key with ip_source := rename key.ip_source, ip_destination := rename key.ip_destination }

theorem flow_key.renamed_inj {key other : flow_key} : key.renamed rename = other.renamed rename ↔ key = other := by
  cases key
  cases other
  simp only [flow_key.renamed, flow_key.mk.injEq, EmbeddingLike.apply_eq_iff_eq]

def flow_table_entry_t.renamed (rename : Equiv.Perm UInt32) (entry : flow_table_entry_t) : flow_table_entry_t :=
  { entry with ip_source := rename entry.ip_source, ip_destination := rename entry.ip_destination }

@[simp] theorem flow_table_entry_t.renamed_key (entry : flow_table_entry_t) :
    (entry.renamed rename).key = entry.key.renamed rename := rfl

/-- The entries are of flows whose addresses correspond, or have never been used. -/
def flow_table_entry_t.Corresponds (rename : Equiv.Perm UInt32) (entry other : flow_table_entry_t) : Prop :=
  other = entry.renamed rename ∨ entry.occupied = .ENTRY_EMPTY ∧ other = entry

section entries

variable {entry other : flow_table_entry_t} (h : entry.Corresponds rename other)

include h

theorem flow_table_entry_t.Corresponds.occupied : other.occupied = entry.occupied := by
  rcases h with rfl | ⟨_, rfl⟩ <;> rfl

theorem flow_table_entry_t.Corresponds.last :
    other.last_update_time_seconds = entry.last_update_time_seconds := by
  rcases h with rfl | ⟨_, rfl⟩ <;> rfl

theorem flow_table_entry_t.Corresponds.live_iff : other.Live ↔ entry.Live := by
  rw [flow_table_entry_t.Live, flow_table_entry_t.Live, h.occupied]

theorem flow_table_entry_t.Corresponds.expired_iff (base timestamp_seconds : Int) :
    other.Expired base timestamp_seconds ↔ entry.Expired base timestamp_seconds := by
  rw [flow_table_entry_t.Expired, flow_table_entry_t.Expired, h.occupied, h.last]

theorem flow_table_entry_t.Corresponds.eq_of_live (hlive : entry.Live) : other = entry.renamed rename := by
  obtain hrenamed | ⟨hempty, _⟩ := h
  · exact hrenamed
  · simp [flow_table_entry_t.Live, hempty] at hlive

/-- A packet of corresponding flows finds them the same or different in both entries. -/
theorem flow_table_entry_t.Corresponds.compare (hlive : entry.Live) (new_entry : flow_table_entry_t) :
    flow_entry_compare (new_entry.renamed rename) other = flow_entry_compare new_entry entry := by
  rw [h.eq_of_live hlive, Bool.eq_iff_iff, flow_entry_compare_iff, flow_entry_compare_iff,
    flow_table_entry_t.renamed_key, flow_table_entry_t.renamed_key, flow_key.renamed_inj]

end entries

/-- The tables hold corresponding flows in the same slots. -/
structure flow_table_t.Corresponds (rename : Equiv.Perm UInt32) (table other : flow_table_t) : Prop where
  entries : ∀ idx, (table.entries idx).Corresponds rename (other.entries idx)
  base : other.base_timestamp_seconds = table.base_timestamp_seconds
  num_elements : other.num_elements = table.num_elements
  num_expired_flows : other.num_expired_flows = table.num_expired_flows
  num_dropped_flows : other.num_dropped_flows = table.num_dropped_flows

theorem flow_table_init_corresponds : flow_table_init.Corresponds rename flow_table_init where
  entries _ := .inr ⟨rfl, rfl⟩
  base := rfl
  num_elements := rfl
  num_expired_flows := rfl
  num_dropped_flows := rfl

/-! What the functions on the table do to corresponding tables -/

section tables

variable {table other : flow_table_t} (h : table.Corresponds rename other)

include h

/-- Corresponding entries may be stored in a slot of corresponding tables. -/
theorem flow_table_t.Corresponds.store {entry entry' : flow_table_entry_t} (hentry : entry.Corresponds rename entry')
    (idx : Slot) : (table.store idx entry).Corresponds rename (other.store idx entry') where
  entries slot := by
    rw [flow_table_t.store_entries, flow_table_t.store_entries]
    split
    · exact hentry
    · exact h.entries slot
  base := h.base
  num_elements := h.num_elements
  num_expired_flows := h.num_expired_flows
  num_dropped_flows := h.num_dropped_flows

theorem flow_table_t.Corresponds.store_deleted {idx : Slot} (hlive : (table.entries idx).Live) :
    (table.store idx { table.entries idx with occupied := .ENTRY_DELETED }).Corresponds rename
      (other.store idx { other.entries idx with occupied := .ENTRY_DELETED }) := by
  rw [(h.entries idx).eq_of_live hlive]
  exact h.store (.inl rfl) idx

/-- The tables still correspond when an entry has expired. -/
theorem flow_table_t.Corresponds.expire_entry (timestamp_seconds : Int) (idx : Slot) :
    (expire_entry timestamp_seconds table idx).Corresponds rename (expire_entry timestamp_seconds other idx) := by
  have hentry := h.entries idx
  simp only [flow_table.expire_entry, h.base, hentry.expired_iff]
  split
  · rename_i hexpired
    have hstore := h.store_deleted (.inl hexpired.1)
    exact ⟨hstore.entries, hstore.base, congrArg (· - 1) h.num_elements, congrArg (· + 1) h.num_expired_flows,
      hstore.num_dropped_flows⟩
  · exact h

/-- Touching corresponding entries keeps the tables in correspondence. -/
theorem flow_table_t.Corresponds.touch_entry (target : Target) (timestamp_seconds : Int) {idx : Slot}
    (hlive : (table.entries idx).Live) :
    (touch_entry target timestamp_seconds table idx).Corresponds rename
      (touch_entry target timestamp_seconds other idx) := by
  have hrenamed := (h.entries idx).eq_of_live hlive
  simp only [flow_table.touch_entry, h.base, hrenamed]
  apply h.store
  left
  rw [apply_ite (flow_table_entry_t.renamed rename)]
  rfl

theorem flow_table_t.Corresponds.drop_flow : table.drop_flow.Corresponds rename other.drop_flow :=
  ⟨h.entries, h.base, h.num_elements, h.num_expired_flows, congrArg (· + 1) h.num_dropped_flows⟩

theorem flow_table_t.Corresponds.insert_entry (target : Target) (new_entry : flow_table_entry_t)
    (timestamp_seconds : Int) (idx : Slot) :
    (insert_entry target new_entry timestamp_seconds table idx).Corresponds rename
      (insert_entry target (new_entry.renamed rename) timestamp_seconds other idx) := by
  simp only [flow_table.insert_entry, h.base, h.num_elements]
  refine ⟨(h.store ?_ idx).entries, rfl, rfl, h.num_expired_flows, h.num_dropped_flows⟩
  exact .inl rfl

theorem flow_table_t.Corresponds.refusesTime_iff (timestamp_seconds : Int) :
    other.RefusesTime timestamp_seconds ↔ table.RefusesTime timestamp_seconds := by
  rw [flow_table_t.RefusesTime, flow_table_t.RefusesTime, h.base, h.num_elements]

/-- So does rebasing them. -/
theorem flow_table_t.Corresponds.advance_entry (offset : Int) (idx : Slot) :
    (advance_entry offset table idx).Corresponds rename (advance_entry offset other idx) := by
  have hentry := h.entries idx
  have hlast := hentry.last
  simp only [flow_table.advance_entry, hentry.live_iff]
  split
  · rename_i hlive
    by_cases hlost :
        (table.entries idx).last_update_time_seconds.toInt - offset < FLOW_TABLE_MIN_UPDATE_OFFSET
    · rw [if_pos hlost, if_pos (by rwa [hlast])]
      have hstore := h.store_deleted hlive
      exact ⟨hstore.entries, hstore.base, congrArg (· - 1) h.num_elements, hstore.num_expired_flows,
        hstore.num_dropped_flows⟩
    · rw [if_neg hlost, if_neg (by rwa [hlast]), hentry.eq_of_live hlive]
      exact h.store (.inl rfl) idx
  · exact h

theorem flow_table_t.Corresponds.set_base (new_timestamp : Int) :
    (table.set_base new_timestamp).Corresponds rename (other.set_base new_timestamp) :=
  ⟨h.entries, rfl, h.num_elements, h.num_expired_flows, h.num_dropped_flows⟩

/-- Marking entries as sent keeps the tables in correspondence. -/
theorem flow_table_t.Corresponds.mark_sent (written : List Slot) :
    (table.mark_sent written).Corresponds rename (other.mark_sent written) := by
  refine ⟨fun idx => ?_, h.base, h.num_elements, h.num_expired_flows, h.num_dropped_flows⟩
  have hentry := h.entries idx
  have hoccupied := hentry.occupied
  simp only [flow_table_t.mark_sent]
  split
  · unfold flow_table_entry_t.sent
    rw [hoccupied]
    split
    · rename_i hunsent
      have hrenamed := hentry.eq_of_live (.inr hunsent)
      rw [hrenamed]
      exact .inl rfl
    · exact hentry
  · exact hentry

end tables

/-- Probe loops end alike: with the same slot, and corresponding tables. -/
inductive probe_result.Corresponds (rename : Equiv.Perm UInt32) : probe_result → probe_result → Prop where
  | matched (idx : Slot) {table other : flow_table_t} (h : table.Corresponds rename other) :
      Corresponds rename (.matched idx table) (.matched idx other)
  | exhausted (first_available : Option Slot) {table other : flow_table_t} (h : table.Corresponds rename other) :
      Corresponds rename (.exhausted first_available table) (.exhausted first_available other)

/-- The probes visit corresponding entries and end the same way. -/
theorem probe_loop_corresponds (target : Target) (new_entry : flow_table_entry_t) (timestamp_seconds : Int)
    (slots : List Slot) (first_available : Option Slot) {table other : flow_table_t}
    (h : table.Corresponds rename other) :
    (probe_loop target new_entry timestamp_seconds slots first_available table).Corresponds rename
      (probe_loop target (new_entry.renamed rename) timestamp_seconds slots first_available other) := by
  induction slots generalizing first_available table other with
  | nil => exact .exhausted first_available h
  | cons idx rest ih =>
    have hexpire := h.expire_entry timestamp_seconds idx
    have hentry := hexpire.entries idx
    have hlive_iff := hentry.live_iff
    rw [probe_loop, probe_loop]
    by_cases hlive : ((expire_entry timestamp_seconds table idx).entries idx).Live
    · have hlive' := hlive_iff.mpr hlive
      have hcompare := hentry.compare hlive new_entry
      by_cases hsame : flow_entry_compare new_entry ((expire_entry timestamp_seconds table idx).entries idx) = true
      · simp only [if_pos (And.intro hlive hsame), if_pos (And.intro hlive' (hcompare.trans hsame))]
        exact .matched idx (hexpire.touch_entry target timestamp_seconds hlive)
      · have hother : ¬ flow_entry_compare (new_entry.renamed rename)
            ((expire_entry timestamp_seconds other idx).entries idx) = true := hcompare ▸ hsame
        simp only [hsame, hother, hlive, hlive', not_true_eq_false, if_false]
        exact ih first_available hexpire
    · have hdead := mt hlive_iff.mp hlive
      simp only [hlive, hdead, false_and, not_false_eq_true, if_true, if_false, hentry.occupied]
      split
      · exact .exhausted _ hexpire
      · exact ih _ hexpire

/-- Calls for corresponding flows with the same probe path return the same id. -/
theorem flow_table_process_flow_corresponds {target : Target} {hash_function : flow_key → UInt32}
    {table other : flow_table_t} (h : table.Corresponds rename other) (new_entry : flow_table_entry_t)
    (hprobes : probes target hash_function (new_entry.key.renamed rename) = probes target hash_function new_entry.key)
    (timestamp_seconds : Int) :
    (flow_table_process_flow target hash_function other (new_entry.renamed rename) timestamp_seconds).1 =
        (flow_table_process_flow target hash_function table new_entry timestamp_seconds).1 ∧
      (flow_table_process_flow target hash_function table new_entry timestamp_seconds).2.Corresponds rename
        (flow_table_process_flow target hash_function other (new_entry.renamed rename) timestamp_seconds).2 := by
  simp only [flow_table_process_flow, h.refusesTime_iff, flow_table_entry_t.renamed_key, hprobes]
  by_cases hrefused : table.RefusesTime timestamp_seconds
  · rw [if_pos hrefused, if_pos hrefused]
    exact ⟨rfl, h.drop_flow⟩
  · rw [if_neg hrefused, if_neg hrefused]
    have hloop := probe_loop_corresponds target new_entry timestamp_seconds
      (probes target hash_function new_entry.key) none h
    generalize probe_loop target new_entry timestamp_seconds (probes target hash_function new_entry.key) none table =
      result, probe_loop target (new_entry.renamed rename) timestamp_seconds
        (probes target hash_function new_entry.key) none other = result' at hloop ⊢
    cases hloop with
    | matched idx htables => exact ⟨rfl, htables⟩
    | exhausted first_available htables =>
      cases first_available with
      | none => exact ⟨rfl, htables.drop_flow⟩
      | some idx => exact ⟨rfl, htables.insert_entry target new_entry timestamp_seconds idx⟩

/-- Moving the base keeps the tables in correspondence. -/
theorem flow_table_advance_base_timestamp_corresponds {table other : flow_table_t} (h : table.Corresponds rename other)
    (new_timestamp : Int) :
    (flow_table_advance_base_timestamp table new_timestamp).Corresponds rename
      (flow_table_advance_base_timestamp other new_timestamp) := by
  have hloop (offset : Int) (visited : List Slot) {table other : flow_table_t} (h : table.Corresponds rename other) :
      (visited.foldl (advance_entry offset) table).Corresponds rename
        (visited.foldl (advance_entry offset) other) := by
    induction visited generalizing table other with
    | nil => exact h
    | cons idx rest ih => exact ih (h.advance_entry offset idx)
  rw [flow_table_advance_base_timestamp, flow_table_advance_base_timestamp, h.base]
  exact (hloop _ all_slots h).set_base new_timestamp

/-! What is printed of corresponding tables -/

section sections

variable {s s' : Session} (hanonymized : s.target.disable_anonymization = false) (htarget : s'.target = s.target)
  (hdigests : ∀ address, anonymize_ip s' (rename address) = anonymize_ip s address) {table other : flow_table_t}
  (h : table.Corresponds rename other)
  (hflags : ∀ idx, (table.entries idx).Live →
    (table.entries idx).ip_source_unanonymized = false ∧ (table.entries idx).ip_destination_unanonymized = false)

include hanonymized htarget hdigests h hflags

theorem flow_line_corresponds {idx : Slot} (hunsent : (table.entries idx).occupied = .ENTRY_OCCUPIED_BUT_UNSENT) :
    flow_line s' idx (other.entries idx) = flow_line s idx (table.entries idx) := by
  obtain ⟨hsource, hdestination⟩ := hflags idx (.inr hunsent)
  rw [(h.entries idx).eq_of_live (.inr hunsent)]
  simp only [flow_line, address_digest, flow_table_entry_t.renamed, htarget, hanonymized, hsource, hdestination,
    Bool.or_self, Bool.false_eq_true, if_false, hdigests]

/-- The records and the counters are the same. -/
theorem flow_section_corresponds : flow_section s' other = flow_section s table := by
  have hlines : flow_lines s' other all_slots = flow_lines s table all_slots := by
    apply List.filterMap_congr
    intro idx _
    rw [(h.entries idx).occupied]
    split
    · rename_i hunsent
      exact flow_line_corresponds hanonymized htarget hdigests h hflags hunsent
    · rfl
  rw [flow_section, flow_section, hlines, h.base, h.num_elements, h.num_expired_flows, h.num_dropped_flows]

end sections

end bismark_passive.flow_table
