import BismarkPassive.Dns.Table
import BismarkPassive.Printing
import BismarkPassive.Reference

namespace bismark_passive.dns

/-- The calls that `dns_table_write_update` makes. -/
def dns_table_lines (s : Session) (table : dns_table_t) : List (Option Line) :=
  some (.dns table.num_dropped_a_entries table.num_dropped_cname_entries) ::
    (table.a_entries.items.map (a_line s table) ++
      some .blank :: (table.cname_entries.items.map (cname_line s table) ++ [some .blank]))

theorem dns_table_write_update_prints (s : Session) (table : dns_table_t) :
    Prints (dns_table_write_update s table) (dns_table_lines s table) :=
  prints_line (prints_lines (prints_line (prints_lines prints_blank _) _) _) _

/-- The names that are looked up in the filter for each of the calls. In an A
line the address comes first, and its digest needs the anonymiser. -/
def lookups (s : Session) (table : dns_table_t) : List (List cstring) :=
  [] :: (table.a_entries.items.map (fun entry =>
      if s.target.disable_anonymization || s.anonymization.initialized then [entry.domain_name] else []) ++
    [] :: (table.cname_entries.items.map (fun entry => [entry.domain_name, entry.cname]) ++ [[]]))

/-- The writer gets to composing a line if the calls before it pass. -/
def Reaches (s : Session) (table : dns_table_t) (handle : gzFile) (position : Nat) : Prop :=
  Passes handle.gzprintf_returns handle.calls ((dns_table_lines s table).take position)

/-- No lookup on the way meets a hash function or a bit array that is not set. -/
def LooksUpSafely (s : Session) (table : dns_table_t) (handle : gzFile) : Prop :=
  ∀ position names, (lookups s table)[position]? = some names → Reaches s table handle position →
    ∀ name ∈ names, (bloom_whitelist_lookup table.bloom name).isSome

/-- The writer works as with a filter that matches no name. -/
structure WorksDisabled (s : Session) (table : dns_table_t) (handle : gzFile) : Prop where
  safe : LooksUpSafely s table handle
  same : ∀ other, (∀ name, bloom_whitelist_lookup other name = some (-1)) →
    dns_table_write_update s table handle = dns_table_write_update s { table with bloom := other } handle

variable {s : Session} {table : dns_table_t} {handle : gzFile}

theorem Reaches.of_le {position earlier : Nat} (h : Reaches s table handle position) (hle : earlier ≤ position) :
    Reaches s table handle earlier := by
  obtain ⟨rest, hrest⟩ := List.take_prefix_take_left hle
  rw [Reaches, ← hrest, passes_append] at h
  exact h.1

theorem reaches_one : Reaches s table handle 1 ↔ handle.gzprintf_returns handle.calls ≠ 0 :=
  passes_singleton

theorem reaches_two (ha : table.a_entries.items = []) : Reaches s table handle 2 ↔
    handle.gzprintf_returns handle.calls ≠ 0 ∧ handle.gzprintf_returns (handle.calls + 1) ≠ 0 := by
  have hlines : (dns_table_lines s table).take 2 =
      [some (.dns table.num_dropped_a_entries table.num_dropped_cname_entries), some .blank] := by
    rw [dns_table_lines, ha]
    rfl
  rw [Reaches, hlines, passes_cons, passes_singleton]

/-- Nothing is left to be looked up when the writer stops. -/
def LooksNothingUp (table : dns_table_t) (handle : gzFile) : Prop :=
  (table.a_entries.items = [] ∧ table.cname_entries.items = []) ∨ handle.gzprintf_returns handle.calls = 0 ∨
    (table.a_entries.items = [] ∧ handle.gzprintf_returns (handle.calls + 1) = 0)

/-- If no name can be looked up, it is enough to consider the first one. -/
theorem looksUpSafely_iff (hinitialized : s.Initialized)
    (hnone : ∀ name, bloom_whitelist_lookup table.bloom name = none) :
    LooksUpSafely s table handle ↔ LooksNothingUp table handle := by
  have hcomposed : (s.target.disable_anonymization || s.anonymization.initialized) = true := by
    cases hanonymized : s.target.disable_anonymization with
    | true => rfl
    | false => exact hinitialized hanonymized
  constructor
  · intro hsafe
    cases ha : table.a_entries.items with
    | cons entry rest =>
      refine .inr (.inl ?_)
      by_contra hprinted
      have hfound := hsafe 1 [entry.domain_name] (by simp [lookups, ha, hcomposed])
        (reaches_one.mpr hprinted) _ List.mem_cons_self
      rw [hnone] at hfound
      cases hfound
    | nil =>
      cases hcname : table.cname_entries.items with
      | nil => exact .inl ⟨ha, hcname⟩
      | cons entry rest =>
        by_contra hreaches
        simp only [LooksNothingUp, ha, hcname, true_and, not_or] at hreaches
        obtain ⟨-, hprinted, hblank⟩ := hreaches
        have hfound := hsafe 2 [entry.domain_name, entry.cname] (by rw [lookups, ha, hcname]; rfl)
          ((reaches_two ha).mpr ⟨hprinted, hblank⟩) _ List.mem_cons_self
        rw [hnone] at hfound
        cases hfound
  · intro hnothing position names hnames hreaches name hname
    have hpositive : 1 ≤ position := by
      apply Nat.one_le_iff_ne_zero.mpr
      rintro rfl
      cases hnames
      cases hname
    have hprinted := reaches_one.mp (hreaches.of_le hpositive)
    obtain ⟨ha, hcname⟩ | hheader | ⟨ha, hblank⟩ := hnothing
    · rw [lookups, ha, hcname] at hnames
      have hmem := List.mem_of_getElem? hnames
      simp only [List.map_nil, List.nil_append, List.mem_cons, List.not_mem_nil, or_false, or_self] at hmem
      rw [hmem] at hname
      cases hname
    · exact absurd hheader hprinted
    · have htwo : 2 ≤ position := by
        apply Nat.lt_of_le_of_ne hpositive
        rintro rfl
        rw [lookups, ha] at hnames
        cases hnames
        cases hname
      exact absurd hblank ((reaches_two ha).mp (hreaches.of_le htwo)).2

/-- A writer that looks nothing up does not depend on the filter. -/
theorem dns_table_write_update_bloom (hnothing : LooksNothingUp table handle) (other : bloom_whitelist_t) :
    dns_table_write_update s table handle = dns_table_write_update s { table with bloom := other } handle := by
  obtain ⟨ha, hcname⟩ | hheader | ⟨ha, hblank⟩ := hnothing
  · simp only [dns_table_write_update, ha, hcname, List.map_nil]
  · simp only [dns_table_write_update, write_line, gzprintf, hheader, if_true]
  · simp only [dns_table_write_update, ha, List.map_nil, write_lines, write_line, gzprintf, hblank, if_true]

/-- After a failed load the table is written as with a filter that matches no
name exactly if nothing is looked up: the first name makes the process crash. -/
theorem failed_load_disables_iff (hinitialized : s.Initialized) {io : filter_io}
    (hfailed : (initialize_bloom_whitelist io).1 = -1) (hbloom : table.bloom = (initialize_bloom_whitelist io).2) :
    WorksDisabled s table handle ↔ LooksNothingUp table handle := by
  have hnone (name : cstring) : bloom_whitelist_lookup table.bloom name = none := by
    rw [hbloom]
    exact bloom_whitelist_lookup_unloaded hfailed name
  rw [← @looksUpSafely_iff s table handle hinitialized hnone]
  constructor
  · exact WorksDisabled.safe
  · intro hsafe
    refine ⟨hsafe, fun other _ => ?_⟩
    exact dns_table_write_update_bloom ((looksUpSafely_iff hinitialized hnone).mp hsafe) other

/-- The filter file is not there. -/
def missing_filter : filter_io where
  calloc := true
  filter := none
  malloc := true

/-- The table of a program without a filter file. -/
def unfiltered_table : dns_table_t :=
  dns_table_init (some domain_whitelist_init) (initialize_bloom_whitelist missing_filter).2

/-- The same with the address of the root name. -/
def unfiltered_entry_table : dns_table_t :=
  { unfiltered_table with a_entries := ⟨[⟨0, 0, [], 0x0a000001, 60⟩], by decide⟩ }

/-- The table without entries can be written, the other one cannot. -/
theorem failed_load_disables_iff_missing_filter :
    WorksDisabled anonymizing_session unfiltered_table healthy_file ∧
      ¬ WorksDisabled anonymizing_session unfiltered_entry_table healthy_file := by
  constructor
  · apply (@failed_load_disables_iff anonymizing_session _ _ (fun _ => rfl) missing_filter rfl rfl).mpr
    exact .inl ⟨rfl, rfl⟩
  · intro hdisabled
    have hnothing :=
      (@failed_load_disables_iff anonymizing_session _ _ (fun _ => rfl) missing_filter rfl rfl).mp hdisabled
    simp [LooksNothingUp, unfiltered_entry_table, healthy_file] at hnothing

/-- One address record is enough for the process to crash in the next update. -/
theorem failed_load_crashes :
    ¬ ∀ (s : Session) (io : filter_io) (table : dns_table_t) (handle : gzFile), s.Initialized →
      (initialize_bloom_whitelist io).1 = -1 → table.bloom = (initialize_bloom_whitelist io).2 →
      WorksDisabled s table handle := by
  intro hdisabled
  have hsafe := (hdisabled anonymizing_session missing_filter unfiltered_entry_table healthy_file
    (fun _ => rfl) rfl rfl).safe
  have hnone := @bloom_whitelist_lookup_unloaded missing_filter rfl
  have hnothing := (looksUpSafely_iff (fun _ => rfl) hnone).mp hsafe
  simp [LooksNothingUp, unfiltered_entry_table, healthy_file] at hnothing

end bismark_passive.dns
