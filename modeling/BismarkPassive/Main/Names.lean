import BismarkPassive.Dns.Layout
import BismarkPassive.Main.Digests

namespace bismark_passive.main

open dns

variable {s : Session} {P : cstring → Prop}

/-! The names in the DNS table are names that were expanded -/

/-- Every expanded name has this property. -/
def ExpandsTo (P : cstring → Prop) (expand : List UInt8 → Nat → Option (cstring × Nat)) : Prop :=
  ∀ message offset name length, expand message offset = some (name, length) → P name

/-- Every name in the table has this property. -/
structure NamesAre (P : cstring → Prop) (table : dns_table_t) : Prop where
  a_entries : ∀ entry ∈ table.a_entries.items, P entry.domain_name
  cname_entries : ∀ entry ∈ table.cname_entries.items, P entry.domain_name ∧ P entry.cname

theorem mem_push_all_cases {α : Type} {capacity : Nat} {sequence : containers.Bounded α capacity} {items : List α}
    {item : α} (h : item ∈ (sequence.push_all items).1.items) : item ∈ sequence.items ∨ item ∈ items := by
  rw [containers.Bounded.push_all_items] at h
  exact List.mem_append.mp (List.mem_of_mem_take h)

/-- The names of the records in a packet are expanded from it. -/
theorem capture_t.dns_records_expanded {capture : capture_t} (hexpand : ExpandsTo P s.externals.dn_expand)
    {record : resource_record_t} (h : record ∈ capture.dns_records s) : P record.name := by
  unfold capture_t.dns_records at h
  split at h
  · obtain ⟨start, finish, length, ttl, hname, -⟩ := packet_records_lie h
    exact hexpand _ _ _ _ hname
  · exact absurd h List.not_mem_nil

/-- Recording names that fit keeps all names fitting. -/
theorem NamesAre.record_all {table : dns_table_t} {as : List dns_a_entry_t} {cnames : List dns_cname_entry_t}
    (h : NamesAre P table) (has : ∀ entry ∈ as, P entry.domain_name)
    (hcnames : ∀ entry ∈ cnames, P entry.domain_name ∧ P entry.cname) :
    NamesAre P (table.record_all as cnames) := by
  constructor
  · intro entry hentry
    exact (mem_push_all_cases hentry).elim (h.a_entries entry) (has entry)
  · intro entry hentry
    exact (mem_push_all_cases hentry).elim (h.cname_entries entry) (hcnames entry)

variable {domain_whitelist : domain_whitelist_t} {bloom_whitelist : bloom_whitelist_t}

theorem NamesAre.init : NamesAre P (dns_table_init (some domain_whitelist) bloom_whitelist) :=
  ⟨fun _ h => absurd h List.not_mem_nil, fun _ h => absurd h List.not_mem_nil⟩

/-- A packet adds only names that `dn_expand` wrote. -/
theorem ProcessedPacket.names (hexpand : ExpandsTo P s.externals.dn_expand) {state state' : state_t}
    {capture : capture_t} (h : NamesAre P state.dns_table)
    (hpacket : ProcessedPacket s state capture.frame state' capture.locals) : NamesAre P state'.dns_table := by
  rw [hpacket.dns_records]
  refine h.record_all ?_ ?_
  · intro entry hentry
    obtain ⟨record, hrecord, ha_entry⟩ := List.mem_filterMap.mp hentry
    rw [capture_t.a_entry, resource_record_t.a_entry] at ha_entry
    obtain rfl := Option.some.inj (Option.ite_none_right_eq_some.mp ha_entry).2
    exact capture.dns_records_expanded hexpand hrecord
  · intro entry hentry
    obtain ⟨record, hrecord, hcname_entry⟩ := List.mem_filterMap.mp hentry
    rw [capture_t.cname_entry, resource_record_t.cname_entry] at hcname_entry
    obtain ⟨-, hexpanded⟩ := Option.ite_none_right_eq_some.mp hcname_entry
    obtain ⟨expanded, hexpansion, rfl⟩ := Option.map_eq_some_iff.mp hexpanded
    exact ⟨capture.dns_records_expanded hexpand hrecord, hexpand _ _ _ _ hexpansion⟩

theorem main_step_names (hexpand : ExpandsTo P s.externals.dn_expand) {state state' : state_t} {event : main_event}
    {output : main_output} (h : NamesAre P state.dns_table) (hstep : main_step s state event = some (state', output)) :
    NamesAre P state'.dns_table := by
  obtain ⟨capture, rfl, rfl, hpacket, -⟩ | ⟨io, healthy, update, rfl, rfl, hupdate⟩ := main_step_cases hstep
  · exact hpacket.names hexpand h
  · rw [hupdate.reset]
    exact NamesAre.init

theorem main_run_names (hexpand : ExpandsTo P s.externals.dn_expand) {trace : main_trace} {state : state_t}
    (run : main_run s domain_whitelist bloom_whitelist trace state) : NamesAre P state.dns_table :=
  run.invariant (fun _ state => NamesAre P state.dns_table) NamesAre.init
    fun _ _ _ _ _ _ h hstep => main_step_names hexpand h hstep

end bismark_passive.main
