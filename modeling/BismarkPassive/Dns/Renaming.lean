import BismarkPassive.Dns.Records
import Mathlib.Logic.Equiv.Defs

namespace bismark_passive.dns

open bytes

variable {rename : Equiv.Perm UInt32} {s s' : Session}

def dns_a_entry_t.renamed (rename : Equiv.Perm UInt32) (entry : dns_a_entry_t) : dns_a_entry_t :=
  { entry with ip_address := rename entry.ip_address }

/-- The parser gets to the same records in both messages, except that the
addresses in them correspond. -/
structure SameRecords (rename : Equiv.Perm UInt32) (s s' : Session) (memory memory' : Nat → UInt8) (len : Nat) :
    Prop where
  records : packet_records s'.externals memory' len = packet_records s.externals memory len
  addresses : ∀ record ∈ packet_records s.externals memory len, record.IsAddress →
    (load32 record.rdata).run memory' = rename ((load32 record.rdata).run memory)
  targets : ∀ record ∈ packet_records s.externals memory len, record.IsAlias →
    s'.externals.dn_expand (seen memory' len) record.rdata = s.externals.dn_expand (seen memory len) record.rdata
  names : ∀ record ∈ packet_records s.externals memory len, SameDigest s s' record.name
  target_names : ∀ record ∈ packet_records s.externals memory len, record.IsAlias →
    ∀ expanded, s.externals.dn_expand (seen memory len) record.rdata = some expanded → SameDigest s s' expanded.1

section records

variable {memory memory' : Nat → UInt8} {len : Nat} (h : SameRecords rename s s' memory memory' len)
  (packet_id : UInt16) (mac_id : UInt8)

include h

/-- The entries of address records correspond. -/
theorem SameRecords.a_entries :
    (packet_records s'.externals memory' len).filterMap (resource_record_t.a_entry memory' packet_id mac_id) =
      ((packet_records s.externals memory len).filterMap
        (resource_record_t.a_entry memory packet_id mac_id)).map (dns_a_entry_t.renamed rename) := by
  rw [h.records, List.map_filterMap]
  apply List.filterMap_congr
  intro record hrecord
  unfold resource_record_t.a_entry
  split
  · rename_i haddress
    rw [h.addresses record hrecord haddress]
    rfl
  · rfl

/-- The entries of aliases are the same. -/
theorem SameRecords.cname_entries :
    (packet_records s'.externals memory' len).filterMap
        (resource_record_t.cname_entry s'.externals memory' len packet_id mac_id) =
      (packet_records s.externals memory len).filterMap
        (resource_record_t.cname_entry s.externals memory len packet_id mac_id) := by
  rw [h.records]
  apply List.filterMap_congr
  intro record hrecord
  unfold resource_record_t.cname_entry
  split
  · rename_i halias
    rw [h.targets record hrecord halias]
  · rfl

/-- Their names have the same digests. -/
theorem SameRecords.a_name {entry : dns_a_entry_t}
    (hentry : entry ∈ (packet_records s.externals memory len).filterMap
      (resource_record_t.a_entry memory packet_id mac_id)) : SameDigest s s' entry.domain_name := by
  obtain ⟨record, hrecord, hadded⟩ := List.mem_filterMap.mp hentry
  unfold resource_record_t.a_entry at hadded
  split at hadded
  · obtain rfl := Option.some.inj hadded
    exact h.names record hrecord
  · cases hadded

/-- And so have the names of aliases. -/
theorem SameRecords.cname_names {entry : dns_cname_entry_t}
    (hentry : entry ∈ (packet_records s.externals memory len).filterMap
      (resource_record_t.cname_entry s.externals memory len packet_id mac_id)) :
    SameDigest s s' entry.domain_name ∧ SameDigest s s' entry.cname := by
  obtain ⟨record, hrecord, hadded⟩ := List.mem_filterMap.mp hentry
  unfold resource_record_t.cname_entry at hadded
  split at hadded
  · rename_i halias
    obtain ⟨expanded, hexpanded, rfl⟩ := Option.map_eq_some_iff.mp hadded
    exact ⟨h.names record hrecord, h.target_names record hrecord halias expanded hexpanded⟩
  · cases hadded

end records

/-- The tables have the same entries, except that the addresses correspond. -/
structure dns_table_t.Corresponds (rename : Equiv.Perm UInt32) (s s' : Session) (table other : dns_table_t) :
    Prop where
  a_entries : other.a_entries.items = table.a_entries.items.map (dns_a_entry_t.renamed rename)
  cname_entries : other.cname_entries = table.cname_entries
  num_dropped_a_entries : other.num_dropped_a_entries = table.num_dropped_a_entries
  num_dropped_cname_entries : other.num_dropped_cname_entries = table.num_dropped_cname_entries
  whitelist : other.whitelist = table.whitelist
  bloom : other.bloom = table.bloom
  a_names : ∀ entry ∈ table.a_entries.items, SameDigest s s' entry.domain_name
  cname_names : ∀ entry ∈ table.cname_entries.items, SameDigest s s' entry.domain_name ∧ SameDigest s s' entry.cname

theorem dns_table_init_corresponds (whitelist : Option domain_whitelist_t) (bloom : bloom_whitelist_t) :
    (dns_table_init whitelist bloom).Corresponds rename s s' (dns_table_init whitelist bloom) :=
  ⟨rfl, rfl, rfl, rfl, rfl, rfl, fun _ h => absurd h List.not_mem_nil, fun _ h => absurd h List.not_mem_nil⟩

section tables

variable {table other : dns_table_t} (h : table.Corresponds rename s s' other)

include h

/-- Corresponding tables take and refuse corresponding entries. -/
theorem dns_table_t.Corresponds.record_all {as : List dns_a_entry_t} {cnames : List dns_cname_entry_t}
    (has : ∀ entry ∈ as, SameDigest s s' entry.domain_name)
    (hcnames : ∀ entry ∈ cnames, SameDigest s s' entry.domain_name ∧ SameDigest s s' entry.cname) :
    (table.record_all as cnames).Corresponds rename s s'
      (other.record_all (as.map (dns_a_entry_t.renamed rename)) cnames) := by
  refine ⟨?_, ?_, ?_, ?_, h.whitelist, h.bloom, fun entry hentry => ?_, fun entry hentry => ?_⟩
  · simp only [dns_table_t.record_all, containers.Bounded.push_all_items, h.a_entries, ← List.map_append,
      List.map_take]
  · simp only [dns_table_t.record_all, h.cname_entries]
  · simp only [dns_table_t.record_all, containers.Bounded.push_all_refused, h.a_entries, h.num_dropped_a_entries,
      List.length_map, List.length_drop]
  · simp only [dns_table_t.record_all, h.cname_entries, h.num_dropped_cname_entries]
  · rw [dns_table_t.record_all, containers.Bounded.push_all_items] at hentry
    exact (List.mem_append.mp (List.mem_of_mem_take hentry)).elim (h.a_names entry) (has entry)
  · rw [dns_table_t.record_all, containers.Bounded.push_all_items] at hentry
    exact (List.mem_append.mp (List.mem_of_mem_take hentry)).elim (h.cname_names entry) (hcnames entry)

theorem dns_table_t.Corresponds.shows (malware_flag : Int) (name : cstring) :
    other.shows malware_flag name = table.shows malware_flag name := by
  rw [dns_table_t.shows, dns_table_t.shows, h.whitelist]

theorem a_name_corresponds {name : cstring} (hname : SameDigest s s' name) :
    a_name s' other name = a_name s table name := by
  have hdigest : hex_domain_digest s' name = hex_domain_digest s name := by
    rw [hex_domain_digest, anonymize_domain, hname, hex_domain_digest, anonymize_domain]
  simp only [a_name, h.bloom, h.shows, hdigest]

theorem cname_name_corresponds (htarget : s'.target = s.target) {name : cstring} (hname : SameDigest s s' name) :
    cname_name s' other name = cname_name s table name := by
  have hdigest : hex_domain_digest s' name = hex_domain_digest s name := by
    rw [hex_domain_digest, anonymize_domain, hname, hex_domain_digest, anonymize_domain]
  simp only [cname_name, h.bloom, h.shows, hdigest, htarget]

/-- The same lines are printed, in the same section. -/
theorem dns_section_corresponds (hanonymized : s.target.disable_anonymization = false) (htarget : s'.target = s.target)
    (hdigests : ∀ address, anonymize_ip s' (rename address) = anonymize_ip s address)
    (a_lines cname_lines : List Line) :
    other.a_entries.items.map (a_line s' other) = table.a_entries.items.map (a_line s table) ∧
      other.cname_entries.items.map (cname_line s' other) = table.cname_entries.items.map (cname_line s table) ∧
      dns_section other a_lines cname_lines = dns_section table a_lines cname_lines := by
  refine ⟨?_, ?_, ?_⟩
  · rw [h.a_entries, List.map_map]
    apply List.map_congr_left
    intro entry hentry
    simp only [Function.comp_apply, a_line, dns_a_entry_t.renamed, htarget, hanonymized, hdigests,
      Bool.false_eq_true, if_false, a_name_corresponds h (h.a_names entry hentry)]
  · rw [h.cname_entries]
    apply List.map_congr_left
    intro entry hentry
    obtain ⟨hname, hcname⟩ := h.cname_names entry hentry
    simp only [cname_line, cname_name_corresponds h htarget hname, cname_name_corresponds h htarget hcname]
  · rw [dns_section, dns_section, h.num_dropped_a_entries, h.num_dropped_cname_entries]

end tables

end bismark_passive.dns
