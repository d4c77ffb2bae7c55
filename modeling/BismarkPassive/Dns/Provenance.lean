import BismarkPassive.Dns.Layout
import Mathlib.Data.List.Induction

namespace bismark_passive.dns

open bytes containers

variable {externals : Externals} {memory : Nat → UInt8} {len : Nat} {packet_id : UInt16} {mac_id : UInt8}

/-- The table after these records of a packet, in the order of the packet. -/
def dns_table_t.after (externals : Externals) (memory : Nat → UInt8) (len : Nat) (packet_id : UInt16) (mac_id : UInt8)
    (table : dns_table_t) (records : List resource_record_t) : dns_table_t :=
  records.foldl (fun table record => (add_record externals len packet_id mac_id table record).run memory) table

theorem dns_table_t.after_snoc (table : dns_table_t) (records : List resource_record_t) (record : resource_record_t) :
    table.after externals memory len packet_id mac_id (records ++ [record]) =
      (add_record externals len packet_id mac_id (table.after externals memory len packet_id mac_id records)
        record).run memory := by
  rw [after, List.foldl_append]
  rfl

/-- Adding records one by one is pushing their entries. -/
theorem dns_table_t.after_eq (table : dns_table_t) (records : List resource_record_t) :
    table.after externals memory len packet_id mac_id records =
      table.record_all (records.filterMap (resource_record_t.a_entry memory packet_id mac_id))
        (records.filterMap (resource_record_t.cname_entry externals memory len packet_id mac_id)) := by
  induction records using List.reverseRecOn with
  | nil => exact table.record_all_nil.symm
  | append_singleton records record ih =>
    rw [after_snoc, ih, run_add_record_eq, record_all_append, List.filterMap_append, List.filterMap_append]
    cases ha : record.a_entry memory packet_id mac_id <;>
      cases hcname : record.cname_entry externals memory len packet_id mac_id <;> simp [ha, hcname]

/-- A packet's effect on the table is the effect of its records one by one. -/
theorem process_dns_packet_after (table : dns_table_t) :
    ((process_dns_packet externals len table packet_id mac_id).run memory).2 =
      table.after externals memory len packet_id mac_id (packet_records externals memory len) := by
  rw [run_process_dns_packet_eq, dns_table_t.after_eq]

/-- What the record adds to the tables comes from the record itself: an
address is its data of four bytes, a name what all of its data stands for. -/
structure FromOwnRecord (externals : Externals) (memory : Nat → UInt8) (len : Nat) (table table' : dns_table_t)
    (record : resource_record_t) : Prop where
  lies : ∃ start finish, RecordLies externals memory len start record finish
  address : ∀ entry, table'.a_entries.items = table.a_entries.items ++ [entry] →
    record.IsAddress ∧ ∃ data, data.length = 4 ∧ record.rdlength.toNat = data.length ∧
      Holds memory record.rdata data ∧ entry.ip_address = .ofNat (be_value data) ∧ entry.domain_name = record.name
  target : ∀ entry, table'.cname_entries.items = table.cname_entries.items ++ [entry] →
    record.IsAlias ∧ entry.domain_name = record.name ∧
      externals.dn_expand (seen memory len) record.rdata = some (entry.cname, record.rdlength.toNat)

/-- The record's data has the length that its type asks for. -/
def resource_record_t.AddressSized (record : resource_record_t) : Prop := record.rdlength = 4

def resource_record_t.AliasSized (externals : Externals) (memory : Nat → UInt8) (len : Nat)
    (record : resource_record_t) : Prop :=
  ∀ cname length, externals.dn_expand (seen memory len) record.rdata = some (cname, length) →
    record.rdlength.toNat = length

/-- The aliases whose data expands. -/
def resource_record_t.Expands (externals : Externals) (memory : Nat → UInt8) (len : Nat)
    (record : resource_record_t) : Bool :=
  decide record.IsAlias && (externals.dn_expand (seen memory len) record.rdata).isSome

theorem a_entry_isSome (record : resource_record_t) :
    (record.a_entry memory packet_id mac_id).isSome = decide record.IsAddress := by
  unfold resource_record_t.a_entry
  split <;> simp [*]

/-- A record has an alias to add when its data expands. -/
theorem cname_entry_isSome (record : resource_record_t) :
    (record.cname_entry externals memory len packet_id mac_id).isSome = record.Expands externals memory len := by
  unfold resource_record_t.cname_entry resource_record_t.Expands
  split
  · rename_i halias
    rw [Option.isSome_map, decide_eq_true halias, Bool.true_and]
  · rename_i halias
    rw [Option.isSome_none, decide_eq_false halias, Bool.false_and]

/-- How many A entries there are after these records. -/
theorem after_a_length (table : dns_table_t) (records : List resource_record_t) :
    (table.after externals memory len packet_id mac_id records).a_entries.items.length =
      min DNS_TABLE_A_ENTRIES (table.a_entries.items.length + records.countP (·.IsAddress)) := by
  rw [dns_table_t.after_eq, dns_table_t.record_all, Bounded.push_all_items, List.length_take, List.length_append,
    List.length_filterMap_eq_countP]
  simp only [a_entry_isSome]

theorem after_cname_length (table : dns_table_t) (records : List resource_record_t) :
    (table.after externals memory len packet_id mac_id records).cname_entries.items.length =
      min DNS_TABLE_CNAME_ENTRIES
        (table.cname_entries.items.length + records.countP (·.Expands externals memory len)) := by
  rw [dns_table_t.after_eq, dns_table_t.record_all, Bounded.push_all_items, List.length_take, List.length_append,
    List.length_filterMap_eq_countP]
  simp only [cname_entry_isSome]

/-- A record adds its entry if there is room. -/
theorem after_record_a_entries (table : dns_table_t) (before : List resource_record_t) (record : resource_record_t) :
    (table.after externals memory len packet_id mac_id (before ++ [record])).a_entries.items =
      ((table.after externals memory len packet_id mac_id before).a_entries.items ++
        (record.a_entry memory packet_id mac_id).toList).take DNS_TABLE_A_ENTRIES := by
  rw [dns_table_t.after_snoc, run_add_record_eq, dns_table_t.record_all, Bounded.push_all_items]

theorem after_record_cname_entries (table : dns_table_t) (before : List resource_record_t)
    (record : resource_record_t) :
    (table.after externals memory len packet_id mac_id (before ++ [record])).cname_entries.items =
      ((table.after externals memory len packet_id mac_id before).cname_entries.items ++
        (record.cname_entry externals memory len packet_id mac_id).toList).take DNS_TABLE_CNAME_ENTRIES := by
  rw [dns_table_t.after_snoc, run_add_record_eq, dns_table_t.record_all, Bounded.push_all_items]

/-- What a bounded list has become after at most one item was offered to it. -/
theorem take_append_toList_eq_iff {α : Type} {items : List α} {capacity : Nat} (hle : items.length ≤ capacity)
    {offered : Option α} {added : α} :
    (items ++ offered.toList).take capacity = items ++ [added] ↔ offered = some added ∧ items.length < capacity := by
  constructor
  · intro h
    have hlength := congrArg List.length h
    rw [List.length_take, List.length_append, List.length_append, List.length_singleton] at hlength
    cases offered with
    | none =>
      rw [Option.toList_none, List.length_nil] at hlength
      omega
    | some item =>
      rw [Option.toList_some, List.length_singleton] at hlength
      rw [Option.toList_some, List.take_of_length_le (by simp; omega), List.append_cancel_left_eq] at h
      exact ⟨congrArg some (List.singleton_inj.mp h), by omega⟩
  · rintro ⟨rfl, hroom⟩
    apply List.take_of_length_le
    rwa [Option.toList_some, List.length_append, List.length_singleton]

/-- A recorded address is the record's own, exactly if the record's data has
the size of an address or there is no room. -/
theorem own_address_iff (table : dns_table_t) (before : List resource_record_t) (record : resource_record_t) :
    (∀ entry, (table.after externals memory len packet_id mac_id (before ++ [record])).a_entries.items =
        (table.after externals memory len packet_id mac_id before).a_entries.items ++ [entry] →
      record.IsAddress ∧ ∃ data, data.length = 4 ∧ record.rdlength.toNat = data.length ∧
        Holds memory record.rdata data ∧ entry.ip_address = .ofNat (be_value data) ∧
        entry.domain_name = record.name) ↔
      (record.IsAddress → table.a_entries.items.length + before.countP (·.IsAddress) < DNS_TABLE_A_ENTRIES →
        record.AddressSized) := by
  have hlength := @after_a_length externals memory len packet_id mac_id table before
  simp only [after_record_a_entries, take_append_toList_eq_iff (Bounded.length_le _)]
  constructor
  · intro haddress hrecord hroom
    have hentry : (record.a_entry memory packet_id mac_id).isSome := by
      rw [a_entry_isSome]
      exact decide_eq_true hrecord
    obtain ⟨entry, hentry⟩ := Option.isSome_iff_exists.mp hentry
    obtain ⟨-, data, hdata, hrdlength, -⟩ := haddress entry ⟨hentry, by omega⟩
    rw [resource_record_t.AddressSized, ← UInt16.toNat_inj, hrdlength, hdata]
    rfl
  · rintro haddress entry ⟨hentry, hroom⟩
    rw [resource_record_t.a_entry, Option.ite_none_right_eq_some] at hentry
    obtain ⟨hrecord, hvalue⟩ := hentry
    rw [Option.some.injEq] at hvalue
    have hsized := haddress hrecord (by omega)
    have hdata : Holds memory record.rdata _ := holds_load_bytes record.rdata 4
    refine ⟨hrecord, _, load_bytes_length _ _, ?_, hdata, ?_, ?_⟩
    · rw [hsized, load_bytes_length]
      rfl
    · rw [← hvalue]
      exact run_load32_value hdata (load_bytes_length _ _)
    · rw [← hvalue]

/-- A recorded alias is the record's own, exactly if the record's data is all
that its name takes up, or does not expand, or there is no room. -/
theorem own_target_iff (table : dns_table_t) (before : List resource_record_t) (record : resource_record_t) :
    (∀ entry, (table.after externals memory len packet_id mac_id (before ++ [record])).cname_entries.items =
        (table.after externals memory len packet_id mac_id before).cname_entries.items ++ [entry] →
      record.IsAlias ∧ entry.domain_name = record.name ∧
        externals.dn_expand (seen memory len) record.rdata = some (entry.cname, record.rdlength.toNat)) ↔
      (record.IsAlias →
        table.cname_entries.items.length + before.countP (·.Expands externals memory len) < DNS_TABLE_CNAME_ENTRIES →
        record.AliasSized externals memory len) := by
  have hlength := @after_cname_length externals memory len packet_id mac_id table before
  simp only [after_record_cname_entries, take_append_toList_eq_iff (Bounded.length_le _)]
  constructor
  · intro htarget hrecord hroom cname length hexpanded
    have hentry : record.cname_entry externals memory len packet_id mac_id = some
        { packet_id := packet_id
          mac_id := mac_id
          domain_name := record.name
          cname := cname
          ttl := record.ttl } := by
      rw [resource_record_t.cname_entry, if_pos hrecord, hexpanded, Option.map_some]
    obtain ⟨-, -, hown⟩ := htarget _ ⟨hentry, by omega⟩
    rw [hexpanded, Option.some.injEq, Prod.mk.injEq] at hown
    exact hown.2.symm
  · rintro htarget entry ⟨hentry, hroom⟩
    rw [resource_record_t.cname_entry, Option.ite_none_right_eq_some, Option.map_eq_some_iff] at hentry
    obtain ⟨hrecord, expanded, hexpanded, rfl⟩ := hentry
    refine ⟨hrecord, rfl, ?_⟩
    rw [htarget hrecord (by omega) _ _ hexpanded, hexpanded]

/-- Every fact that the parser records comes from its own record, exactly if no
record whose data has a length that contradicts its type finds room. -/
theorem facts_from_own_records_iff (table : dns_table_t) :
    ((process_dns_packet externals len table packet_id mac_id).run memory).2 =
        table.after externals memory len packet_id mac_id (packet_records externals memory len) ∧
    ((∀ before record after, packet_records externals memory len = before ++ record :: after →
        FromOwnRecord externals memory len (table.after externals memory len packet_id mac_id before)
          (table.after externals memory len packet_id mac_id (before ++ [record])) record) ↔
      ∀ before record after, packet_records externals memory len = before ++ record :: after →
        (record.IsAddress → table.a_entries.items.length + before.countP (·.IsAddress) < DNS_TABLE_A_ENTRIES →
          record.AddressSized) ∧
        (record.IsAlias →
          table.cname_entries.items.length + before.countP (·.Expands externals memory len) <
            DNS_TABLE_CNAME_ENTRIES →
          record.AliasSized externals memory len)) := by
  refine ⟨process_dns_packet_after table, forall_congr' fun before => forall_congr' fun record =>
    forall_congr' fun after => forall_congr' fun hrecords => ?_⟩
  have hlies := packet_records_lie (show record ∈ packet_records externals memory len by rw [hrecords]; simp)
  have haddress_iff := @own_address_iff externals memory len packet_id mac_id table before record
  have htarget_iff := @own_target_iff externals memory len packet_id mac_id table before record
  constructor
  · rintro ⟨-, haddress, htarget⟩
    exact ⟨haddress_iff.mp haddress, htarget_iff.mp htarget⟩
  · rintro ⟨haddress, htarget⟩
    exact ⟨hlies, haddress_iff.mpr haddress, htarget_iff.mpr htarget⟩

/-- A response whose address has five bytes. -/
def long_address : List UInt8 :=
  [0, 1, 0x81, 0x80, 0, 0, 0, 1, 0, 0, 0, 0] ++
    ([0] ++ be16 T_A ++ be16 C_IN ++ be32 60 ++ be16 5 ++ [10, 0, 0, 1, 9])

/-- The first four of them are recorded. -/
theorem facts_not_from_long_address :
    ¬ ∀ before record after,
      packet_records reference_session.externals (fun address => long_address.getD address 0) long_address.length =
        before ++ record :: after →
      FromOwnRecord reference_session.externals (fun address => long_address.getD address 0) long_address.length
        ((dns_table_init none ⟨0, none, 0, fun _ => none⟩).after reference_session.externals
          (fun address => long_address.getD address 0) long_address.length 3 4 before)
        ((dns_table_init none ⟨0, none, 0, fun _ => none⟩).after reference_session.externals
          (fun address => long_address.getD address 0) long_address.length 3 4 (before ++ [record])) record := by
  intro hown
  obtain ⟨-, data, hdata, hrdlength, -⟩ := (hown [] _ [] rfl).address _ rfl
  have hfive : (5 : Nat) = data.length := hrdlength
  omega

end bismark_passive.dns
