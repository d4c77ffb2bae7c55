import BismarkPassive.Dns.Message

namespace bismark_passive.dns

open bytes containers

variable {externals : Externals} {memory : Nat → UInt8} {len : Nat} {packet_id : UInt16} {mac_id : UInt8}

/-- The message as `dn_expand` sees it. -/
def seen (memory : Nat → UInt8) (len : Nat) : List UInt8 := (load_bytes 0 len).run memory

theorem run_dn_expand (offset : Nat) :
    (dn_expand externals len offset).run memory = externals.dn_expand (seen memory len) offset := by
  rw [dn_expand, Reader.run_bind, Reader.run_pure, seen]

/-- What parsing makes of a record at the offset. -/
def wire_record.parsed (record : wire_record) (offset : Nat) : resource_record_t where
  name := record.owner
  type := record.type
  class_ := record.class_
  ttl := record.ttl.toInt32
  rdlength := .ofNat record.rdata.length
  rdata := offset + record.head.length

/-- A record whose head is inside the message is accepted exactly if its data is. -/
theorem run_parse_resource_record {offset : Nat} {record : wire_record}
    (hheld : Holds memory offset record.head)
    (howner : externals.dn_expand (seen memory len) offset = some (record.owner, record.owner_wire.length))
    (hinside : offset + record.head.length ≤ len) :
    (parse_resource_record externals len offset).run memory =
      if len < offset + record.bytes.length then none
      else some (record.parsed offset, offset + record.bytes.length) := by
  have hrdlength : (UInt16.ofNat record.rdata.length).toNat = record.rdata.length := by
    rw [UInt16.toNat_ofNat']
    exact Nat.mod_eq_of_lt record.rdata_length_lt
  have hend : offset + record.head.length + record.rdata.length = offset + record.bytes.length := by
    rw [wire_record.bytes, List.length_append, Nat.add_assoc]
  have hdata : offset + record.owner_wire.length + rr_fixed_len = offset + record.head.length := by
    rw [wire_record.head_length, Nat.add_assoc]
  rw [wire_record.head_length] at hinside
  simp only [wire_record.head, holds_append, be16_length, be32_length] at hheld
  obtain ⟨_, htype, hclass, httl, hlength⟩ := hheld
  have httl : Holds memory (offset + record.owner_wire.length + 4) (be32 record.ttl) := httl
  have hlength : Holds memory (offset + record.owner_wire.length + 8) (be16 (.ofNat record.rdata.length)) :=
    hlength
  simp only [parse_resource_record, Reader.run_bind, run_dn_expand, howner]
  rw [if_neg (by omega)]
  simp only [Reader.run_bind, run_load16 htype, run_load16 hclass, run_load32 httl, run_load16 hlength,
    hrdlength, hdata, hend, Reader.run_ite, Reader.run_pure, wire_record.parsed]

/-- A record that does not end inside the message is rejected, wherever the
message is cut. -/
theorem run_parse_resource_record_cut {offset : Nat} {record : wire_record}
    (hheld : Holds memory offset (record.bytes.take (len - offset)))
    (howner : ∀ name compressed_len, externals.dn_expand (seen memory len) offset = some (name, compressed_len) →
      name = record.owner ∧ compressed_len = record.owner_wire.length)
    (hcut : len < offset + record.bytes.length) :
    (parse_resource_record externals len offset).run memory = none := by
  rcases hname : externals.dn_expand (seen memory len) offset with _ | ⟨name, compressed_len⟩
  · simp only [parse_resource_record, Reader.run_bind, run_dn_expand, hname, Reader.run_pure]
  · obtain ⟨rfl, rfl⟩ := howner _ _ hname
    by_cases hinside : offset + record.head.length ≤ len
    · have hhead : record.head <+: record.bytes.take (len - offset) := by
        rw [List.prefix_take_iff]
        exact ⟨List.prefix_append _ _, by omega⟩
      rw [run_parse_resource_record (Holds.of_prefix hheld hhead) hname hinside, if_pos hcut]
    · rw [wire_record.head_length] at hinside
      simp only [parse_resource_record, Reader.run_bind, run_dn_expand, hname]
      rw [if_pos (by omega)]
      rfl

/-- The table after entries have been offered to it. -/
def dns_table_t.record_all (table : dns_table_t) (a_entries : List dns_a_entry_t)
    (cname_entries : List dns_cname_entry_t) : dns_table_t :=
  { table with
    a_entries := (table.a_entries.push_all a_entries).1
    cname_entries := (table.cname_entries.push_all cname_entries).1
    num_dropped_a_entries := table.num_dropped_a_entries + (table.a_entries.push_all a_entries).2.length
    num_dropped_cname_entries :=
      table.num_dropped_cname_entries + (table.cname_entries.push_all cname_entries).2.length }

theorem dns_table_t.record_all_nil (table : dns_table_t) : table.record_all [] [] = table := by
  simp [dns_table_t.record_all]

theorem dns_table_t.record_all_append (table : dns_table_t) (as as' : List dns_a_entry_t)
    (cnames cnames' : List dns_cname_entry_t) :
    (table.record_all as cnames).record_all as' cnames' = table.record_all (as ++ as') (cnames ++ cnames') := by
  simp only [dns_table_t.record_all, Bounded.push_all_append, List.length_append, Nat.cast_add, Int.add_assoc]

theorem dns_table_add_a_eq (table : dns_table_t) (entry : dns_a_entry_t) :
    (dns_table_add_a table entry).2 = table.record_all [entry] [] := by
  unfold dns_table_add_a
  cases h : table.a_entries.push entry with
  | none => simp [dns_table_t.record_all, Bounded.push_all_cons_of_none h]
  | some a_entries => simp [dns_table_t.record_all, Bounded.push_all_cons_of_some h]

theorem dns_table_add_cname_eq (table : dns_table_t) (entry : dns_cname_entry_t) :
    (dns_table_add_cname table entry).2 = table.record_all [] [entry] := by
  unfold dns_table_add_cname
  cases h : table.cname_entries.push entry with
  | none => simp [dns_table_t.record_all, Bounded.push_all_cons_of_none h]
  | some cname_entries => simp [dns_table_t.record_all, Bounded.push_all_cons_of_some h]

/-- Offering entries cuts off and counts those that the tables cannot take. -/
theorem dns_table_t.record_all_extends (table : dns_table_t) (records : List (Bool × wire_record)) :
    table.Extends packet_id mac_id records
      (table.record_all (a_entries_of packet_id mac_id records) (cname_entries_of packet_id mac_id records)) := by
  have ha := table.a_entries.length_le
  have hcname := table.cname_entries.length_le
  have hrefused (held offered capacity : Nat) (hle : held ≤ capacity) :
      offered - (capacity - held) = held + offered - capacity := by omega
  refine ⟨Bounded.push_all_items _ _, Bounded.push_all_items _ _, ?_, ?_, rfl, rfl⟩
  · simp only [dns_table_t.record_all, Bounded.push_all_refused, List.length_drop]
    rw [hrefused _ _ _ ha]
  · simp only [dns_table_t.record_all, Bounded.push_all_refused, List.length_drop]
    rw [hrefused _ _ _ hcname]

/-- The entries of one record of a section that is extracted. -/
def dns_table_t.contribute (packet_id : UInt16) (mac_id : UInt8) (table : dns_table_t) (record : wire_record) :
    dns_table_t :=
  table.record_all (record.a_entry packet_id mac_id).toList (record.cname_entry packet_id mac_id).toList

/-- A well-formed record of an extracted section contributes its entries. -/
theorem run_add_record {offset : Nat} {record : wire_record} (table : dns_table_t)
    (hheld : Holds memory (offset + record.head.length) record.rdata)
    (hrecord : RecordAt externals.dn_expand (fun _ => seen memory len) offset record) :
    (add_record externals len packet_id mac_id table (record.parsed offset)).run memory =
      table.contribute packet_id mac_id record := by
  have htypes : T_A ≠ T_CNAME := by decide
  have hadd : add_record externals len packet_id mac_id table (record.parsed offset) =
      if record.class_ ≠ C_IN then pure table
      else if record.type = T_A then add_a_record packet_id mac_id table (record.parsed offset)
      else if record.type = T_CNAME then
        add_cname_record externals len packet_id mac_id table (record.parsed offset)
      else pure table := rfl
  rw [hadd, dns_table_t.contribute]
  by_cases hclass : record.class_ = C_IN
  · rw [if_neg (not_not.mpr hclass)]
    by_cases ha : record.type = T_A
    · have haddress := run_load32_value hheld (hrecord.address hclass ha)
      have hcname : record.cname_entry packet_id mac_id = none :=
        if_neg fun h => htypes (ha.symm.trans h.2)
      have hentry : record.a_entry packet_id mac_id = some
          { packet_id := packet_id
            mac_id := mac_id
            domain_name := record.owner
            ip_address := .ofNat (be_value record.rdata)
            ttl := record.ttl.toInt32 } := if_pos ⟨hclass, ha⟩
      rw [if_pos ha, hcname, hentry, add_a_record, Reader.run_bind, Reader.run_pure, dns_table_add_a_eq]
      simp only [wire_record.parsed, haddress, Option.toList_some, Option.toList_none]
    · have hnone : record.a_entry packet_id mac_id = none := if_neg fun h => ha h.2
      rw [if_neg ha, hnone]
      by_cases hcname : record.type = T_CNAME
      · have htarget : externals.dn_expand (seen memory len) (offset + record.head.length) =
            some (record.target, record.rdata.length) := hrecord.target hclass hcname
        have hentry : record.cname_entry packet_id mac_id = some
            { packet_id := packet_id
              mac_id := mac_id
              domain_name := record.owner
              cname := record.target
              ttl := record.ttl.toInt32 } := if_pos ⟨hclass, hcname⟩
        rw [if_pos hcname, hentry, add_cname_record, Reader.run_bind, run_dn_expand]
        simp only [wire_record.parsed, htarget, Reader.run_pure, dns_table_add_cname_eq, Option.toList_some,
          Option.toList_none]
      · have hother : record.cname_entry packet_id mac_id = none := if_neg fun h => hcname h.2
        rw [if_neg hcname, hother, Reader.run_pure, Option.toList_none, Option.toList_none,
          dns_table_t.record_all_nil]
  · have ha : record.a_entry packet_id mac_id = none := if_neg fun h => hclass h.1
    have hcname : record.cname_entry packet_id mac_id = none := if_neg fun h => hclass h.1
    rw [if_pos hclass, ha, hcname, Reader.run_pure, Option.toList_none, Option.toList_none,
      dns_table_t.record_all_nil]

end bismark_passive.dns
