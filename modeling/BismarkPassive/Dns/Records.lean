import BismarkPassive.Dns.Offers

namespace bismark_passive.dns

open bytes

variable {externals : Externals} {memory : Nat → UInt8} {len : Nat} {packet_id : UInt16} {mac_id : UInt8}

/-- The parsed records of the extracted sections, for the announced records
that are still to come. -/
def extracted_records (externals : Externals) (memory : Nat → UInt8) (len : Nat) :
    List Bool → Nat → List resource_record_t
  | [], _ => []
  | extracted :: rest, offset =>
    match (parse_resource_record externals len offset).run memory with
    | none => []
    | some (record, offset) =>
      (if extracted then [record] else []) ++ extracted_records externals memory len rest offset

/-- The message is a response to a query, without error. -/
def Relevant (memory : Nat → UInt8) (len : Nat) : Prop :=
  sizeof_HEADER ≤ len ∧ (load8 2).run memory >>> 7 = 1 ∧ ((load8 2).run memory >>> 3) &&& 0xf = QUERY ∧
    (load8 3).run memory &&& 0xf = NOERROR

instance : Decidable (Relevant memory len) := inferInstanceAs (Decidable (_ ∧ _))

/-- The records of a message, whatever its bytes are, that the parser gets to
in the answer and additional sections. -/
def packet_records (externals : Externals) (memory : Nat → UInt8) (len : Nat) : List resource_record_t :=
  if Relevant memory len then
    match (skip_questions externals len ((load16 4).run memory).toNat sizeof_HEADER).run memory with
    | none => []
    | some offset => extracted_records externals memory len (announced memory) offset
  else []

def resource_record_t.IsAddress (record : resource_record_t) : Prop := record.class_ = C_IN ∧ record.type = T_A

def resource_record_t.IsAlias (record : resource_record_t) : Prop := record.class_ = C_IN ∧ record.type = T_CNAME

instance (record : resource_record_t) : Decidable record.IsAddress := inferInstanceAs (Decidable (_ ∧ _))

instance (record : resource_record_t) : Decidable record.IsAlias := inferInstanceAs (Decidable (_ ∧ _))

/-- The entry that the record adds to the A table. -/
def resource_record_t.a_entry (memory : Nat → UInt8) (packet_id : UInt16) (mac_id : UInt8)
    (record : resource_record_t) : Option dns_a_entry_t :=
  if record.IsAddress then
    some
      { packet_id := packet_id
        mac_id := mac_id
        domain_name := record.name
        ip_address := (load32 record.rdata).run memory
        ttl := record.ttl }
  else none

/-- The entry that the record adds to the CNAME table, if its data expands. -/
def resource_record_t.cname_entry (externals : Externals) (memory : Nat → UInt8) (len : Nat) (packet_id : UInt16)
    (mac_id : UInt8) (record : resource_record_t) : Option dns_cname_entry_t :=
  if record.IsAlias then
    (externals.dn_expand (seen memory len) record.rdata).map fun expanded =>
      { packet_id := packet_id
        mac_id := mac_id
        domain_name := record.name
        cname := expanded.1
        ttl := record.ttl }
  else none

/-- A record adds the entry it has, if any, to the tables. -/
theorem run_add_record_eq (record : resource_record_t) (table : dns_table_t) :
    (add_record externals len packet_id mac_id table record).run memory =
      table.record_all (record.a_entry memory packet_id mac_id).toList
        (record.cname_entry externals memory len packet_id mac_id).toList := by
  have htypes : T_A ≠ T_CNAME := by decide
  unfold add_record resource_record_t.a_entry resource_record_t.cname_entry
  simp only [ite_not, Reader.run_ite, Reader.run_pure, resource_record_t.IsAddress, resource_record_t.IsAlias]
  by_cases hclass : record.class_ = C_IN
  · simp only [hclass, true_and]
    by_cases ha : record.type = T_A
    · have hcname : ¬ record.type = T_CNAME := ha ▸ htypes
      simp only [if_pos ha, if_neg hcname, add_a_record, Reader.run_bind, Reader.run_pure]
      exact dns_table_add_a_eq table _
    · simp only [if_neg ha]
      by_cases hcname : record.type = T_CNAME
      · simp only [if_pos hcname, add_cname_record, Reader.run_bind, run_dn_expand]
        cases externals.dn_expand (seen memory len) record.rdata with
        | none => exact table.record_all_nil.symm
        | some expanded => exact dns_table_add_cname_eq table _
      · simp only [if_neg hcname]
        exact table.record_all_nil.symm
  · simp only [hclass, false_and, if_false]
    exact table.record_all_nil.symm

/-- The sections add the entries of the records that the parser gets to. -/
theorem run_process_all_eq (sections : List Bool) (offset : Nat) (table : dns_table_t) :
    ((process_all externals len packet_id mac_id sections offset table).run memory).2 =
      table.record_all
        ((extracted_records externals memory len sections offset).filterMap
          (resource_record_t.a_entry memory packet_id mac_id))
        ((extracted_records externals memory len sections offset).filterMap
          (resource_record_t.cname_entry externals memory len packet_id mac_id)) := by
  induction sections generalizing offset table with
  | nil => exact table.record_all_nil.symm
  | cons extracted sections ih =>
    simp only [process_all, extracted_records, Reader.run_bind]
    cases (parse_resource_record externals len offset).run memory with
    | none => exact table.record_all_nil.symm
    | some parsed =>
      obtain ⟨record, offset⟩ := parsed
      cases extracted with
      | true =>
        simp only [if_true, Reader.run_bind, run_add_record_eq, ih, dns_table_t.record_all_append,
          List.filterMap_append]
        rfl
      | false => exact ih offset table

/-- The parser records exactly the entries of the records that it gets to. -/
theorem run_process_dns_packet_eq (table : dns_table_t) :
    ((process_dns_packet externals len table packet_id mac_id).run memory).2 =
      table.record_all
        ((packet_records externals memory len).filterMap (resource_record_t.a_entry memory packet_id mac_id))
        ((packet_records externals memory len).filterMap
          (resource_record_t.cname_entry externals memory len packet_id mac_id)) := by
  unfold process_dns_packet packet_records
  by_cases hlen : len < sizeof_HEADER
  · have hirrelevant : ¬ Relevant memory len := fun h => absurd h.1 (not_le.mpr hlen)
    simp only [if_pos hlen, if_neg hirrelevant]
    exact table.record_all_nil.symm
  · have hrelevant_iff : Relevant memory len ↔ ¬ ((load8 2).run memory >>> 7 ≠ 1 ∨
        ((load8 2).run memory >>> 3) &&& 0xf ≠ QUERY ∨ (load8 3).run memory &&& 0xf ≠ NOERROR) := by
      rw [Relevant, and_iff_right (not_lt.mp hlen)]
      tauto
    simp only [if_neg hlen, Reader.run_bind, Reader.run_ite, hrelevant_iff, ite_not]
    split
    · exact table.record_all_nil.symm
    · rw [run_process_dns_sections]
      cases (skip_questions externals len ((load16 4).run memory).toNat sizeof_HEADER).run memory with
      | none => exact table.record_all_nil.symm
      | some offset => exact run_process_all_eq (announced memory) offset table

end bismark_passive.dns
