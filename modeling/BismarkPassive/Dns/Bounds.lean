import BismarkPassive.Bytes.Bounds
import BismarkPassive.Dns.Records
import BismarkPassive.Reference

namespace bismark_passive.dns

open bytes

variable {externals : Externals} {memory : Nat → UInt8} {len : Nat} {packet_id : UInt16} {mac_id : UInt8}

theorem within_dn_expand (offset : Nat) : (dn_expand externals len offset).Within memory len := by
  rw [dn_expand, Reader.within_bind, Reader.within_pure, and_true]
  exact within_load_bytes (Nat.zero_add len).le

/-- The fixed part of a record is checked before it is read. -/
theorem within_parse_resource_record (offset : Nat) :
    (parse_resource_record externals len offset).Within memory len := by
  rw [parse_resource_record, Reader.within_bind, run_dn_expand]
  refine ⟨within_dn_expand offset, ?_⟩
  cases externals.dn_expand (seen memory len) offset with
  | none => trivial
  | some expanded =>
    obtain ⟨name, compressed_len⟩ := expanded
    by_cases houtside : len < offset + (compressed_len + rr_fixed_len)
    · simp only [if_pos houtside, Reader.within_pure]
    · have hfixed : offset + compressed_len + 10 ≤ len := by
        rw [rr_fixed_len] at houtside
        omega
      simp only [if_neg houtside, Reader.within_bind, within_load16, within_load32, Reader.within_ite,
        Reader.within_pure, ite_self, and_true]
      omega

/-- An address is read without a look at how much data there is. -/
theorem within_add_record_iff (table : dns_table_t) (record : resource_record_t) :
    (add_record externals len packet_id mac_id table record).Within memory len ↔
      (record.IsAddress → record.rdata + 4 ≤ len) := by
  unfold add_record
  simp only [ite_not, Reader.within_ite, Reader.within_pure, resource_record_t.IsAddress]
  by_cases hclass : record.class_ = C_IN
  · by_cases ha : record.type = T_A
    · rw [if_pos hclass, if_pos ha, add_a_record, Reader.within_bind, within_load32, Reader.within_pure, and_true]
      exact ⟨fun h _ => h, fun h => h ⟨hclass, ha⟩⟩
    · rw [if_pos hclass, if_neg ha]
      refine iff_of_true ?_ fun h => absurd h.2 ha
      split
      · rw [add_cname_record, Reader.within_bind]
        refine ⟨within_dn_expand record.rdata, ?_⟩
        split <;> trivial
      · trivial
  · rw [if_neg hclass]
    exact iff_of_true trivial fun h => absurd h.1 hclass

/-- Only the data of an address record can lie behind the end of what is read. -/
theorem within_process_all_iff (sections : List Bool) (offset : Nat) (table : dns_table_t) :
    (process_all externals len packet_id mac_id sections offset table).Within memory len ↔
      ∀ record ∈ extracted_records externals memory len sections offset,
        record.IsAddress → record.rdata + 4 ≤ len := by
  induction sections generalizing offset table with
  | nil => simp [process_all, extracted_records]
  | cons extracted sections ih =>
    rw [process_all, Reader.within_bind, extracted_records, and_iff_right (within_parse_resource_record offset)]
    cases (parse_resource_record externals len offset).run memory with
    | none => simp
    | some parsed =>
      obtain ⟨record, offset⟩ := parsed
      cases extracted with
      | false => simpa using ih offset table
      | true =>
        simp only [if_true, Reader.within_bind, within_add_record_iff, ih]
        simp

/-- The extracted records are read first, then the rest unless one of them stops the parser. -/
theorem within_process_all_extracted (rest : List Bool) (count offset : Nat) (table : dns_table_t) :
    (process_all externals len packet_id mac_id (List.replicate count true ++ rest) offset table).Within memory len ↔
      (process_records externals len packet_id mac_id count offset table).Within memory len ∧
        match (process_records externals len packet_id mac_id count offset table).run memory with
        | (none, _) => True
        | (some offset, table) =>
          (process_all externals len packet_id mac_id rest offset table).Within memory len := by
  induction count generalizing offset table with
  | zero => exact (true_and _).to_iff.symm
  | succ count ih =>
    rw [List.replicate_succ, List.cons_append, process_all, process_records, Reader.within_bind, Reader.within_bind,
      Reader.run_bind, and_assoc]
    refine and_congr_right fun _ => ?_
    cases (parse_resource_record externals len offset).run memory with
    | none => exact (true_and _).to_iff.symm
    | some parsed => simp only [if_true, Reader.within_bind, Reader.run_bind, ih, and_assoc]

/-- The same for a section that is skipped. -/
theorem within_process_all_skipped (rest : List Bool) (count offset : Nat) (table : dns_table_t) :
    (process_all externals len packet_id mac_id (List.replicate count false ++ rest) offset table).Within memory len ↔
      (skip_records externals len count offset).Within memory len ∧
        match (skip_records externals len count offset).run memory with
        | none => True
        | some offset => (process_all externals len packet_id mac_id rest offset table).Within memory len := by
  induction count generalizing offset table with
  | zero => exact (true_and _).to_iff.symm
  | succ count ih =>
    rw [List.replicate_succ, List.cons_append, process_all, skip_records, Reader.within_bind, Reader.within_bind,
      Reader.run_bind, and_assoc]
    refine and_congr_right fun _ => ?_
    cases (parse_resource_record externals len offset).run memory with
    | none => exact (true_and _).to_iff.symm
    | some parsed =>
      simp only [Bool.false_eq_true, if_false, Reader.within_bind, Reader.within_pure, Reader.run_pure, ih, true_and]

/-- The questions are read with `dn_expand` alone, which sees the message only. -/
theorem within_skip_questions (count offset : Nat) :
    (skip_questions externals len count offset).Within memory len := by
  induction count generalizing offset with
  | zero => trivial
  | succ count ih =>
    rw [skip_questions, Reader.within_bind]
    refine ⟨within_dn_expand offset, ?_⟩
    split
    · trivial
    · exact ih _

/-- The sections are read within the bounds exactly if the walk over the
announced records is. -/
theorem within_process_dns_sections_iff (hheader : sizeof_HEADER ≤ len) (table : dns_table_t) :
    (process_dns_sections externals len packet_id mac_id table).Within memory len ↔
      match (skip_questions externals len ((load16 4).run memory).toNat sizeof_HEADER).run memory with
      | none => True
      | some offset =>
        (process_all externals len packet_id mac_id (announced memory) offset table).Within memory len := by
  rw [sizeof_HEADER] at hheader
  have hcount (address : Nat) (haddress : address ≤ 10) : (load16 address).Within memory len := by
    rw [within_load16]
    omega
  rw [process_dns_sections, Reader.within_bind, Reader.within_bind, and_iff_right (hcount 4 (by decide)),
    and_iff_right (within_skip_questions _ _)]
  cases (skip_questions externals len ((load16 4).run memory).toNat sizeof_HEADER).run memory with
  | none => rfl
  | some offset =>
    simp only [announced, Reader.within_bind, within_process_all_extracted, within_process_all_skipped,
      and_iff_right (hcount 6 (by decide))]
    refine and_congr_right fun _ => ?_
    rcases (process_records externals len packet_id mac_id ((load16 6).run memory).toNat offset
      table).run memory with ⟨_ | offset₁, table₁⟩
    · rfl
    · simp only [Reader.within_bind, and_iff_right (hcount 8 (by decide))]
      refine and_congr_right fun _ => ?_
      cases (skip_records externals len ((load16 8).run memory).toNat offset₁).run memory with
      | none => rfl
      | some offset₂ =>
        simp only [Reader.within_bind, and_iff_right (hcount 10 (by decide))]
        refine and_congr_right fun _ => ?_
        rcases (process_records externals len packet_id mac_id ((load16 10).run memory).toNat offset₂
          table₁).run memory with ⟨_ | offset₃, table₂⟩
        · rfl
        · exact iff_of_true trivial trivial

/-- The parser reads inside the packet exactly if none of the address records
that it gets to has data that begins less than four bytes before the end. -/
theorem process_dns_packet_within_iff (table : dns_table_t) :
    (process_dns_packet externals len table packet_id mac_id).Within memory len ↔
      ∀ record ∈ packet_records externals memory len, record.IsAddress → record.rdata + 4 ≤ len := by
  unfold process_dns_packet packet_records
  by_cases hlen : len < sizeof_HEADER
  · have hirrelevant : ¬ Relevant memory len := fun h => absurd h.1 (not_le.mpr hlen)
    simp [hlen, hirrelevant]
  · have hheader : sizeof_HEADER ≤ len := not_lt.mp hlen
    have hflags : (load8 2).Within memory len := (within_load8 2).mpr (le_trans (by decide) hheader)
    have hrcode : (load8 3).Within memory len := (within_load8 3).mpr (le_trans (by decide) hheader)
    rw [if_neg hlen, Reader.within_bind, and_iff_right hflags, Reader.within_bind, and_iff_right hrcode,
      Reader.within_ite]
    by_cases hrelevant : Relevant memory len
    · obtain ⟨-, hresponse, hquery, hnoerror⟩ := id hrelevant
      rw [if_pos hrelevant, if_neg (by tauto), within_process_dns_sections_iff hheader]
      cases (skip_questions externals len ((load16 4).run memory).toNat sizeof_HEADER).run memory with
      | none => simp
      | some offset => exact within_process_all_iff (announced memory) offset table
    · rw [if_neg hrelevant, if_pos (by rw [Relevant, and_iff_right hheader] at hrelevant; tauto)]
      simp

/-- A response with an address record that has no data. -/
def no_address : List UInt8 :=
  [0, 1, 0x81, 0x80, 0, 0, 0, 1, 0, 0, 0, 0] ++ ([0] ++ be16 T_A ++ be16 C_IN ++ be32 60 ++ be16 0)

/-- Its parser reads four bytes behind the end. -/
theorem process_dns_packet_not_within_no_address :
    no_address.length = 23 ∧
    ¬ (process_dns_packet reference_session.externals 23 (dns_table_init none ⟨0, none, 0, fun _ => none⟩) 3 4).Within
      (fun address => no_address.getD address 0) 23 := by
  decide

end bismark_passive.dns
