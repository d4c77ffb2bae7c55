import BismarkPassive.Dns.Extraction

namespace bismark_passive.dns

open bytes containers

variable {externals : Externals} {memory : Nat → UInt8} {len : Nat} {packet_id : UInt16} {mac_id : UInt8}

/-- All entries have these ids. -/
structure HaveIds (packet_id : UInt16) (mac_id : UInt8) (a_entries : List dns_a_entry_t)
    (cname_entries : List dns_cname_entry_t) : Prop where
  a_entries : ∀ entry ∈ a_entries, entry.packet_id = packet_id ∧ entry.mac_id = mac_id
  cname_entries : ∀ entry ∈ cname_entries, entry.packet_id = packet_id ∧ entry.mac_id = mac_id

theorem HaveIds.nil : HaveIds packet_id mac_id [] [] := ⟨by simp, by simp⟩

theorem HaveIds.append {as as' : List dns_a_entry_t} {cnames cnames' : List dns_cname_entry_t}
    (h : HaveIds packet_id mac_id as cnames) (h' : HaveIds packet_id mac_id as' cnames') :
    HaveIds packet_id mac_id (as ++ as') (cnames ++ cnames') where
  a_entries := List.forall_mem_append.mpr ⟨h.a_entries, h'.a_entries⟩
  cname_entries := List.forall_mem_append.mpr ⟨h.cname_entries, h'.cname_entries⟩

/-- The computation ends the same way on every table, to which it offers the
same entries, all of them under these ids. -/
def Offers {α : Type} (packet_id : UInt16) (mac_id : UInt8) (computation : dns_table_t → α × dns_table_t) : Prop :=
  ∃ result as cnames, HaveIds packet_id mac_id as cnames ∧
    ∀ table, computation table = (result, table.record_all as cnames)

theorem offers_nothing {α : Type} (result : α) : Offers packet_id mac_id fun table => (result, table) :=
  ⟨result, [], [], .nil, fun table => by rw [table.record_all_nil]⟩

theorem offers_a {entry : dns_a_entry_t} (hids : entry.packet_id = packet_id ∧ entry.mac_id = mac_id) :
    Offers packet_id mac_id fun table => ((), (dns_table_add_a table entry).2) :=
  ⟨(), [entry], [], ⟨by simpa using hids, by simp⟩, fun table => by simp only [dns_table_add_a_eq]⟩

theorem offers_cname {entry : dns_cname_entry_t} (hids : entry.packet_id = packet_id ∧ entry.mac_id = mac_id) :
    Offers packet_id mac_id fun table => ((), (dns_table_add_cname table entry).2) :=
  ⟨(), [], [entry], ⟨by simp, by simpa using hids⟩, fun table => by simp only [dns_table_add_cname_eq]⟩

/-- Whatever the record is, it is offered as one entry or not at all. -/
theorem run_add_record_offers (record : resource_record_t) :
    Offers packet_id mac_id fun table =>
      ((), (add_record externals len packet_id mac_id table record).run memory) := by
  unfold add_record
  simp only [ite_not, Reader.run_ite, Reader.run_pure]
  by_cases hclass : record.class_ = C_IN
  · simp only [if_pos hclass]
    by_cases ha : record.type = T_A
    · simp only [if_pos ha, add_a_record, Reader.run_bind, Reader.run_pure]
      exact offers_a ⟨rfl, rfl⟩
    · simp only [if_neg ha]
      by_cases hcname : record.type = T_CNAME
      · simp only [if_pos hcname, add_cname_record, Reader.run_bind, run_dn_expand]
        cases externals.dn_expand (seen memory len) record.rdata with
        | none => exact offers_nothing ()
        | some expanded => exact offers_cname ⟨rfl, rfl⟩
      · simp only [if_neg hcname]
        exact offers_nothing ()
  · simp only [if_neg hclass]
    exact offers_nothing ()

/-- What is offered to every table can be offered to what another offer leaves. -/
theorem Offers.then {first : dns_table_t → Unit × dns_table_t} {second : dns_table_t → Int × dns_table_t}
    (hfirst : Offers packet_id mac_id first) (hsecond : Offers packet_id mac_id second) :
    Offers packet_id mac_id fun table => second (first table).2 := by
  obtain ⟨_, as, cnames, hids, hoffer⟩ := hfirst
  obtain ⟨result, as', cnames', hids', hoffer'⟩ := hsecond
  refine ⟨result, as ++ as', cnames ++ cnames', hids.append hids', fun table => ?_⟩
  simp only [hoffer, hoffer', dns_table_t.record_all_append]

theorem run_process_all_offers (sections : List Bool) (offset : Nat) :
    Offers packet_id mac_id fun table =>
      (process_all externals len packet_id mac_id sections offset table).run memory := by
  induction sections generalizing offset with
  | nil => exact offers_nothing 0
  | cons extracted sections ih =>
    simp only [process_all, Reader.run_bind]
    cases (parse_resource_record externals len offset).run memory with
    | none => exact offers_nothing (-1)
    | some parsed =>
      cases extracted with
      | true =>
        simp only [if_true, Reader.run_bind]
        exact (run_add_record_offers parsed.1).then (ih parsed.2)
      | false => exact ih parsed.2

/-- Whatever the bytes of the message are, the same entries are offered to every table. -/
theorem run_process_dns_packet_offers :
    Offers packet_id mac_id fun table =>
      (process_dns_packet externals len table packet_id mac_id).run memory := by
  unfold process_dns_packet
  by_cases hlen : len < sizeof_HEADER
  · simp only [if_pos hlen]
    exact offers_nothing (-1)
  · simp only [if_neg hlen, Reader.run_bind, Reader.run_ite]
    split
    · exact offers_nothing (-1)
    · simp only [run_process_dns_sections]
      cases (skip_questions externals len ((load16 4).run memory).toNat sizeof_HEADER).run memory with
      | none => exact offers_nothing (-1)
      | some offset => exact run_process_all_offers (announced memory) offset

end bismark_passive.dns
