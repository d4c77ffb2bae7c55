import BismarkPassive.Dns.Sections

namespace bismark_passive.dns

open bytes

variable {externals : Externals} {memory : Nat → UInt8} {len : Nat} {packet_id : UInt16} {mac_id : UInt8}

/-- The three record loops as one: for each record still to come, whether its
section is extracted. -/
def process_all (externals : Externals) (len : Nat) (packet_id : UInt16) (mac_id : UInt8) :
    List Bool → Nat → dns_table_t → Reader (Int × dns_table_t)
  | [], _, table => pure (0, table)
  | extracted :: rest, offset, table => do
    match ← parse_resource_record externals len offset with
    | none => pure (-1, table)
    | some (record, offset) => do
      let table ← if extracted then add_record externals len packet_id mac_id table record else pure table
      process_all externals len packet_id mac_id rest offset table

/-- A section of extracted records is their loop, and then the sections behind it. -/
theorem run_process_all_extracted (rest : List Bool) (count offset : Nat) (table : dns_table_t) :
    (process_all externals len packet_id mac_id (List.replicate count true ++ rest) offset table).run memory =
      match (process_records externals len packet_id mac_id count offset table).run memory with
      | (none, table) => (-1, table)
      | (some offset, table) => (process_all externals len packet_id mac_id rest offset table).run memory := by
  induction count generalizing offset table with
  | zero => rfl
  | succ count ih =>
    rw [List.replicate_succ, List.cons_append, process_all, process_records, Reader.run_bind, Reader.run_bind]
    cases (parse_resource_record externals len offset).run memory with
    | none => rfl
    | some parsed => simp only [if_true, Reader.run_bind, ih]

/-- A section of skipped records only moves the offset. -/
theorem run_process_all_skipped (rest : List Bool) (count offset : Nat) (table : dns_table_t) :
    (process_all externals len packet_id mac_id (List.replicate count false ++ rest) offset table).run memory =
      match (skip_records externals len count offset).run memory with
      | none => (-1, table)
      | some offset => (process_all externals len packet_id mac_id rest offset table).run memory := by
  induction count generalizing offset table with
  | zero => rfl
  | succ count ih =>
    rw [List.replicate_succ, List.cons_append, process_all, skip_records, Reader.run_bind, Reader.run_bind]
    cases (parse_resource_record externals len offset).run memory with
    | none => rfl
    | some parsed => simp only [Bool.false_eq_true, if_false, Reader.run_bind, Reader.run_pure, ih]

/-- The record in a section with this flag contributes its entries, or nothing. -/
def dns_table_t.contribute_if (packet_id : UInt16) (mac_id : UInt8) (table : dns_table_t)
    (record : Bool × wire_record) : dns_table_t :=
  if record.1 then table.contribute packet_id mac_id record.2 else table

/-- The loop walks over well-formed records, which contribute their entries,
and comes out behind them whatever their types and classes are. -/
theorem run_process_all_records (records : List (Bool × wire_record)) (rest : List Bool) {offset : Nat}
    (table : dns_table_t) (hheld : Holds memory offset (record_bytes records))
    (hrecords : RecordsAt externals.dn_expand (fun _ => seen memory len) offset records)
    (hinside : offset + (record_bytes records).length ≤ len) :
    (process_all externals len packet_id mac_id (records.map Prod.fst ++ rest) offset table).run memory =
      (process_all externals len packet_id mac_id rest (offset + (record_bytes records).length)
        (records.foldl (dns_table_t.contribute_if packet_id mac_id) table)).run memory := by
  induction records generalizing offset table with
  | nil => rfl
  | cons record records ih =>
    obtain ⟨hrecord, hrest⟩ := hrecords
    have hbytes : record_bytes (record :: records) = record.2.bytes ++ record_bytes records := rfl
    rw [hbytes, holds_append] at hheld
    rw [hbytes, List.length_append, ← Nat.add_assoc] at hinside ⊢
    obtain ⟨hfirst, hheld_rest⟩ := hheld
    obtain ⟨hhead, hdata⟩ := holds_append.mp hfirst
    have hparse := run_parse_resource_record hhead hrecord.owner (by
      rw [wire_record.bytes, List.length_append] at hinside
      omega)
    rw [if_neg (by omega)] at hparse
    obtain ⟨extracted, record⟩ := record
    have hadd := @run_add_record externals memory len packet_id mac_id offset record table hdata hrecord
    rw [List.map_cons, List.cons_append, process_all, Reader.run_bind, hparse, List.foldl_cons]
    cases extracted with
    | false =>
      simp only [Bool.false_eq_true, if_false, Reader.run_bind, Reader.run_pure]
      exact ih table hheld_rest hrest hinside
    | true =>
      simp only [if_true, Reader.run_bind, hadd]
      exact ih _ hheld_rest hrest hinside

/-- The records contribute their entries in order, as if they were pushed together. -/
theorem foldl_contribute (records : List (Bool × wire_record)) (table : dns_table_t) :
    records.foldl (dns_table_t.contribute_if packet_id mac_id) table =
      table.record_all (a_entries_of packet_id mac_id records) (cname_entries_of packet_id mac_id records) := by
  induction records generalizing table with
  | nil => exact table.record_all_nil.symm
  | cons record records ih =>
    obtain ⟨extracted, record⟩ := record
    rw [List.foldl_cons, ih, dns_table_t.contribute_if]
    cases extracted with
    | false => simp [a_entries_of, cname_entries_of]
    | true =>
      rw [if_pos rfl, dns_table_t.contribute, dns_table_t.record_all_append]
      have ha : a_entries_of packet_id mac_id ((true, record) :: records) =
          (record.a_entry packet_id mac_id).toList ++ a_entries_of packet_id mac_id records := by
        cases h : record.a_entry packet_id mac_id <;> simp [a_entries_of, h]
      have hcname : cname_entries_of packet_id mac_id ((true, record) :: records) =
          (record.cname_entry packet_id mac_id).toList ++ cname_entries_of packet_id mac_id records := by
        cases h : record.cname_entry packet_id mac_id <;> simp [cname_entries_of, h]
      rw [ha, hcname]

/-- The loop over well-formed questions comes out behind them. -/
theorem run_skip_questions (questions : List wire_question) {offset : Nat}
    (hquestions : QuestionsAt externals.dn_expand (fun _ => seen memory len) offset questions) :
    (skip_questions externals len questions.length offset).run memory =
      some (offset + (question_bytes questions).length) := by
  induction questions generalizing offset with
  | nil => rfl
  | cons question questions ih =>
    obtain ⟨⟨name, hname⟩, hrest⟩ := hquestions
    have hexpand : externals.dn_expand (seen memory len) offset = some (name, question.qname.length) := hname
    have hbytes : question_bytes (question :: questions) = question.bytes ++ question_bytes questions := rfl
    rw [List.length_cons, skip_questions, Reader.run_bind, run_dn_expand, hexpand]
    have hnext : offset + question.qname.length + (2 + 2) = offset + question.bytes.length := by
      rw [question.bytes_length, Nat.add_assoc]
    simp only [hnext]
    rw [ih hrest, hbytes, List.length_append, Nat.add_assoc]

theorem run_count {offset : Nat} {α : Type} {items : List α} (hlt : items.length < 2 ^ 16)
    (h : Holds memory offset (be16 (.ofNat items.length))) :
    ((load16 offset).run memory).toNat = items.length := by
  rw [run_load16 h, UInt16.toNat_ofNat']
  exact Nat.mod_eq_of_lt hlt

/-- For each record that the header announces, whether its section is extracted. -/
def announced (memory : Nat → UInt8) : List Bool :=
  List.replicate ((load16 6).run memory).toNat true ++
    (List.replicate ((load16 8).run memory).toNat false ++
      (List.replicate ((load16 10).run memory).toNat true ++ []))

/-- Behind the questions, the sections are one walk over the announced records. -/
theorem run_process_dns_sections (table : dns_table_t) :
    (process_dns_sections externals len packet_id mac_id table).run memory =
      match (skip_questions externals len ((load16 4).run memory).toNat sizeof_HEADER).run memory with
      | none => (-1, table)
      | some offset => (process_all externals len packet_id mac_id (announced memory) offset table).run memory := by
  simp only [process_dns_sections, announced, Reader.run_bind, run_process_all_extracted]
  cases (skip_questions externals len ((load16 4).run memory).toNat sizeof_HEADER).run memory with
  | none => rfl
  | some offset =>
    simp only [Reader.run_bind]
    rcases (process_records externals len packet_id mac_id ((load16 6).run memory).toNat offset
      table).run memory with ⟨_ | offset₁, table₁⟩
    · rfl
    · simp only [Reader.run_bind, run_process_all_skipped]
      cases (skip_records externals len ((load16 8).run memory).toNat offset₁).run memory with
      | none => rfl
      | some offset₂ =>
        simp only [Reader.run_bind, run_process_all_extracted]
        rcases (process_records externals len packet_id mac_id ((load16 10).run memory).toNat offset₂
          table₁).run memory with ⟨_ | offset₃, table₂⟩
        · rfl
        · rfl

/-- A message whose header is in memory and whose questions expand is processed
by walking over its records. -/
theorem run_process_dns_packet {message : wire_message} (table : dns_table_t)
    (hheader : Holds memory 0 message.header) (hlen : sizeof_HEADER ≤ len)
    (hquestions : QuestionsAt externals.dn_expand (fun _ => seen memory len) sizeof_HEADER message.questions) :
    (process_dns_packet externals len table packet_id mac_id).run memory =
      (process_all externals len packet_id mac_id (message.records.map Prod.fst) message.records_offset
        table).run memory := by
  simp only [wire_message.header, holds_append, be16_length] at hheader
  obtain ⟨_, ⟨hflags, hrcode, _⟩, hqd, han, hns, har⟩ := hheader
  have hflags : memory 2 = message.flags := hflags
  have hrcode : memory 3 = message.rcode := hrcode
  have hqd : ((load16 4).run memory).toNat = message.questions.length := run_count message.questions_lt hqd
  have han : ((load16 6).run memory).toNat = message.answers.length := run_count message.answers_lt han
  have hns : ((load16 8).run memory).toNat = message.authority.length := run_count message.authority_lt hns
  have har : ((load16 10).run memory).toNat = message.additional.length := run_count message.additional_lt har
  have hall : message.records.map Prod.fst = List.replicate message.answers.length true ++
      (List.replicate message.authority.length false ++ (List.replicate message.additional.length true ++ [])) := by
    simp only [wire_message.records, List.map_append, List.map_map, List.append_nil]
    have hconst (flag : Bool) (records : List wire_record) :
        records.map (Prod.fst ∘ fun record => (flag, record)) = List.replicate records.length flag :=
      List.map_const'
    rw [hconst, hconst, hconst]
  have hannounced : announced memory = message.records.map Prod.fst := by rw [announced, hall, han, hns, har]
  rw [process_dns_packet, if_neg (not_lt.mpr hlen)]
  simp only [Reader.run_bind, run_load8, hflags, hrcode, Reader.run_ite]
  rw [if_neg (by simp [message.response, message.query, message.noerror]), run_process_dns_sections, hannounced, hqd,
    run_skip_questions message.questions hquestions, ← wire_message.records_offset]

end bismark_passive.dns
