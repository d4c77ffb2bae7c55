import BismarkPassive.Bytes.Bounds
import BismarkPassive.Dns.Exactness
import BismarkPassive.Dns.Records

namespace bismark_passive.dns

open bytes

/-- What `dn_expand` promises about its bounds: it fails on a name that starts
outside, and the bytes that a name occupies at its start are inside. -/
def ExpandsInside (expand : List UInt8 → Nat → Option (cstring × Nat)) : Prop :=
  ∀ message offset name length, expand message offset = some (name, length) →
    offset < message.length ∧ offset + length ≤ message.length

section layout

variable (externals : Externals) (memory : Nat → UInt8) (len : Nat)

/-- The record lies inside the length, from the offset up to the end: its name,
its fixed part and its data. -/
def RecordLies (offset : Nat) (record : resource_record_t) (finish : Nat) : Prop :=
  ∃ length ttl, externals.dn_expand (seen memory len) offset = some (record.name, length) ∧
    Holds memory (offset + length) (be16 record.type ++ (be16 record.class_ ++ (be32 ttl ++ be16 record.rdlength))) ∧
    record.ttl = ttl.toInt32 ∧ record.rdata = offset + length + rr_fixed_len ∧
    finish = record.rdata + record.rdlength.toNat ∧ finish ≤ len

/-- This many records lie one after another. -/
def RecordsLie : Nat → Nat → Nat → Prop
  | 0, offset, finish => finish = offset
  | count + 1, offset, finish => ∃ record next, RecordLies externals memory len offset record next ∧
      RecordsLie count next finish

/-- This many questions lie one after another, each with its name, type and class. -/
def QuestionsLie : Nat → Nat → Nat → Prop
  | 0, offset, finish => finish = offset
  | count + 1, offset, finish => ∃ name length,
      externals.dn_expand (seen memory len) offset = some (name, length) ∧ offset + length + (2 + 2) ≤ len ∧
      QuestionsLie count (offset + length + (2 + 2)) finish

/-- The number of records that the header announces. -/
def record_count (memory : Nat → UInt8) : Nat :=
  ((load16 6).run memory).toNat + ((load16 8).run memory).toNat + ((load16 10).run memory).toNat

/-- The header lies inside the length, and behind it the questions and the
records that it announces. -/
def MessageLies (finish : Nat) : Prop :=
  sizeof_HEADER ≤ len ∧ ∃ offset,
    QuestionsLie externals memory len ((load16 4).run memory).toNat sizeof_HEADER offset ∧
    RecordsLie externals memory len (record_count memory) offset finish

/-- All that is missing of the message is inside the fixed part of its last question. -/
def QuestionCut : Prop :=
  ∃ before offset name length, ((load16 4).run memory).toNat = before + 1 ∧
    QuestionsLie externals memory len before sizeof_HEADER offset ∧
    externals.dn_expand (seen memory len) offset = some (name, length) ∧ len < offset + length + (2 + 2)

end layout

variable {externals : Externals} {memory : Nat → UInt8} {len : Nat} {packet_id : UInt16} {mac_id : UInt8}

theorem seen_length : (seen memory len).length = len := load_bytes_length 0 len

/-- Exactly the records that lie in the message are parsed. -/
theorem parse_resource_record_iff {offset finish : Nat} {record : resource_record_t} :
    (parse_resource_record externals len offset).run memory = some (record, finish) ↔
      RecordLies externals memory len offset record finish := by
  simp only [parse_resource_record, Reader.run_bind, run_dn_expand, RecordLies]
  cases hname : externals.dn_expand (seen memory len) offset with
  | none => simp
  | some expanded =>
    obtain ⟨name, length⟩ := expanded
    simp only [Reader.run_ite, Reader.run_bind, Reader.run_pure, holds_append, be16_length, be32_length,
      holds_be16_iff, holds_be32_iff]
    constructor
    · intro h
      split at h
      · cases h
      · split at h
        · cases h
        · rename_i hdata
          rw [Option.some.injEq, Prod.mk.injEq] at h
          obtain ⟨rfl, rfl⟩ := h
          exact ⟨length, _, rfl, ⟨rfl, rfl, rfl, rfl⟩, rfl, rfl, rfl, Nat.le_of_not_lt hdata⟩
    · rintro ⟨length', ttl, hexpanded, ⟨htype, hclass, httl, hrdlength⟩, hvalue, hrdata, hfinish, hinside⟩
      rw [Option.some.injEq, Prod.mk.injEq] at hexpanded
      obtain ⟨hsame, rfl⟩ := hexpanded
      have hrdlength : (load16 (offset + length + 8)).run memory = record.rdlength := hrdlength
      have httl : (load32 (offset + length + 4)).run memory = ttl := httl
      rw [htype, hclass, httl, hrdlength, ← hrdata, ← hfinish, if_neg (not_lt.mpr hinside), hsame, ← hvalue]
      refine if_neg (not_lt.mpr (le_trans ?_ hinside))
      rw [hfinish, hrdata]
      omega

theorem RecordLies.fixed_le {offset finish : Nat} {record : resource_record_t}
    (h : RecordLies externals memory len offset record finish) :
    offset + rr_fixed_len ≤ record.rdata ∧ record.rdata ≤ finish := by
  obtain ⟨length, ttl, -, -, -, hrdata, hfinish, -⟩ := h
  omega

/-- Each record that the parser gets to lies in the message, behind the offset. -/
theorem extracted_records_lie {sections : List Bool} {offset : Nat} {record : resource_record_t}
    (h : record ∈ extracted_records externals memory len sections offset) :
    ∃ start finish, offset ≤ start ∧ RecordLies externals memory len start record finish := by
  induction sections generalizing offset with
  | nil => exact absurd h List.not_mem_nil
  | cons extracted sections ih =>
    rw [extracted_records] at h
    cases hparse : (parse_resource_record externals len offset).run memory with
    | none =>
      rw [hparse] at h
      exact absurd h List.not_mem_nil
    | some parsed =>
      obtain ⟨first, next⟩ := parsed
      have hfirst := parse_resource_record_iff.mp hparse
      simp only [hparse, List.mem_append, List.mem_ite_nil_right, List.mem_singleton] at h
      obtain ⟨-, rfl⟩ | hrest := h
      · exact ⟨offset, next, le_refl offset, hfirst⟩
      · obtain ⟨start, finish, hbehind, hrecord⟩ := ih hrest
        have hnext := hfirst.fixed_le
        exact ⟨start, finish, by omega, hrecord⟩

/-- A record that the parser extracts lies in the message. -/
theorem packet_records_lie {record : resource_record_t} (h : record ∈ packet_records externals memory len) :
    ∃ start finish, RecordLies externals memory len start record finish := by
  unfold packet_records at h
  split at h
  · split at h
    · exact absurd h List.not_mem_nil
    · obtain ⟨start, finish, -, hrecord⟩ := extracted_records_lie h
      exact ⟨start, finish, hrecord⟩
  · exact absurd h List.not_mem_nil

theorem RecordsLie.le {count offset finish : Nat} (h : RecordsLie externals memory len count offset finish)
    (hoffset : offset ≤ len) : finish ≤ len := by
  induction count generalizing offset with
  | zero => exact h ▸ hoffset
  | succ count ih =>
    obtain ⟨record, next, ⟨_, _, _, _, _, _, _, hnext⟩, hrest⟩ := h
    exact ih hrest hnext

theorem QuestionsLie.le {count offset finish : Nat} (h : QuestionsLie externals memory len count offset finish)
    (hoffset : offset ≤ len) : finish ≤ len := by
  induction count generalizing offset with
  | zero => exact h ▸ hoffset
  | succ count ih =>
    obtain ⟨name, length, _, hinside, hrest⟩ := h
    exact ih hrest hinside

theorem MessageLies.le {finish : Nat} (h : MessageLies externals memory len finish) : finish ≤ len := by
  obtain ⟨hheader, offset, hquestions, hrecords⟩ := h
  exact hrecords.le (hquestions.le hheader)

/-- The walk succeeds exactly on the records that lie one after another. -/
theorem run_process_all_accepts_iff (sections : List Bool) (offset : Nat) (table : dns_table_t) :
    ((process_all externals len packet_id mac_id sections offset table).run memory).1 = 0 ↔
      ∃ finish, RecordsLie externals memory len sections.length offset finish := by
  induction sections generalizing offset table with
  | nil => exact iff_of_true rfl ⟨offset, rfl⟩
  | cons extracted sections ih =>
    rw [process_all, Reader.run_bind, List.length_cons]
    cases hparse : (parse_resource_record externals len offset).run memory with
    | none =>
      refine iff_of_false (by simp) ?_
      rintro ⟨finish, record, next, hrecord, -⟩
      rw [parse_resource_record_iff.mpr hrecord] at hparse
      cases hparse
    | some parsed =>
      obtain ⟨record, next⟩ := parsed
      have hfollow : (∃ finish, RecordsLie externals memory len (sections.length + 1) offset finish) ↔
          ∃ finish, RecordsLie externals memory len sections.length next finish := by
        constructor
        · rintro ⟨finish, record', next', hrecord, hrest⟩
          rw [parse_resource_record_iff.mpr hrecord, Option.some.injEq, Prod.mk.injEq] at hparse
          exact ⟨finish, hparse.2 ▸ hrest⟩
        · rintro ⟨finish, hrest⟩
          exact ⟨finish, record, next, parse_resource_record_iff.mp hparse, hrest⟩
      rw [hfollow]
      cases extracted with
      | false => exact ih next table
      | true =>
        simp only [if_true, Reader.run_bind]
        exact ih next _

/-- The walk ends with success or with failure. -/
theorem run_process_all_result (sections : List Bool) (offset : Nat) (table : dns_table_t) :
    ((process_all externals len packet_id mac_id sections offset table).run memory).1 = 0 ∨
      ((process_all externals len packet_id mac_id sections offset table).run memory).1 = -1 := by
  induction sections generalizing offset table with
  | nil => exact .inl rfl
  | cons extracted sections ih =>
    rw [process_all, Reader.run_bind]
    cases (parse_resource_record externals len offset).run memory with
    | none => exact .inr rfl
    | some parsed =>
      cases extracted with
      | false => exact ih parsed.2 table
      | true =>
        simp only [if_true, Reader.run_bind]
        exact ih parsed.2 _

/-- The loop passes the questions that lie inside the length. -/
theorem run_skip_questions_add {before more offset start : Nat}
    (h : QuestionsLie externals memory len before offset start) :
    (skip_questions externals len (before + more) offset).run memory =
      (skip_questions externals len more start).run memory := by
  induction before generalizing offset with
  | zero =>
    rw [QuestionsLie] at h
    rw [h, Nat.zero_add]
  | succ before ih =>
    obtain ⟨name, length, hname, -, hrest⟩ := h
    rw [Nat.succ_add, skip_questions, Reader.run_bind, run_dn_expand, hname]
    exact ih hrest

/-- The loop over the questions is not stopped by the end of the message if it
is the fixed part of the last one that is cut: no name follows. -/
theorem run_skip_questions_lie_or_cut (hinside : ExpandsInside externals.dn_expand) {count offset finish : Nat}
    (h : (skip_questions externals len count offset).run memory = some finish) :
    QuestionsLie externals memory len count offset finish ∨
      len < finish ∧ ∃ before start name length, count = before + 1 ∧
        QuestionsLie externals memory len before offset start ∧
        externals.dn_expand (seen memory len) start = some (name, length) ∧ finish = start + length + (2 + 2) := by
  induction count generalizing offset with
  | zero => exact .inl (Option.some.inj h).symm
  | succ count ih =>
    rw [skip_questions, Reader.run_bind, run_dn_expand] at h
    cases hname : externals.dn_expand (seen memory len) offset with
    | none =>
      rw [hname] at h
      cases h
    | some expanded =>
      obtain ⟨name, length⟩ := expanded
      simp only [hname] at h
      by_cases hnext : offset + length + (2 + 2) ≤ len
      · obtain hrest | ⟨hbehind, before, start, name', length', hcount, hbefore, hstart, hfinish⟩ := ih h
        · exact .inl ⟨name, length, hname, hnext, hrest⟩
        · exact .inr ⟨hbehind, before + 1, start, name', length', by rw [hcount],
            ⟨name, length, hname, hnext, hbefore⟩, hstart, hfinish⟩
      · cases count with
        | zero =>
          have hfinish : finish = offset + length + (2 + 2) := (Option.some.inj h).symm
          exact .inr ⟨by omega, 0, offset, name, length, rfl, rfl, hname, hfinish⟩
        | succ count =>
          -- The next name would start behind the end.
          rw [skip_questions, Reader.run_bind, run_dn_expand] at h
          cases hoverrun : externals.dn_expand (seen memory len) (offset + length + (2 + 2)) with
          | none =>
            rw [hoverrun] at h
            cases h
          | some overrun =>
            have hstart := (hinside _ _ overrun.1 overrun.2 hoverrun).1
            rw [seen_length] at hstart
            omega

end bismark_passive.dns
