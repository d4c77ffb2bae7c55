import BismarkPassive.Dns.Truncation

namespace bismark_passive.dns

open bytes

/-! `parse_resource_record` one statement at a time, with its sanity check. -/

/-- The size of the buffer for a name, from `arpa/nameser.h`. -/
def MAXDNAME : Nat := 1025

/-- How a call ends: in the assertion, with `NULL`, or with the record and the
position after it. -/
inductive parse_outcome where
  | aborted
  | null
  | parsed (record : resource_record_t) (offset : Nat)

section asserting

variable (externals : Externals) (len : Int)

/-- Pointers are positions relative to the message, of which a negative length
leaves nothing to `dn_expand`. `rr_header_len` is an `int`, to which the sum of
the sizes is converted. -/
def parse_resource_record_asserting (offset : Nat) : Reader parse_outcome := do
  match ← dn_expand externals len.toNat offset with
  | none => pure .null
  | some (name, compressed_len) =>
    let rr_header_len : Int32 := .ofNat (compressed_len + 2 + 2 + 4 + 2)
    if offset + rr_header_len.toInt > len then pure .null
    else do
      let beginning := offset
      let offset := offset + compressed_len
      let type ← load16 offset
      let offset := offset + 2
      let class_ ← load16 offset
      let offset := offset + 2
      let ttl ← load32 offset
      let offset := offset + 4
      let rdlength ← load16 offset
      let offset := offset + 2
      let rdata := offset
      if beginning + rr_header_len.toInt ≠ offset then pure .aborted
      else
        let offset := offset + rdlength.toNat
        if offset > len then pure .null
        else pure (.parsed ⟨name, type, class_, ttl.toInt32, rdlength, rdata⟩ offset)

end asserting

/-- What `dn_expand` promises about its buffer of `MAXDNAME` bytes: a name that
takes up more of the message does not fit. -/
def ExpandsFitting (expand : List UInt8 → Nat → Option (cstring × Nat)) : Prop :=
  ∀ message offset name length, expand message offset = some (name, length) → length ≤ MAXDNAME

/-- Where a parsed record lies: a name of this length at the start, four
numbers in network byte order behind the name, and then the data, all of it
inside the message. -/
structure Contained (externals : Externals) (memory : Nat → UInt8) (len : Int) (start length : Nat)
    (record : resource_record_t) (finish : Nat) : Prop where
  name : externals.dn_expand (seen memory len.toNat) start = some (record.name, length)
  start_inside : (start : Int) < len
  finish_eq : finish = start + length + 10 + record.rdlength.toNat
  progress : start < finish
  finish_inside : (finish : Int) ≤ len
  type : record.type.toNat = be_value ((load_bytes (start + length) 2).run memory)
  class_ : record.class_.toNat = be_value ((load_bytes (start + length + 2) 2).run memory)
  ttl : record.ttl.toUInt32.toNat = be_value ((load_bytes (start + length + 4) 4).run memory)
  rdlength : record.rdlength.toNat = be_value ((load_bytes (start + length + 8) 2).run memory)
  rdata : record.rdata = start + length + 10
  data_inside : (record.rdata : Int) + record.rdlength.toNat ≤ len

variable {externals : Externals} {memory : Nat → UInt8} {len : Nat} {start finish : Nat} {record : resource_record_t}

/-- Without the assertion there are two ways to end. -/
def parse_outcome.of : Option (resource_record_t × Nat) → parse_outcome
  | none => .null
  | some (record, offset) => .parsed record offset

/-- The call is stopped by the assertion, or it ends as it does without. -/
theorem run_asserting {len : Int} {name : cstring} {length : Nat}
    (hname : externals.dn_expand (seen memory len.toNat) start = some (name, length)) :
    (parse_resource_record_asserting externals len start).run memory =
      if start + (Int32.ofNat (length + 2 + 2 + 4 + 2)).toInt > len then .null
      else if (Int32.ofNat (length + 2 + 2 + 4 + 2)).toInt ≠ length + rr_fixed_len then .aborted
      else .of ((parse_resource_record externals len.toNat start).run memory) := by
  simp only [parse_resource_record_asserting, parse_resource_record, Reader.run_bind, run_dn_expand, hname]
  simp only [Reader.run_ite, Reader.run_bind, Reader.run_pure]
  have hfixed : rr_fixed_len = 10 := rfl
  by_cases hbehind : start + (Int32.ofNat (length + 2 + 2 + 4 + 2)).toInt > len
  · rw [if_pos hbehind, if_pos hbehind]
  by_cases hfails : (Int32.ofNat (length + 2 + 2 + 4 + 2)).toInt ≠ length + rr_fixed_len
  · rw [if_neg hbehind, if_neg hbehind, if_pos hfails, if_pos (by omega)]
  · have hheader : ¬ len.toNat < start + (length + rr_fixed_len) := by omega
    rw [if_neg hbehind, if_neg hbehind, if_neg hfails, if_neg (by omega), if_neg hheader]
    have hrdlength : load16 (start + length + 2 + 2 + 4) = load16 (start + length + 8) := rfl
    rw [hrdlength]
    split
    · rw [if_pos (by omega)]
      rfl
    · rw [if_neg (by omega)]
      rfl

theorem run_asserting_none {len : Int} (hname : externals.dn_expand (seen memory len.toNat) start = none) :
    (parse_resource_record_asserting externals len start).run memory = .null := by
  rw [parse_resource_record_asserting, Reader.run_bind, run_dn_expand, hname]
  rfl

/-- What the assertion lets pass is what is parsed without. -/
theorem asserting_parsed {len : Int}
    (h : (parse_resource_record_asserting externals len start).run memory = .parsed record finish) :
    RecordLies externals memory len.toNat start record finish := by
  cases hname : externals.dn_expand (seen memory len.toNat) start with
  | none =>
    rw [run_asserting_none hname] at h
    cases h
  | some expanded =>
    rw [run_asserting hname] at h
    split at h
    · cases h
    split at h
    · cases h
    cases hparsed : (parse_resource_record externals len.toNat start).run memory with
    | none =>
      rw [hparsed] at h
      cases h
    | some parsed =>
      rw [hparsed, parse_outcome.of, parse_outcome.parsed.injEq] at h
      rw [← h.1, ← h.2]
      exact parse_resource_record_iff.mp hparsed

/-- A record that lies in the message begins and ends inside. -/
theorem RecordLies.contained {len : Int} (h : RecordLies externals memory len.toNat start record finish)
    (hinside : ExpandsInside externals.dn_expand) :
    ∃ length, Contained externals memory len start length record finish := by
  obtain ⟨length, ttl, hname, hfixed, httl, hrdata, hend, hfinish⟩ := h
  have hstart := (hinside _ _ _ _ hname).1
  rw [seen_length] at hstart
  rw [holds_append, holds_append, holds_append, holds_be16_iff, holds_be16_iff, holds_be32_iff, holds_be16_iff]
    at hfixed
  obtain ⟨htype, hclass, hword, hrdlength⟩ := hfixed
  rw [rr_fixed_len] at hrdata
  refine ⟨length,
    { name := hname
      start_inside := by omega
      finish_eq := by omega
      progress := by omega
      finish_inside := by omega
      type := by rw [← htype, run_load16_be_value]
      class_ := ?_
      ttl := ?_
      rdlength := ?_
      rdata := hrdata
      data_inside := by omega }⟩
  · rw [← hclass, run_load16_be_value]
    rfl
  · rw [httl, UInt32.toUInt32_toInt32, ← hword, run_load32_be_value]
    rfl
  · rw [← hrdlength, run_load16_be_value]
    rfl

/-- The sum of the sizes is an `int`. -/
theorem header_len_toInt {length : Nat} (h : length + rr_fixed_len < 2 ^ 31) :
    (Int32.ofNat (length + 2 + 2 + 4 + 2)).toInt = length + rr_fixed_len := by
  rw [rr_fixed_len] at h ⊢
  rw [Int32.toInt_ofNat_of_lt (by omega)]
  omega

/-- The assertion holds, so that it does not matter to the caller. -/
theorem run_asserting_eq {len : Int} (hheader : ∀ name length,
      externals.dn_expand (seen memory len.toNat) start = some (name, length) → length + rr_fixed_len < 2 ^ 31) :
    (parse_resource_record_asserting externals len start).run memory =
      .of ((parse_resource_record externals len.toNat start).run memory) := by
  cases hname : externals.dn_expand (seen memory len.toNat) start with
  | none =>
    rw [run_asserting_none hname, parse_resource_record, Reader.run_bind, run_dn_expand, hname]
    rfl
  | some expanded =>
    have hconverted := header_len_toInt (hheader _ _ hname)
    rw [run_asserting hname, hconverted, if_neg (not_not.mpr rfl)]
    split
    · rename_i hbehind
      rw [rr_fixed_len] at hbehind
      simp only [parse_resource_record, Reader.run_bind, run_dn_expand, hname]
      rw [if_pos (by rw [rr_fixed_len]; omega)]
      rfl
    · rfl

/-- No name is too long in a message short enough, or if it fits its buffer. -/
theorem header_len_lt {len : Int} {name : cstring} {length : Nat} (hinside : ExpandsInside externals.dn_expand)
    (hshort : len + rr_fixed_len < 2 ^ 31 ∨ ExpandsFitting externals.dn_expand)
    (hname : externals.dn_expand (seen memory len.toNat) start = some (name, length)) :
    length + rr_fixed_len < 2 ^ 31 := by
  obtain hlen | hfits := hshort
  · have hlength := hinside _ _ _ _ hname
    rw [seen_length] at hlength
    omega
  · have hlength := hfits _ _ _ _ hname
    rw [MAXDNAME] at hlength
    rw [rr_fixed_len]
    omega

/-- If a call returns a position, the record lies inside the message from its
start up to that position, with the numbers of the message in its fields. The
sanity check does not fail: a sum of sizes that is no `int` takes a message of
2 GiB and a name too long for its buffer. -/
theorem parse_resource_record_progress (hinside : ExpandsInside externals.dn_expand) (memory : Nat → UInt8)
    (len : Int) (start : Nat) :
    (∀ record finish, (parse_resource_record_asserting externals len start).run memory = .parsed record finish →
      ∃ length, Contained externals memory len start length record finish) ∧
    (len + rr_fixed_len < 2 ^ 31 ∨ ExpandsFitting externals.dn_expand →
      (parse_resource_record_asserting externals len start).run memory ≠ .aborted) := by
  constructor
  · intro record finish hparsed
    exact (asserting_parsed hparsed).contained hinside
  · intro hshort
    rw [run_asserting_eq fun _ _ => header_len_lt hinside hshort]
    cases (parse_resource_record externals len.toNat start).run memory with
    | none => exact parse_outcome.noConfusion
    | some parsed => exact parse_outcome.noConfusion

theorem reference_expands_fitting : ExpandsFitting reference_session.externals.dn_expand := by
  intro message offset name length h
  obtain ⟨-, -, rfl⟩ := reference_dn_expand_iff.mp h
  decide

/-- The answer of the reference response. -/
theorem parse_resource_record_progress_root_response :
    (∃ length, Contained reference_session.externals (fun address => root_response.bytes.getD address 0) 44 17 length
      ⟨[], T_A, C_IN, 60, 4, 28⟩ 32) ∧
    (parse_resource_record_asserting reference_session.externals 44 17).run
      (fun address => root_response.bytes.getD address 0) ≠ .aborted := by
  obtain ⟨hcontained, hassertion⟩ := parse_resource_record_progress reference_expands_inside
    (fun address => root_response.bytes.getD address 0) 44 17
  exact ⟨hcontained _ _ rfl, hassertion (.inr reference_expands_fitting)⟩

/-! The sections of a message make progress with each of their records. -/

/-- Each record takes up its fixed part at least. -/
theorem RecordsLie.progress {count offset : Nat} (h : RecordsLie externals memory len count offset finish) :
    offset + rr_fixed_len * count ≤ finish := by
  induction count generalizing offset with
  | zero => exact h.ge
  | succ count ih =>
    obtain ⟨record, next, hrecord, hrest⟩ := h
    have hnext := hrecord.fixed_le
    have hfinish := ih hrest
    rw [Nat.mul_succ]
    omega

/-- Each question takes up its type and class at least. -/
theorem skip_questions_progress {count offset : Nat}
    (h : (skip_questions externals len count offset).run memory = some finish) :
    offset + (2 + 2) * count ≤ finish := by
  induction count generalizing offset with
  | zero => exact (Option.some.inj h).le
  | succ count ih =>
    rw [skip_questions, Reader.run_bind, run_dn_expand] at h
    cases hname : externals.dn_expand (seen memory len) offset with
    | none =>
      rw [hname] at h
      cases h
    | some expanded =>
      simp only [hname] at h
      have hfinish := ih h
      omega

/-- A message that announces more than there is room for is rejected. -/
theorem process_dns_packet_announced_le {packet_id : UInt16} {mac_id : UInt8} {table : dns_table_t}
    (h : ((process_dns_packet externals len table packet_id mac_id).run memory).1 = 0)
    (hrecords : 0 < record_count memory) :
    sizeof_HEADER + (2 + 2) * ((load16 4).run memory).toNat + rr_fixed_len * record_count memory ≤ len := by
  obtain ⟨-, offset, finish, hskip, hlie⟩ := (run_process_dns_packet_accepts table).mp h
  have hquestions := skip_questions_progress hskip
  have hprogress := hlie.progress
  have hfinish : finish ≤ len := by
    obtain ⟨count, hcount⟩ := Nat.exists_eq_succ_of_ne_zero hrecords.ne'
    rw [hcount] at hlie
    obtain ⟨record, next, ⟨_, _, _, _, _, _, _, hnext⟩, hrest⟩ := hlie
    exact hrest.le hnext
  omega

/-- No byte belongs to the data of two records. -/
theorem extracted_records_apart (sections : List Bool) (offset : Nat) :
    (extracted_records externals memory len sections offset).Pairwise fun first second =>
      first.rdata + first.rdlength.toNat < second.rdata := by
  induction sections generalizing offset with
  | nil => exact List.Pairwise.nil
  | cons extracted sections ih =>
    rw [extracted_records]
    cases hparse : (parse_resource_record externals len offset).run memory with
    | none => exact List.Pairwise.nil
    | some parsed =>
      obtain ⟨first, next⟩ := parsed
      obtain ⟨length, ttl, -, -, -, -, hnext, -⟩ := parse_resource_record_iff.mp hparse
      have hapart : ∀ second ∈ extracted_records externals memory len sections next,
          first.rdata + first.rdlength.toNat < second.rdata := by
        intro second hsecond
        obtain ⟨start, finish, hbehind, hrecord⟩ := extracted_records_lie hsecond
        have hfixed := hrecord.fixed_le
        rw [rr_fixed_len] at hfixed
        omega
      cases extracted with
      | false => exact ih next
      | true => exact List.pairwise_cons.mpr ⟨hapart, ih next⟩

/-- The data of each record ends before that of the next one begins. -/
theorem packet_records_apart (externals : Externals) (memory : Nat → UInt8) (len : Nat) :
    (packet_records externals memory len).Pairwise fun first second =>
      first.rdata + first.rdlength.toNat < second.rdata := by
  unfold packet_records
  split
  · split
    · exact List.Pairwise.nil
    · exact extracted_records_apart _ _
  · exact List.Pairwise.nil

end bismark_passive.dns
