import BismarkPassive.Dns.Layout

namespace bismark_passive.dns

open bytes

variable {externals : Externals} {memory memory' : Nat → UInt8} {len cut : Nat} {packet_id : UInt16} {mac_id : UInt8}

theorem announced_length (memory : Nat → UInt8) : (announced memory).length = record_count memory := by
  simp only [announced, record_count, List.length_append, List.length_replicate, List.length_nil]
  omega

/-- The questions end at one place. -/
theorem QuestionsLie.unique {count offset finish finish' : Nat}
    (h : QuestionsLie externals memory len count offset finish)
    (h' : QuestionsLie externals memory len count offset finish') : finish = finish' := by
  induction count generalizing offset with
  | zero => exact h.trans h'.symm
  | succ count ih =>
    obtain ⟨name, length, hname, -, hrest⟩ := h
    obtain ⟨name', length', hname', -, hrest'⟩ := h'
    rw [hname, Option.some.injEq, Prod.mk.injEq] at hname'
    exact ih hrest (hname'.2 ▸ hrest')

/-- And so do the records. -/
theorem RecordsLie.unique {count offset finish finish' : Nat}
    (h : RecordsLie externals memory len count offset finish)
    (h' : RecordsLie externals memory len count offset finish') : finish = finish' := by
  induction count generalizing offset with
  | zero => exact h.trans h'.symm
  | succ count ih =>
    obtain ⟨record, next, hrecord, hrest⟩ := h
    obtain ⟨record', next', hrecord', hrest'⟩ := h'
    have hsame := (parse_resource_record_iff.mpr hrecord).symm.trans (parse_resource_record_iff.mpr hrecord')
    rw [Option.some.injEq, Prod.mk.injEq] at hsame
    exact ih hrest (hsame.2 ▸ hrest')

theorem MessageLies.unique {finish finish' : Nat} (h : MessageLies externals memory len finish)
    (h' : MessageLies externals memory len finish') : finish = finish' := by
  obtain ⟨-, offset, hquestions, hrecords⟩ := h
  obtain ⟨-, offset', hquestions', hrecords'⟩ := h'
  have hoffset := hquestions.unique hquestions'
  exact hrecords.unique (hoffset ▸ hrecords')

/-- A question that is cut does not lie inside the length. -/
theorem not_questionsLie_of_cut {before offset start length finish : Nat} {name : cstring}
    (hbefore : QuestionsLie externals memory len before offset start)
    (hname : externals.dn_expand (seen memory len) start = some (name, length))
    (hcut : len < start + length + (2 + 2)) : ¬ QuestionsLie externals memory len (before + 1) offset finish := by
  induction before generalizing offset with
  | zero =>
    rintro ⟨name', length', hname', hinside, -⟩
    rw [QuestionsLie] at hbefore
    subst hbefore
    rw [hname, Option.some.injEq, Prod.mk.injEq] at hname'
    omega
  | succ before ih =>
    obtain ⟨first, first_length, hfirst, -, hbefore⟩ := hbefore
    rintro ⟨first', first_length', hfirst', -, hrest⟩
    rw [hfirst, Option.some.injEq, Prod.mk.injEq] at hfirst'
    exact ih hbefore (hfirst'.2 ▸ hrest)

/-- What follows the questions of a message is parsed up to its end. -/
theorem run_process_dns_packet_accepts (table : dns_table_t) :
    ((process_dns_packet externals len table packet_id mac_id).run memory).1 = 0 ↔
      Relevant memory len ∧ ∃ offset finish,
        (skip_questions externals len ((load16 4).run memory).toNat sizeof_HEADER).run memory = some offset ∧
        RecordsLie externals memory len (record_count memory) offset finish := by
  have hfailure : ¬ (-1 : Int) = 0 := by decide
  unfold process_dns_packet
  by_cases hlen : len < sizeof_HEADER
  · have hirrelevant : ¬ Relevant memory len := fun h => absurd h.1 (not_le.mpr hlen)
    rw [if_pos hlen, Reader.run_pure]
    exact iff_of_false hfailure fun h => hirrelevant h.1
  · have hheader : sizeof_HEADER ≤ len := not_lt.mp hlen
    rw [if_neg hlen, Reader.run_bind, Reader.run_bind, Reader.run_ite]
    by_cases hrelevant : Relevant memory len
    · obtain ⟨-, hresponse, hquery, hnoerror⟩ := id hrelevant
      rw [if_neg (by tauto), run_process_dns_sections, and_iff_right hrelevant]
      cases (skip_questions externals len ((load16 4).run memory).toNat sizeof_HEADER).run memory with
      | none => exact iff_of_false hfailure (by simp)
      | some offset =>
        rw [run_process_all_accepts_iff, announced_length]
        constructor
        · rintro ⟨finish, hrecords⟩
          exact ⟨offset, finish, rfl, hrecords⟩
        · rintro ⟨offset', finish, hsame, hrecords⟩
          rw [Option.some.injEq] at hsame
          exact ⟨finish, hsame ▸ hrecords⟩
    · rw [if_pos (by rw [Relevant, and_iff_right hheader] at hrelevant; tauto), Reader.run_pure]
      exact iff_of_false hfailure fun h => hrelevant h.1

/-- The parser accepts a message or rejects it. -/
theorem run_process_dns_packet_result (table : dns_table_t) :
    ((process_dns_packet externals len table packet_id mac_id).run memory).1 = 0 ∨
      ((process_dns_packet externals len table packet_id mac_id).run memory).1 = -1 := by
  unfold process_dns_packet
  by_cases hlen : len < sizeof_HEADER
  · rw [if_pos hlen]
    exact .inr rfl
  · rw [if_neg hlen, Reader.run_bind, Reader.run_bind, Reader.run_ite]
    split
    · exact .inr rfl
    · rw [run_process_dns_sections]
      cases (skip_questions externals len ((load16 4).run memory).toNat sizeof_HEADER).run memory with
      | none => exact .inr rfl
      | some offset => exact run_process_all_result (announced memory) offset table

/-- A relevant message is accepted if it lies inside the length, or if it
announces no records and is cut in the fixed part of its last question. -/
theorem process_dns_packet_accepts_iff (hinside : ExpandsInside externals.dn_expand) (table : dns_table_t) :
    ((process_dns_packet externals len table packet_id mac_id).run memory).1 = 0 ↔
      Relevant memory len ∧ ((∃ finish, MessageLies externals memory len finish) ∨
        record_count memory = 0 ∧ QuestionCut externals memory len) := by
  rw [run_process_dns_packet_accepts]
  refine and_congr_right fun hrelevant => ⟨?_, ?_⟩
  · rintro ⟨offset, finish, hskip, hrecords⟩
    obtain hquestions | ⟨hbehind, before, start, name, length, hcount, hbefore, hname, hend⟩ :=
      run_skip_questions_lie_or_cut hinside hskip
    · exact .inl ⟨finish, hrelevant.1, offset, hquestions, hrecords⟩
    · refine .inr ⟨?_, before, start, name, length, hcount, hbefore, hname, by omega⟩
      -- A record would have to start behind the end.
      cases hrecord_count : record_count memory with
      | zero => rfl
      | succ count =>
        rw [hrecord_count] at hrecords
        obtain ⟨record, next, ⟨record_length, _, hrecord_name, _⟩, _⟩ := hrecords
        have hstart := (hinside _ _ _ _ hrecord_name).1
        rw [seen_length] at hstart
        omega
  · rintro (⟨finish, -, offset, hquestions, hrecords⟩ |
      ⟨hnone, before, start, name, length, hcount, hbefore, hname, -⟩)
    · refine ⟨offset, finish, ?_, hrecords⟩
      rw [← Nat.add_zero ((load16 4).run memory).toNat, run_skip_questions_add hquestions]
      rfl
    · refine ⟨start + length + (2 + 2), start + length + (2 + 2), ?_, by rw [hnone]; rfl⟩
      rw [hcount, run_skip_questions_add hbefore, skip_questions, Reader.run_bind, run_dn_expand, hname]
      rfl

section cut

variable (hagree : ∀ address < cut, memory' address = memory address) (hle : cut ≤ len)

include hagree hle

theorem seen_cut : seen memory' cut <+: seen memory len := by
  have hsame : seen memory' cut = seen memory cut := (within_load_bytes (Nat.zero_add cut).le).run_congr hagree
  rw [hsame]
  exact load_bytes_prefix hle

variable (hstable : ExpandsPrefix externals.dn_expand)

include hstable

/-- What lies inside the cut message lies inside the whole one. -/
theorem RecordLies.of_cut {offset finish : Nat} {record : resource_record_t}
    (h : RecordLies externals memory' cut offset record finish) :
    RecordLies externals memory len offset record finish := by
  obtain ⟨length, ttl, hname, hfixed, hvalue, hrdata, hfinish, hinside⟩ := h
  refine ⟨length, ttl, hstable _ _ _ _ (seen_cut hagree hle) hname, ?_, hvalue, hrdata, hfinish, hinside.trans hle⟩
  have hfixed_length : (be16 record.type ++ (be16 record.class_ ++ (be32 ttl ++ be16 record.rdlength))).length =
      rr_fixed_len := rfl
  refine hfixed.congr ?_ fun address haddress => (hagree address haddress).symm
  rw [hfixed_length, ← hrdata]
  omega

/-- Records in a message that is cut off lie in the whole one. -/
theorem RecordsLie.of_cut {count offset finish : Nat}
    (h : RecordsLie externals memory' cut count offset finish) :
    RecordsLie externals memory len count offset finish := by
  induction count generalizing offset with
  | zero => exact h
  | succ count ih =>
    obtain ⟨record, next, hrecord, hrest⟩ := h
    exact ⟨record, next, hrecord.of_cut hagree hle hstable, ih hrest⟩

/-- So do questions. -/
theorem QuestionsLie.of_cut {count offset finish : Nat}
    (h : QuestionsLie externals memory' cut count offset finish) :
    QuestionsLie externals memory len count offset finish := by
  induction count generalizing offset with
  | zero => exact h
  | succ count ih =>
    obtain ⟨name, length, hname, hinside, hrest⟩ := h
    exact ⟨name, length, hstable _ _ _ _ (seen_cut hagree hle) hname, hinside.trans hle, ih hrest⟩

/-- And what the parser accepts of the part it accepts of the whole. -/
theorem MessageLies.of_cut {finish : Nat} (h : MessageLies externals memory' cut finish) :
    MessageLies externals memory len finish := by
  obtain ⟨hheader, offset, hquestions, hrecords⟩ := h
  rw [sizeof_HEADER] at hheader
  have hcount {address : Nat} (haddress : address ≤ 10) : (load16 address).run memory' = (load16 address).run memory :=
    Reader.Within.run_congr ((within_load16 address).mpr (by omega)) hagree
  have hrecord_count : record_count memory' = record_count memory := by
    rw [record_count, hcount (by decide), hcount (by decide), hcount (by decide), record_count]
  rw [hcount (by decide)] at hquestions
  rw [hrecord_count] at hrecords
  exact ⟨by rw [sizeof_HEADER]; omega, offset, hquestions.of_cut hagree hle hstable,
    hrecords.of_cut hagree hle hstable⟩

end cut

/-- An accepted message lies completely inside the length, except exactly if it
announces no records and ends in the fixed part of its last question; and this
is the only way in which a message can be cut and still be accepted. -/
theorem accepted_messages_lie_iff (hinside : ExpandsInside externals.dn_expand) (table : dns_table_t) :
    ((((process_dns_packet externals len table packet_id mac_id).run memory).1 = 0 →
        ∃ finish, MessageLies externals memory len finish) ↔
      ¬ (Relevant memory len ∧ record_count memory = 0 ∧ QuestionCut externals memory len)) ∧
    (ExpandsPrefix externals.dn_expand → MessageLies externals memory len len → ∀ cut memory', cut < len →
      (∀ address < cut, memory' address = memory address) →
      (((process_dns_packet externals cut table packet_id mac_id).run memory').1 = -1 ↔
        ¬ (Relevant memory' cut ∧ record_count memory' = 0 ∧ QuestionCut externals memory' cut))) := by
  constructor
  · rw [process_dns_packet_accepts_iff hinside]
    constructor
    · rintro hlies ⟨hrelevant, hnone, hcut⟩
      obtain ⟨finish, -, offset, hquestions, -⟩ := hlies ⟨hrelevant, .inr ⟨hnone, hcut⟩⟩
      obtain ⟨before, start, name, length, hcount, hbefore, hname, hbehind⟩ := hcut
      rw [hcount] at hquestions
      exact not_questionsLie_of_cut hbefore hname hbehind hquestions
    · rintro hnot ⟨hrelevant, hlies | ⟨hnone, hcut⟩⟩
      · exact hlies
      · exact absurd ⟨hrelevant, hnone, hcut⟩ hnot
  · intro hstable hwhole cut memory' hcut hagree
    have hresult : ((process_dns_packet externals cut table packet_id mac_id).run memory').1 = -1 ↔
        ¬ ((process_dns_packet externals cut table packet_id mac_id).run memory').1 = 0 := by
      obtain h | h := @run_process_dns_packet_result externals memory' cut packet_id mac_id table
      · simp [h]
      · simp [h]
    rw [hresult, process_dns_packet_accepts_iff hinside, not_iff_not]
    refine and_congr_right fun _ => or_iff_right ?_
    rintro ⟨finish, hlies⟩
    have hend := (hlies.of_cut hagree hcut.le hstable).unique hwhole
    have := hlies.le
    omega

theorem reference_expands_inside : ExpandsInside reference_session.externals.dn_expand := by
  intro message offset name length h
  obtain ⟨hroot, -, rfl⟩ := reference_dn_expand_iff.mp h
  obtain ⟨hoffset, -⟩ := List.getElem?_eq_some_iff.mp hroot
  exact ⟨hoffset, hoffset⟩

/-- The reference response is accepted and whole, and rejected without its last byte. -/
theorem accepted_messages_lie_root_response :
    (∃ finish, MessageLies reference_session.externals (fun address => root_response.bytes.getD address 0) 44 finish) ∧
    ((process_dns_packet reference_session.externals 43 (dns_table_init none ⟨0, none, 0, fun _ => none⟩) 3 4).run
      fun address => root_response.bytes.getD address 0).1 = -1 := by
  obtain ⟨hlies, hcut⟩ := @accepted_messages_lie_iff reference_session.externals
    (fun address => root_response.bytes.getD address 0) 44 3 4 reference_expands_inside
    (dns_table_init none ⟨0, none, 0, fun _ => none⟩)
  have hrecords : record_count (fun address => root_response.bytes.getD address 0) ≠ 0 := by decide
  have hwhole : MessageLies reference_session.externals (fun address => root_response.bytes.getD address 0) 44 44 :=
    ⟨by decide, 17, ⟨[], 1, rfl, by decide, rfl⟩,
      ⟨_, _, parse_resource_record_iff.mp rfl, _, _, parse_resource_record_iff.mp rfl, rfl⟩⟩
  exact ⟨hlies.mpr (fun h => hrecords h.2.1) (by decide),
    (hcut reference_expands_prefix hwhole 43 _ (by decide) fun _ _ => rfl).mpr fun h => hrecords h.2.1⟩

/-- A response that ends in the type of its only question. -/
def cut_question : List UInt8 := [0, 1, 0x81, 0x80, 0, 1, 0, 0, 0, 0, 0, 0] ++ ([0] ++ be16 T_A)

/-- It is accepted although it is not whole. -/
theorem accepted_cut_question :
    ((process_dns_packet reference_session.externals cut_question.length
      (dns_table_init none ⟨0, none, 0, fun _ => none⟩) 3 4).run fun address => cut_question.getD address 0).1 = 0 ∧
    ¬ ∃ finish, MessageLies reference_session.externals (fun address => cut_question.getD address 0)
      cut_question.length finish := by
  refine ⟨by decide, ?_⟩
  rintro ⟨finish, -, offset, hquestions, -⟩
  obtain ⟨name, length, hname, hinside, -⟩ := hquestions
  have hroot : reference_session.externals.dn_expand
      (seen (fun address => cut_question.getD address 0) cut_question.length) sizeof_HEADER = some ([], 1) := by decide
  rw [hroot, Option.some.injEq, Prod.mk.injEq] at hname
  obtain ⟨-, rfl⟩ := hname
  exact absurd hinside (by decide)

end bismark_passive.dns
