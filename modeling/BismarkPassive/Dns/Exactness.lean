import BismarkPassive.Dns.Extraction
import BismarkPassive.Reference

namespace bismark_passive.dns

open bytes

variable {externals : Externals} {expand : List UInt8 → Nat → Option (cstring × Nat)}
  {packet_id : UInt16} {mac_id : UInt8}

/-- A name that expands in a message expands to the same in any longer one:
`dn_expand` uses the end of the message as a bound only. -/
def ExpandsPrefix (expand : List UInt8 → Nat → Option (cstring × Nat)) : Prop :=
  ∀ first whole offset result, first <+: whole → expand first offset = some result →
    expand whole offset = some result

section mono

variable {view view' : Nat → List UInt8}

theorem NameAt.mono (hexpand : ExpandsPrefix expand) {offset : Nat} {wire : List UInt8} {name : cstring}
    (h : NameAt expand view offset wire name)
    (hview : view (offset + wire.length) <+: view' (offset + wire.length)) :
    NameAt expand view' offset wire name :=
  hexpand _ _ _ _ hview h

/-- Questions stay where they are when more of the message is seen. -/
theorem QuestionsAt.mono (hexpand : ExpandsPrefix expand) {questions : List wire_question} {offset : Nat}
    (h : QuestionsAt expand view offset questions)
    (hview : ∀ position ≤ offset + (question_bytes questions).length, view position <+: view' position) :
    QuestionsAt expand view' offset questions := by
  induction questions generalizing offset with
  | nil => trivial
  | cons question questions ih =>
    obtain ⟨⟨name, hname⟩, hrest⟩ := h
    have hbytes : question_bytes (question :: questions) = question.bytes ++ question_bytes questions := rfl
    rw [hbytes, List.length_append] at hview
    refine ⟨⟨name, hname.mono hexpand (hview _ ?_)⟩, ih hrest fun position hle => hview position ?_⟩
    · rw [question.bytes_length]
      omega
    · omega

/-- So do records. -/
theorem RecordsAt.mono (hexpand : ExpandsPrefix expand) {records : List (Bool × wire_record)} {offset : Nat}
    (h : RecordsAt expand view offset records)
    (hview : ∀ position ≤ offset + (record_bytes records).length, view position <+: view' position) :
    RecordsAt expand view' offset records := by
  induction records generalizing offset with
  | nil => trivial
  | cons record records ih =>
    obtain ⟨hrecord, hrest⟩ := h
    have hbytes : record_bytes (record :: records) = record.2.bytes ++ record_bytes records := rfl
    have hsize : record.2.bytes.length = record.2.head.length + record.2.rdata.length := List.length_append
    rw [hbytes, List.length_append] at hview
    refine ⟨⟨hrecord.owner.mono hexpand (hview _ ?_), hrecord.address, fun hclass htype => ?_⟩,
      ih hrest fun position hle => hview position ?_⟩
    · rw [record.2.head_length] at hsize
      omega
    · exact (hrecord.target hclass htype).mono hexpand (hview _ (by omega))
    · omega

end mono

/-- The records of a message begin with any first part of them. -/
theorem RecordsAt.append {view : Nat → List UInt8} {before rest : List (Bool × wire_record)} {offset : Nat}
    (h : RecordsAt expand view offset (before ++ rest)) :
    RecordsAt expand view offset before ∧ RecordsAt expand view (offset + (record_bytes before).length) rest := by
  induction before generalizing offset with
  | nil => exact ⟨trivial, h⟩
  | cons record before ih =>
    obtain ⟨hrecord, hrest⟩ := h
    obtain ⟨hbefore, hafter⟩ := ih hrest
    have hbytes : record_bytes (record :: before) = record.2.bytes ++ record_bytes before := rfl
    rw [hbytes, List.length_append, ← Nat.add_assoc]
    exact ⟨⟨hrecord, hbefore⟩, hafter⟩

/-- A well-formed message is accepted, and all its records contribute. -/
theorem run_process_dns_packet_whole {packet : List UInt8} {message : wire_message} {memory : Nat → UInt8}
    (table : dns_table_t) (hencoded : message.bytes <+: packet)
    (hwellFormed : message.WellFormed externals.dn_expand fun _ => packet) (hheld : Holds memory 0 packet) :
    (process_dns_packet externals packet.length table packet_id mac_id).run memory =
      (0, table.record_all (a_entries_of packet_id mac_id message.records)
        (cname_entries_of packet_id mac_id message.records)) := by
  have hseen : seen memory packet.length = packet := run_load_bytes hheld
  have hheader : Holds memory 0 message.header :=
    hheld.of_prefix ((List.prefix_append _ _).trans hencoded)
  have hlen := hencoded.length_le
  rw [wire_message.bytes, List.length_append, List.length_append, message.header_length] at hlen
  have hrecords : Holds memory message.records_offset (record_bytes message.records) := by
    have hmessage := hheld.of_prefix hencoded
    rw [wire_message.bytes, holds_append, holds_append, message.header_length, Nat.zero_add] at hmessage
    exact hmessage.2.2
  have hwalk := @run_process_all_records externals memory packet.length packet_id mac_id message.records []
    message.records_offset table hrecords (hseen.symm ▸ hwellFormed.records) (by
      rw [wire_message.records_offset]
      omega)
  rw [run_process_dns_packet table hheader (by omega) (hseen.symm ▸ hwellFormed.questions)]
  rw [List.append_nil] at hwalk
  rw [hwalk, foldl_contribute]
  rfl

/-- What is left of a message that is cut inside a record: everything before
the record, and the first bytes of the record. -/
theorem wire_message.bytes_take {message : wire_message} {before after : List (Bool × wire_record)}
    {record : Bool × wire_record} {cut : Nat} (hrecords : message.records = before ++ record :: after)
    (hstart : message.records_offset + (record_bytes before).length ≤ cut)
    (hcut : cut < message.records_offset + (record_bytes before).length + record.2.bytes.length) :
    message.bytes.take cut = message.header ++ (question_bytes message.questions ++ (record_bytes before ++
      record.2.bytes.take (cut - (message.records_offset + (record_bytes before).length)))) := by
  have hbytes : message.bytes = (message.header ++ (question_bytes message.questions ++ record_bytes before)) ++
      (record.2.bytes ++ record_bytes after) := by
    rw [wire_message.bytes, hrecords, record_bytes, List.flatMap_append, List.flatMap_cons]
    simp only [record_bytes, List.append_assoc]
  have hlength : (message.header ++ (question_bytes message.questions ++ record_bytes before)).length =
      message.records_offset + (record_bytes before).length := by
    rw [List.length_append, List.length_append, message.header_length, wire_message.records_offset, Nat.add_assoc]
  rw [hbytes, List.take_append, hlength, List.take_of_length_le (hlength ▸ hstart),
    List.take_append_of_le_length (by omega)]
  simp only [List.append_assoc]

/-- A message cut inside a record is rejected, and the records before the cut
contribute as in the whole message. -/
theorem run_process_dns_packet_cut {packet : List UInt8} {message : wire_message} {memory : Nat → UInt8}
    {before after : List (Bool × wire_record)} {record : Bool × wire_record} {cut : Nat}
    (table : dns_table_t) (hexpand : ExpandsPrefix externals.dn_expand) (hencoded : message.bytes <+: packet)
    (hwellFormed : message.WellFormed externals.dn_expand packet.take)
    (hrecords : message.records = before ++ record :: after)
    (hstart : message.records_offset + (record_bytes before).length ≤ cut)
    (hcut : cut < message.records_offset + (record_bytes before).length + record.2.bytes.length)
    (hheld : Holds memory 0 (packet.take cut)) :
    (process_dns_packet externals cut table packet_id mac_id).run memory =
      (-1, table.record_all (a_entries_of packet_id mac_id before) (cname_entries_of packet_id mac_id before)) := by
  have hoffset : message.records_offset = sizeof_HEADER + (question_bytes message.questions).length := rfl
  have hsize : message.bytes.length =
      message.records_offset + (record_bytes before).length + record.2.bytes.length + (record_bytes after).length := by
    rw [wire_message.bytes, hrecords, record_bytes, List.flatMap_append, List.flatMap_cons]
    simp only [record_bytes, List.length_append, message.header_length, hoffset]
    omega
  have hinside : cut ≤ packet.length := by
    have := hencoded.length_le
    omega
  -- `dn_expand` sees the message up to the cut, where every earlier name expands as before.
  have hlength : (packet.take cut).length = cut := by rw [List.length_take, min_eq_left hinside]
  have hseen : seen memory cut = packet.take cut := by
    have := run_load_bytes hheld
    rwa [hlength] at this
  have hview (position : Nat) (hposition : position ≤ cut) : packet.take position <+: seen memory cut := by
    rw [hseen]
    exact List.take_prefix_take_left hposition
  obtain ⟨hbefore, hrecord, _⟩ := RecordsAt.append (hrecords ▸ hwellFormed.records)
  have hquestions : QuestionsAt externals.dn_expand (fun _ => seen memory cut) sizeof_HEADER message.questions :=
    hwellFormed.questions.mono hexpand fun position hposition => hview position (by omega)
  have hbefore' : RecordsAt externals.dn_expand (fun _ => seen memory cut) message.records_offset before :=
    hbefore.mono hexpand fun position hposition => hview position (by omega)
  -- Memory holds what is left of the message.
  have htake : message.bytes.take cut = packet.take cut := by
    obtain ⟨rest, hpacket⟩ := hencoded
    rw [← hpacket, List.take_append_of_le_length (by omega)]
  rw [← htake, wire_message.bytes_take hrecords hstart hcut, holds_append, holds_append, holds_append,
    message.header_length, Nat.zero_add, ← hoffset] at hheld
  obtain ⟨hheader, _, hheld_before, hheld_record⟩ := hheld
  have hwalk := @run_process_all_records externals memory cut packet_id mac_id before
    ((record :: after).map Prod.fst) message.records_offset table hheld_before hbefore' hstart
  have hreject := run_parse_resource_record_cut hheld_record (fun name compressed_len hname => by
      rw [hseen] at hname
      have hwhole := hexpand _ _ _ _ (List.take_prefix cut packet) hname
      have howner := hexpand _ _ _ _ (List.take_prefix _ packet) hrecord.owner
      rw [hwhole] at howner
      simpa using howner) hcut
  rw [run_process_dns_packet table hheader (by omega) hquestions, hrecords, List.map_append, hwalk,
    List.map_cons, process_all, Reader.run_bind, hreject, foldl_contribute]
  rfl

/-- On a well-formed response that lies within the length, the parser adds
exactly the entries of the address and name records of the answer and
additional sections, in message order and cut off where the tables are full.
If such a response, whose names refer backwards only, is cut inside a record,
the parser reports failure and has added exactly the entries of the records
before. -/
theorem process_dns_packet_exact {packet : List UInt8} {message : wire_message} (table : dns_table_t)
    (hencoded : message.bytes <+: packet) :
    (message.WellFormed externals.dn_expand (fun _ => packet) → ∀ memory, Holds memory 0 packet →
      ((process_dns_packet externals packet.length table packet_id mac_id).run memory).1 = 0 ∧
      table.Extends packet_id mac_id message.records
        ((process_dns_packet externals packet.length table packet_id mac_id).run memory).2) ∧
    (ExpandsPrefix externals.dn_expand → message.WellFormed externals.dn_expand packet.take →
      ∀ before record after cut memory, message.records = before ++ record :: after →
      message.records_offset + (record_bytes before).length ≤ cut →
      cut < message.records_offset + (record_bytes before).length + record.2.bytes.length →
      Holds memory 0 (packet.take cut) →
      ((process_dns_packet externals cut table packet_id mac_id).run memory).1 = -1 ∧
      table.Extends packet_id mac_id before
        ((process_dns_packet externals cut table packet_id mac_id).run memory).2) := by
  constructor
  · intro hwellFormed memory hheld
    rw [run_process_dns_packet_whole table hencoded hwellFormed hheld]
    exact ⟨rfl, table.record_all_extends message.records⟩
  · intro hexpand hwellFormed before record after cut memory hrecords hstart hcut hheld
    rw [run_process_dns_packet_cut table hexpand hencoded hwellFormed hrecords hstart hcut hheld]
    exact ⟨rfl, table.record_all_extends before⟩

/-- A response about the root name with an address and an alias. -/
def root_response : wire_message where
  id := 1
  flags := 0x81
  rcode := 0x80
  response := by decide
  query := by decide
  noerror := by decide
  questions := [⟨[0], T_A, C_IN⟩]
  answers := [⟨[], [0], T_A, C_IN, 60, [10, 0, 0, 1], by decide, []⟩]
  authority := []
  additional := [⟨[], [0], T_CNAME, C_IN, 60, [0], by decide, []⟩]
  questions_lt := by decide
  answers_lt := by decide
  authority_lt := by decide
  additional_lt := by decide

/-- The reference expansion knows a zero byte only, as the root name. -/
theorem reference_dn_expand_iff {message : List UInt8} {offset length : Nat} {name : cstring} :
    reference_session.externals.dn_expand message offset = some (name, length) ↔
      message[offset]? = some 0 ∧ name = [] ∧ length = 1 := by
  simp only [reference_session]
  split
  · rename_i hroot
    rw [Option.some.injEq, Prod.mk.injEq, eq_comm, @eq_comm _ 1]
    exact (and_iff_right hroot).symm
  · rename_i hother
    exact iff_of_false (Option.some_ne_none _).symm fun h => hother h.1

/-- The reference expansion reads one byte, so what follows does not matter to it. -/
theorem reference_expands_prefix : ExpandsPrefix reference_session.externals.dn_expand := by
  intro first whole offset result hextended hfirst
  obtain ⟨name, length⟩ := result
  obtain ⟨hroot, hresult⟩ := reference_dn_expand_iff.mp hfirst
  obtain ⟨rest, rfl⟩ := hextended
  apply reference_dn_expand_iff.mpr
  rw [List.getElem?_append_left (List.getElem?_eq_some_iff.mp hroot).1]
  exact ⟨hroot, hresult⟩

theorem root_response_wellFormed :
    root_response.WellFormed reference_session.externals.dn_expand root_response.bytes.take where
  questions := ⟨⟨[], by decide⟩, trivial⟩
  records :=
    ⟨⟨by decide, fun _ _ => rfl, fun _ h => absurd h (by decide)⟩,
      ⟨by decide, fun _ h => absurd h (by decide), fun _ _ => by decide⟩, trivial⟩

/-- The response whole, and cut behind its address record. -/
theorem process_dns_packet_exact_root_response :
    (dns_table_init none ⟨0, none, 0, fun _ => none⟩).Extends 3 4 root_response.records
      ((process_dns_packet reference_session.externals 44 (dns_table_init none ⟨0, none, 0, fun _ => none⟩) 3 4).run
        fun address => root_response.bytes.getD address 0).2 ∧
    (dns_table_init none ⟨0, none, 0, fun _ => none⟩).Extends 3 4 (root_response.records.take 1)
      ((process_dns_packet reference_session.externals 40 (dns_table_init none ⟨0, none, 0, fun _ => none⟩) 3 4).run
        fun address => root_response.bytes.getD address 0).2 := by
  have hheld := holds_getD root_response.bytes
  have hwhole : root_response.WellFormed reference_session.externals.dn_expand fun _ => root_response.bytes :=
    ⟨root_response_wellFormed.questions.mono reference_expands_prefix fun _ _ => List.take_prefix _ _,
      root_response_wellFormed.records.mono reference_expands_prefix fun _ _ => List.take_prefix _ _⟩
  obtain ⟨haccepted, hrejected⟩ := @process_dns_packet_exact reference_session.externals 3 4 _ root_response
    (dns_table_init none ⟨0, none, 0, fun _ => none⟩) (List.prefix_refl root_response.bytes)
  exact ⟨(haccepted hwhole _ hheld).2, (hrejected reference_expands_prefix root_response_wellFormed
    (root_response.records.take 1) _ [] 40 _ rfl (by decide) (by decide)
    (Holds.of_prefix hheld (List.take_prefix _ _))).2⟩

end bismark_passive.dns
