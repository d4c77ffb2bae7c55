import BismarkPassive.Dns.Parser

namespace bismark_passive.dns

open bytes

/-- A question as it is sent. -/
structure wire_question where
  qname : List UInt8
  qtype : UInt16
  qclass : UInt16

def wire_question.bytes (question : wire_question) : List UInt8 :=
  question.qname ++ be16 question.qtype ++ be16 question.qclass

/-- A resource record as it is sent: its owner in clear and in encoded form,
and for a CNAME record also what its data expands to. -/
structure wire_record where
  owner : cstring
  owner_wire : List UInt8
  type : UInt16
  class_ : UInt16
  ttl : UInt32
  rdata : List UInt8
  rdata_length_lt : rdata.length < 2 ^ 16
  target : cstring

/-- The record up to its data. -/
def wire_record.head (record : wire_record) : List UInt8 :=
  record.owner_wire ++ (be16 record.type ++ (be16 record.class_ ++ (be32 record.ttl ++
    be16 (.ofNat record.rdata.length))))

def wire_record.bytes (record : wire_record) : List UInt8 := record.head ++ record.rdata

/-- A response without error. Every section is shorter than its 16-bit count. -/
structure wire_message where
  id : UInt16
  flags : UInt8
  rcode : UInt8
  response : flags >>> 7 = 1
  query : (flags >>> 3) &&& 0xf = QUERY
  noerror : rcode &&& 0xf = NOERROR
  questions : List wire_question
  answers : List wire_record
  authority : List wire_record
  additional : List wire_record
  questions_lt : questions.length < 2 ^ 16
  answers_lt : answers.length < 2 ^ 16
  authority_lt : authority.length < 2 ^ 16
  additional_lt : additional.length < 2 ^ 16

def wire_message.header (message : wire_message) : List UInt8 :=
  be16 message.id ++ ([message.flags, message.rcode] ++ (be16 (.ofNat message.questions.length) ++
    (be16 (.ofNat message.answers.length) ++ (be16 (.ofNat message.authority.length) ++
      be16 (.ofNat message.additional.length)))))

/-- The records in message order, each with whether its section is extracted. -/
def wire_message.records (message : wire_message) : List (Bool × wire_record) :=
  message.answers.map (true, ·) ++ (message.authority.map (false, ·) ++ message.additional.map (true, ·))

def question_bytes (questions : List wire_question) : List UInt8 := questions.flatMap wire_question.bytes

def record_bytes (records : List (Bool × wire_record)) : List UInt8 := records.flatMap fun record => record.2.bytes

def wire_message.bytes (message : wire_message) : List UInt8 :=
  message.header ++ (question_bytes message.questions ++ record_bytes message.records)

/-- Where the resource records begin. -/
def wire_message.records_offset (message : wire_message) : Nat :=
  sizeof_HEADER + (question_bytes message.questions).length

theorem wire_message.header_length (message : wire_message) : message.header.length = sizeof_HEADER := rfl

theorem wire_question.bytes_length (question : wire_question) :
    question.bytes.length = question.qname.length + (2 + 2) := by
  rw [wire_question.bytes, List.length_append, List.length_append, be16_length, be16_length, Nat.add_assoc]

theorem wire_record.head_length (record : wire_record) :
    record.head.length = record.owner_wire.length + rr_fixed_len := by
  rw [wire_record.head, List.length_append]
  rfl

section names

variable (expand : List UInt8 → Nat → Option (cstring × Nat)) (view : Nat → List UInt8)

/-- The name's encoded form at the offset expands to the name. What
`dn_expand` is given to see may depend on where the encoded form ends. -/
def NameAt (offset : Nat) (wire : List UInt8) (name : cstring) : Prop :=
  expand (view (offset + wire.length)) offset = some (name, wire.length)

instance (offset : Nat) (wire : List UInt8) (name : cstring) : Decidable (NameAt expand view offset wire name) :=
  inferInstanceAs (Decidable (_ = _))

def QuestionsAt : Nat → List wire_question → Prop
  | _, [] => True
  | offset, question :: questions =>
    (∃ name, NameAt expand view offset question.qname name) ∧
      QuestionsAt (offset + question.bytes.length) questions

/-- The names of the record expand, an address has four bytes, and the data of
a CNAME record is one name. -/
structure RecordAt (offset : Nat) (record : wire_record) : Prop where
  owner : NameAt expand view offset record.owner_wire record.owner
  address : record.class_ = C_IN → record.type = T_A → record.rdata.length = 4
  target : record.class_ = C_IN → record.type = T_CNAME →
    NameAt expand view (offset + record.head.length) record.rdata record.target

def RecordsAt : Nat → List (Bool × wire_record) → Prop
  | _, [] => True
  | offset, record :: records =>
    RecordAt expand view offset record.2 ∧ RecordsAt (offset + record.2.bytes.length) records

structure wire_message.WellFormed (message : wire_message) : Prop where
  questions : QuestionsAt expand view sizeof_HEADER message.questions
  records : RecordsAt expand view message.records_offset message.records

end names

/-- The entry that the record adds to the A table. -/
def wire_record.a_entry (packet_id : UInt16) (mac_id : UInt8) (record : wire_record) : Option dns_a_entry_t :=
  if record.class_ = C_IN ∧ record.type = T_A then
    some
      { packet_id := packet_id
        mac_id := mac_id
        domain_name := record.owner
        ip_address := .ofNat (be_value record.rdata)
        ttl := record.ttl.toInt32 }
  else none

/-- The entry that the record adds to the CNAME table. -/
def wire_record.cname_entry (packet_id : UInt16) (mac_id : UInt8) (record : wire_record) :
    Option dns_cname_entry_t :=
  if record.class_ = C_IN ∧ record.type = T_CNAME then
    some
      { packet_id := packet_id
        mac_id := mac_id
        domain_name := record.owner
        cname := record.target
        ttl := record.ttl.toInt32 }
  else none

/-- The entries that the extracted ones of these records add, in their order. -/
def a_entries_of (packet_id : UInt16) (mac_id : UInt8) (records : List (Bool × wire_record)) :
    List dns_a_entry_t :=
  records.filterMap fun record => if record.1 then record.2.a_entry packet_id mac_id else none

def cname_entries_of (packet_id : UInt16) (mac_id : UInt8) (records : List (Bool × wire_record)) :
    List dns_cname_entry_t :=
  records.filterMap fun record => if record.1 then record.2.cname_entry packet_id mac_id else none

/-- The second table is the first one with the records' entries added, cut off
where the tables are full, and with the entries cut off counted. -/
structure dns_table_t.Extends (packet_id : UInt16) (mac_id : UInt8) (records : List (Bool × wire_record))
    (table table' : dns_table_t) : Prop where
  a_entries : table'.a_entries.items =
    (table.a_entries.items ++ a_entries_of packet_id mac_id records).take DNS_TABLE_A_ENTRIES
  cname_entries : table'.cname_entries.items =
    (table.cname_entries.items ++ cname_entries_of packet_id mac_id records).take DNS_TABLE_CNAME_ENTRIES
  num_dropped_a_entries : table'.num_dropped_a_entries = table.num_dropped_a_entries +
    (table.a_entries.items.length + (a_entries_of packet_id mac_id records).length - DNS_TABLE_A_ENTRIES : Nat)
  num_dropped_cname_entries : table'.num_dropped_cname_entries = table.num_dropped_cname_entries +
    (table.cname_entries.items.length + (cname_entries_of packet_id mac_id records).length -
      DNS_TABLE_CNAME_ENTRIES : Nat)
  whitelist : table'.whitelist = table.whitelist
  bloom : table'.bloom = table.bloom

end bismark_passive.dns
