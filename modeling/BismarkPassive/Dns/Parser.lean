import BismarkPassive.Bytes.Reader
import BismarkPassive.Dns.Table

namespace bismark_passive.dns

open bytes

/-! `arpa/nameser.h` -/

def sizeof_HEADER : Nat := 12
def QUERY : UInt8 := 0
def NOERROR : UInt8 := 0
def C_IN : UInt16 := 1
def T_A : UInt16 := 1
def T_CNAME : UInt16 := 5

/-- The sizes of the fields of a resource record between its name and its data. -/
def rr_fixed_len : Nat := 2 + 2 + 4 + 2

structure resource_record_t where
  name : cstring
  type : UInt16
  class_ : UInt16
  ttl : Int32
  rdlength : UInt16
  rdata : Nat

variable (externals : Externals) (len : Nat)

/-- `dn_expand(bytes, bytes + len, offset, ..)` sees the message only. -/
def dn_expand (offset : Nat) : Reader (Option (cstring × Nat)) := do
  let message ← load_bytes 0 len
  pure (externals.dn_expand message offset)

/-- Addresses are relative to the start of the message. Returns the record and
the position after it. -/
def parse_resource_record (offset : Nat) : Reader (Option (resource_record_t × Nat)) := do
  match ← dn_expand externals len offset with
  | none => pure none
  | some (name, compressed_len) =>
    if len < offset + (compressed_len + rr_fixed_len) then pure none
    else
      let offset := offset + compressed_len
      let type ← load16 offset
      let class_ ← load16 (offset + 2)
      let ttl ← load32 (offset + 4)
      let rdlength ← load16 (offset + 8)
      let rdata := offset + rr_fixed_len
      if len < rdata + rdlength.toNat then pure none
      else pure (some (⟨name, type, class_, ttl.toInt32, rdlength, rdata⟩, rdata + rdlength.toNat))

section records

variable (packet_id : UInt16) (mac_id : UInt8)

def add_a_record (table : dns_table_t) (record : resource_record_t) : Reader dns_table_t := do
  let ip_address ← load32 record.rdata
  pure (dns_table_add_a table
    { packet_id := packet_id
      mac_id := mac_id
      domain_name := record.name
      ip_address := ip_address
      ttl := record.ttl }).2

def add_cname_record (table : dns_table_t) (record : resource_record_t) : Reader dns_table_t := do
  match ← dn_expand externals len record.rdata with
  | none => pure table
  | some (cname, _) =>
    pure (dns_table_add_cname table
      { packet_id := packet_id
        mac_id := mac_id
        domain_name := record.name
        cname := cname
        ttl := record.ttl }).2

/-- The body of the answer and additional loops after the record is parsed. -/
def add_record (table : dns_table_t) (record : resource_record_t) : Reader dns_table_t :=
  if record.class_ ≠ C_IN then pure table
  else if record.type = T_A then add_a_record packet_id mac_id table record
  else if record.type = T_CNAME then add_cname_record externals len packet_id mac_id table record
  else pure table

/-- The loop over the answers and the one over the additional records, for the
remaining count. Returns the position after the section, `none` for `NULL`. -/
def process_records : Nat → Nat → dns_table_t → Reader (Option Nat × dns_table_t)
  | 0, offset, table => pure (some offset, table)
  | count + 1, offset, table => do
    match ← parse_resource_record externals len offset with
    | none => pure (none, table)
    | some (record, offset) => do
      let table ← add_record externals len packet_id mac_id table record
      process_records count offset table

end records

/-- The loop over the authority section. -/
def skip_records : Nat → Nat → Reader (Option Nat)
  | 0, offset => pure (some offset)
  | count + 1, offset => do
    match ← parse_resource_record externals len offset with
    | none => pure none
    | some (_, offset) => skip_records count offset

def skip_questions : Nat → Nat → Reader (Option Nat)
  | 0, offset => pure (some offset)
  | count + 1, offset => do
    match ← dn_expand externals len offset with
    | none => pure none
    | some (_, compressed_len) => skip_questions count (offset + compressed_len + (2 + 2))

/-- The statements of `process_dns_packet` after the header has been accepted. -/
def process_dns_sections (packet_id : UInt16) (mac_id : UInt8) (table : dns_table_t) :
    Reader (Int × dns_table_t) := do
  let num_questions ← load16 4
  match ← skip_questions externals len num_questions.toNat sizeof_HEADER with
  | none => pure (-1, table)
  | some offset => do
    let num_answers ← load16 6
    match ← process_records externals len packet_id mac_id num_answers.toNat offset table with
    | (none, table) => pure (-1, table)
    | (some offset, table) => do
      let num_nameservers ← load16 8
      match ← skip_records externals len num_nameservers.toNat offset with
      | none => pure (-1, table)
      | some offset => do
        let num_additional ← load16 10
        match ← process_records externals len packet_id mac_id num_additional.toNat offset table with
        | (none, table) => pure (-1, table)
        | (some _, table) => pure (0, table)

/-- The length is positive wherever the function is called. -/
def process_dns_packet (table : dns_table_t) (packet_id : UInt16) (mac_id : UInt8) :
    Reader (Int × dns_table_t) :=
  if len < sizeof_HEADER then pure (-1, table)
  else do
    let flags ← load8 2
    let rcode ← load8 3
    if flags >>> 7 ≠ 1 ∨ (flags >>> 3) &&& 0xf ≠ QUERY ∨ rcode &&& 0xf ≠ NOERROR then pure (-1, table)
    else process_dns_sections externals len packet_id mac_id table

end bismark_passive.dns
