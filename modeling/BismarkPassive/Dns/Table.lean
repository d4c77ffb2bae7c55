import BismarkPassive.Anonymization
import BismarkPassive.Containers.Bounded
import BismarkPassive.Whitelist

namespace bismark_passive.dns

open containers

structure dns_a_entry_t where
  packet_id : UInt16
  mac_id : UInt8
  domain_name : cstring
  ip_address : UInt32
  ttl : Int32
  deriving DecidableEq

structure dns_cname_entry_t where
  packet_id : UInt16
  mac_id : UInt8
  domain_name : cstring
  cname : cstring
  ttl : Int32
  deriving DecidableEq

/-- The fields `a_length` and `cname_length` are the lengths of the entries.
`whitelist` is `none` for `NULL`. -/
structure dns_table_t where
  a_entries : Bounded dns_a_entry_t DNS_TABLE_A_ENTRIES
  cname_entries : Bounded dns_cname_entry_t DNS_TABLE_CNAME_ENTRIES
  num_dropped_a_entries : Int
  num_dropped_cname_entries : Int
  whitelist : Option domain_whitelist_t
  bloom : bloom_whitelist_t

def dns_table_init (whitelist : Option domain_whitelist_t) (bloom : bloom_whitelist_t) : dns_table_t where
  a_entries := .empty
  cname_entries := .empty
  num_dropped_a_entries := 0
  num_dropped_cname_entries := 0
  whitelist := whitelist
  bloom := bloom

def dns_table_add_a (table : dns_table_t) (new_entry : dns_a_entry_t) : Int × dns_table_t :=
  match table.a_entries.push new_entry with
  | none => (-1, { table with num_dropped_a_entries := table.num_dropped_a_entries + 1 })
  | some a_entries => (0, { table with a_entries := a_entries })

def dns_table_add_cname (table : dns_table_t) (new_entry : dns_cname_entry_t) : Int × dns_table_t :=
  match table.cname_entries.push new_entry with
  | none => (-1, { table with num_dropped_cname_entries := table.num_dropped_cname_entries + 1 })
  | some cname_entries => (0, { table with cname_entries := cname_entries })

/-- `(table->whitelist && !domain_whitelist_lookup(..)) || !malware_flag` -/
def dns_table_t.shows (table : dns_table_t) (malware_flag : Int) (name : cstring) : Bool :=
  (match table.whitelist with
    | some whitelist => domain_whitelist_lookup whitelist name == 0
    | none => false) || malware_flag == 0

def hex_domain_digest (s : Session) (name : cstring) : Option cstring := do
  let digest ← anonymize_domain s name
  buffer_to_hex digest.toList

/-- The name field of an A line and whether it is anonymized. -/
def a_name (s : Session) (table : dns_table_t) (name : cstring) : Option (Bool × cstring) := do
  let malware_flag ← bloom_whitelist_lookup table.bloom name
  if table.shows malware_flag name then pure (false, name)
  else
    let digest ← hex_domain_digest s name
    pure (true, digest)

/-- A name field of a CNAME line. Unlike in A lines, a build without
anonymisation always shows the name. -/
def cname_name (s : Session) (table : dns_table_t) (name : cstring) : Option (Bool × cstring) := do
  let malware_flag ← bloom_whitelist_lookup table.bloom name
  if s.target.disable_anonymization || table.shows malware_flag name then pure (false, name)
  else
    let digest ← hex_domain_digest s name
    pure (true, digest)

def a_line (s : Session) (table : dns_table_t) (entry : dns_a_entry_t) : Option Line := do
  let address_digest ←
    if s.target.disable_anonymization then some entry.ip_address.toUInt64 else anonymize_ip s entry.ip_address
  let (domain_anonymized, domain_string) ← a_name s table entry.domain_name
  pure (.a entry.packet_id entry.mac_id domain_anonymized domain_string address_digest entry.ttl)

def cname_line (s : Session) (table : dns_table_t) (entry : dns_cname_entry_t) : Option Line := do
  let (domain_anonymized, domain_string) ← cname_name s table entry.domain_name
  let (cname_anonymized, cname_string) ← cname_name s table entry.cname
  pure (.cname entry.packet_id entry.mac_id domain_anonymized domain_string cname_anonymized cname_string entry.ttl)

def dns_table_write_update (s : Session) (table : dns_table_t) : gzFile → writer_result × gzFile :=
  write_line (.dns table.num_dropped_a_entries table.num_dropped_cname_entries)
    (write_lines
      (write_line .blank (write_lines write_blank (table.cname_entries.items.map (cname_line s table))))
      (table.a_entries.items.map (a_line s table)))

/-- The DNS section of an update, if all its lines can be composed. -/
def dns_section (table : dns_table_t) (a_lines cname_lines : List Line) : List Line :=
  .dns table.num_dropped_a_entries table.num_dropped_cname_entries :: a_lines ++ .blank :: cname_lines ++ [.blank]

/-- A write that completes prints one line for each entry, in order. -/
theorem dns_table_write_update_healthy {s : Session} {table : dns_table_t} {handle handle' : gzFile}
    (hhandle : handle.Healthy) {result : Int}
    (hwrite : dns_table_write_update s table handle = (some result, handle')) :
    result = 0 ∧ ∃ a_lines cname_lines : List Line,
      table.a_entries.items.map (a_line s table) = a_lines.map some ∧
      table.cname_entries.items.map (cname_line s table) = cname_lines.map some ∧
      handle' = handle.append (dns_section table a_lines cname_lines) := by
  have hheader := hhandle.append [.dns table.num_dropped_a_entries table.num_dropped_cname_entries]
  rw [dns_table_write_update, write_line_healthy hhandle] at hwrite
  obtain ⟨a_lines, ha_lines⟩ := write_lines_composed hheader (congrArg Prod.fst hwrite)
  have hafter_a := (hheader.append a_lines).append [.blank]
  rw [ha_lines, write_lines_healthy hheader, write_line_healthy (hheader.append _)] at hwrite
  obtain ⟨cname_lines, hcname_lines⟩ := write_lines_composed hafter_a (congrArg Prod.fst hwrite)
  rw [hcname_lines, write_lines_healthy hafter_a, write_blank_healthy (hafter_a.append _), Prod.mk.injEq] at hwrite
  refine ⟨(Option.some.inj hwrite.1).symm, a_lines, cname_lines, ha_lines, hcname_lines, ?_⟩
  rw [← hwrite.2, dns_section]
  simp only [gzFile.append_append, List.cons_append, List.append_assoc, List.nil_append]

end bismark_passive.dns
