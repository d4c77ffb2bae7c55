import BismarkPassive.Anonymization
import BismarkPassive.Output

namespace bismark_passive.address_table

structure address_table_entry_t where
  ip_address : UInt32
  mac_address : mac_address_t
  deriving DecidableEq

abbrev MacSlot := Fin MAC_TABLE_ENTRIES

structure address_table_t where
  entries : MacSlot → address_table_entry_t
  first : Int
  last : Int
  length : Int
  added_since_last_update : Int

def address_table_init : address_table_t where
  entries _ := { ip_address := 0, mac_address := Vector.replicate ETH_ALEN 0 }
  first := 0
  last := 0
  length := 0
  added_since_last_update := 0

/-- The macro `NORM`, with the remainder of C, which has the sign of the dividend. -/
def NORM (m : Int) : Int := ((m.tmod MAC_TABLE_ENTRIES) + MAC_TABLE_ENTRIES).tmod MAC_TABLE_ENTRIES

/-- The array element that a mapping id refers to. -/
def mac_slot (mac_id : Int) : MacSlot := Fin.ofNat MAC_TABLE_ENTRIES mac_id.toNat

/-- The search from the most recent mapping backwards. -/
def address_table_t.find (table : address_table_t) (mapping : address_table_entry_t) : Option Int :=
  ((List.range table.length.toNat).map fun idx : Nat => NORM (table.last - idx)).find? fun mac_id =>
    decide (table.entries (mac_slot mac_id) = mapping)

/-- The statements of `address_table_lookup` after the search. -/
def address_table_t.add (table : address_table_t) (mapping : address_table_entry_t) : address_table_t :=
  let full := table.length = MAC_TABLE_ENTRIES
  let length := if full then table.length else table.length + 1
  let last := if 1 < length then NORM (table.last + 1) else table.last
  { entries := Function.update table.entries (mac_slot last) mapping
    first := if full then NORM (table.first + 1) else table.first
    last := last
    length := length
    added_since_last_update :=
      if table.added_since_last_update < MAC_TABLE_ENTRIES then table.added_since_last_update + 1
      else table.added_since_last_update }

/-- Returns the id of the mapping, or -1 for addresses that are not private. -/
def address_table_lookup (table : address_table_t) (ip_address : UInt32) (mac : mac_address_t) :
    Int × address_table_t :=
  if is_address_private ip_address then
    match table.find ⟨ip_address, mac⟩ with
    | some mac_id => (mac_id, table)
    | none => ((table.add ⟨ip_address, mac⟩).last, table.add ⟨ip_address, mac⟩)
  else (-1, table)

/-- The line of a mapping; `none` if the anonymiser aborts. -/
def address_line (s : Session) (entry : address_table_entry_t) : Option Line :=
  if s.target.disable_anonymization then do
    let mac ← buffer_to_hex entry.mac_address.toList
    pure (.address mac entry.ip_address.toUInt64)
  else do
    let digest_ip ← anonymize_ip s entry.ip_address
    let digest_mac ← anonymize_mac s entry.mac_address
    let mac ← buffer_to_hex digest_mac.toList
    pure (.address mac digest_ip)

/-- The ids of the mappings that an update sends: `NORM(last - idx + 1)` for
`idx` from `added_since_last_update` down to 1. -/
def address_table_t.added_ids (table : address_table_t) : List Int :=
  (List.range table.added_since_last_update.toNat).map fun sent : Nat =>
    NORM (table.last - (table.added_since_last_update - sent) + 1)

def address_table_t.reset_added (table : address_table_t) : address_table_t :=
  { table with added_since_last_update := 0 }

def address_table_write_update (s : Session) (table : address_table_t) (handle : gzFile) :
    writer_result × address_table_t × gzFile :=
  let (result, handle) :=
    write_line (.addresses (NORM (table.last - table.added_since_last_update + 1)) MAC_TABLE_ENTRIES)
      (write_lines write_blank
        (table.added_ids.map fun mac_id => address_line s (table.entries (mac_slot mac_id)))) handle
  (result, if result = some 0 then table.reset_added else table, handle)

end bismark_passive.address_table
