import BismarkPassive.Target

namespace bismark_passive.device_throughput

structure device_throughput_table_entry_t where
  mac_address : mac_address_t
  bytes_transferred : UInt32
  deriving DecidableEq

/-- The field `length` is the length of `entries`. -/
structure device_throughput_table_t where
  entries : List device_throughput_table_entry_t

def device_throughput_table_init : device_throughput_table_t := ⟨[]⟩

/-- The search loop: adds to the device's entry, or returns `none`. -/
def add_bytes (mac_address : mac_address_t) (bytes_transferred : UInt32) :
    List device_throughput_table_entry_t → Option (List device_throughput_table_entry_t)
  | [] => none
  | entry :: entries =>
    if entry.mac_address = mac_address then
      some ({ entry with bytes_transferred := entry.bytes_transferred + bytes_transferred } :: entries)
    else (add_bytes mac_address bytes_transferred entries).map (entry :: ·)

def device_throughput_table_record (table : device_throughput_table_t) (mac_address : mac_address_t)
    (bytes_transferred : UInt32) : Int × device_throughput_table_t :=
  match add_bytes mac_address bytes_transferred table.entries with
  | some entries => (0, ⟨entries⟩)
  | none =>
    if DEVICE_THROUGHPUT_TABLE_SIZE ≤ table.entries.length then (-1, table)
    else (0, ⟨table.entries ++ [⟨mac_address, bytes_transferred⟩]⟩)

end bismark_passive.device_throughput
