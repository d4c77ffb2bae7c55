import BismarkPassive.DeviceThroughput
import Mathlib.Logic.Equiv.Defs

namespace bismark_passive.device_throughput

variable {rename : Equiv.Perm mac_address_t}

def device_throughput_table_entry_t.renamed (rename : Equiv.Perm mac_address_t)
    (entry : device_throughput_table_entry_t) : device_throughput_table_entry_t :=
  { entry with mac_address := rename entry.mac_address }

/-- The table with other devices in the place of its own. -/
def device_throughput_table_t.renamed (rename : Equiv.Perm mac_address_t) (table : device_throughput_table_t) :
    device_throughput_table_t :=
  ⟨table.entries.map (device_throughput_table_entry_t.renamed rename)⟩

/-- Adding bytes to a device commutes with renaming all devices. -/
theorem add_bytes_renamed (mac_address : mac_address_t) (bytes_transferred : UInt32)
    (entries : List device_throughput_table_entry_t) :
    add_bytes (rename mac_address) bytes_transferred (entries.map (device_throughput_table_entry_t.renamed rename)) =
      (add_bytes mac_address bytes_transferred entries).map
        (List.map (device_throughput_table_entry_t.renamed rename)) := by
  induction entries with
  | nil => rfl
  | cons entry entries ih =>
    have hsame : (entry.renamed rename).mac_address = rename mac_address ↔ entry.mac_address = mac_address :=
      rename.injective.eq_iff
    rw [List.map_cons, add_bytes, add_bytes]
    by_cases h : entry.mac_address = mac_address
    · rw [if_pos (hsame.mpr h), if_pos h]
      rfl
    · rw [if_neg (mt hsame.mp h), if_neg h, ih, Option.map_map, Option.map_map]
      rfl

/-- Recording for the device in the place of another one fails or succeeds alike. -/
theorem device_throughput_table_record_renamed (table : device_throughput_table_t) (mac_address : mac_address_t)
    (bytes_transferred : UInt32) :
    device_throughput_table_record (table.renamed rename) (rename mac_address) bytes_transferred =
      ((device_throughput_table_record table mac_address bytes_transferred).1,
        (device_throughput_table_record table mac_address bytes_transferred).2.renamed rename) := by
  unfold device_throughput_table_record
  rw [device_throughput_table_t.renamed, add_bytes_renamed, List.length_map]
  cases add_bytes mac_address bytes_transferred table.entries with
  | some entries => rfl
  | none =>
    simp only [Option.map_none]
    split
    · rfl
    · simp only [device_throughput_table_t.renamed, List.map_append, List.map_singleton,
        device_throughput_table_entry_t.renamed]

end bismark_passive.device_throughput
