import BismarkPassive.Main.WriteUpdate

namespace bismark_passive.main

open device_throughput

/-- What `write_frequent_update` gets from its surroundings. -/
structure frequent_io where
  opened : Bool
  fprintf_returns : Nat → Int
  current_timestamp : Int
  renamed : Bool

/-- The arguments of one `fprintf` call. -/
inductive frequent_line where
  | version (frequent_file_format_version : Nat)
  | timestamp (current_timestamp : Int)
  | router (mac : cstring)
  | length (length : Nat)
  | device (mac : cstring) (bytes_transferred : Int32)
  | blank

/-- The line of a device; `none` if the anonymiser aborts. -/
def device_line (s : Session) (entry : device_throughput_table_entry_t) : Option frequent_line :=
  if s.target.disable_anonymization then do
    let mac ← buffer_to_hex entry.mac_address.toList
    pure (.device mac entry.bytes_transferred.toInt32)
  else do
    let digest_mac ← anonymize_mac s entry.mac_address
    let mac ← buffer_to_hex digest_mac.toList
    pure (.device mac entry.bytes_transferred.toInt32)

def device_throughput_lines (s : Session) (table : device_throughput_table_t) : List (Option frequent_line) :=
  some (.length table.entries.length) :: (table.entries.map (device_line s) ++ [some .blank])

/-- `bismark_mac` is the router's address as `main` has left it. -/
def frequent_update_lines (s : Session) (bismark_mac : mac_address_t) (state : state_t) (io : frequent_io) :
    List (Option frequent_line) :=
  some (.version FREQUENT_FILE_FORMAT_VERSION) :: some (.timestamp io.current_timestamp) ::
    (buffer_to_hex bismark_mac.toList).map .router :: device_throughput_lines s state.device_throughput_table

/-- Whether the lines can be composed and no `fprintf` fails. -/
def prints_frequent (fprintf_returns : Nat → Int) : Nat → List (Option frequent_line) → Bool
  | _, [] => true
  | call, line :: lines =>
    line.isSome && decide (0 ≤ fprintf_returns call) && prints_frequent fprintf_returns (call + 1) lines

/-- `none` when the process exits or dies before the update is staged. -/
def write_frequent_update (s : Session) (bismark_mac : mac_address_t) (state : state_t) (io : frequent_io) :
    Option state_t :=
  if io.opened && prints_frequent io.fprintf_returns 0 (frequent_update_lines s bismark_mac state io) &&
      io.renamed then
    some { state with device_throughput_table := device_throughput_table_init }
  else none

end bismark_passive.main
