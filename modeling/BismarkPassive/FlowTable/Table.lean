import BismarkPassive.Anonymization
import BismarkPassive.Output
import BismarkPassive.Containers.Slots

namespace bismark_passive

def FNV_OFFSET_BASIS : UInt32 := 0x811c9dc5

def fnv_hash_32 (data : List UInt8) : UInt32 :=
  data.foldl (fun hval byte =>
    (hval + ((hval <<< 1) + (hval <<< 4) + (hval <<< 7) + (hval <<< 8) + (hval <<< 24))) ^^^ byte.toUInt32)
    FNV_OFFSET_BASIS

namespace flow_table

inductive entry_state where
  | ENTRY_EMPTY
  | ENTRY_OCCUPIED_BUT_UNSENT
  | ENTRY_OCCUPIED
  | ENTRY_DELETED
  deriving DecidableEq

structure flow_table_entry_t where
  ip_source : UInt32
  ip_destination : UInt32
  port_source : UInt16
  port_destination : UInt16
  transport_protocol : UInt8
  occupied : entry_state
  ip_source_unanonymized : Bool
  ip_destination_unanonymized : Bool
  num_packets : BitVec 4
  last_update_time_seconds : Int16
  deriving DecidableEq

abbrev Slot := Fin FLOW_TABLE_ENTRIES

/-- The range of the loops over the whole table. -/
@[irreducible] def all_slots : List Slot := List.finRange FLOW_TABLE_ENTRIES

theorem mem_all_slots (idx : Slot) : idx ∈ all_slots := by
  unfold all_slots
  exact List.mem_finRange idx

theorem nodup_all_slots : all_slots.Nodup := by
  unfold all_slots
  exact List.nodup_finRange FLOW_TABLE_ENTRIES

structure flow_table_t where
  entries : Slot → flow_table_entry_t
  base_timestamp_seconds : Int
  num_elements : UInt32
  num_expired_flows : Int
  num_dropped_flows : Int

/-- The fields that `flow_entry_compare` compares and the hash covers. -/
structure flow_key where
  ip_source : UInt32
  ip_destination : UInt32
  port_source : UInt16
  port_destination : UInt16
  transport_protocol : UInt8
  deriving DecidableEq

def flow_table_entry_t.key (entry : flow_table_entry_t) : flow_key where
  ip_source := entry.ip_source
  ip_destination := entry.ip_destination
  port_source := entry.port_source
  port_destination := entry.port_destination
  transport_protocol := entry.transport_protocol

def flow_entry_compare (first second : flow_table_entry_t) : Bool :=
  first.ip_source == second.ip_source
    && first.ip_destination == second.ip_destination
    && first.transport_protocol == second.transport_protocol
    && first.port_source == second.port_source
    && first.port_destination == second.port_destination

theorem flow_entry_compare_iff {first second : flow_table_entry_t} :
    flow_entry_compare first second = true ↔ second.key = first.key := by
  simp only [flow_entry_compare, flow_table_entry_t.key, Bool.and_eq_true, beq_iff_eq, flow_key.mk.injEq]
  tauto

def flow_table_entry_init : flow_table_entry_t where
  ip_source := 0
  ip_destination := 0
  port_source := 0
  port_destination := 0
  transport_protocol := 0
  occupied := .ENTRY_EMPTY
  ip_source_unanonymized := false
  ip_destination_unanonymized := false
  num_packets := 0
  last_update_time_seconds := 0

def flow_table_init : flow_table_t where
  entries _ := flow_table_entry_init
  base_timestamp_seconds := 0
  num_elements := 0
  num_expired_flows := 0
  num_dropped_flows := 0

/-- The thirteen bytes of an entry that `flow_table_process_flow` hashes. -/
def flow_key.bytes (target : Target) (key : flow_key) : List UInt8 :=
  target.bytes32 key.ip_source ++ target.bytes32 key.ip_destination ++
    target.bytes16 key.port_source ++ target.bytes16 key.port_destination ++ [key.transport_protocol]

/-- The hash outside of tests, which may install another one. -/
def fnv_hash (target : Target) (key : flow_key) : UInt32 := fnv_hash_32 (key.bytes target)

/-- `(uint32_t)(hash + HT_C1*probe + HT_C2*probe*probe) % FLOW_TABLE_ENTRIES` -/
def table_idx (target : Target) (hash : UInt32) (probe : Nat) : Slot :=
  Fin.ofNat FLOW_TABLE_ENTRIES (target.u32_of_double (hash.toNat + HT_C1 * probe + HT_C2 * probe * probe)).toNat

/-- The slots of a flow in probing order. -/
def probes (target : Target) (hash_function : flow_key → UInt32) (key : flow_key) : List Slot :=
  (List.range HT_NUM_PROBES).map (table_idx target (hash_function key))

def flow_table_entry_t.Live (entry : flow_table_entry_t) : Prop :=
  entry.occupied = .ENTRY_OCCUPIED ∨ entry.occupied = .ENTRY_OCCUPIED_BUT_UNSENT

instance (entry : flow_table_entry_t) : Decidable entry.Live :=
  inferInstanceAs (Decidable (_ ∨ _))

/-- A sent entry that is too old at the given time. -/
def flow_table_entry_t.Expired (base timestamp_seconds : Int) (entry : flow_table_entry_t) : Prop :=
  entry.occupied = .ENTRY_OCCUPIED ∧
    base + entry.last_update_time_seconds.toInt + FLOW_TABLE_EXPIRATION_SECONDS < timestamp_seconds

instance (base timestamp_seconds : Int) (entry : flow_table_entry_t) :
    Decidable (entry.Expired base timestamp_seconds) :=
  inferInstanceAs (Decidable (_ ∧ _))

def flow_table_t.store (table : flow_table_t) (idx : Slot) (entry : flow_table_entry_t) : flow_table_t :=
  { table with entries := Function.update table.entries idx entry }

/-- The lazy deletion at the head of the probe loop. -/
def expire_entry (timestamp_seconds : Int) (table : flow_table_t) (idx : Slot) : flow_table_t :=
  let entry := table.entries idx
  if entry.Expired table.base_timestamp_seconds timestamp_seconds then
    { table.store idx { entry with occupied := .ENTRY_DELETED } with
      num_elements := table.num_elements - 1
      num_expired_flows := table.num_expired_flows + 1 }
  else table

/-- What a packet of a flow already in the table does to its entry. The guard
compares the 4-bit counter with 63, as the source does. -/
def touch_entry (target : Target) (timestamp_seconds : Int) (table : flow_table_t) (idx : Slot) :
    flow_table_t :=
  let entry := { table.entries idx with
    last_update_time_seconds := Int16.ofInt (timestamp_seconds - table.base_timestamp_seconds) }
  table.store idx
    (if !target.disable_flow_thresholding && entry.occupied == .ENTRY_OCCUPIED_BUT_UNSENT &&
        decide (entry.num_packets.toNat < 63) then
      { entry with num_packets := entry.num_packets + 1 }
    else entry)

inductive probe_result where
  | matched (idx : Slot) (table : flow_table_t)
  | exhausted (first_available : Option Slot) (table : flow_table_t)

/-- The probe loop; `none` is `first_available == -1`. -/
def probe_loop (target : Target) (new_entry : flow_table_entry_t) (timestamp_seconds : Int) :
    List Slot → Option Slot → flow_table_t → probe_result
  | [], first_available, table => .exhausted first_available table
  | idx :: rest, first_available, table =>
    let table := expire_entry timestamp_seconds table idx
    let entry := table.entries idx
    if entry.Live ∧ flow_entry_compare new_entry entry = true then
      .matched idx (touch_entry target timestamp_seconds table idx)
    else if ¬ entry.Live then
      let first_available := first_available.or (some idx)
      if entry.occupied = .ENTRY_EMPTY then .exhausted first_available table
      else probe_loop target new_entry timestamp_seconds rest first_available table
    else probe_loop target new_entry timestamp_seconds rest first_available table

/-- The guard that keeps `last_update_time_seconds` inside its type. -/
def flow_table_t.RefusesTime (table : flow_table_t) (timestamp_seconds : Int) : Prop :=
  0 < table.num_elements ∧
    (FLOW_TABLE_MAX_UPDATE_OFFSET < timestamp_seconds - table.base_timestamp_seconds ∨
      timestamp_seconds - table.base_timestamp_seconds < FLOW_TABLE_MIN_UPDATE_OFFSET)

instance (table : flow_table_t) (timestamp_seconds : Int) : Decidable (table.RefusesTime timestamp_seconds) :=
  inferInstanceAs (Decidable (_ ∧ _))

def flow_table_t.drop_flow (table : flow_table_t) : flow_table_t :=
  { table with num_dropped_flows := table.num_dropped_flows + 1 }

/-- The statements of `flow_table_process_flow` after the probe loop. -/
def insert_entry (target : Target) (new_entry : flow_table_entry_t) (timestamp_seconds : Int)
    (table : flow_table_t) (idx : Slot) : flow_table_t :=
  let base := if table.num_elements = 0 then timestamp_seconds else table.base_timestamp_seconds
  { table.store idx { new_entry with
      occupied := .ENTRY_OCCUPIED_BUT_UNSENT
      num_packets := if target.disable_flow_thresholding then new_entry.num_packets else 1
      last_update_time_seconds := Int16.ofInt (timestamp_seconds - base) } with
    base_timestamp_seconds := base
    num_elements := table.num_elements + 1 }

/-- The id of a slot in the table. -/
def flow_id (idx : Slot) : Nat := idx.val + FLOW_ID_FIRST_UNRESERVED

/-- Returns the flow's id or `FLOW_ID_ERROR`, and the table. The caller's entry
is not used after the call and is not returned. -/
def flow_table_process_flow (target : Target) (hash_function : flow_key → UInt32) (table : flow_table_t)
    (new_entry : flow_table_entry_t) (timestamp_seconds : Int) : Nat × flow_table_t :=
  if table.RefusesTime timestamp_seconds then (FLOW_ID_ERROR, table.drop_flow)
  else
    match probe_loop target new_entry timestamp_seconds (probes target hash_function new_entry.key) none table with
    | .matched idx table => (flow_id idx, table)
    | .exhausted none table => (FLOW_ID_ERROR, table.drop_flow)
    | .exhausted (some idx) table => (flow_id idx, insert_entry target new_entry timestamp_seconds table idx)

/-- The slot in which the call stores a new entry, if it does. -/
def flow_table_insertion (target : Target) (hash_function : flow_key → UInt32) (table : flow_table_t)
    (new_entry : flow_table_entry_t) (timestamp_seconds : Int) : Option Slot :=
  if table.RefusesTime timestamp_seconds then none
  else
    match probe_loop target new_entry timestamp_seconds (probes target hash_function new_entry.key) none table with
    | .matched _ _ => none
    | .exhausted first_available _ => first_available

/-- One iteration of the loop in `flow_table_advance_base_timestamp`. -/
def advance_entry (offset : Int) (table : flow_table_t) (idx : Slot) : flow_table_t :=
  let entry := table.entries idx
  if entry.Live then
    if entry.last_update_time_seconds.toInt - offset < FLOW_TABLE_MIN_UPDATE_OFFSET then
      { table.store idx { entry with occupied := .ENTRY_DELETED } with
        num_elements := table.num_elements - 1 }
    else
      table.store idx { entry with
        last_update_time_seconds := Int16.ofInt (entry.last_update_time_seconds.toInt - offset) }
  else table

def flow_table_t.set_base (table : flow_table_t) (new_timestamp : Int) : flow_table_t :=
  { table with base_timestamp_seconds := new_timestamp }

def flow_table_advance_base_timestamp (table : flow_table_t) (new_timestamp : Int) : flow_table_t :=
  let offset := new_timestamp - table.base_timestamp_seconds
  (all_slots.foldl (advance_entry offset) table).set_base new_timestamp

/-- What is printed for one address of an entry. -/
def address_digest (s : Session) (unanonymized : Bool) (address : UInt32) : Option UInt64 :=
  if s.target.disable_anonymization || unanonymized then some address.toUInt64 else anonymize_ip s address

/-- The record of the entry in a slot; `none` if the anonymiser aborts. -/
def flow_line (s : Session) (idx : Slot) (entry : flow_table_entry_t) : Option Line := do
  let source_digest ← address_digest s entry.ip_source_unanonymized entry.ip_source
  let destination_digest ← address_digest s entry.ip_destination_unanonymized entry.ip_destination
  pure (.flow (flow_id idx) (!entry.ip_source_unanonymized) source_digest
    (!entry.ip_destination_unanonymized) destination_digest
    entry.transport_protocol entry.port_source entry.port_destination)

/-- The loop of `flow_table_write_update`. An entry is marked as sent right
after its own line, so a failing call leaves the earlier ones marked. -/
def write_entries (s : Session) : List Slot → flow_table_t → gzFile → writer_result × flow_table_t × gzFile
  | [], table, handle => (some 0, table, handle)
  | idx :: rest, table, handle =>
    let entry := table.entries idx
    if entry.occupied = .ENTRY_OCCUPIED_BUT_UNSENT then
      match flow_line s idx entry with
      | none => (none, table, handle)
      | some line =>
        let (returned, handle) := gzprintf handle line
        if returned = 0 then (some (-1), table, handle)
        else write_entries s rest (table.store idx { entry with occupied := .ENTRY_OCCUPIED }) handle
    else write_entries s rest table handle

/-- The empty line after the records, if the loop got through them. -/
def write_end : writer_result × flow_table_t × gzFile → writer_result × flow_table_t × gzFile
  | (some 0, table, handle) =>
    let (returned, handle) := gzprintf handle .blank
    (some (if returned = 0 then -1 else 0), table, handle)
  | failure => failure

def flow_table_write_update (s : Session) (table : flow_table_t) (handle : gzFile) :
    writer_result × flow_table_t × gzFile :=
  let (returned, handle) := gzprintf handle (.flows table.base_timestamp_seconds table.num_elements
    table.num_expired_flows table.num_dropped_flows)
  if returned = 0 then (some (-1), table, handle)
  else write_end (write_entries s all_slots table handle)

end flow_table

end bismark_passive
