import BismarkPassive.DeviceThroughput.Totals
import BismarkPassive.Main.FrequentUpdate
import BismarkPassive.Printed
import BismarkPassive.Reference

namespace bismark_passive.main

open text counting device_throughput

/-! What `device_throughput_table_write_update` prints -/

/-- The fields of a line; the number of bytes is printed as signed. -/
def frequent_line.fields : frequent_line → List cstring
  | .version frequent_file_format_version => [unsigned frequent_file_format_version]
  | .timestamp current_timestamp => [decimal current_timestamp]
  | .router mac => [mac ++ [newline]]
  | .length size => [unsigned size]
  | .device mac bytes_transferred => [mac, decimal bytes_transferred.toInt]
  | .blank => []

/-- One `fprintf` call for each line, as long as none fails. A line that is
`none` cannot be composed, and the process dies when its turn comes. -/
def print_frequent (fprintf_returns : Nat → Int) : Nat → List (Option frequent_line) →
    writer_result × List frequent_line
  | _, [] => (some 0, [])
  | _, none :: _ => (none, [])
  | call, some line :: lines =>
    if fprintf_returns call < 0 then (some (-1), [])
    else
      let (result, printed) := print_frequent fprintf_returns (call + 1) lines
      (result, line :: printed)

/-- The result, and the lines that were printed from this call on. -/
def device_throughput_table_write_update (s : Session) (table : device_throughput_table_t)
    (fprintf_returns : Nat → Int) (call : Nat) : writer_result × List frequent_line :=
  print_frequent fprintf_returns call (device_throughput_lines s table)

/-- Writing succeeds exactly if the lines can be composed and no call fails. -/
theorem print_frequent_complete_iff {fprintf_returns : Nat → Int} {call : Nat} {lines : List (Option frequent_line)} :
    (print_frequent fprintf_returns call lines).1 = some 0 ↔ prints_frequent fprintf_returns call lines = true := by
  induction lines generalizing call with
  | nil => simp [print_frequent, prints_frequent]
  | cons line lines ih =>
    cases line with
    | none => simp [print_frequent, prints_frequent]
    | some line =>
      rw [print_frequent, prints_frequent]
      by_cases hfails : fprintf_returns call < 0
      · simp [hfails]
      · rw [if_neg hfails]
        simp only [ih, Option.isSome_some, not_lt.mp hfails, decide_true, Bool.true_and]

/-- Calls that succeed print every line. -/
theorem print_frequent_healthy {fprintf_returns : Nat → Int} (hhealthy : ∀ call, 0 ≤ fprintf_returns call) (call : Nat)
    (lines : List frequent_line) : print_frequent fprintf_returns call (lines.map some) = (some 0, lines) := by
  induction lines generalizing call with
  | nil => rfl
  | cons line lines ih => rw [List.map_cons, print_frequent, if_neg (not_lt.mpr (hhealthy call)), ih]

/-- How a device is shown; `none` if the anonymiser aborts. -/
def shown_mac (s : Session) (mac_address : mac_address_t) : Option cstring :=
  if s.target.disable_anonymization then buffer_to_hex mac_address.toList
  else do
    let digest_mac ← anonymize_mac s mac_address
    buffer_to_hex digest_mac.toList

/-- A device's line shows its MAC and its counter as a signed word. -/
theorem device_line_eq (s : Session) (entry : device_throughput_table_entry_t) :
    device_line s entry = (shown_mac s entry.mac_address).map (.device · entry.bytes_transferred.toInt32) := by
  unfold device_line shown_mac
  split
  · rw [Option.map_eq_bind]
    rfl
  · simp only [Option.bind_eq_bind, Option.map_bind]
    refine congrArg (Option.bind (anonymize_mac s entry.mac_address)) (funext fun digest_mac => ?_)
    rw [Function.comp_apply, Option.map_eq_bind]
    rfl

/-- An initialised anonymiser can show every MAC. -/
theorem shown_mac_isSome {s : Session} (hs : s.Initialized) (mac_address : mac_address_t) :
    (shown_mac s mac_address).isSome := by
  have hhex (mac : mac_address_t) : (buffer_to_hex mac.toList).isSome := by
    apply buffer_to_hex_isSome
    rw [Vector.length_toList, ETH_ALEN]
    omega
  unfold shown_mac
  split
  · exact hhex mac_address
  · rename_i henabled
    have hinitialized := hs (eq_false_of_ne_true henabled)
    simp only [anonymize_mac, anonymization_process, if_pos hinitialized, Option.bind_eq_bind, Option.bind_some,
      Option.pure_def]
    exact hhex _

/-! The totals -/

/-- The table after these calls, whatever they return. -/
def record_all (records : List (mac_address_t × UInt32)) : device_throughput_table_t :=
  records.foldl (fun table record => (device_throughput_table_record table record.1 record.2).2)
    device_throughput_table_init

/-- The devices that get an entry, in the order of their first call. -/
def accepted_devices (records : List (mac_address_t × UInt32)) : List mac_address_t :=
  first_keys DEVICE_THROUGHPUT_TABLE_SIZE (records.map Prod.fst)

/-- The bytes of all calls for a device. -/
def total_bytes (records : List (mac_address_t × UInt32)) (mac_address : mac_address_t) : Nat :=
  amount (records.map fun record => (record.1, record.2.toNat)) mac_address

theorem record_all_snoc (records : List (mac_address_t × UInt32)) (record : mac_address_t × UInt32) :
    record_all (records ++ [record]) = (device_throughput_table_record (record_all records) record.1 record.2).2 := by
  rw [record_all, List.foldl_append, List.foldl_cons, List.foldl_nil, record_all]

theorem accepted_devices_snoc (records : List (mac_address_t × UInt32)) (record : mac_address_t × UInt32) :
    accepted_devices (records ++ [record]) =
      first_keys DEVICE_THROUGHPUT_TABLE_SIZE (records.map Prod.fst ++ [record.1]) := by
  rw [accepted_devices, List.map_append]
  rfl

theorem total_bytes_snoc (records : List (mac_address_t × UInt32)) (record : mac_address_t × UInt32)
    (mac_address : mac_address_t) : total_bytes (records ++ [record]) mac_address =
      total_bytes records mac_address + if record.1 = mac_address then record.2.toNat else 0 := by
  rw [total_bytes, List.map_append, amount_append, List.map_singleton, amount_singleton, total_bytes]

/-- Every call for an accepted device is recorded. -/
theorem record_all_registers (records : List (mac_address_t × UInt32)) :
    ∃ recorded, Registers (record_all records) (records.map Prod.fst) recorded ∧
      ∀ mac_address ∈ accepted_devices records, amount recorded mac_address = total_bytes records mac_address := by
  induction records using List.reverseRecOn with
  | nil => exact ⟨[], device_throughput_table_init_registers, fun _ _ => rfl⟩
  | append_singleton records record ih =>
    obtain ⟨recorded, hregisters, hamounts⟩ := ih
    obtain ⟨mac_address, bytes_transferred⟩ := record
    rw [record_all_snoc, List.map_append, List.map_singleton, accepted_devices_snoc]
    by_cases hroom : mac_address ∈
        first_keys DEVICE_THROUGHPUT_TABLE_SIZE (records.map Prod.fst ++ [mac_address])
    · refine ⟨_, (hregisters.record mac_address bytes_transferred hroom).2, fun device hdevice => ?_⟩
      rw [amount_append, amount_singleton, total_bytes_snoc]
      refine congrArg (· + _) ?_
      by_cases hknown : device ∈ accepted_devices records
      · exact hamounts device hknown
      · -- The device enters with this call, so there was none before.
        obtain rfl := (mem_first_keys_snoc hdevice).resolve_left hknown
        have hunseen := not_mem_of_enters hknown hroom
        have hnone : amount recorded device = 0 := by
          apply amount_of_not_mem
          rintro other hother rfl
          exact hknown (hregisters.registered other hother)
        have htotal : total_bytes records device = 0 := by
          apply amount_of_not_mem
          intro other hother heq
          obtain ⟨first, hfirst, rfl⟩ := List.mem_map.mp hother
          exact hunseen (heq ▸ List.mem_map_of_mem hfirst)
        rw [hnone, htotal]
    · obtain ⟨hrefused, hfull⟩ := hregisters.refuse mac_address bytes_transferred hroom
      rw [hrefused]
      refine ⟨recorded, hregisters.see hfull mac_address, fun device hdevice => ?_⟩
      have hother : mac_address ≠ device := by
        rintro rfl
        exact hroom hdevice
      rw [first_keys_snoc_full hfull] at hdevice
      rw [total_bytes_snoc, if_neg hother, Nat.add_zero]
      exact hamounts device hdevice

/-! The printed totals -/

/-- The printed numbers are the true ones: how many devices there are, and for
each of them in turn how many bytes. -/
def PrintsTotals (s : Session) (records : List (mac_address_t × UInt32)) (printed : List frequent_line) : Prop :=
  ∃ rows, printed.map frequent_line.fields = [unsigned (accepted_devices records).length] :: rows ++ [[]] ∧
    List.Forall₂ (fun mac_address row => ∃ mac number, shown_mac s mac_address = some mac ∧ row = [mac, number] ∧
      integer_of number = some (total_bytes records mac_address : Int)) (accepted_devices records) rows

theorem ofNat_toInt32_eq_iff {value : Nat} (hlt : value < 2 ^ 32) :
    (UInt32.ofNat value).toInt32.toInt = value ↔ value < 2 ^ 31 := by
  have hbits : (UInt32.ofNat value).toInt32.toInt = (BitVec.ofNat 32 value).toInt := rfl
  rw [hbits, BitVec.toInt_eq_toNat_cond, BitVec.toNat_ofNat, Nat.mod_eq_of_lt hlt]
  split <;> omega

/-- The line of a device with these bytes. -/
def total_line (records : List (mac_address_t × UInt32)) (mac_address : mac_address_t) (mac : cstring) :
    frequent_line := .device mac (UInt32.ofNat (total_bytes records mac_address)).toInt32

/-- The section of a table that recorded these packets. -/
theorem device_throughput_lines_record_all (s : Session) (records : List (mac_address_t × UInt32)) :
    device_throughput_lines s (record_all records) = some (.length (accepted_devices records).length) ::
      ((accepted_devices records).map fun mac_address =>
        (shown_mac s mac_address).map (total_line records mac_address)) ++ [some .blank] := by
  obtain ⟨recorded, hregisters, hamounts⟩ := record_all_registers records
  have hdevices : (record_all records).entries.map (·.mac_address) = accepted_devices records := hregisters.devices
  rw [device_throughput_lines, hregisters.length, ← accepted_devices, List.cons_append, ← hdevices, List.map_map]
  refine congrArg (fun lines => _ :: (lines ++ _)) (List.map_congr_left fun entry hentry => ?_)
  have haccepted : entry.mac_address ∈ accepted_devices records := hdevices ▸ List.mem_map_of_mem hentry
  rw [device_line_eq, hregisters.bytes_transferred entry hentry, hamounts _ haccepted]
  rfl

/-- What the table prints when the devices are shown like this. -/
def total_lines (records : List (mac_address_t × UInt32)) (shown : mac_address_t → cstring) : List frequent_line :=
  .length (accepted_devices records).length ::
    ((accepted_devices records).map fun mac_address => total_line records mac_address (shown mac_address)) ++ [.blank]

/-- What is printed for them on a healthy file. -/
theorem write_update_record_all {s : Session} (hs : s.Initialized) (records : List (mac_address_t × UInt32))
    {fprintf_returns : Nat → Int} (hhealthy : ∀ call, 0 ≤ fprintf_returns call) (call : Nat) :
    ∃ shown : mac_address_t → cstring, (∀ mac_address, shown_mac s mac_address = some (shown mac_address)) ∧
      device_throughput_table_write_update s (record_all records) fprintf_returns call =
        (some 0, total_lines records shown) := by
  choose shown hshown using fun mac_address => Option.isSome_iff_exists.mp (shown_mac_isSome hs mac_address)
  have hlines : device_throughput_lines s (record_all records) = (total_lines records shown).map some := by
    rw [device_throughput_lines_record_all]
    simp only [hshown, Option.map_some, total_lines, List.map_cons, List.map_append, List.map_map, List.map_nil]
    rfl
  exact ⟨shown, hshown, by rw [device_throughput_table_write_update, hlines, print_frequent_healthy hhealthy]⟩

/-- The totals printed are right exactly below 2^31 bytes a device. -/
theorem printsTotals_total_lines_iff {s : Session} {records : List (mac_address_t × UInt32)}
    {shown : mac_address_t → cstring} (hshown : ∀ mac_address, shown_mac s mac_address = some (shown mac_address))
    (htotals : ∀ mac_address, total_bytes records mac_address < 2 ^ 32) :
    PrintsTotals s records (total_lines records shown) ↔
      ∀ mac_address ∈ accepted_devices records, total_bytes records mac_address < 2 ^ 31 := by
  let rows := (accepted_devices records).map fun mac_address =>
    (total_line records mac_address (shown mac_address)).fields
  have hfields : (total_lines records shown).map frequent_line.fields =
      [unsigned (accepted_devices records).length] :: rows ++ [[]] := by
    rw [total_lines, List.cons_append, List.map_cons, List.map_append, List.map_map]
    rfl
  rw [PrintsTotals, hfields]
  constructor
  · rintro ⟨printed_rows, hprinted, hrows⟩ mac_address haccepted
    have heq : rows = printed_rows := by
      simpa only [List.cons_append, List.cons.injEq, true_and, List.append_left_inj] using hprinted
    rw [← heq, List.forall₂_map_right_iff, List.forall₂_same] at hrows
    obtain ⟨mac, number, -, hrow, hnumber⟩ := hrows mac_address haccepted
    simp only [total_line, frequent_line.fields, List.cons.injEq, and_true] at hrow
    rw [← hrow.2, integer_of_decimal, Option.some.injEq] at hnumber
    exact (ofNat_toInt32_eq_iff (htotals mac_address)).mp hnumber
  · intro hsmall
    refine ⟨rows, rfl, ?_⟩
    rw [List.forall₂_map_right_iff, List.forall₂_same]
    intro mac_address haccepted
    refine ⟨shown mac_address, _, hshown mac_address, rfl, ?_⟩
    rw [integer_of_decimal, (ofNat_toInt32_eq_iff (htotals mac_address)).mpr (hsmall mac_address haccepted)]

/-- The totals are printed right exactly if none reaches the sign bit of the
`int32_t` that they are printed as. -/
theorem prints_totals_iff {s : Session} (hs : s.Initialized) {records : List (mac_address_t × UInt32)}
    (htotals : ∀ mac_address, total_bytes records mac_address < 2 ^ 32) {fprintf_returns : Nat → Int}
    (hhealthy : ∀ call, 0 ≤ fprintf_returns call) (call : Nat) :
    ∃ printed, device_throughput_table_write_update s (record_all records) fprintf_returns call = (some 0, printed) ∧
      (PrintsTotals s records printed ↔
        ∀ mac_address ∈ accepted_devices records, total_bytes records mac_address < 2 ^ 31) := by
  obtain ⟨shown, hshown, hwrite⟩ := write_update_record_all hs records hhealthy call
  exact ⟨_, hwrite, printsTotals_total_lines_iff hshown htotals⟩

def quiet_device : mac_address_t := .replicate ETH_ALEN 1

def busy_device : mac_address_t := .replicate ETH_ALEN 2

/-- Half a gigabyte of one device and two gigabytes of another. -/
def large_records : List (mac_address_t × UInt32) := [(quiet_device, 0x20000000), (busy_device, 0x80000000)]

theorem total_bytes_large_records (mac_address : mac_address_t) : total_bytes large_records mac_address < 2 ^ 32 := by
  have hrecords : large_records = [] ++ [(quiet_device, 0x20000000)] ++ [(busy_device, 0x80000000)] := rfl
  have hnone : total_bytes [] mac_address = 0 := rfl
  have hfirst : (0x20000000 : UInt32).toNat = 2 ^ 29 := rfl
  have hsecond : (0x80000000 : UInt32).toNat = 2 ^ 31 := rfl
  rw [hrecords, total_bytes_snoc, total_bytes_snoc, hnone, hfirst, hsecond]
  split <;> split <;> omega

theorem prints_totals_iff_large_records :
    ∃ printed, device_throughput_table_write_update reference_session (record_all large_records) (fun _ => 1) 0 =
        (some 0, printed) ∧
      (PrintsTotals reference_session large_records printed ↔
        ∀ mac_address ∈ accepted_devices large_records, total_bytes large_records mac_address < 2 ^ 31) :=
  prints_totals_iff (by intro h; cases h) total_bytes_large_records (fun _ => by decide) 0

/-- Two gigabytes are printed as a negative number. -/
theorem prints_negative_total :
    ¬ PrintsTotals reference_session large_records
      (device_throughput_table_write_update reference_session (record_all large_records) (fun _ => 1) 0).2 := by
  have hs : reference_session.Initialized := by
    intro h
    cases h
  have hhealthy : ∀ call : Nat, 0 ≤ (fun _ : Nat => (1 : Int)) call := fun _ => Int.one_nonneg
  obtain ⟨shown, hshown, hwrite⟩ := write_update_record_all hs large_records hhealthy 0
  have haccepted : busy_device ∈ accepted_devices large_records :=
    List.mem_of_getElem? (show (accepted_devices large_records)[1]? = some busy_device by decide)
  rw [hwrite, printsTotals_total_lines_iff hshown total_bytes_large_records]
  intro hsmall
  exact absurd (hsmall busy_device haccepted) (by decide)

end bismark_passive.main
