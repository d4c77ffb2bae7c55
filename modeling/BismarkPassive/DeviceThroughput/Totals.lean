import BismarkPassive.Counting.FirstKeys
import BismarkPassive.DeviceThroughput

namespace bismark_passive.device_throughput

open counting

/-- The table has an entry for each of the first devices seen, with what was
recorded for it modulo 2^32. -/
structure Registers (table : device_throughput_table_t) (seen : List mac_address_t)
    (recorded : List (mac_address_t × Nat)) : Prop where
  devices : table.entries.map (·.mac_address) = first_keys DEVICE_THROUGHPUT_TABLE_SIZE seen
  bytes_transferred : ∀ entry ∈ table.entries,
    entry.bytes_transferred = .ofNat (amount recorded entry.mac_address)
  registered : ∀ record ∈ recorded, record.1 ∈ first_keys DEVICE_THROUGHPUT_TABLE_SIZE seen

theorem device_throughput_table_init_registers : Registers device_throughput_table_init [] [] where
  devices := by rw [first_keys_nil]; rfl
  bytes_transferred := by simp [device_throughput_table_init]
  registered := by simp

/-- The entry after these bytes were counted for the device. -/
def device_throughput_table_entry_t.credit (mac_address : mac_address_t) (bytes_transferred : UInt32)
    (entry : device_throughput_table_entry_t) : device_throughput_table_entry_t :=
  if entry.mac_address = mac_address then
    { entry with bytes_transferred := entry.bytes_transferred + bytes_transferred }
  else entry

@[simp] theorem credit_mac_address (mac_address : mac_address_t) (bytes_transferred : UInt32)
    (entry : device_throughput_table_entry_t) :
    (entry.credit mac_address bytes_transferred).mac_address = entry.mac_address := by
  unfold device_throughput_table_entry_t.credit
  split <;> rfl

/-- The search finds the device's entry wherever it is. -/
theorem add_bytes_spec (mac_address : mac_address_t) (bytes_transferred : UInt32)
    (entries : List device_throughput_table_entry_t) (hnodup : (entries.map (·.mac_address)).Nodup) :
    add_bytes mac_address bytes_transferred entries =
      if mac_address ∈ entries.map (·.mac_address) then
        some (entries.map (device_throughput_table_entry_t.credit mac_address bytes_transferred))
      else none := by
  induction entries with
  | nil => rfl
  | cons entry entries ih =>
    rw [List.map_cons, List.nodup_cons] at hnodup
    obtain ⟨habsent, hnodup⟩ := hnodup
    rw [add_bytes, List.map_cons, List.map_cons, ih hnodup]
    by_cases hentry : entry.mac_address = mac_address
    · -- The entries behind are of other devices.
      have hrest : entries.map (device_throughput_table_entry_t.credit mac_address bytes_transferred) = entries := by
        refine (List.map_congr_left fun other hother => if_neg fun hsame => habsent ?_).trans (List.map_id _)
        rw [hentry, ← hsame]
        exact List.mem_map_of_mem hother
      have hknown : mac_address ∈ entry.mac_address :: entries.map (·.mac_address) := by
        rw [hentry]
        exact List.mem_cons_self
      rw [if_pos hentry, if_pos hknown, hrest, device_throughput_table_entry_t.credit, if_pos hentry]
    · rw [if_neg hentry, device_throughput_table_entry_t.credit, if_neg hentry]
      by_cases hknown : mac_address ∈ entries.map (·.mac_address)
      · rw [if_pos hknown, if_pos (List.mem_cons_of_mem _ hknown), Option.map_some]
      · have hunknown : mac_address ∉ entry.mac_address :: entries.map (·.mac_address) := by
          rw [List.mem_cons]
          rintro (h | h)
          · exact hentry h.symm
          · exact hknown h
        rw [if_neg hknown, if_neg hunknown, Option.map_none]

variable {table : device_throughput_table_t} {seen : List mac_address_t} {recorded : List (mac_address_t × Nat)}

theorem Registers.length (h : Registers table seen recorded) :
    table.entries.length = (first_keys DEVICE_THROUGHPUT_TABLE_SIZE seen).length := by
  rw [← h.devices, List.length_map]

theorem Registers.nodup (h : Registers table seen recorded) : (table.entries.map (·.mac_address)).Nodup := by
  rw [h.devices]
  exact first_keys_nodup

/-- One more record is of a registered device if its own device is registered. -/
theorem registered_snoc {registered : List mac_address_t} {mac_address : mac_address_t} {amount : Nat}
    (hrecorded : ∀ record ∈ recorded, record.1 ∈ registered) (hnew : mac_address ∈ registered) :
    ∀ record ∈ recorded ++ [(mac_address, amount)], record.1 ∈ registered := by
  intro record hrecord
  obtain hold | hlast := List.mem_append.mp hrecord
  · exact hrecorded record hold
  · obtain rfl := List.mem_singleton.mp hlast
    exact hnew

/-- A device that has an entry is credited. -/
theorem Registers.credit (h : Registers table seen recorded) (mac_address : mac_address_t) (bytes_transferred : UInt32)
    (hknown : mac_address ∈ first_keys DEVICE_THROUGHPUT_TABLE_SIZE seen) :
    Registers
      { table with
        entries := table.entries.map (device_throughput_table_entry_t.credit mac_address bytes_transferred) }
      (seen ++ [mac_address]) (recorded ++ [(mac_address, bytes_transferred.toNat)]) where
  devices := by
    rw [first_keys_snoc_known hknown, ← h.devices, List.map_map]
    exact List.map_congr_left fun entry _ => credit_mac_address mac_address bytes_transferred entry
  bytes_transferred entry' hentry' := by
    obtain ⟨entry, hentry, rfl⟩ := List.mem_map.mp hentry'
    rw [credit_mac_address, amount_append, amount_singleton, device_throughput_table_entry_t.credit]
    by_cases hsame : entry.mac_address = mac_address
    · rw [if_pos hsame, if_pos hsame.symm, UInt32.ofNat_add, UInt32.ofNat_toNat, ← h.bytes_transferred entry hentry]
    · rw [if_neg hsame, if_neg (fun heq => hsame heq.symm), Nat.add_zero, h.bytes_transferred entry hentry]
  registered := by
    rw [first_keys_snoc_known hknown]
    exact registered_snoc h.registered hknown

/-- A device that gets an entry starts with its first frame. -/
theorem Registers.enter (h : Registers table seen recorded) (mac_address : mac_address_t) (bytes_transferred : UInt32)
    (hunknown : mac_address ∉ first_keys DEVICE_THROUGHPUT_TABLE_SIZE seen)
    (hfree : (first_keys DEVICE_THROUGHPUT_TABLE_SIZE seen).length < DEVICE_THROUGHPUT_TABLE_SIZE) :
    Registers { table with entries := table.entries ++ [⟨mac_address, bytes_transferred⟩] } (seen ++ [mac_address])
      (recorded ++ [(mac_address, bytes_transferred.toNat)]) where
  devices := by
    rw [first_keys_snoc_new hunknown hfree, List.map_append, h.devices]
    rfl
  bytes_transferred entry hentry := by
    rw [amount_append, amount_singleton]
    obtain hold | hlast := List.mem_append.mp hentry
    · have hother : mac_address ≠ entry.mac_address := by
        rintro rfl
        rw [← h.devices] at hunknown
        exact hunknown (List.mem_map_of_mem hold)
      rw [if_neg hother, Nat.add_zero, h.bytes_transferred entry hold]
    · obtain rfl := List.mem_singleton.mp hlast
      have hnothing : amount recorded mac_address = 0 := by
        apply amount_of_not_mem
        rintro record hrecord rfl
        exact hunknown (h.registered record hrecord)
      rw [if_pos rfl, hnothing, Nat.zero_add, UInt32.ofNat_toNat]
  registered := by
    rw [first_keys_snoc_new hunknown hfree]
    apply registered_snoc
    · exact fun record hrecord => List.mem_append_left _ (h.registered record hrecord)
    · exact List.mem_append_right _ (List.mem_singleton_self _)

/-- A device that has an entry, or gets one, is recorded. -/
theorem Registers.record (h : Registers table seen recorded) (mac_address : mac_address_t)
    (bytes_transferred : UInt32)
    (hroom : mac_address ∈ first_keys DEVICE_THROUGHPUT_TABLE_SIZE (seen ++ [mac_address])) :
    (device_throughput_table_record table mac_address bytes_transferred).1 = 0 ∧
      Registers (device_throughput_table_record table mac_address bytes_transferred).2 (seen ++ [mac_address])
        (recorded ++ [(mac_address, bytes_transferred.toNat)]) := by
  rw [device_throughput_table_record, add_bytes_spec _ _ _ h.nodup, h.devices]
  by_cases hknown : mac_address ∈ first_keys DEVICE_THROUGHPUT_TABLE_SIZE seen
  · rw [if_pos hknown]
    exact ⟨rfl, h.credit mac_address bytes_transferred hknown⟩
  · have hfree : ¬ DEVICE_THROUGHPUT_TABLE_SIZE ≤ table.entries.length := by
      intro hfull
      rw [h.length] at hfull
      rw [first_keys_snoc_full hfull] at hroom
      exact hknown hroom
    have hlength := h.length
    rw [if_neg hknown]
    simp only [if_neg hfree, true_and]
    exact h.enter mac_address bytes_transferred hknown (by omega)

/-- A device that gets no entry is refused, and the table is full. -/
theorem Registers.refuse (h : Registers table seen recorded) (mac_address : mac_address_t)
    (bytes_transferred : UInt32)
    (hrefused : mac_address ∉ first_keys DEVICE_THROUGHPUT_TABLE_SIZE (seen ++ [mac_address])) :
    device_throughput_table_record table mac_address bytes_transferred = (-1, table) ∧
      DEVICE_THROUGHPUT_TABLE_SIZE ≤ (first_keys DEVICE_THROUGHPUT_TABLE_SIZE seen).length := by
  have hunknown : mac_address ∉ first_keys DEVICE_THROUGHPUT_TABLE_SIZE seen := by
    intro hknown
    rw [first_keys_snoc_known hknown] at hrefused
    exact hrefused hknown
  have hfull : DEVICE_THROUGHPUT_TABLE_SIZE ≤ (first_keys DEVICE_THROUGHPUT_TABLE_SIZE seen).length := by
    by_contra hroom
    rw [first_keys_snoc_new hunknown (Nat.lt_of_not_le hroom)] at hrefused
    exact hrefused (List.mem_append_right _ (List.mem_singleton_self _))
  rw [device_throughput_table_record, add_bytes_spec _ _ _ h.nodup, h.devices, if_neg hunknown]
  rw [← h.length] at hfull ⊢
  simp only [if_pos hfull]
  exact ⟨trivial, hfull⟩

/-- In a full table nothing changes by what else is seen. -/
theorem Registers.see (h : Registers table seen recorded)
    (hfull : DEVICE_THROUGHPUT_TABLE_SIZE ≤ (first_keys DEVICE_THROUGHPUT_TABLE_SIZE seen).length)
    (mac_address : mac_address_t) : Registers table (seen ++ [mac_address]) recorded where
  devices := by rw [first_keys_snoc_full hfull, h.devices]
  bytes_transferred := h.bytes_transferred
  registered := by
    rw [first_keys_snoc_full hfull]
    exact h.registered

end bismark_passive.device_throughput
