import BismarkPassive.AddressTable.Table
import BismarkPassive.RingBuffer.Replay

namespace bismark_passive.address_table

open ring_buffer

theorem MAC_TABLE_ENTRIES_eq : MAC_TABLE_ENTRIES = 256 := rfl

/-- The mask of `NORM` is a reduction modulo the size of the ring. -/
theorem NORM_eq (m : Int) : NORM m = m % 256 := by
  have hrange : 0 ≤ m.tmod 256 + 256 := by
    have := Int.lt_tmod_of_pos m (show (0 : Int) < 256 by decide)
    omega
  have htmod : m.tmod 256 = m % 256 ∨ m.tmod 256 = m % 256 - 256 := by
    rw [Int.tmod_eq_emod]
    split <;> simp
  rw [NORM, MAC_TABLE_ENTRIES_eq, Nat.cast_ofNat, Int.tmod_eq_emod_of_nonneg hrange]
  omega

theorem mac_slot_natCast (index : Nat) : mac_slot ((index : Int) % 256) = Fin.ofNat MAC_TABLE_ENTRIES index := by
  apply Fin.ext
  rw [mac_slot, Fin.val_ofNat, Fin.val_ofNat, MAC_TABLE_ENTRIES_eq]
  omega

/-- The table is the ring of all mappings ever added, of which this many had
been added at the last update. -/
structure address_table_t.Logs (table : address_table_t) (log : List address_table_entry_t) (sent : Nat) :
    Prop where
  first_eq : table.first = ((log.length - MAC_TABLE_ENTRIES : Nat) : Int) % 256
  last_eq : table.last = ((log.length - 1 : Nat) : Int) % 256
  length_eq : table.length = min log.length MAC_TABLE_ENTRIES
  added_eq : table.added_since_last_update = min (log.length - sent) MAC_TABLE_ENTRIES
  sent_le : sent ≤ log.length
  entries_eq : ∀ slot mapping, ring_of log slot = some mapping → table.entries slot = mapping

theorem address_table_init_logs : address_table_init.Logs [] 0 where
  first_eq := rfl
  last_eq := rfl
  length_eq := rfl
  added_eq := rfl
  sent_le := le_refl 0
  entries_eq slot mapping h := by simp [ring_of, replay] at h

variable {table : address_table_t} {log : List address_table_entry_t} {sent : Nat}

/-- A recently added mapping is in the slot of its position in the log. -/
theorem address_table_t.Logs.recent (h : table.Logs log sent) {index : Nat} (hindex : index < log.length)
    (hrecent : log.length ≤ index + MAC_TABLE_ENTRIES) :
    log[index]? = some (table.entries (Fin.ofNat MAC_TABLE_ENTRIES index)) := by
  have hring := replay_recent (fun _ => none) 0 hindex hrecent
  rw [Nat.zero_add, ← ring_of, List.getElem?_eq_getElem hindex] at hring
  rw [List.getElem?_eq_getElem hindex, h.entries_eq _ _ hring]

/-- Counting back from the last mapping counts back in the log. -/
theorem address_table_t.Logs.norm_last (h : table.Logs log sent) {back : Nat} (hback : back < log.length) :
    NORM (table.last - back) = ((log.length - 1 - back : Nat) : Int) % 256 := by
  rw [NORM_eq, h.last_eq]
  omega

/-- A search that succeeds returns the slot of the most recent addition of the mapping. -/
theorem address_table_t.Logs.find_some (h : table.Logs log sent) {mapping : address_table_entry_t} {mac_id : Int}
    (hfind : table.find mapping = some mac_id) :
    ∃ index : Nat, log[index]? = some mapping ∧ (∀ later, index < later → log[later]? ≠ some mapping) ∧
      log.length ≤ index + MAC_TABLE_ENTRIES ∧ mac_id = (index : Int) % 256 := by
  obtain ⟨hfound, back, hback, hid, hbefore⟩ := List.find?_eq_some_iff_getElem.mp hfind
  rw [List.length_map, List.length_range, h.length_eq] at hback
  have hlt : back < log.length := by omega
  have hrecent : log.length ≤ log.length - 1 - back + MAC_TABLE_ENTRIES := by omega
  rw [List.getElem_map, List.getElem_range, h.norm_last hlt] at hid
  rw [← hid, mac_slot_natCast, decide_eq_true_eq] at hfound
  refine ⟨log.length - 1 - back, ?_, fun later hlater hsame => ?_, hrecent, hid.symm⟩
  · rw [h.recent (by omega) hrecent, hfound]
  · -- A later addition would have been found before this one.
    have hlength := (List.getElem?_eq_some_iff.mp hsame).1
    have hmiss := hbefore (log.length - 1 - later) (by omega)
    rw [List.getElem_map, List.getElem_range, h.norm_last (by omega), mac_slot_natCast] at hmiss
    have hindex : log.length - 1 - (log.length - 1 - later) = later := by omega
    rw [hindex] at hmiss
    rw [h.recent hlength (by omega), Option.some.injEq] at hsame
    rw [hsame] at hmiss
    simp at hmiss

/-- A search that fails says that the mapping is not in the table. -/
theorem address_table_t.Logs.find_none (h : table.Logs log sent) {mapping : address_table_entry_t}
    (hfind : table.find mapping = none) {index : Nat} (hrecent : log.length ≤ index + MAC_TABLE_ENTRIES) :
    log[index]? ≠ some mapping := by
  intro hsame
  have hlength := (List.getElem?_eq_some_iff.mp hsame).1
  have hback : log.length - 1 - index < table.length.toNat := by
    rw [h.length_eq]
    omega
  have hmiss := List.find?_eq_none.mp hfind (NORM (table.last - ((log.length - 1 - index : Nat) : Int)))
    (List.mem_map.mpr ⟨_, List.mem_range.mpr hback, rfl⟩)
  have hindex : log.length - 1 - (log.length - 1 - index) = index := by omega
  rw [h.norm_last (by omega), mac_slot_natCast, hindex] at hmiss
  rw [h.recent hlength hrecent, Option.some.injEq] at hsame
  rw [hsame] at hmiss
  simp at hmiss

/-- Adding a mapping extends the log. -/
theorem address_table_t.Logs.add (h : table.Logs log sent) (mapping : address_table_entry_t) :
    (table.add mapping).Logs (log ++ [mapping]) sent ∧
      (table.add mapping).last = (log.length : Int) % 256 := by
  have hlength := h.length_eq
  have hlast : (table.add mapping).last = (log.length : Int) % 256 := by
    simp only [address_table_t.add, NORM_eq, h.last_eq, hlength, MAC_TABLE_ENTRIES_eq]
    split <;> split <;> omega
  have hentries : (table.add mapping).entries =
      Function.update table.entries (mac_slot (table.add mapping).last) mapping := rfl
  refine ⟨⟨?_, ?_, ?_, ?_, ?_, ?_⟩, hlast⟩
  · simp only [address_table_t.add, NORM_eq, h.first_eq, hlength, MAC_TABLE_ENTRIES_eq, List.length_append,
      List.length_singleton]
    split <;> omega
  · rw [hlast, List.length_append, List.length_singleton, Nat.add_sub_cancel]
  · simp only [address_table_t.add, hlength, MAC_TABLE_ENTRIES_eq, List.length_append, List.length_singleton]
    split <;> omega
  · have hsent := h.sent_le
    simp only [address_table_t.add, h.added_eq, MAC_TABLE_ENTRIES_eq, List.length_append, List.length_singleton]
    split <;> omega
  · have hsent := h.sent_le
    rw [List.length_append]
    omega
  · intro slot other hother
    rw [ring_of, replay_snoc, Nat.zero_add, ← ring_of] at hother
    rw [hentries, hlast, mac_slot_natCast]
    by_cases hslot : slot = Fin.ofNat MAC_TABLE_ENTRIES log.length
    · subst hslot
      simpa using hother
    · rw [Function.update_of_ne hslot] at hother ⊢
      exact h.entries_eq slot other hother

theorem address_table_t.Logs.reset_added (h : table.Logs log sent) : table.reset_added.Logs log log.length where
  first_eq := h.first_eq
  last_eq := h.last_eq
  length_eq := h.length_eq
  added_eq := by simp [address_table_t.reset_added]
  sent_le := le_refl _
  entries_eq := h.entries_eq

/-- The mapping that a lookup adds to the table, if it adds one. -/
def address_table_t.new_mapping (table : address_table_t) (mapping : address_table_entry_t) :
    List address_table_entry_t :=
  if is_address_private mapping.ip_address && (table.find mapping).isNone then [mapping] else []

theorem address_table_t.new_mapping_public {mapping : address_table_entry_t}
    (hpublic : is_address_private mapping.ip_address = false) (table : address_table_t) :
    table.new_mapping mapping = [] := by
  simp [address_table_t.new_mapping, hpublic]

/-- A mapping that was never added is. -/
theorem address_table_t.Logs.new_mapping_unknown (h : table.Logs log sent) {mapping : address_table_entry_t}
    (hprivate : is_address_private mapping.ip_address = true) (hunknown : mapping ∉ log) :
    table.new_mapping mapping = [mapping] := by
  cases hfind : table.find mapping with
  | none => simp [address_table_t.new_mapping, hprivate, hfind]
  | some mac_id =>
    obtain ⟨index, hindex, _⟩ := h.find_some hfind
    exact absurd (List.mem_of_getElem? hindex) hunknown

/-- One that was recently added is not added again. -/
theorem address_table_t.Logs.new_mapping_recent (h : table.Logs log sent) {mapping : address_table_entry_t}
    {index : Nat} (hindex : log[index]? = some mapping) (hrecent : log.length ≤ index + MAC_TABLE_ENTRIES) :
    table.new_mapping mapping = [] := by
  cases hfind : table.find mapping with
  | none => exact absurd hindex (h.find_none hfind hrecent)
  | some mac_id => simp [address_table_t.new_mapping, hfind]

theorem address_table_lookup_public {ip_address : UInt32} (hpublic : is_address_private ip_address = false)
    (table : address_table_t) (mac : mac_address_t) : address_table_lookup table ip_address mac = (-1, table) := by
  simp [address_table_lookup, hpublic]

/-- Every lookup extends the log by the mapping it adds. -/
theorem address_table_lookup_logs (h : table.Logs log sent) (ip_address : UInt32) (mac : mac_address_t) :
    (address_table_lookup table ip_address mac).2.Logs (log ++ table.new_mapping ⟨ip_address, mac⟩) sent := by
  unfold address_table_lookup address_table_t.new_mapping
  cases hprivate : is_address_private ip_address with
  | false => simpa using h
  | true =>
    cases hfind : table.find ⟨ip_address, mac⟩ with
    | some mac_id => simpa using h
    | none => simpa using (h.add ⟨ip_address, mac⟩).1

/-- A lookup of a private address returns the slot of the most recent addition
of the mapping, which is in the table. -/
theorem address_table_lookup_id (h : table.Logs log sent) {ip_address : UInt32}
    (hprivate : is_address_private ip_address = true) (mac : mac_address_t) :
    ∃ index : Nat, (log ++ table.new_mapping ⟨ip_address, mac⟩)[index]? = some ⟨ip_address, mac⟩ ∧
      (∀ later, index < later → (log ++ table.new_mapping ⟨ip_address, mac⟩)[later]? ≠ some ⟨ip_address, mac⟩) ∧
      (log ++ table.new_mapping ⟨ip_address, mac⟩).length ≤ index + MAC_TABLE_ENTRIES ∧
      (address_table_lookup table ip_address mac).1 = (index : Int) % 256 := by
  unfold address_table_lookup address_table_t.new_mapping
  rw [if_pos hprivate]
  cases hfind : table.find ⟨ip_address, mac⟩ with
  | some mac_id =>
    obtain ⟨index, hindex, hlast, hrecent, hid⟩ := h.find_some hfind
    rw [← List.append_nil log] at hindex hlast hrecent
    exact ⟨index, by simpa using hindex, by simpa using hlast, by simpa using hrecent, hid⟩
  | none =>
    refine ⟨log.length, by simp [hprivate], fun later hlater => ?_, ?_, (h.add ⟨ip_address, mac⟩).2⟩
    · rw [List.getElem?_eq_none (by simp [hprivate]; omega)]
      simp
    · rw [MAC_TABLE_ENTRIES_eq, List.length_append]
      have hone : (if is_address_private ip_address && (none : Option Int).isNone then
          [(⟨ip_address, mac⟩ : address_table_entry_t)] else []).length = 1 := by simp [hprivate]
      simp only at hone ⊢
      omega

/-- Looking a mapping up again adds nothing. -/
theorem address_table_lookup_again (h : table.Logs log sent) (ip_address : UInt32) (mac : mac_address_t) :
    (address_table_lookup table ip_address mac).2.new_mapping ⟨ip_address, mac⟩ = [] := by
  cases hprivate : is_address_private ip_address with
  | false => exact address_table_t.new_mapping_public hprivate _
  | true =>
    obtain ⟨index, hindex, _, hrecent, _⟩ := address_table_lookup_id h hprivate mac
    exact (address_table_lookup_logs h ip_address mac).new_mapping_recent hindex hrecent

end bismark_passive.address_table
