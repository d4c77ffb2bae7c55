import BismarkPassive.AddressTable.Collector
import Mathlib.Data.List.Find

namespace bismark_passive.address_table

/-! Tables whose mappings correspond one to one -/

variable {f : address_table_entry_t → address_table_entry_t} {table other : address_table_t}
  {log : List address_table_entry_t} {sent : Nat}

/-- The mappings ever added to the other table are the images of those added to the table. -/
def address_table_t.MapsTo (f : address_table_entry_t → address_table_entry_t) (table other : address_table_t) :
    Prop :=
  ∃ log sent, table.Logs log sent ∧ other.Logs (log.map f) sent

theorem address_table_init_mapsTo : address_table_init.MapsTo f address_table_init :=
  ⟨[], 0, address_table_init_logs, address_table_init_logs⟩

/-- The searches for corresponding mappings find the same id. -/
theorem address_table_t.Logs.mapped_find (hf : Function.Injective f) (h : table.Logs log sent)
    (h' : other.Logs (log.map f) sent) (mapping : address_table_entry_t) :
    other.find (f mapping) = table.find mapping := by
  have hlength : other.length = table.length := by rw [h.length_eq, h'.length_eq, List.length_map]
  have hlast : other.last = table.last := by rw [h.last_eq, h'.last_eq, List.length_map]
  unfold address_table_t.find
  rw [hlength, hlast, List.find?_map, List.find?_map]
  congr 1
  apply List.find?_congr
  intro back hback
  rw [List.mem_range, h.length_eq, MAC_TABLE_ENTRIES_eq] at hback
  have hlt : back < log.length := by omega
  have hrecent := h.recent (show log.length - 1 - back < log.length by omega) (by rw [MAC_TABLE_ENTRIES_eq]; omega)
  have hrecent' := h'.recent (show log.length - 1 - back < (log.map f).length by rw [List.length_map]; omega)
    (by rw [List.length_map, MAC_TABLE_ENTRIES_eq]; omega)
  rw [List.getElem?_map, hrecent, Option.map_some, Option.some.injEq] at hrecent'
  simp only [Function.comp_apply, h.norm_last hlt, mac_slot_natCast, ← hrecent', hf.eq_iff]

/-- Looking up corresponding mappings gives the same id. -/
theorem address_table_lookup_mapsTo (hf : Function.Injective f) (h : table.MapsTo f other)
    {ip_address ip_address' : UInt32} {mac mac' : mac_address_t} (hmapping : f ⟨ip_address, mac⟩ = ⟨ip_address', mac'⟩)
    (hprivate : is_address_private ip_address' = is_address_private ip_address) :
    (address_table_lookup other ip_address' mac').1 = (address_table_lookup table ip_address mac).1 ∧
      (address_table_lookup table ip_address mac).2.MapsTo f (address_table_lookup other ip_address' mac').2 := by
  obtain ⟨log, sent, hlogs, hlogs'⟩ := h
  have hfind := hlogs.mapped_find hf hlogs' ⟨ip_address, mac⟩
  rw [hmapping] at hfind
  simp only [address_table_lookup, hprivate, hfind]
  split
  · cases table.find ⟨ip_address, mac⟩ with
    | some mac_id => exact ⟨rfl, log, sent, hlogs, hlogs'⟩
    | none =>
      obtain ⟨hadd, hlast⟩ := hlogs.add ⟨ip_address, mac⟩
      obtain ⟨hadd', hlast'⟩ := hlogs'.add ⟨ip_address', mac'⟩
      refine ⟨?_, log ++ [⟨ip_address, mac⟩], sent, hadd, ?_⟩
      · rw [hlast, hlast', List.length_map]
      · rw [List.map_append, List.map_singleton, hmapping]
        exact hadd'
  · exact ⟨rfl, log, sent, hlogs, hlogs'⟩

theorem address_table_t.MapsTo.reset_added (h : table.MapsTo f other) :
    table.reset_added.MapsTo f other.reset_added := by
  obtain ⟨log, sent, hlogs, hlogs'⟩ := h
  have hreset := hlogs'.reset_added
  rw [List.length_map] at hreset
  exact ⟨log, log.length, hlogs.reset_added, hreset⟩

theorem address_table_t.MapsTo.counters (h : table.MapsTo f other) :
    other.last = table.last ∧ other.added_since_last_update = table.added_since_last_update := by
  obtain ⟨log, sent, hlogs, hlogs'⟩ := h
  rw [hlogs.last_eq, hlogs'.last_eq, hlogs.added_eq, hlogs'.added_eq, List.length_map]
  exact ⟨rfl, rfl⟩

/-- Writers that print corresponding mappings alike compose the same lines. -/
theorem added_lines_mapsTo {s s' : Session} (hline : ∀ entry, address_line s' (f entry) = address_line s entry)
    (h : table.MapsTo f other) :
    (other.added_ids.map fun mac_id => address_line s' (other.entries (mac_slot mac_id))) =
      table.added_ids.map fun mac_id => address_line s (table.entries (mac_slot mac_id)) := by
  obtain ⟨log, sent, hlogs, hlogs'⟩ := h
  have hentries := congrArg (List.map (address_line s)) hlogs.added_entries
  have hentries' := congrArg (List.map (address_line s')) hlogs'.added_entries
  rw [List.map_map] at hentries hentries'
  refine hentries'.trans (Eq.trans ?_ hentries.symm)
  rw [unsent_eq, unsent_eq, unsent_start, unsent_start, List.length_map, ← List.map_drop, List.map_map]
  exact List.map_congr_left fun entry _ => hline entry

/-- They print the same from the two tables, which still correspond. -/
theorem address_table_write_update_mapsTo {s s' : Session}
    (hline : ∀ entry, address_line s' (f entry) = address_line s entry)
    (h : table.MapsTo f other) (handle : gzFile) :
    ∃ table', address_table_write_update s' other handle =
        ((address_table_write_update s table handle).1, table', (address_table_write_update s table handle).2.2) ∧
      (address_table_write_update s table handle).2.1.MapsTo f table' := by
  obtain ⟨hlast, hadded⟩ := h.counters
  simp only [address_table_write_update, added_lines_mapsTo hline h, hlast, hadded]
  refine ⟨_, rfl, ?_⟩
  split
  · exact h.reset_added
  · exact h

end bismark_passive.address_table
