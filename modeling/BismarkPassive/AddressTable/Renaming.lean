import BismarkPassive.AddressTable.Mapped
import Mathlib.Logic.Equiv.Defs

namespace bismark_passive.address_table

variable {rename : Equiv.Perm UInt32}

def address_table_entry_t.renamed (rename : Equiv.Perm UInt32) (entry : address_table_entry_t) :
    address_table_entry_t :=
  { entry with ip_address := rename entry.ip_address }

theorem address_table_entry_t.renamed_inj {entry other : address_table_entry_t} :
    entry.renamed rename = other.renamed rename ↔ entry = other := by
  cases entry
  cases other
  simp only [address_table_entry_t.renamed, address_table_entry_t.mk.injEq, EmbeddingLike.apply_eq_iff_eq]

/-- The mappings ever added to the tables have corresponding addresses. -/
def address_table_t.Corresponds (rename : Equiv.Perm UInt32) (table other : address_table_t) : Prop :=
  ∃ log sent, table.Logs log sent ∧ other.Logs (log.map (address_table_entry_t.renamed rename)) sent

theorem address_table_init_corresponds : address_table_init.Corresponds rename address_table_init :=
  ⟨[], 0, address_table_init_logs, address_table_init_logs⟩

section lookups

variable {table other : address_table_t} (h : table.Corresponds rename other)

include h

theorem address_table_lookup_corresponds
    (hprivate : ∀ address, is_address_private (rename address) = is_address_private address) (ip_address : UInt32)
    (mac : mac_address_t) :
    (address_table_lookup other (rename ip_address) mac).1 = (address_table_lookup table ip_address mac).1 ∧
      (address_table_lookup table ip_address mac).2.Corresponds rename
        (address_table_lookup other (rename ip_address) mac).2 :=
  address_table_lookup_mapsTo (fun _ _ => address_table_entry_t.renamed_inj.mp) h rfl (hprivate ip_address)

theorem address_table_t.Corresponds.reset_added : table.reset_added.Corresponds rename other.reset_added :=
  address_table_t.MapsTo.reset_added h

variable {s s' : Session} (hanonymized : s.target.disable_anonymization = false) (htarget : s'.target = s.target)
  (hdigests : ∀ address, anonymize_ip s' (rename address) = anonymize_ip s address)
  (hmacs : ∀ mac : mac_address_t, SameDigest s s' mac.toList)

include hanonymized htarget hdigests hmacs

/-- The same lines are printed, from the same first id on. -/
theorem address_section_corresponds (lines : List Line) :
    (other.added_ids.map fun mac_id => address_line s' (other.entries (mac_slot mac_id))) =
        (table.added_ids.map fun mac_id => address_line s (table.entries (mac_slot mac_id))) ∧
      address_section other lines = address_section table lines := by
  have hmaps : table.MapsTo (address_table_entry_t.renamed rename) other := h
  have hline (entry : address_table_entry_t) :
      address_line s' (entry.renamed rename) = address_line s entry := by
    simp only [address_line, address_table_entry_t.renamed, htarget, hanonymized, Bool.false_eq_true, if_false,
      hdigests, anonymize_mac_same (hmacs entry.mac_address)]
  obtain ⟨hlast, hadded⟩ := hmaps.counters
  refine ⟨added_lines_mapsTo hline hmaps, ?_⟩
  rw [address_section, address_section, hlast, hadded]

end lookups

end bismark_passive.address_table
