import BismarkPassive.FlowTable.Table
import BismarkPassive.Reference

namespace bismark_passive.flow_table

/-! An entry in memory -/

/-- The value of the bit-field `occupied`. -/
def entry_state.value : entry_state → UInt8
  | .ENTRY_EMPTY => 0
  | .ENTRY_OCCUPIED_BUT_UNSENT => 1
  | .ENTRY_OCCUPIED => 2
  | .ENTRY_DELETED => 3

/-- The byte of the four bit-fields. They start at the least significant bit on
little-endian machines and at the most significant one on the others. -/
def flow_table_entry_t.bit_fields (target : Target) (entry : flow_table_entry_t) : UInt8 :=
  let source := entry.ip_source_unanonymized.toNat.toUInt8
  let destination := entry.ip_destination_unanonymized.toNat.toUInt8
  let num_packets := entry.num_packets.toNat.toUInt8
  if target.big_endian then entry.occupied.value <<< 6 ||| source <<< 5 ||| destination <<< 4 ||| num_packets
  else entry.occupied.value ||| source <<< 2 ||| destination <<< 3 ||| num_packets <<< 4

/-- The bytes of an entry, which has no padding. -/
def flow_table_entry_t.memory (target : Target) (entry : flow_table_entry_t) : List UInt8 :=
  target.bytes32 entry.ip_source ++ target.bytes32 entry.ip_destination ++ target.bytes16 entry.port_source ++
    target.bytes16 entry.port_destination ++ [entry.transport_protocol] ++ [entry.bit_fields target] ++
      target.bytes16 entry.last_update_time_seconds.toUInt16

/-- The sizes of the two addresses, the two ports and the protocol. -/
def hash_size : Nat := 4 + 4 + 2 + 2 + 1

/-- `fnv_hash_32((char *)new_entry, hash_size)` -/
def entry_hash (target : Target) (entry : flow_table_entry_t) : UInt32 :=
  fnv_hash_32 ((entry.memory target).take hash_size)

theorem bytes32_length (target : Target) (word : UInt32) : (target.bytes32 word).length = 4 := by
  unfold Target.bytes32
  cases target.big_endian <;> rfl

theorem bytes16_length (target : Target) (word : UInt16) : (target.bytes16 word).length = 2 := by
  unfold Target.bytes16
  cases target.big_endian <;> rfl

/-- The hash covers the key and nothing else. -/
theorem entry_hash_eq (target : Target) (entry : flow_table_entry_t) :
    entry_hash target entry = fnv_hash target entry.key := by
  have hmemory : entry.memory target = entry.key.bytes target ++
      ([entry.bit_fields target] ++ target.bytes16 entry.last_update_time_seconds.toUInt16) := by
    simp only [flow_table_entry_t.memory, flow_key.bytes, flow_table_entry_t.key, List.append_assoc]
  have hlength : (entry.key.bytes target).length = hash_size := by
    simp only [flow_key.bytes, List.length_append, bytes32_length, bytes16_length, List.length_singleton, hash_size]
  rw [entry_hash, hmemory, ← hlength, List.take_left, fnv_hash]

/-! The slots of a flow -/

/-- The value that a probe converts to `uint32_t`. -/
def probe_value (hash : UInt32) (probe : Nat) : Rat := hash.toNat + HT_C1 * probe + HT_C2 * probe * probe

/-- `table_idx` for an entry. -/
def entry_slot (target : Target) (probe : Nat) (entry : flow_table_entry_t) : Slot :=
  table_idx target (entry_hash target entry) probe

theorem probes_eq_entry_slots (target : Target) (entry : flow_table_entry_t) :
    probes target (fnv_hash target) entry.key =
      (List.range HT_NUM_PROBES).map fun probe => entry_slot target probe entry := by
  simp only [probes, entry_slot, entry_hash_eq]

/-- The probes go off quadratically from the hash. -/
theorem probe_value_eq (hash : UInt32) {probe : Nat} (hprobe : probe < HT_NUM_PROBES) :
    probe_value hash probe = (hash.toNat + probe * (probe + 1) / 2 : Nat) := by
  have hcases : probe = 0 ∨ probe = 1 ∨ probe = 2 := by
    rw [HT_NUM_PROBES] at hprobe
    omega
  rw [probe_value, HT_C1, HT_C2]
  obtain rfl | rfl | rfl := hcases
  · norm_num
  · push_cast
    norm_num
    ring
  · push_cast
    norm_num
    ring

/-- Where the value is representable the conversion is exact. -/
theorem table_idx_val (target : Target) {hash : UInt32} {probe : Nat} (hprobe : probe < HT_NUM_PROBES)
    (hsmall : hash.toNat + probe * (probe + 1) / 2 < 2 ^ 32) :
    (table_idx target hash probe).val = (hash.toNat + probe * (probe + 1) / 2) % FLOW_TABLE_ENTRIES := by
  have hvalue : (hash.toNat : Rat) + HT_C1 * probe + HT_C2 * probe * probe =
      (hash.toNat + probe * (probe + 1) / 2 : Nat) := probe_value_eq hash hprobe
  have hfloor (value : Nat) : (value : Rat).floor.toNat = value := by
    rw [← Rat.intCast_natCast, Rat.floor_intCast, Int.toNat_natCast]
  rw [table_idx, hvalue, target.u32_of_double_of_lt _ (by positivity) (by exact_mod_cast hsmall), hfloor]
  rfl

/-- The probes of an entry are computed without a conversion that C leaves
undefined, and go to the slots that the triangular numbers lead to. -/
structure ProbesExact (target : Target) (entry : flow_table_entry_t) : Prop where
  representable : ∀ probe < HT_NUM_PROBES, ∃ value : UInt32, probe_value (entry_hash target entry) probe = value.toNat
  slots : ∀ probe < HT_NUM_PROBES, (entry_slot target probe entry).val =
    ((entry_hash target entry).toNat + probe * (probe + 1) / 2) % FLOW_TABLE_ENTRIES
  distinct : ∀ probe < HT_NUM_PROBES, ∀ other < HT_NUM_PROBES, probe ≠ other →
    entry_slot target probe entry ≠ entry_slot target other entry

theorem triangle_le {probe : Nat} (hprobe : probe < HT_NUM_PROBES) : probe * (probe + 1) / 2 ≤ 3 := by
  have hall : ∀ probe < HT_NUM_PROBES, probe * (probe + 1) / 2 ≤ 3 := by decide
  exact hall probe hprobe

theorem triangle_inj {probe other : Nat} (hprobe : probe < HT_NUM_PROBES) (hother : other < HT_NUM_PROBES)
    (heq : probe * (probe + 1) / 2 = other * (other + 1) / 2) : probe = other := by
  have hall : ∀ probe < HT_NUM_PROBES, ∀ other < HT_NUM_PROBES,
      probe * (probe + 1) / 2 = other * (other + 1) / 2 → probe = other := by decide
  exact hall probe hprobe other hother heq

/-- The last probe adds three to the hash. -/
theorem probesExact_iff (target : Target) (entry : flow_table_entry_t) :
    ProbesExact target entry ↔ (entry_hash target entry).toNat + 3 < 2 ^ 32 := by
  constructor
  · intro h
    have hlast : 2 < HT_NUM_PROBES := by decide
    obtain ⟨value, hvalue⟩ := h.representable 2 hlast
    rw [probe_value_eq _ hlast] at hvalue
    have hlt := value.toNat_lt
    have hsum : (entry_hash target entry).toNat + 2 * (2 + 1) / 2 = value.toNat := by exact_mod_cast hvalue
    omega
  · intro hsmall
    have hslots (probe : Nat) (hprobe : probe < HT_NUM_PROBES) : (entry_slot target probe entry).val =
        ((entry_hash target entry).toNat + probe * (probe + 1) / 2) % FLOW_TABLE_ENTRIES := by
      have htriangle := triangle_le hprobe
      exact table_idx_val target hprobe (by omega)
    refine ⟨fun probe hprobe => ?_, hslots, fun probe hprobe other hother hne heq => hne ?_⟩
    · have htriangle := triangle_le hprobe
      refine ⟨.ofNat ((entry_hash target entry).toNat + probe * (probe + 1) / 2), ?_⟩
      rw [probe_value_eq _ hprobe, UInt32.toNat_ofNat_of_lt']
      rw [UInt32.size]
      omega
    · have hval := congrArg Fin.val heq
      have htriangle := triangle_le hprobe
      have htriangle' := triangle_le hother
      rw [hslots probe hprobe, hslots other hother, FLOW_TABLE_ENTRIES_eq] at hval
      exact triangle_inj hprobe hother (by omega)

/-! The fields that the slots depend on -/

/-- The fields that `flow_entry_compare` compares. -/
inductive compared_field where
  | ip_source
  | ip_destination
  | port_source
  | port_destination
  | transport_protocol
  deriving DecidableEq

def compared_field.read (entry : flow_table_entry_t) : compared_field → Nat
  | .ip_source => entry.ip_source.toNat
  | .ip_destination => entry.ip_destination.toNat
  | .port_source => entry.port_source.toNat
  | .port_destination => entry.port_destination.toNat
  | .transport_protocol => entry.transport_protocol.toNat

/-- Entries compare equal if they have all compared fields in common. -/
theorem flow_entry_compare_iff_fields {first second : flow_table_entry_t} :
    flow_entry_compare first second = true ↔
      ∀ field, compared_field.read first field = compared_field.read second field := by
  rw [flow_entry_compare_iff]
  simp only [flow_table_entry_t.key, flow_key.mk.injEq]
  constructor
  · rintro ⟨hsource, hdestination, hport, hport', hprotocol⟩ field
    cases field <;> simp only [compared_field.read, hsource, hdestination, hport, hport', hprotocol]
  · intro hfields
    refine ⟨UInt32.toNat_inj.mp (hfields .ip_source).symm, UInt32.toNat_inj.mp (hfields .ip_destination).symm,
      UInt16.toNat_inj.mp (hfields .port_source).symm, UInt16.toNat_inj.mp (hfields .port_destination).symm,
      UInt8.toNat_inj.mp (hfields .transport_protocol).symm⟩

/-- A function of entries depends on the compared fields only, and on each of them. -/
structure DependsOnCompared (slot : flow_table_entry_t → Slot) : Prop where
  only : ∀ first second, flow_entry_compare first second = true → slot first = slot second
  each : ∀ field : compared_field, ∃ first second : flow_table_entry_t,
    (∀ other ≠ field, compared_field.read first other = compared_field.read second other) ∧ slot first ≠ slot second

/-- An entry that has a one in a single field. -/
def entry_of_field : compared_field → flow_table_entry_t
  | .ip_source => { flow_table_entry_init with ip_source := 1 }
  | .ip_destination => { flow_table_entry_init with ip_destination := 1 }
  | .port_source => { flow_table_entry_init with port_source := 1 }
  | .port_destination => { flow_table_entry_init with port_destination := 1 }
  | .transport_protocol => { flow_table_entry_init with transport_protocol := 1 }

/-- Each field of the key can move each probe. -/
theorem entry_slot_of_field_ne (target : Target) {probe : Nat} (hprobe : probe < HT_NUM_PROBES)
    (field : compared_field) :
    entry_slot target probe flow_table_entry_init ≠ entry_slot target probe (entry_of_field field) := by
  have hhash : (entry_hash target flow_table_entry_init).toNat + 3 < 2 ^ 32 ∧
      (entry_hash target (entry_of_field field)).toNat + 3 < 2 ^ 32 ∧
      (entry_hash target flow_table_entry_init).toNat % FLOW_TABLE_ENTRIES ≠
        (entry_hash target (entry_of_field field)).toNat % FLOW_TABLE_ENTRIES := by
    rw [entry_hash_eq, entry_hash_eq]
    simp only [fnv_hash, flow_key.bytes, Target.bytes32, Target.bytes16]
    cases target.big_endian <;> cases field <;> decide
  obtain ⟨hfirst, hsecond, hne⟩ := hhash
  intro heq
  have hval := congrArg Fin.val heq
  rw [((probesExact_iff target _).mpr hfirst).slots probe hprobe,
    ((probesExact_iff target _).mpr hsecond).slots probe hprobe] at hval
  rw [FLOW_TABLE_ENTRIES_eq] at hval hne
  omega

theorem entry_slot_dependsOnCompared (target : Target) {probe : Nat} (hprobe : probe < HT_NUM_PROBES) :
    DependsOnCompared (entry_slot target probe) where
  only first second hcompare := by
    rw [entry_slot, entry_slot, entry_hash_eq, entry_hash_eq, flow_entry_compare_iff.mp hcompare]
  each field := by
    refine ⟨flow_table_entry_init, entry_of_field field, fun other hother => ?_,
      entry_slot_of_field_ne target hprobe field⟩
    cases field <;> cases other <;> first | rfl | exact absurd rfl hother

/-- The probe arithmetic is exact for exactly the flows whose hash is not one of
the last three; the slots always depend on the compared fields only. -/
theorem probe_arithmetic_exact_iff (target : Target) (entry : flow_table_entry_t) :
    (ProbesExact target entry ∧ ∀ probe < HT_NUM_PROBES, DependsOnCompared (entry_slot target probe)) ↔
      (entry_hash target entry).toNat < 2 ^ 32 - 3 := by
  constructor
  · rintro ⟨hexact, -⟩
    have hsmall := (probesExact_iff target entry).mp hexact
    omega
  · intro hsmall
    exact ⟨(probesExact_iff target entry).mpr (by omega),
      fun probe hprobe => entry_slot_dependsOnCompared target hprobe⟩

/-- A connection from 192.168.1.2, port 35448, to 8.8.232.92, port 443. -/
def overflowing_entry : flow_table_entry_t :=
  { flow_table_entry_init with
    ip_source := 0xc0a80102
    ip_destination := 0x0808e85c
    port_source := 35448
    port_destination := 443
    transport_protocol := IPPROTO_TCP }

theorem probe_arithmetic_inexact_overflow :
    (entry_hash reference_target overflowing_entry).toNat = 2 ^ 32 - 2 ∧
      ¬ ProbesExact reference_target overflowing_entry := by
  have hhash : (entry_hash reference_target overflowing_entry).toNat = 2 ^ 32 - 2 := by decide
  refine ⟨hhash, fun hexact => ?_⟩
  have hsmall := (probesExact_iff _ _).mp hexact
  omega

end bismark_passive.flow_table
