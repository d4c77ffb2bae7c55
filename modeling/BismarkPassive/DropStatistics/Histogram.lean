import BismarkPassive.Counting.Tally
import BismarkPassive.DropStatistics
import Mathlib.Data.UInt

namespace bismark_passive.drop_statistics

open counting

/-- How many of these packet sizes count under this one: all sizes above the
maximum count under the maximum. -/
def size_count (sizes : List UInt32) (size : Nat) : Nat :=
  sizes.countP fun packet_size => decide (min packet_size.toNat DROP_STATISTICS_MAXIMUM_PACKET_SIZE = size)

/-- One line for each of the sizes that occurs. -/
def histogram_lines (sizes : List UInt32) (range : List Nat) : List Line :=
  range.filterMap fun size =>
    if 0 < size_count sizes size then some (.drop size (.ofNat (size_count sizes size))) else none

/-- The section that lists all sizes, up to and including the maximum. -/
def histogram_section (sizes : List UInt32) : List Line :=
  histogram_lines sizes (List.range (DROP_STATISTICS_MAXIMUM_PACKET_SIZE + 1)) ++ [.blank]

/-- The statistics after packets of these sizes were discarded. -/
def drop_statistics_t.process_all (drop_statistics : drop_statistics_t) (sizes : List UInt32) : drop_statistics_t :=
  sizes.foldl drop_statistics_process_packet drop_statistics

theorem drop_statistics_t.process_all_snoc (drop_statistics : drop_statistics_t) (sizes : List UInt32)
    (size : UInt32) :
    drop_statistics.process_all (sizes ++ [size]) =
      drop_statistics_process_packet (drop_statistics.process_all sizes) size := by
  rw [process_all, List.foldl_append]
  rfl

/-- Longer packets are counted in the last slot. -/
theorem size_slot_val (size : UInt32) :
    (size_slot size).val = min size.toNat DROP_STATISTICS_MAXIMUM_PACKET_SIZE := by
  have hmaximum : DROP_STATISTICS_MAXIMUM_PACKET_SIZE % (DROP_STATISTICS_MAXIMUM_PACKET_SIZE + 1) =
      DROP_STATISTICS_MAXIMUM_PACKET_SIZE := Nat.mod_eq_of_lt (Nat.lt_succ_self _)
  rw [size_slot, Fin.val_ofNat]
  split
  · rw [hmaximum, min_eq_right (by omega)]
  · rw [Nat.mod_eq_of_lt (by omega), min_eq_left (by omega)]

theorem count_size_slot (sizes : List UInt32) (slot : SizeSlot) :
    (sizes.map size_slot).count slot = size_count sizes slot.val := by
  rw [List.count, List.countP_map, size_count]
  refine List.countP_congr fun size _ => ?_
  simp [Fin.ext_iff, size_slot_val]

theorem nsmul_one_eq_ofNat (n : Nat) : n • (1 : UInt32) = UInt32.ofNat n := by
  induction n with
  | zero => rfl
  | succ n ih =>
    rw [succ_nsmul, ih, UInt32.ofNat_add]
    rfl

/-- Each counter has grown by the number of packets that count under its size. -/
theorem process_all_packet_sizes (drop_statistics : drop_statistics_t) (sizes : List UInt32) (slot : SizeSlot) :
    (drop_statistics.process_all sizes).packet_sizes slot =
      drop_statistics.packet_sizes slot + UInt32.ofNat (size_count sizes slot.val) := by
  have htally : (drop_statistics.process_all sizes).packet_sizes =
      tally 1 drop_statistics.packet_sizes (sizes.map size_slot) := by
    induction sizes using List.reverseRecOn with
    | nil => rfl
    | append_singleton sizes last ih =>
      rw [drop_statistics_t.process_all_snoc, List.map_append, List.map_singleton, tally_snoc, ← ih]
      rfl
  rw [htally, tally_apply, count_size_slot, nsmul_one_eq_ofNat]

section single_period

variable {sizes : List UInt32} (hfew : sizes.length < 2 ^ 32)

include hfew

theorem zero_process_all_packet_sizes (slot : SizeSlot) :
    ((drop_statistics_zero.process_all sizes).packet_sizes slot).toNat = size_count sizes slot.val := by
  have hle : size_count sizes slot.val ≤ sizes.length := List.countP_le_length
  have hzero : drop_statistics_zero.packet_sizes slot = 0 := rfl
  rw [process_all_packet_sizes, hzero, UInt32.zero_add, UInt32.toNat_ofNat_of_lt']
  rw [UInt32.size]
  omega

/-- The loop prints the lines of all sizes but the maximum. -/
theorem drop_lines_zero_process_all :
    drop_lines (drop_statistics_zero.process_all sizes) written_sizes =
      histogram_lines sizes (List.range DROP_STATISTICS_MAXIMUM_PACKET_SIZE) := by
  rw [drop_lines, written_sizes, List.filterMap_map, histogram_lines]
  refine List.filterMap_congr fun size hsize => ?_
  have hval : (Fin.ofNat (DROP_STATISTICS_MAXIMUM_PACKET_SIZE + 1) size).val = size := by
    rw [Fin.val_ofNat]
    exact Nat.mod_eq_of_lt (Nat.lt_succ_of_lt (List.mem_range.mp hsize))
  have hcount := zero_process_all_packet_sizes hfew (Fin.ofNat (DROP_STATISTICS_MAXIMUM_PACKET_SIZE + 1) size)
  rw [hval] at hcount
  rw [Function.comp_apply, hval, ← hcount, UInt32.ofNat_toNat]
  simp only [UInt32.lt_iff_toNat_lt, UInt32.toNat_zero]

/-- The section is the whole histogram unless a packet counts under the maximum. -/
theorem drop_section_eq_histogram_iff :
    drop_section (drop_statistics_zero.process_all sizes) = histogram_section sizes ↔
      ∀ size ∈ sizes, size.toNat < DROP_STATISTICS_MAXIMUM_PACKET_SIZE := by
  have hlast : size_count sizes DROP_STATISTICS_MAXIMUM_PACKET_SIZE = 0 ↔
      ∀ size ∈ sizes, size.toNat < DROP_STATISTICS_MAXIMUM_PACKET_SIZE := by
    rw [size_count, List.countP_eq_zero]
    refine forall₂_congr fun size _ => ?_
    rw [decide_eq_true_eq]
    omega
  rw [drop_section, drop_lines_zero_process_all hfew, histogram_section, List.range_succ, histogram_lines,
    histogram_lines, List.filterMap_append, List.append_left_inj, List.self_eq_append_right, ← hlast]
  by_cases hzero : size_count sizes DROP_STATISTICS_MAXIMUM_PACKET_SIZE = 0
  · simp [hzero]
  · simp [hzero, Nat.pos_of_ne_zero hzero]

end single_period

/-! The counts in a section -/

def Line.drop_count : Line → Nat
  | .drop _ count => count.toNat
  | _ => 0

/-- The sum of the counts of a section. -/
def section_count (lines : List Line) : Nat := (lines.map Line.drop_count).sum

/-- The counts in the section are those of the slots that it writes. -/
theorem section_count_drop_section (drop_statistics : drop_statistics_t) :
    section_count (drop_section drop_statistics) =
      (written_sizes.map fun slot => (drop_statistics.packet_sizes slot).toNat).sum := by
  have hlines (range : List SizeSlot) : section_count (drop_lines drop_statistics range) =
      (range.map fun slot => (drop_statistics.packet_sizes slot).toNat).sum := by
    induction range with
    | nil => rfl
    | cons slot range ih =>
      rw [List.map_cons, List.sum_cons, ← ih, drop_lines, List.filterMap_cons]
      by_cases hcounted : 0 < drop_statistics.packet_sizes slot
      · simp only [if_pos hcounted]
        rfl
      · have hzero : (drop_statistics.packet_sizes slot).toNat = 0 := by
          rw [UInt32.lt_iff_toNat_lt, UInt32.toNat_zero] at hcounted
          omega
        simp only [if_neg hcounted]
        rw [hzero, Nat.zero_add]
        rfl
  have hblank : ([Line.blank].map Line.drop_count).sum = 0 := rfl
  rw [drop_section, section_count, List.map_append, List.sum_append, ← section_count, hlines, hblank, Nat.add_zero]

theorem mem_written_sizes {slot : SizeSlot} :
    slot ∈ written_sizes ↔ slot.val < DROP_STATISTICS_MAXIMUM_PACKET_SIZE := by
  rw [written_sizes, List.mem_map]
  constructor
  · rintro ⟨size, hsize, rfl⟩
    rw [Fin.val_ofNat, Nat.mod_eq_of_lt (Nat.lt_succ_of_lt (List.mem_range.mp hsize))]
    exact List.mem_range.mp hsize
  · intro hlt
    exact ⟨slot.val, List.mem_range.mpr hlt, Fin.ofNat_val_eq_self slot⟩

theorem written_sizes_nodup : written_sizes.Nodup := by
  refine List.nodup_range.map_on fun size hsize size' hsize' heq => ?_
  have hval := congrArg Fin.val heq
  rw [Fin.val_ofNat, Fin.val_ofNat, Nat.mod_eq_of_lt (Nat.lt_succ_of_lt (List.mem_range.mp hsize)),
    Nat.mod_eq_of_lt (Nat.lt_succ_of_lt (List.mem_range.mp hsize'))] at hval
  exact hval

/-- The counts of the section add up to the number of packets unless a packet
counts under the maximum. -/
theorem section_count_eq_iff {sizes : List UInt32} (hfew : sizes.length < 2 ^ 32) :
    section_count (drop_section (drop_statistics_zero.process_all sizes)) = sizes.length ↔
      ∀ size ∈ sizes, size.toNat < DROP_STATISTICS_MAXIMUM_PACKET_SIZE := by
  have hcounts : (written_sizes.map fun slot =>
      ((drop_statistics_zero.process_all sizes).packet_sizes slot).toNat) =
      written_sizes.map fun slot => (sizes.map size_slot).count slot := by
    refine List.map_congr_left fun slot _ => ?_
    rw [zero_process_all_packet_sizes hfew, count_size_slot]
  rw [section_count_drop_section, hcounts, sum_map_count written_sizes_nodup, ← List.length_map size_slot,
    List.countP_eq_length, List.forall_mem_map]
  refine forall₂_congr fun size _ => ?_
  rw [decide_eq_true_eq, mem_written_sizes, size_slot_val]
  omega

/-! Two statistics -/

/-- The lines tell the counters of the printed sizes. -/
theorem drop_lines_eq_iff {first second : drop_statistics_t} {range : List SizeSlot} :
    drop_lines first range = drop_lines second range ↔
      ∀ slot ∈ range, first.packet_sizes slot = second.packet_sizes slot := by
  have hshown {one other : drop_statistics_t} (heq : drop_lines one range = drop_lines other range) {slot : SizeSlot}
      (hslot : slot ∈ range) (hcounted : 0 < one.packet_sizes slot) :
      one.packet_sizes slot = other.packet_sizes slot := by
    have hline : Line.drop slot.val (one.packet_sizes slot) ∈ drop_lines other range := by
      rw [← heq, drop_lines, List.mem_filterMap]
      exact ⟨slot, hslot, if_pos hcounted⟩
    obtain ⟨slot', _, hline'⟩ := List.mem_filterMap.mp hline
    split at hline'
    · simp only [Option.some.injEq, Line.drop.injEq] at hline'
      obtain ⟨hval, hcount⟩ := hline'
      rw [← hcount, Fin.ext hval]
    · cases hline'
  constructor
  · intro heq slot hslot
    by_cases hfirst : 0 < first.packet_sizes slot
    · exact hshown heq hslot hfirst
    · by_cases hsecond : 0 < second.packet_sizes slot
      · exact (hshown heq.symm hslot hsecond).symm
      · rw [UInt32.lt_iff_toNat_lt, UInt32.toNat_zero] at hfirst hsecond
        exact UInt32.toNat_inj.mp (by omega)
  · intro hsame
    refine List.filterMap_congr fun slot hslot => ?_
    rw [hsame slot hslot]

theorem drop_section_eq_iff {first second : drop_statistics_t} :
    drop_section first = drop_section second ↔
      ∀ slot : SizeSlot, slot.val < DROP_STATISTICS_MAXIMUM_PACKET_SIZE →
        first.packet_sizes slot = second.packet_sizes slot := by
  rw [drop_section, drop_section, List.append_left_inj, drop_lines_eq_iff]
  exact forall_congr' fun slot => by rw [mem_written_sizes]

end bismark_passive.drop_statistics
