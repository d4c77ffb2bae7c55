import BismarkPassive.Output

namespace bismark_passive.drop_statistics

abbrev SizeSlot := Fin (DROP_STATISTICS_MAXIMUM_PACKET_SIZE + 1)

structure drop_statistics_t where
  packet_sizes : SizeSlot → UInt32

/-- A static variable before the program initialises it. -/
def drop_statistics_zero : drop_statistics_t := ⟨fun _ => 0⟩

/-- `memset(drop_statistics, '\0', sizeof(drop_statistics))` clears as many
bytes as a pointer has. -/
def drop_statistics_init (target : Target) (drop_statistics : drop_statistics_t) : drop_statistics_t where
  packet_sizes size := if size.val < target.sizeof_pointer / 4 then 0 else drop_statistics.packet_sizes size

/-- The counter for packets of this size. -/
def size_slot (size : UInt32) : SizeSlot :=
  Fin.ofNat _ (if DROP_STATISTICS_MAXIMUM_PACKET_SIZE < size.toNat then DROP_STATISTICS_MAXIMUM_PACKET_SIZE
    else size.toNat)

def drop_statistics_process_packet (drop_statistics : drop_statistics_t) (size : UInt32) : drop_statistics_t where
  packet_sizes :=
    Function.update drop_statistics.packet_sizes (size_slot size)
      (drop_statistics.packet_sizes (size_slot size) + 1)

/-- The lines that the loop over these sizes prints. -/
def drop_lines (drop_statistics : drop_statistics_t) (sizes : List SizeSlot) : List Line :=
  sizes.filterMap fun idx =>
    if 0 < drop_statistics.packet_sizes idx then some (.drop idx.val (drop_statistics.packet_sizes idx)) else none

/-- The range of the loop in `drop_statistics_write_update`, which ends before
the largest size. -/
def written_sizes : List SizeSlot := (List.range DROP_STATISTICS_MAXIMUM_PACKET_SIZE).map (Fin.ofNat _)

def drop_statistics_write_update (drop_statistics : drop_statistics_t) : gzFile → writer_result × gzFile :=
  write_lines write_blank ((drop_lines drop_statistics written_sizes).map some)

def drop_section (drop_statistics : drop_statistics_t) : List Line :=
  drop_lines drop_statistics written_sizes ++ [.blank]

theorem drop_statistics_write_update_healthy (drop_statistics : drop_statistics_t) {handle : gzFile}
    (h : handle.Healthy) :
    drop_statistics_write_update drop_statistics handle =
      (some 0, handle.append (drop_section drop_statistics)) := by
  rw [drop_statistics_write_update, write_lines_healthy h, write_blank_healthy (h.append _), gzFile.append_append,
    drop_section]

end bismark_passive.drop_statistics
