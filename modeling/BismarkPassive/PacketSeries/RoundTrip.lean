import BismarkPassive.PacketSeries.Series
import BismarkPassive.Printed
import BismarkPassive.Reference
import Mathlib.Data.List.Chain
import Mathlib.Data.List.DropRight

namespace bismark_passive.packet_series

open containers text

/-! The reader of a packet section -/

/-- The offset and the size of a packet line; the flow id is not looked at. -/
def read_packet (line : cstring) : Option (Int × Nat) :=
  match line.splitOn space with
  | [timestamp, size, _] => do
    let timestamp ← integer_of timestamp
    let size ← number_of 10 size
    pure (timestamp, size)
  | _ => none

def read_header (line : cstring) : Option (Nat × Nat) :=
  match line.splitOn space with
  | [start_time_microseconds, discarded_by_overflow] => do
    let start_time_microseconds ← number_of 10 start_time_microseconds
    let discarded_by_overflow ← number_of 10 discarded_by_overflow
    pure (start_time_microseconds, discarded_by_overflow)
  | _ => none

structure read_series_t where
  start_time_microseconds : Nat
  discarded_by_overflow : Nat
  packets : List (Int × Nat)

/-- Reads a packet section up to the empty line that ends it. -/
def read_section (section_text : cstring) : Option read_series_t :=
  match section_text.splitOn newline with
  | [] => none
  | header :: lines => do
    let (start_time_microseconds, discarded_by_overflow) ← read_header header
    let packets ← (lines.takeWhile fun line => line ≠ []).mapM read_packet
    pure ⟨start_time_microseconds, discarded_by_overflow, packets⟩

/-- The absolute times of offsets that each count from the time before. -/
def absolute_times (start : Int) : List Int → List Int
  | [] => []
  | offset :: offsets => (start + offset) :: absolute_times (start + offset) offsets

/-- The absolute time and the size of each packet. -/
def read_series_t.absolute (series : read_series_t) : List (Int × Nat) :=
  (absolute_times series.start_time_microseconds (series.packets.map Prod.fst)).zip (series.packets.map Prod.snd)

theorem absolute_times_snoc (start : Int) (offsets : List Int) (last : Int) :
    absolute_times start (offsets ++ [last]) = absolute_times start offsets ++ [start + offsets.sum + last] := by
  induction offsets generalizing start with
  | nil => simp [absolute_times]
  | cons offset offsets ih =>
    rw [List.cons_append, absolute_times, ih, absolute_times, List.sum_cons, List.cons_append, Int.add_assoc start]

/-! What the reader makes of a printed section -/

theorem number_of_unsigned (number : Nat) : number_of 10 (unsigned number) = some number :=
  number_of_numeral (by decide) (by decide) number

theorem plain_unsigned (number : Nat) : Plain (unsigned number) := plain_numeral (by decide) (by decide) number

section lines

variable (data : packet_data_t) (start_time_microseconds : Int64) (discarded_by_overflow : UInt32)

/-- The fields of a packet line. -/
theorem packet_line_fields :
    ∃ flow, (packet_line data).fields = [decimal data.timestamp.toInt, unsigned data.size.toNat, decimal flow] :=
  ⟨_, rfl⟩

theorem packet_line_plain : ∀ field ∈ (packet_line data).fields, Plain field := by
  obtain ⟨flow, hfields⟩ := packet_line_fields data
  rw [hfields]
  simp [plain_decimal, plain_unsigned]

theorem packet_line_splitOn : (joined (packet_line data).fields).splitOn space = (packet_line data).fields :=
  splitOn_plain (List.cons_ne_nil _ _) (packet_line_plain data)

theorem packets_header_plain :
    ∀ field ∈ (Line.packets start_time_microseconds discarded_by_overflow).fields, Plain field := by
  simp [Line.fields, plain_unsigned]

theorem read_packet_line :
    read_packet (joined (packet_line data).fields) = some (data.timestamp.toInt, data.size.toNat) := by
  obtain ⟨flow, hfields⟩ := packet_line_fields data
  rw [read_packet, packet_line_splitOn, hfields]
  simp only [integer_of_decimal, number_of_unsigned]
  rfl

theorem packet_line_ne_nil : joined (packet_line data).fields ≠ [] := by
  intro hnil
  obtain ⟨flow, hflow⟩ := packet_line_fields data
  have hfields := packet_line_splitOn data
  rw [hnil, hflow] at hfields
  simp at hfields

/-- The start time and the discard count are read back. -/
theorem read_packets_header :
    read_header (joined (Line.packets start_time_microseconds discarded_by_overflow).fields) =
      some (start_time_microseconds.toUInt64.toNat, discarded_by_overflow.toNat) := by
  have hfields : (joined (Line.packets start_time_microseconds discarded_by_overflow).fields).splitOn space =
      (Line.packets start_time_microseconds discarded_by_overflow).fields :=
    splitOn_plain (List.cons_ne_nil _ _) (packets_header_plain _ _)
  rw [read_header, hfields]
  simp only [Line.fields, number_of_unsigned]
  rfl

end lines

/-- A printed section is read as the entries of the series. -/
theorem read_packet_section (series : packet_series_t) :
    read_section ((packet_section series).flatMap Line.text) =
      some ⟨series.start_time_microseconds.toUInt64.toNat, series.discarded_by_overflow.toNat,
        series.packet_data.items.map fun data => (data.timestamp.toInt, data.size.toNat)⟩ := by
  have hlines : ((packet_section series).flatMap Line.text).splitOn newline =
      (packet_section series).map (fun line => joined line.fields) ++ [[]] := by
    have htext : (packet_section series).flatMap Line.text =
        ((packet_section series).map fun line => joined line.fields).flatMap fun line => line ++ [newline] := by
      rw [List.flatMap_map]
      rfl
    rw [htext]
    apply splitOn_lines
    intro line hline
    obtain ⟨printed, hprinted, rfl⟩ := List.mem_map.mp hline
    rw [packet_section, List.cons_append, List.mem_cons, List.mem_append, packet_lines, List.mem_map,
      List.mem_singleton] at hprinted
    obtain rfl | ⟨data, _, rfl⟩ | rfl := hprinted
    · exact newline_not_mem_plain (packets_header_plain _ _)
    · exact newline_not_mem_plain (packet_line_plain data)
    · exact List.not_mem_nil
  have hpackets : (packet_lines series).map (fun line => joined line.fields) =
      series.packet_data.items.map fun data => joined (packet_line data).fields := by
    rw [packet_lines, List.map_map]
    rfl
  have htake : ((series.packet_data.items.map fun data => joined (packet_line data).fields) ++
        [joined Line.blank.fields] ++ [[]]).takeWhile (fun line => line ≠ []) =
      series.packet_data.items.map fun data => joined (packet_line data).fields := by
    rw [List.append_assoc, List.takeWhile_append_of_pos]
    · simp [Line.fields, joined, List.intercalate]
    · intro line hline
      obtain ⟨data, _, rfl⟩ := List.mem_map.mp hline
      simpa using packet_line_ne_nil data
  have hread : (series.packet_data.items.map fun data => joined (packet_line data).fields).mapM read_packet =
      some (series.packet_data.items.map fun data => (data.timestamp.toInt, data.size.toNat)) := by
    induction series.packet_data.items with
    | nil => rfl
    | cons data items ih =>
      rw [List.map_cons, List.mapM_cons, read_packet_line, ih]
      rfl
  rw [read_section, hlines, packet_section, List.cons_append, List.map_cons, List.map_append, hpackets,
    List.cons_append]
  simp only [List.map_cons, List.map_nil, read_packets_header, htake, hread]
  rfl

/-! Series of calls -/

/-- The arguments of a call. -/
structure packet_call where
  timestamp : timeval
  size : UInt32
  flow : Int

def packet_call.microseconds (call : packet_call) : Int :=
  call.timestamp.tv_sec * NUM_MICROS_PER_SECOND + call.timestamp.tv_usec

/-- The time is not before the epoch, and below 2^53 microseconds after it. -/
structure packet_call.InRange (call : packet_call) : Prop where
  tv_sec : 0 ≤ call.timestamp.tv_sec
  tv_usec : 0 ≤ call.timestamp.tv_usec
  microseconds : call.microseconds < 2 ^ 53

/-- The times of two packets differ by less than 2^31 microseconds. -/
def Close (first second : packet_call) : Prop :=
  -2 ^ 31 < second.microseconds - first.microseconds ∧ second.microseconds - first.microseconds < 2 ^ 31

/-- What the calls return, and the series after them. -/
def run_add_packets (series : packet_series_t) : List packet_call → List Int × packet_series_t
  | [] => ([], series)
  | call :: calls =>
    let (packet_id, series) := packet_series_add_packet series call.timestamp call.size call.flow
    let (packet_ids, series) := run_add_packets series calls
    (packet_id :: packet_ids, series)

/-- The calls, with the last one apart. -/
theorem run_add_packets_snoc (series : packet_series_t) (calls : List packet_call) (last : packet_call) :
    run_add_packets series (calls ++ [last]) =
      ((run_add_packets series calls).1 ++
        [(packet_series_add_packet (run_add_packets series calls).2 last.timestamp last.size last.flow).1],
      (packet_series_add_packet (run_add_packets series calls).2 last.timestamp last.size last.flow).2) := by
  induction calls generalizing series with
  | nil => rfl
  | cons call calls ih =>
    simp only [List.cons_append, run_add_packets, ih]

/-! Times in range -/

theorem double_of_int_exact {value : Int} (h : value.natAbs < 2 ^ 53) : double_of_int value = value := by
  rw [double_of_int, if_pos h]

/-- Below 2^53 the arithmetic in doubles is exact. -/
theorem packet_call.InRange.exact {call : packet_call} (h : call.InRange) :
    call.timestamp.microseconds = Int64.ofInt call.microseconds ∧
      (Int64.ofInt call.microseconds).toInt = call.microseconds := by
  obtain ⟨hsec, husec, hmicroseconds⟩ := h
  rw [packet_call.microseconds, NUM_MICROS_PER_SECOND] at hmicroseconds ⊢
  have htv_sec : double_of_int call.timestamp.tv_sec = call.timestamp.tv_sec := double_of_int_exact (by omega)
  have htv_usec : double_of_int call.timestamp.tv_usec = call.timestamp.tv_usec := double_of_int_exact (by omega)
  have hproduct : double_of_int (call.timestamp.tv_sec * 1000000) = call.timestamp.tv_sec * 1000000 :=
    double_of_int_exact (by omega)
  have hsum : double_of_int (call.timestamp.tv_sec * 1000000 + call.timestamp.tv_usec) =
      call.timestamp.tv_sec * 1000000 + call.timestamp.tv_usec := double_of_int_exact (by omega)
  rw [timeval.microseconds, NUM_MICROS_PER_SECOND, htv_sec, htv_usec, hproduct, hsum]
  exact ⟨rfl, Int64.toInt_ofInt_of_le (by omega) (by omega)⟩

theorem offset_exact {first second : packet_call} (hsecond : second.InRange) (hclose : Close first second) :
    (second.timestamp.microseconds - Int64.ofInt first.microseconds).toInt32.toInt =
      second.microseconds - first.microseconds := by
  rw [hsecond.exact.1, ← Int64.ofInt_sub, Int64.toInt32_ofInt]
  exact Int32.toInt_ofInt_of_le hclose.1.le hclose.2

/-! The series after these calls -/

/-- The packets that the series has room for. -/
def stored (calls : List packet_call) : List packet_call := calls.take PACKET_DATA_BUFFER_ENTRIES

/-- The entries stand for the stored packets, the last time is that of the last
of them, and the other packets have been counted. -/
structure packet_series_t.Records (series : packet_series_t) (calls : List packet_call) : Prop where
  nonnegative : 0 ≤ series.start_time_microseconds.toInt
  times : absolute_times series.start_time_microseconds.toInt
      (series.packet_data.items.map fun data => data.timestamp.toInt) = (stored calls).map packet_call.microseconds
  sizes : (series.packet_data.items.map fun data => data.size.toNat) = (stored calls).map fun call => call.size.toNat
  last : ∀ call, (stored calls).getLast? = some call →
    series.last_time_microseconds = Int64.ofInt call.microseconds ∧
      series.start_time_microseconds.toInt +
        (series.packet_data.items.map fun data => data.timestamp.toInt).sum = call.microseconds
  discarded : series.discarded_by_overflow.toNat = min (calls.length - PACKET_DATA_BUFFER_ENTRIES) (2 ^ 32 - 1)

theorem packet_series_t.Records.length {series : packet_series_t} {calls : List packet_call}
    (h : series.Records calls) : series.length = (stored calls).length := by
  have hlength := congrArg List.length h.sizes
  rwa [List.length_map, List.length_map] at hlength

theorem stored_of_room {calls : List packet_call} (h : calls.length ≤ PACKET_DATA_BUFFER_ENTRIES) :
    stored calls = calls := List.take_of_length_le h

theorem packet_series_init_records : packet_series_init.Records [] where
  nonnegative := by decide
  times := rfl
  sizes := rfl
  last call h := by simp [stored] at h
  discarded := rfl

/-- The discard count stops at its largest value. -/
theorem packet_series_t.discard_counts (series : packet_series_t) {count : Nat}
    (h : series.discarded_by_overflow.toNat = min count (2 ^ 32 - 1)) :
    series.discard.discarded_by_overflow.toNat = min (count + 1) (2 ^ 32 - 1) := by
  have hlt := series.discarded_by_overflow.toNat_lt
  have hsucc : (series.discarded_by_overflow + 1).toNat = (series.discarded_by_overflow.toNat + 1) % 2 ^ 32 :=
    UInt32.toNat_add _ _
  unfold packet_series_t.discard
  split
  · rename_i hroom
    rw [UInt32.lt_iff_toNat_lt, hsucc] at hroom
    rw [hsucc]
    omega
  · rename_i hfull
    rw [UInt32.lt_iff_toNat_lt, hsucc] at hfull
    omega

/-- A call that finds the series full only counts. -/
theorem packet_series_t.Records.discard {series : packet_series_t} {calls : List packet_call}
    (h : series.Records calls) (hfull : PACKET_DATA_BUFFER_ENTRIES ≤ calls.length) (last : packet_call) :
    series.discard.Records (calls ++ [last]) := by
  have hstored : stored (calls ++ [last]) = stored calls := List.take_append_of_le_length hfull
  have hsame : series.discard.start_time_microseconds = series.start_time_microseconds ∧
      series.discard.last_time_microseconds = series.last_time_microseconds := by
    unfold packet_series_t.discard
    split <;> exact ⟨rfl, rfl⟩
  refine ⟨?_, ?_, ?_, ?_, ?_⟩
  · rw [hsame.1]
    exact h.nonnegative
  · rw [hsame.1, series.discard_packet_data, hstored]
    exact h.times
  · rw [series.discard_packet_data, hstored]
    exact h.sizes
  · rw [hsame.1, hsame.2, series.discard_packet_data, hstored]
    exact h.last
  · rw [series.discard_counts h.discarded, List.length_append, List.length_singleton, Nat.sub_add_comm hfull]

/-- What a call that finds room makes of the series. -/
theorem packet_series_add_packet_of_room {series : packet_series_t}
    (hroom : series.length < PACKET_DATA_BUFFER_ENTRIES) (timestamp : timeval) (size : UInt32) (flow : Int) :
    ∃ packet_data : Bounded packet_data_t PACKET_DATA_BUFFER_ENTRIES,
      packet_data.items = series.packet_data.items ++ [series.next timestamp size flow] ∧
      packet_series_add_packet series timestamp size flow =
        ((series.length : Int), { series with
          start_time_microseconds :=
            if series.length = 0 then timestamp.microseconds else series.start_time_microseconds
          last_time_microseconds := timestamp.microseconds
          packet_data := packet_data }) := by
  unfold packet_series_add_packet
  cases hpush : series.packet_data.push (series.next timestamp size flow) with
  | none => exact absurd (Bounded.push_eq_none_iff.mp hpush) (Nat.ne_of_lt hroom)
  | some packet_data => exact ⟨packet_data, (Bounded.push_eq_some_iff.mp hpush).2, rfl⟩

/-- The first packet starts the series, every other one is stored with its
distance to the one before. -/
theorem packet_series_t.Records.next {series : packet_series_t} {calls : List packet_call}
    (h : series.Records calls) {last : packet_call} (hrange : last.InRange) (hsize : last.size.toNat < 2 ^ 16)
    (hclose : ∀ call, (stored calls).getLast? = some call → Close call last) :
    (series.next last.timestamp last.size last.flow).size.toNat = last.size.toNat ∧
      let start := if series.length = 0 then last.timestamp.microseconds else series.start_time_microseconds
      0 ≤ start.toInt ∧
        (series.length = 0 ∨ start = series.start_time_microseconds) ∧
        start.toInt + (series.packet_data.items.map fun data => data.timestamp.toInt).sum +
          (series.next last.timestamp last.size last.flow).timestamp.toInt = last.microseconds := by
  refine ⟨?_, ?_⟩
  · simp only [packet_series_t.next, UInt32.toNat_toUInt16]
    exact Nat.mod_eq_of_lt hsize
  · obtain ⟨hmicroseconds, htoInt⟩ := hrange.exact
    by_cases hempty : series.length = 0
    · have hitems : series.packet_data.items = [] := List.length_eq_zero_iff.mp hempty
      have hnonnegative : 0 ≤ last.microseconds := by
        have hsec := hrange.tv_sec
        have husec := hrange.tv_usec
        rw [packet_call.microseconds, NUM_MICROS_PER_SECOND]
        omega
      simp only [if_pos hempty, hitems, packet_series_t.next, hmicroseconds, htoInt]
      exact ⟨hnonnegative, .inl hempty, by simp⟩
    · have hstored : stored calls ≠ [] := by
        rw [← List.length_pos_iff, ← h.length]
        exact Nat.pos_of_ne_zero hempty
      obtain ⟨before, hbefore⟩ : ∃ before, (stored calls).getLast? = some before :=
        ⟨_, List.getLast?_eq_some_getLast hstored⟩
      obtain ⟨hlast, hsum⟩ := h.last before hbefore
      simp only [if_neg hempty, packet_series_t.next, hlast, hsum, offset_exact hrange (hclose before hbefore)]
      exact ⟨h.nonnegative, .inr trivial, by omega⟩

/-- A call that finds room stores its packet. -/
theorem packet_series_t.Records.add {series : packet_series_t} {calls : List packet_call} (h : series.Records calls)
    (hroom : calls.length < PACKET_DATA_BUFFER_ENTRIES) {last : packet_call} (hrange : last.InRange)
    (hsize : last.size.toNat < 2 ^ 16) (hclose : ∀ call, (stored calls).getLast? = some call → Close call last) :
    (packet_series_add_packet series last.timestamp last.size last.flow).1 = (calls.length : Int) ∧
      (packet_series_add_packet series last.timestamp last.size last.flow).2.Records (calls ++ [last]) := by
  have hcalls : stored calls = calls := stored_of_room hroom.le
  have hlength : series.length = calls.length := h.length.trans (congrArg List.length hcalls)
  have hstored : stored (calls ++ [last]) = calls ++ [last] := by
    apply stored_of_room
    rw [List.length_append, List.length_singleton]
    exact hroom
  obtain ⟨hnext_size, hnonnegative, hstart, hsum⟩ := h.next hrange hsize hclose
  obtain ⟨packet_data, hitems, hadd⟩ :=
    packet_series_add_packet_of_room (hlength.trans_lt hroom) last.timestamp last.size last.flow
  rw [hadd]
  refine ⟨congrArg Nat.cast hlength, ?_, ?_, ?_, ?_, ?_⟩
  · exact hnonnegative
  · simp only [hitems, List.map_append, List.map_singleton, absolute_times_snoc, hstored, hsum]
    rw [List.append_left_inj]
    obtain hempty | hstart := hstart
    · have hnil : series.packet_data.items = [] := List.length_eq_zero_iff.mp hempty
      have hcalls_nil : calls = [] := List.length_eq_zero_iff.mp (hlength ▸ hempty)
      rw [hnil, hcalls_nil]
      rfl
    · rw [hstart, h.times, hcalls]
  · simp only [hitems, List.map_append, List.map_singleton, hstored, h.sizes, hcalls, hnext_size]
  · intro call hcall
    rw [hstored, List.getLast?_concat, Option.some.injEq] at hcall
    subst hcall
    simp only [hitems, List.map_append, List.map_singleton, List.sum_append, List.sum_singleton, ← Int.add_assoc]
    exact ⟨hrange.exact.1, hsum⟩
  · have hdiscarded := h.discarded
    rw [Nat.sub_eq_zero_of_le hroom.le] at hdiscarded
    rw [List.length_append, List.length_singleton, Nat.sub_eq_zero_of_le hroom]
    exact hdiscarded

/-- The index of an accepted call, -1 for the others. -/
def packet_index (idx : Nat) : Int := if idx < PACKET_DATA_BUFFER_ENTRIES then idx else -1

/-- After any calls with times in range the series records the first packets,
and every call has returned the index of its packet. -/
theorem run_add_packets_records {calls : List packet_call} (hranges : ∀ call ∈ calls, call.InRange)
    (hsizes : ∀ call ∈ calls, call.size.toNat < 2 ^ 16) (hclose : calls.IsChain Close) :
    (run_add_packets packet_series_init calls).1 = (List.range calls.length).map packet_index ∧
      (run_add_packets packet_series_init calls).2.Records calls := by
  induction calls using List.reverseRecOn with
  | nil => exact ⟨rfl, packet_series_init_records⟩
  | append_singleton calls last ih =>
    obtain ⟨hranges, hrange⟩ := List.forall_mem_append.mp hranges
    obtain ⟨hsizes, hsize⟩ := List.forall_mem_append.mp hsizes
    obtain ⟨hids, hrecords⟩ := ih hranges hsizes hclose.left_of_append
    rw [run_add_packets_snoc, hids, List.length_append, List.length_singleton, List.range_succ, List.map_append,
      List.map_singleton]
    by_cases hroom : calls.length < PACKET_DATA_BUFFER_ENTRIES
    · have hlast : ∀ call, (stored calls).getLast? = some call → Close call last := by
        intro call hcall
        rw [stored_of_room hroom.le] at hcall
        exact (List.isChain_append.mp hclose).2.2 call hcall last rfl
      obtain ⟨hid, hadded⟩ := hrecords.add hroom (hrange last (List.mem_singleton_self last))
        (hsize last (List.mem_singleton_self last)) hlast
      exact ⟨by rw [hid, packet_index, if_pos hroom], hadded⟩
    · have hfull : PACKET_DATA_BUFFER_ENTRIES ≤ calls.length := not_lt.mp hroom
      have hlength : (run_add_packets packet_series_init calls).2.length = PACKET_DATA_BUFFER_ENTRIES := by
        rw [hrecords.length, stored, List.length_take]
        exact Nat.min_eq_left hfull
      have hadd : packet_series_add_packet (run_add_packets packet_series_init calls).2 last.timestamp last.size
          last.flow = (-1, (run_add_packets packet_series_init calls).2.discard) := by
        rw [packet_series_add_packet, Bounded.push_eq_none_iff.mpr hlength]
      rw [hadd]
      exact ⟨by rw [packet_index, if_neg hroom], hrecords.discard hfull last⟩

/-- The text of the packet section, read back, is the times and sizes of the
packets that were stored and the number of those that were not; each call has
returned the place of its packet in the text. -/
theorem packet_section_round_trips {calls : List packet_call} (hranges : ∀ call ∈ calls, call.InRange)
    (hsizes : ∀ call ∈ calls, call.size.toNat < 2 ^ 16) (hclose : calls.IsChain Close) {handle : gzFile}
    (hhandle : handle.Healthy) :
    ∃ section_text read handle',
      packet_series_write_update (run_add_packets packet_series_init calls).2 handle = (some 0, handle') ∧
      handle'.text = handle.text ++ section_text ∧
      read_section section_text = some read ∧
      read.absolute = (calls.take PACKET_DATA_BUFFER_ENTRIES).map (fun call =>
        (call.microseconds, call.size.toNat)) ∧
      read.discarded_by_overflow = min (calls.length - PACKET_DATA_BUFFER_ENTRIES) (2 ^ 32 - 1) ∧
      (run_add_packets packet_series_init calls).1 = (List.range calls.length).map fun idx =>
        if idx < PACKET_DATA_BUFFER_ENTRIES then (idx : Int) else -1 := by
  obtain ⟨hids, hrecords⟩ := run_add_packets_records hranges hsizes hclose
  refine ⟨_, _, _, packet_series_write_update_healthy _ hhandle, handle.append_text _, read_packet_section _, ?_,
    hrecords.discarded, hids⟩
  have hstart : ((run_add_packets packet_series_init calls).2.start_time_microseconds.toUInt64.toNat : Int) =
      (run_add_packets packet_series_init calls).2.start_time_microseconds.toInt := by
    rw [Int64.toNat_toUInt64_of_le (Int64.le_iff_toInt_le.mpr hrecords.nonnegative)]
    exact Int.toNat_of_nonneg hrecords.nonnegative
  rw [read_series_t.absolute, hstart]
  simp only [List.map_map, Function.comp_def, hrecords.times, hrecords.sizes]
  rw [List.zip_map']
  rfl

/-- The packets of the test of `packet_series_write_update`. -/
def two_packets : List packet_call := [⟨⟨123456789, 4321⟩, 25, 1⟩, ⟨⟨123456790, 4321⟩, 1024, 2⟩]

/-- Two packets of different seconds. -/
theorem packet_section_round_trips_two_packets :
    ∃ section_text read handle',
      packet_series_write_update (run_add_packets packet_series_init two_packets).2 healthy_file = (some 0, handle') ∧
      handle'.text = section_text ∧ read_section section_text = some read ∧
      read.absolute = [(123456789004321, 25), (123456790004321, 1024)] := by
  have hranges : ∀ call ∈ two_packets, call.InRange := by
    intro call hcall
    simp only [two_packets, List.mem_cons, List.not_mem_nil, or_false] at hcall
    obtain rfl | rfl := hcall
    · exact ⟨by decide, by decide, by decide⟩
    · exact ⟨by decide, by decide, by decide⟩
  have hclose : two_packets.IsChain Close := by
    refine .cons_cons ⟨?_, ?_⟩ (.singleton _)
    · decide
    · decide
  obtain ⟨section_text, read, handle', hwrite, htext, hread, habsolute, _⟩ :=
    packet_section_round_trips hranges (by decide) hclose healthy_file_healthy
  exact ⟨section_text, read, handle', hwrite, htext, hread, habsolute⟩

/-- The contents that the test expects. -/
example : (packet_section (run_add_packets packet_series_init two_packets).2).flatMap Line.text =
    "123456789004321 0\n0 25 1\n1000000 1024 2\n\n".toList.map fun c => c.toNat.toUInt8 := by
  decide +kernel

end bismark_passive.packet_series
