import BismarkPassive.Anonymization
import BismarkPassive.Containers.Bounded
import BismarkPassive.Output

namespace bismark_passive.http

open containers

/-- `url` is the string that `strdup` made of a digest: its bytes before the
first zero byte. -/
structure http_url_entry where
  flow_id : UInt16
  url : cstring
  deriving DecidableEq

/-- The field `length` is the length of `entries`. -/
structure http_table_t where
  entries : Bounded http_url_entry HTTP_TABLE_URL_ENTRIES
  num_dropped_url_entries : Int

def http_table_init : http_table_t where
  entries := .empty
  num_dropped_url_entries := 0

def http_table_add_url (table : http_table_t) (new_entry : http_url_entry) : Int × http_table_t :=
  match table.entries.push new_entry with
  | none => (-1, { table with num_dropped_url_entries := table.num_dropped_url_entries + 1 })
  | some entries => (0, { table with entries := entries })

/-- What lies on the heap behind the string of each entry when it is printed. -/
abbrev heap_t := Nat → List UInt8

/-- The bytes that `buffer_to_hex(entries[idx].url, ANONYMIZATION_DIGEST_LENGTH)`
reads: the string, its terminator, and what lies behind it. -/
def url_bytes (behind : List UInt8) (entry : http_url_entry) : List UInt8 :=
  (entry.url ++ 0 :: behind).take ANONYMIZATION_DIGEST_LENGTH

def url_line (heap : heap_t) (idx : Nat) (entry : http_url_entry) : Option Line := do
  let url ← buffer_to_hex (url_bytes (heap idx) entry)
  pure (.url entry.flow_id url)

theorem url_line_isSome (heap : heap_t) (idx : Nat) (entry : http_url_entry) : (url_line heap idx entry).isSome := by
  have hlength : (url_bytes (heap idx) entry).length ≤ 1023 := by
    rw [url_bytes, List.length_take, ANONYMIZATION_DIGEST_LENGTH]
    omega
  obtain ⟨hex, hhex⟩ := Option.isSome_iff_exists.mp (buffer_to_hex_isSome hlength)
  simp [url_line, hhex]

/-- The bytes behind the string of an entry that are printed with it. -/
def printed_behind (behind : List UInt8) (entry : http_url_entry) : List UInt8 :=
  behind.take (ANONYMIZATION_DIGEST_LENGTH - 1 - entry.url.length)

/-- What is printed of an entry depends on memory behind it as far as a terminator. -/
theorem url_bytes_eq_iff {behind behind' : List UInt8} {entry : http_url_entry} :
    url_bytes behind entry = url_bytes behind' entry ↔ printed_behind behind entry = printed_behind behind' entry := by
  rw [url_bytes, url_bytes, List.take_append, List.take_append, List.append_right_inj, printed_behind, printed_behind]
  by_cases hshort : entry.url.length < ANONYMIZATION_DIGEST_LENGTH
  · have hlength : ANONYMIZATION_DIGEST_LENGTH - entry.url.length =
        (ANONYMIZATION_DIGEST_LENGTH - 1 - entry.url.length) + 1 := by omega
    rw [hlength, List.take_succ_cons, List.take_succ_cons, List.cons_inj_right]
  · have hlength : ANONYMIZATION_DIGEST_LENGTH - entry.url.length = 0 := by omega
    have hbehind : ANONYMIZATION_DIGEST_LENGTH - 1 - entry.url.length = 0 := by omega
    rw [hlength, hbehind, List.take_zero, List.take_zero, List.take_zero, List.take_zero]

/-- So does its line. -/
theorem url_line_eq_iff {heap heap' : heap_t} {idx : Nat} {entry : http_url_entry} :
    url_line heap idx entry = url_line heap' idx entry ↔
      printed_behind (heap idx) entry = printed_behind (heap' idx) entry := by
  rw [← url_bytes_eq_iff]
  constructor
  · intro heq
    obtain ⟨line, hline⟩ := Option.isSome_iff_exists.mp (url_line_isSome heap idx entry)
    rw [hline] at heq
    simp only [url_line, Option.bind_eq_bind, Option.bind_eq_some_iff, Option.pure_def, Option.some.injEq] at hline
    obtain ⟨hex, hhex, rfl⟩ := hline
    have hline' := heq.symm
    simp only [url_line, Option.bind_eq_bind, Option.bind_eq_some_iff, Option.pure_def, Option.some.injEq,
      Line.url.injEq, true_and] at hline'
    obtain ⟨_, hhex', rfl⟩ := hline'
    exact buffer_to_hex_injective hhex hhex'
  · intro heq
    rw [url_line, url_line, heq]

/-- What the lines of the entries tell about the heap. -/
theorem url_lines_eq_iff {entries : List http_url_entry} {heap heap' : heap_t} :
    entries.mapIdx (url_line heap) = entries.mapIdx (url_line heap') ↔
      ∀ (idx : Nat) (entry : http_url_entry), entries[idx]? = some entry →
        printed_behind (heap idx) entry = printed_behind (heap' idx) entry := by
  rw [List.ext_getElem?_iff]
  refine forall_congr' fun idx => ?_
  rw [List.getElem?_mapIdx, List.getElem?_mapIdx]
  cases hentry : entries[idx]? with
  | none => simp
  | some entry => simp [url_line_eq_iff]

def http_table_write_update (table : http_table_t) (heap : heap_t) : gzFile → writer_result × gzFile :=
  write_line (.urls table.num_dropped_url_entries)
    (write_lines write_blank (table.entries.items.mapIdx (url_line heap)))

/-- A write that completes prints one line for each entry, in order. -/
theorem http_table_write_update_healthy {table : http_table_t} {heap : heap_t} {handle handle' : gzFile}
    (hhandle : handle.Healthy) {result : Int}
    (hwrite : http_table_write_update table heap handle = (some result, handle')) :
    result = 0 ∧ ∃ lines : List Line, table.entries.items.mapIdx (url_line heap) = lines.map some ∧
      handle' = handle.append (.urls table.num_dropped_url_entries :: lines ++ [.blank]) := by
  have hheader := hhandle.append [.urls table.num_dropped_url_entries]
  rw [http_table_write_update, write_line_healthy hhandle] at hwrite
  obtain ⟨lines, hlines⟩ := write_lines_composed hheader (congrArg Prod.fst hwrite)
  rw [hlines, write_lines_healthy hheader, write_blank_healthy (hheader.append _), Prod.mk.injEq] at hwrite
  refine ⟨(Option.some.inj hwrite.1).symm, lines, hlines, ?_⟩
  rw [← hwrite.2, gzFile.append_append, gzFile.append_append]
  rfl

end bismark_passive.http
