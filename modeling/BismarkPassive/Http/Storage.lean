import BismarkPassive.Bytes.Strings
import BismarkPassive.Http.Parser
import BismarkPassive.Reference

namespace bismark_passive.http

open bytes containers

/-! The digest of a URL on its way from the stack through the heap to the file -/

/-- The arguments of an `add_url` call, and what lies on the stack behind the
digest, up to the end of the mapped memory. -/
structure url_request where
  flow_id : UInt16
  url : cstring
  stack : List UInt8

/-- `strdup(url_digest)`; `none` where it leaves the mapped memory. -/
def strdup_url_digest (digest : digest_t) (stack : List UInt8) : Option cstring :=
  (read_string (digest.toList ++ stack).length 0).run fun address => (digest.toList ++ stack).getD address 0

/-- `add_url` with the copy as `strdup` makes it. -/
def add_url_copied (s : Session) (table : http_table_t) (request : url_request) : Option (Int × http_table_t) := do
  let url_digest ← anonymize_url s request.url
  let copy ← strdup_url_digest url_digest request.stack
  pure (0, (http_table_add_url table { flow_id := request.flow_id, url := copy }).2)

def add_urls (s : Session) (table : http_table_t) : List url_request → Option http_table_t
  | [] => some table
  | request :: requests => do
    let (_, table) ← add_url_copied s table request
    add_urls s table requests

/-- Memory from the copy in an entry on. -/
def copy_memory (behind : List UInt8) (entry : http_url_entry) (address : Nat) : UInt8 :=
  (entry.url ++ 0 :: behind).getD address 0

/-- `buffer_to_hex` loads no byte behind the copy and its terminator. -/
def ReadsCopy (behind : List UInt8) (entry : http_url_entry) : Prop :=
  (load_bytes 0 ANONYMIZATION_DIGEST_LENGTH).Within (copy_memory behind entry) (entry.url.length + 1)

variable {s : Session} {digest : digest_t} {stack copy : List UInt8} {behind : List UInt8} {entry : http_url_entry}

theorem reads_copy_iff : ReadsCopy behind entry ↔ ANONYMIZATION_DIGEST_LENGTH ≤ entry.url.length + 1 := by
  rw [ReadsCopy, within_load_bytes_iff (by decide), Nat.zero_add]

/-- The bytes that are printed are the bytes loaded. -/
theorem url_bytes_eq_load (h : ReadsCopy behind entry) :
    url_bytes behind entry = (load_bytes 0 ANONYMIZATION_DIGEST_LENGTH).run (copy_memory behind entry) := by
  have hlength := reads_copy_iff.mp h
  have hheld : Holds (copy_memory behind entry) 0 (url_bytes behind entry) :=
    Holds.of_prefix (holds_getD (entry.url ++ 0 :: behind)) (List.take_prefix _ _)
  have hprinted : (url_bytes behind entry).length = ANONYMIZATION_DIGEST_LENGTH := by
    rw [url_bytes, List.length_take, List.length_append, List.length_cons]
    omega
  have hloaded := run_load_bytes hheld
  rw [hprinted] at hloaded
  exact hloaded.symm

theorem strdup_url_digest_eq_some_iff :
    strdup_url_digest digest stack = some copy ↔
      0 ∈ digest.toList ++ stack ∧ (digest.toList ++ stack).takeWhile (· ≠ 0) = copy := by
  rw [strdup_url_digest, run_read_string (holds_getD (digest.toList ++ stack))]
  split
  · simp_all
  · simp_all

/-- The copy is as long as the digest, up to its terminator, unless a zero byte
stands before the digest's last byte. -/
theorem copy_length (hcopy : strdup_url_digest digest stack = some copy) :
    ANONYMIZATION_DIGEST_LENGTH ≤ copy.length + 1 ↔ 0 ∉ digest.toList.take (ANONYMIZATION_DIGEST_LENGTH - 1) := by
  obtain ⟨-, rfl⟩ := strdup_url_digest_eq_some_iff.mp hcopy
  have hdigest : digest.toList.length = ANONYMIZATION_DIGEST_LENGTH := Vector.length_toList
  have hwhole : ANONYMIZATION_DIGEST_LENGTH - 1 ≤ (digest.toList ++ stack).length := by
    rw [List.length_append]
    omega
  rw [← Nat.sub_le_iff_le_add, le_length_takeWhile hwhole, List.take_append_of_le_length (by omega)]

/-- A copy that is long enough starts with the digest. -/
theorem digest_prefix_copy (hcopy : strdup_url_digest digest stack = some copy)
    (hlength : ANONYMIZATION_DIGEST_LENGTH ≤ copy.length + 1) : digest.toList <+: copy ++ [0] := by
  obtain ⟨hzero, rfl⟩ := strdup_url_digest_eq_some_iff.mp hcopy
  refine List.prefix_of_prefix_length_le (List.prefix_append digest.toList stack) (string_starts hzero) ?_
  rw [List.length_append, List.length_singleton, Vector.length_toList]
  exact hlength

theorem url_bytes_of_copied (h : digest.toList <+: entry.url ++ [0]) : url_bytes behind entry = digest.toList := by
  have hwhole : digest.toList <+: entry.url ++ 0 :: behind := by
    rw [← List.singleton_append, ← List.append_assoc]
    exact h.trans (List.prefix_append _ _)
  have htake := List.prefix_iff_eq_take.mp hwhole
  rw [Vector.length_toList] at htake
  exact htake.symm

/-- What lies behind the digest on the stack is not printed. -/
theorem url_line_copied (hcopy : strdup_url_digest digest stack = some copy) (heap : heap_t) (idx : Nat)
    (flow_id : UInt16) :
    url_line heap idx { flow_id := flow_id, url := copy } =
      url_line heap idx { flow_id := flow_id, url := strdup_digest digest } := by
  by_cases hdigest : 0 ∈ digest.toList
  · have hsame : copy = strdup_digest digest := by
      obtain ⟨-, rfl⟩ := strdup_url_digest_eq_some_iff.mp hcopy
      rw [takeWhile_append_of_zero_mem hdigest, strdup_digest]
      simp only [bne, ne_eq, decide_not, beq_eq_decide]
    rw [hsame]
  · have hwhole : strdup_digest digest = digest.toList :=
      List.takeWhile_eq_self_iff.mpr fun byte hbyte => bne_iff_ne.mpr fun hzero => hdigest (hzero ▸ hbyte)
    have hlength := (copy_length hcopy).mpr fun hmem => hdigest (List.mem_of_mem_take hmem)
    have hcopied : url_bytes (heap idx) { flow_id := flow_id, url := copy } = digest.toList :=
      url_bytes_of_copied (digest_prefix_copy hcopy hlength)
    have hstored : url_bytes (heap idx) { flow_id := flow_id, url := strdup_digest digest } = digest.toList :=
      url_bytes_of_copied (hwhole ▸ List.prefix_append _ _)
    rw [url_line, url_line, hcopied, hstored]

/-- The two tables are printed alike, whatever lies on the heap. -/
structure PrintedAlike (table other : http_table_t) : Prop where
  num_dropped : other.num_dropped_url_entries = table.num_dropped_url_entries
  length : other.entries.items.length = table.entries.items.length
  lines : ∀ heap, other.entries.items.mapIdx (url_line heap) = table.entries.items.mapIdx (url_line heap)

theorem PrintedAlike.write_update {table other : http_table_t} (h : PrintedAlike table other) (heap : heap_t) :
    http_table_write_update other heap = http_table_write_update table heap := by
  rw [http_table_write_update, http_table_write_update, h.num_dropped, h.lines]

theorem http_table_add_url_full {table : http_table_t} (hfull : table.entries.items.length = HTTP_TABLE_URL_ENTRIES)
    (new_entry : http_url_entry) :
    http_table_add_url table new_entry =
      (-1, { table with num_dropped_url_entries := table.num_dropped_url_entries + 1 }) := by
  rw [http_table_add_url, Bounded.push_eq_none_iff.mpr hfull]

theorem http_table_add_url_room {table : http_table_t} (hroom : table.entries.items.length < HTTP_TABLE_URL_ENTRIES)
    (new_entry : http_url_entry) :
    (http_table_add_url table new_entry).2.entries.items = table.entries.items ++ [new_entry] ∧
      (http_table_add_url table new_entry).2.num_dropped_url_entries = table.num_dropped_url_entries := by
  obtain ⟨entries, hpush⟩ : ∃ entries, table.entries.push new_entry = some entries := ⟨_, dif_pos hroom⟩
  rw [http_table_add_url, hpush]
  exact ⟨(Bounded.push_eq_some_iff.mp hpush).2, rfl⟩

/-- Storing the copy comes to the same lines as storing the digest up to its
first zero byte. -/
theorem add_url_copied_printed_alike {table other stored : http_table_t} (h : PrintedAlike table other)
    {request : url_request} {result : Int} (hadd : add_url_copied s other request = some (result, stored)) :
    ∃ stored', add_url s table request.flow_id request.url = some (result, stored') ∧ PrintedAlike stored' stored := by
  simp only [add_url_copied, Option.bind_eq_bind, Option.bind_eq_some_iff, Option.pure_def, Option.some.injEq,
    Prod.mk.injEq] at hadd
  obtain ⟨digest, hdigest, copy, hcopy, rfl, rfl⟩ := hadd
  refine ⟨(http_table_add_url table ⟨request.flow_id, strdup_digest digest⟩).2, ?_, ?_⟩
  · rw [add_url, hdigest]
    rfl
  by_cases hroom : table.entries.items.length < HTTP_TABLE_URL_ENTRIES
  · obtain ⟨hitems, hdropped⟩ := http_table_add_url_room hroom ⟨request.flow_id, strdup_digest digest⟩
    obtain ⟨hitems', hdropped'⟩ := http_table_add_url_room (h.length ▸ hroom) ⟨request.flow_id, copy⟩
    refine ⟨by rw [hdropped, hdropped', h.num_dropped], ?_, fun heap => ?_⟩
    · rw [hitems, hitems', List.length_append, List.length_append, h.length, List.length_singleton,
        List.length_singleton]
    · rw [hitems, hitems', List.mapIdx_concat, List.mapIdx_concat, h.lines heap, h.length, url_line_copied hcopy]
  · have hfull : table.entries.items.length = HTTP_TABLE_URL_ENTRIES :=
      Nat.le_antisymm table.entries.length_le (Nat.not_lt.mp hroom)
    rw [http_table_add_url_full hfull, http_table_add_url_full (h.length.trans hfull)]
    exact ⟨congrArg (· + 1) h.num_dropped, h.length, h.lines⟩

/-- Entries that have been added stay. -/
theorem add_url_copied_extends {table table' : http_table_t} {request : url_request} {result : Int}
    (hadd : add_url_copied s table request = some (result, table')) :
    table.entries.items <+: table'.entries.items := by
  simp only [add_url_copied, Option.bind_eq_bind, Option.bind_eq_some_iff, Option.pure_def, Option.some.injEq,
    Prod.mk.injEq] at hadd
  obtain ⟨digest, -, copy, -, -, rfl⟩ := hadd
  by_cases hroom : table.entries.items.length < HTTP_TABLE_URL_ENTRIES
  · rw [(http_table_add_url_room hroom _).1]
    exact List.prefix_append _ _
  · have hfull := Nat.le_antisymm table.entries.length_le (Nat.not_lt.mp hroom)
    exact ⟨[], by simp only [http_table_add_url_full hfull, List.append_nil]⟩

/-- Further requests leave the entries where they are. -/
theorem add_urls_prefix {table table' : http_table_t} {requests : List url_request}
    (hadd : add_urls s table requests = some table') : table.entries.items <+: table'.entries.items := by
  induction requests generalizing table with
  | nil =>
    rw [add_urls, Option.some.injEq] at hadd
    exact ⟨[], by simp only [hadd, List.append_nil]⟩
  | cons request requests ih =>
    simp only [add_urls, Option.bind_eq_bind, Option.bind_eq_some_iff] at hadd
    obtain ⟨⟨result, middle⟩, hfirst, hrest⟩ := hadd
    exact (add_url_copied_extends hfirst).trans (ih hrest)

/-- The line of the entry at `idx` has the digits of the digest. -/
def PrintsDigest (handle handle' : gzFile) (idx : Nat) (flow_id : UInt16) (digest : digest_t) : Prop :=
  ∃ hex, buffer_to_hex digest.toList = some hex ∧
    handle'.written[handle.written.length + 1 + idx]? = some (.url flow_id hex)

/-- The line printed for an entry, in the file. -/
theorem written_url_line {table : http_table_t} {heap : heap_t} {handle handle' : gzFile} (hhandle : handle.Healthy)
    {result : Int} (hwrite : http_table_write_update table heap handle = (some result, handle')) {idx : Nat}
    (hentry : table.entries.items[idx]? = some entry) :
    ∃ hex, buffer_to_hex (url_bytes (heap idx) entry) = some hex ∧
      handle'.written[handle.written.length + 1 + idx]? = some (.url entry.flow_id hex) := by
  obtain ⟨-, lines, hlines, rfl⟩ := http_table_write_update_healthy hhandle hwrite
  have hline : lines[idx]?.map some = some (url_line heap idx entry) := by
    rw [← List.getElem?_map, ← hlines, List.getElem?_mapIdx, hentry]
    rfl
  obtain ⟨line, hget, hline⟩ := Option.map_eq_some_iff.mp hline
  simp only [url_line, Option.bind_eq_bind, Option.pure_def] at hline
  obtain ⟨hex, hhex, heq⟩ := Option.bind_eq_some_iff.mp hline.symm
  refine ⟨hex, hhex, ?_⟩
  have hposition : handle.written.length + 1 + idx = handle.written.length + (idx + 1) := by omega
  have hinside : idx < lines.length := (List.getElem?_eq_some_iff.mp hget).1
  rw [gzFile.append_written, hposition, List.getElem?_append_right (Nat.le_add_right _ _), Nat.add_sub_cancel_left,
    List.cons_append, List.getElem?_cons_succ, List.getElem?_append_left hinside, hget, Option.some.inj heq]

/-- The digest of a stored URL is printed, and only bytes of the stored copy are
read for it, exactly if no byte of the digest but its last one is zero. -/
theorem stored_digest_printed_iff {table stored later : http_table_t} {request : url_request}
    (hdigest : anonymize_url s request.url = some digest)
    (hroom : table.entries.items.length < HTTP_TABLE_URL_ENTRIES) {result : Int}
    (hstored : add_url_copied s table request = some (result, stored)) {requests : List url_request}
    (hlater : add_urls s stored requests = some later) {heap : heap_t} {handle handle' : gzFile}
    (hhandle : handle.Healthy) {written : Int}
    (hwrite : http_table_write_update later heap handle = (some written, handle')) :
    (∃ entry, later.entries.items[table.entries.items.length]? = some entry ∧
      PrintsDigest handle handle' table.entries.items.length request.flow_id digest ∧
      ReadsCopy (heap table.entries.items.length) entry) ↔
      0 ∉ digest.toList.take (ANONYMIZATION_DIGEST_LENGTH - 1) := by
  simp only [add_url_copied, hdigest, Option.bind_eq_bind, Option.bind_some, Option.bind_eq_some_iff,
    Option.pure_def, Option.some.injEq, Prod.mk.injEq] at hstored
  obtain ⟨copy, hcopy, -, rfl⟩ := hstored
  have hitems := (http_table_add_url_room hroom ⟨request.flow_id, copy⟩).1
  have hentry : later.entries.items[table.entries.items.length]? = some ⟨request.flow_id, copy⟩ := by
    obtain ⟨rest, hrest⟩ := add_urls_prefix hlater
    rw [hitems] at hrest
    rw [← hrest, List.append_assoc, List.getElem?_append_right (le_refl _), Nat.sub_self]
    rfl
  rw [← copy_length hcopy]
  constructor
  · rintro ⟨entry, hentry', -, hreads⟩
    rw [hentry, Option.some.injEq] at hentry'
    rw [← hentry', reads_copy_iff] at hreads
    exact hreads
  · intro hlength
    obtain ⟨hex, hhex, hline⟩ := written_url_line hhandle hwrite hentry
    rw [url_bytes_of_copied (digest_prefix_copy hcopy hlength)] at hhex
    exact ⟨_, hentry, ⟨hex, hhex, hline⟩, reads_copy_iff.mpr hlength⟩

/-- The digest of `"/28"` under a seed of zeros; its fifteenth byte is zero. -/
def gapped_digest : digest_t :=
  #v[77, 24, 130, 209, 65, 175, 86, 97, 45, 168, 105, 100, 57, 21, 0, 204, 187, 135, 13, 235]

/-- The digest of `"/"` under a seed of zeros. -/
def gapless_digest : digest_t :=
  #v[221, 148, 25, 101, 241, 220, 32, 139, 218, 167, 246, 89, 182, 144, 137, 86, 107, 128, 35, 49]

def zero_seed_session : Session :=
  { anonymizing_session with
    externals :=
      { anonymizing_session.externals with
        sha1_hmac := fun _ url => if url = [47, 50, 56] then gapped_digest else gapless_digest }
    anonymization :=
      { anonymizing_session.anonymization with seed := List.replicate ANONYMIZATION_SEED_LEN 0 } }

def gapped_request : url_request := { flow_id := 7, url := [47, 50, 56], stack := [1, 0] }

def gapless_request : url_request := { flow_id := 7, url := [47], stack := [1, 0] }

/-- The table with the entry that was made of the request. -/
def stored_entry (copy : cstring) : http_table_t where
  entries := ⟨[{ flow_id := 7, url := copy }], Nat.succ_le_of_lt (by decide)⟩
  num_dropped_url_entries := 0

def gapless_entry : http_table_t := stored_entry (gapless_digest.toList ++ [1])

/-- The table's one entry has no gap behind its digest. -/
theorem stored_digest_printed_iff_gapless :
    ∃ handle', http_table_write_update gapless_entry (fun _ => []) healthy_file = (some 0, handle') ∧
      ((∃ entry, gapless_entry.entries.items[0]? = some entry ∧
          PrintsDigest healthy_file handle' 0 7 gapless_digest ∧ ReadsCopy [] entry) ↔
        0 ∉ gapless_digest.toList.take (ANONYMIZATION_DIGEST_LENGTH - 1)) := by
  have hdigest : anonymize_url zero_seed_session gapless_request.url = some gapless_digest := rfl
  have hroom : http_table_init.entries.items.length < HTTP_TABLE_URL_ENTRIES := by decide
  have hstored : add_url_copied zero_seed_session http_table_init gapless_request = some (0, gapless_entry) := rfl
  have hlater : add_urls zero_seed_session gapless_entry [] = some gapless_entry := rfl
  have hwrite : http_table_write_update gapless_entry (fun _ => []) healthy_file =
      (some 0, (http_table_write_update gapless_entry (fun _ => []) healthy_file).2) := rfl
  have hiff := stored_digest_printed_iff hdigest hroom hstored hlater healthy_file_healthy hwrite
  exact ⟨_, hwrite, hiff⟩

/-- The line of a digest with a zero byte shows what lies on the heap. -/
theorem gapped_digest_lost :
    ∃ stored handle', add_url_copied zero_seed_session http_table_init gapped_request = some (0, stored) ∧
      anonymize_url zero_seed_session gapped_request.url = some gapped_digest ∧
      http_table_write_update stored (fun _ => List.replicate 5 0xff) healthy_file = (some 0, handle') ∧
      ¬ PrintsDigest healthy_file handle' 0 7 gapped_digest ∧
      ¬ ∃ entry, stored.entries.items[0]? = some entry ∧ ReadsCopy (List.replicate 5 0xff) entry := by
  refine ⟨stored_entry (gapped_digest.toList.take 14), _, rfl, rfl, rfl, ?_, ?_⟩
  · rintro ⟨hex, hhex, hline⟩
    cases hhex
    exact absurd hline (by decide)
  · rintro ⟨entry, hentry, hreads⟩
    cases hentry
    exact absurd (reads_copy_iff.mp hreads) (by decide)

end bismark_passive.http
