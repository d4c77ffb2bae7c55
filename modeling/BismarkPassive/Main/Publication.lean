import BismarkPassive.Dns.Lookups
import BismarkPassive.Main.Completion

namespace bismark_passive.main

open flow_table address_table packet_series dns http drop_statistics

/-! The calls that an update makes, section by section; `none` stands for a
line in the composition of which the process dies. -/

def header_lines (s : Session) (state : state_t) (io : update_io) : List (Option Line) :=
  some (.version FILE_FORMAT_VERSION s.build_id) ::
    some (.session s.bismark_id s.start_timestamp_microseconds state.sequence_number io.current_timestamp) ::
    (io.pcap_statistics.toList.map fun statistics =>
      some (.pcap_statistics statistics.1 statistics.2.1 statistics.2.2)) ++ [some .blank]

def whitelist_lines (state : state_t) : List (Option Line) :=
  if state.sequence_number = 0 then
    (state.domain_whitelist.domains.map fun domain => some (.domain domain)) ++ [some .blank]
  else [some .blank]

def anonymization_lines (s : Session) : List (Option Line) :=
  if s.target.disable_anonymization then [some .unanonymized] else [some (.seed s.anonymization.seed_hex_digest)]

def packet_series_lines (series : packet_series_t) : List (Option Line) :=
  some (.packets series.start_time_microseconds series.discarded_by_overflow) ::
    (series.packet_data.items.map fun data => some (packet_line data)) ++ [some .blank]

def unsent_lines (s : Session) (table : flow_table_t) (range : List Slot) : List (Option Line) :=
  (range.filter fun idx => (table.entries idx).occupied = .ENTRY_OCCUPIED_BUT_UNSENT).map fun idx =>
    flow_line s idx (table.entries idx)

def flow_table_lines (s : Session) (table : flow_table_t) : List (Option Line) :=
  some (.flows table.base_timestamp_seconds table.num_elements table.num_expired_flows table.num_dropped_flows) ::
    unsent_lines s table all_slots ++ [some .blank]

theorem flow_table_lines_eq (s : Session) (table : flow_table_t) :
    flow_table_lines s table =
      some (.flows table.base_timestamp_seconds table.num_elements table.num_expired_flows table.num_dropped_flows) ::
        (unsent_lines s table all_slots ++ [some .blank]) := by
  rw [flow_table_lines, List.cons_append]

def address_table_lines (s : Session) (table : address_table_t) : List (Option Line) :=
  some (.addresses (NORM (table.last - table.added_since_last_update + 1)) MAC_TABLE_ENTRIES) ::
    ((table.added_ids.map fun mac_id => address_line s (table.entries (mac_slot mac_id))) ++ [some .blank])

def drop_statistics_lines (drop_statistics : drop_statistics_t) : List (Option Line) :=
  (drop_lines drop_statistics written_sizes).map some ++ [some .blank]

def url_lines (s : Session) (state : state_t) (io : update_io) : List (Option Line) :=
  if s.target.enable_http_url then
    some (.urls state.http_table.num_dropped_url_entries) ::
      (state.http_table.entries.items.mapIdx (url_line io.heap) ++ [some .blank])
  else []

/-- The lines of an update in the order in which it prints them. -/
def update_lines (s : Session) (state : state_t) (io : update_io) : List (Option Line) :=
  header_lines s state io ++ (whitelist_lines state ++ (anonymization_lines s ++
    (packet_series_lines state.packet_data ++ (flow_table_lines s state.flow_table ++
      (dns_table_lines s state.dns_table ++ (address_table_lines s state.address_table ++
        (drop_statistics_lines state.drop_statistics ++ url_lines s state io)))))))

/-- What an update prints does not depend on what its calls return. -/
theorem update_lines_gzprintf_returns (s : Session) (state : state_t) (io : update_io) (gzprintf_returns : Nat → Int) :
    update_lines s state { io with gzprintf_returns := gzprintf_returns } = update_lines s state io := by
  simp only [update_lines, header_lines, url_lines]

theorem two_lt_length_update_lines (s : Session) (state : state_t) (io : update_io) :
    2 < (update_lines s state io).length := by
  rw [update_lines, List.length_append, header_lines]
  simp only [List.length_append, List.length_cons]
  omega

/-! Each writer prints the lines of its section -/

theorem write_header_prints (s : Session) (state : state_t) (io : update_io) :
    bismark_passive.Prints (write_header s state io) (header_lines s state io) :=
  prints_lines prints_blank _

theorem write_whitelist_prints (state : state_t) :
    bismark_passive.Prints (write_whitelist state) (whitelist_lines state) := by
  unfold write_whitelist whitelist_lines
  split
  · exact prints_lines prints_blank _
  · exact prints_blank

theorem write_anonymization_prints (s : Session) :
    bismark_passive.Prints (write_anonymization s) (anonymization_lines s) := by
  unfold write_anonymization anonymization_lines
  split
  · exact prints_line prints_done _
  · exact prints_line prints_done _

theorem packet_series_write_update_prints (series : packet_series_t) :
    bismark_passive.Prints (packet_series_write_update series) (packet_series_lines series) :=
  prints_line (prints_lines prints_blank _) _

theorem drop_statistics_write_update_prints (drop_statistics : drop_statistics_t) :
    bismark_passive.Prints (drop_statistics_write_update drop_statistics) (drop_statistics_lines drop_statistics) :=
  prints_lines prints_blank _

theorem write_urls_prints (s : Session) (state : state_t) (io : update_io) :
    bismark_passive.Prints (write_urls s state io) (url_lines s state io) := by
  unfold write_urls url_lines
  split
  · exact prints_line (prints_lines prints_blank _) _
  · exact prints_done

/-- The same for writers that also change their table. -/
def PrintsTable {T : Type} (writer : gzFile → writer_result × T × gzFile) (lines : List (Option Line)) : Prop :=
  bismark_passive.Prints (fun handle => ((writer handle).1, (writer handle).2.2)) lines

theorem address_table_write_update_prints (s : Session) (table : address_table_t) :
    PrintsTable (address_table_write_update s table) (address_table_lines s table) :=
  prints_line (prints_lines prints_blank _) _

/-- Storing into a slot that is not listed changes no line. -/
theorem unsent_lines_store {s : Session} {table : flow_table_t} {idx : Slot} {range : List Slot}
    (hnotmem : idx ∉ range) (entry : flow_table_entry_t) :
    unsent_lines s (table.store idx entry) range = unsent_lines s table range := by
  have hsame : ∀ other ∈ range, (table.store idx entry).entries other = table.entries other := by
    intro other hother
    have hne : other ≠ idx := fun h => hnotmem (h ▸ hother)
    rw [flow_table_t.store_entries, if_neg hne]
  have hfilter : (range.filter fun other =>
        ((table.store idx entry).entries other).occupied = .ENTRY_OCCUPIED_BUT_UNSENT) =
      range.filter fun other => (table.entries other).occupied = .ENTRY_OCCUPIED_BUT_UNSENT :=
    List.filter_congr fun other hother => by rw [hsame other hother]
  rw [unsent_lines, unsent_lines, hfilter]
  exact List.map_congr_left fun other hother => by rw [hsame other (List.mem_of_mem_filter hother)]

/-- Behind the last slot only the end of the section is printed. -/
theorem write_entries_nil_prints (s : Session) (table : flow_table_t) :
    PrintsTable (fun handle => write_end (write_entries s [] table handle)) [some .blank] := by
  have hwrite (handle : gzFile) : write_end (write_entries s [] table handle) =
      ((write_blank handle).1, table, (write_blank handle).2) := by
    rw [write_entries, write_end, write_blank, write_line]
    simp only
    split <;> simp_all
  intro handle
  simp only [hwrite]
  exact prints_blank handle

/-- The loop over the entries; the blank line follows if it gets through. -/
theorem write_entries_prints (s : Session) {range : List Slot} (hnodup : range.Nodup) (table : flow_table_t) :
    PrintsTable (fun handle => write_end (write_entries s range table handle))
      (unsent_lines s table range ++ [some .blank]) := by
  induction range generalizing table with
  | nil => exact write_entries_nil_prints s table
  | cons idx range ih =>
    obtain ⟨hnotmem, hnodup⟩ := List.nodup_cons.mp hnodup
    by_cases hunsent : (table.entries idx).occupied = .ENTRY_OCCUPIED_BUT_UNSENT
    · have hlines : unsent_lines s table (idx :: range) =
          flow_line s idx (table.entries idx) :: unsent_lines s table range := by
        rw [unsent_lines, List.filter_cons_of_pos (by simpa using hunsent)]
        rfl
      rw [hlines, List.cons_append]
      cases hline : flow_line s idx (table.entries idx) with
      | none =>
        have hdies (handle : gzFile) :
            write_end (write_entries s (idx :: range) table handle) = (none, table, handle) := by
          simp only [write_entries, if_pos hunsent, hline, write_end]
        intro handle
        simp only [hdies]
        exact ⟨iff_of_false (by simp) not_passes_none, fun h => absurd h not_passes_none⟩
      | some line =>
        have hrest := ih hnodup (table.store idx { table.entries idx with occupied := .ENTRY_OCCUPIED })
        rw [unsent_lines_store hnotmem] at hrest
        have hwrite : (fun handle => ((write_end (write_entries s (idx :: range) table handle)).1,
            (write_end (write_entries s (idx :: range) table handle)).2.2)) = write_line line fun handle =>
            ((write_end (write_entries s range
              (table.store idx { table.entries idx with occupied := .ENTRY_OCCUPIED }) handle)).1,
            (write_end (write_entries s range
              (table.store idx { table.entries idx with occupied := .ENTRY_OCCUPIED }) handle)).2.2) := by
          funext handle
          rw [write_entries, write_line]
          simp only [if_pos hunsent, hline]
          split <;> rfl
        rw [PrintsTable, hwrite]
        exact prints_line hrest line
    · have hlines : unsent_lines s table (idx :: range) = unsent_lines s table range := by
        rw [unsent_lines, List.filter_cons_of_neg (by simpa using hunsent)]
        rfl
      have hwrite : (fun handle => write_end (write_entries s (idx :: range) table handle)) =
          fun handle => write_end (write_entries s range table handle) := by
        funext handle
        rw [write_entries, if_neg hunsent]
      rw [hlines, hwrite]
      exact ih hnodup table

/-- The line in front of the loop. -/
theorem write_line_entries_prints (s : Session) {range : List Slot} (hnodup : range.Nodup) (table : flow_table_t)
    (line : Line) :
    bismark_passive.Prints (write_line line fun handle => ((write_end (write_entries s range table handle)).1,
        (write_end (write_entries s range table handle)).2.2))
      (some line :: (unsent_lines s table range ++ [some .blank])) :=
  prints_line (write_entries_prints s hnodup table) line

/-- The flow section takes exactly its lines' calls. -/
theorem flow_table_write_update_prints (s : Session) (table : flow_table_t) :
    PrintsTable (flow_table_write_update s table) (flow_table_lines s table) := by
  have hwrite : (fun handle => ((flow_table_write_update s table handle).1,
      (flow_table_write_update s table handle).2.2)) =
      write_line (.flows table.base_timestamp_seconds table.num_elements table.num_expired_flows
        table.num_dropped_flows) fun handle => ((write_end (write_entries s all_slots table handle)).1,
          (write_end (write_entries s all_slots table handle)).2.2) := by
    funext handle
    rw [flow_table_write_update, write_line]
    simp only
    split <;> rfl
  rw [PrintsTable, hwrite, flow_table_lines_eq]
  exact write_line_entries_prints s nodup_all_slots table _

/-! The sections in sequence -/

section sequence

variable {T β : Type} {lines more : List (Option Line)} {P : Prop}

/-- An update gets past a section exactly if its calls pass. -/
theorem write_section_isSome_iff {writer : gzFile → writer_result × gzFile}
    (hprints : bismark_passive.Prints writer lines)
    {next : List Line × gzFile → Option β}
    (hnext : ∀ written handle, (next (written, handle)).isSome ↔
      Passes handle.gzprintf_returns handle.calls more ∧ P) (handle : gzFile) :
    ((write_section writer handle).bind next).isSome ↔
      Passes handle.gzprintf_returns handle.calls (lines ++ more) ∧ P := by
  obtain ⟨hresult, hafter⟩ := hprints handle
  rw [passes_append, write_section]
  by_cases hpasses : Passes handle.gzprintf_returns handle.calls lines
  · obtain ⟨hreturns, hcalls⟩ := hafter hpasses
    rcases hwriter : writer handle with ⟨result, handle'⟩
    rw [hwriter] at hresult hreturns hcalls
    obtain rfl : result = some 0 := hresult.mpr hpasses
    simp only [Option.bind_some, hnext, and_iff_right hpasses]
    rw [← hreturns, ← hcalls]
  · rw [iff_false_right fun h => hpasses h.1.1]
    split
    · rename_i hwriter
      exact absurd (hresult.mp (by rw [hwriter])) hpasses
    · simp

/-- A section is passed exactly if its lines can be composed and none of its calls returns zero. -/
theorem write_table_section_isSome_iff {writer : gzFile → writer_result × T × gzFile}
    (hprints : PrintsTable writer lines) {next : T × List Line × gzFile → Option β}
    (hnext : ∀ table written handle, (next (table, written, handle)).isSome ↔
      Passes handle.gzprintf_returns handle.calls more ∧ P) (handle : gzFile) :
    ((write_table_section writer handle).bind next).isSome ↔
      Passes handle.gzprintf_returns handle.calls (lines ++ more) ∧ P := by
  have hresult : (writer handle).1 = some 0 ↔ Passes handle.gzprintf_returns handle.calls lines :=
    (hprints handle).1
  have hafter : Passes handle.gzprintf_returns handle.calls lines → handle.After lines.length (writer handle).2.2 :=
    (hprints handle).2
  rw [passes_append, write_table_section]
  by_cases hpasses : Passes handle.gzprintf_returns handle.calls lines
  · obtain ⟨hreturns, hcalls⟩ := hafter hpasses
    rcases hwriter : writer handle with ⟨result, table, handle'⟩
    rw [hwriter] at hresult hreturns hcalls
    obtain rfl : result = some 0 := hresult.mpr hpasses
    simp only [Option.bind_some, hnext, and_iff_right hpasses]
    rw [← hreturns, ← hcalls]
  · rw [iff_false_right fun h => hpasses h.1.1]
    split
    · rename_i hwriter
      exact absurd (hresult.mp (by rw [hwriter])) hpasses
    · simp

end sequence

/-- An update is staged, and the process goes on, exactly if the file could be
opened and renamed, every line could be composed, and no call returned zero. -/
theorem write_update_isSome_iff (s : Session) (state : state_t) (io : update_io) :
    (write_update s state io).isSome ↔
      io.opened = true ∧ Passes io.gzprintf_returns 0 (update_lines s state io) ∧ io.renamed = true := by
  rw [write_update, update_io.open_file]
  by_cases hopened : io.opened = true
  · rw [if_pos hopened, and_iff_right hopened]
    refine write_section_isSome_iff (write_header_prints s state io) (fun header handle => ?_) _
    refine write_section_isSome_iff (write_whitelist_prints state) (fun whitelist handle => ?_) _
    refine write_section_isSome_iff (write_anonymization_prints s) (fun anonymization handle => ?_) _
    refine write_section_isSome_iff (packet_series_write_update_prints _) (fun packets handle => ?_) _
    refine write_table_section_isSome_iff (flow_table_write_update_prints s _) (fun flow_table flows handle => ?_) _
    refine write_section_isSome_iff (dns_table_write_update_prints s _) (fun dns handle => ?_) _
    refine write_table_section_isSome_iff (address_table_write_update_prints s _)
      (fun address_table addresses handle => ?_) _
    refine write_section_isSome_iff (drop_statistics_write_update_prints _) (fun drops handle => ?_) _
    rw [← List.append_nil (url_lines s state io)]
    refine write_section_isSome_iff (write_urls_prints s state io) (fun urls handle => ?_) _
    by_cases hrenamed : io.renamed = true <;> simp [passes_nil, hrenamed]
  · rw [if_neg hopened]
    exact iff_of_false Bool.false_ne_true fun h => hopened h.1

/-! What an update notices of its failures -/

/-- Nothing of an update that makes so many calls was lost on the way to the file. -/
def update_io.Complete (io : update_io) (gzclose_returns : Int) (calls : Nat) : Prop :=
  (∀ call < calls, 0 < io.gzprintf_returns call) ∧ gzclose_returns = 0

/-- A call failed, but none in the way that the writers look for. -/
def update_io.FailsUnnoticed (io : update_io) (gzclose_returns : Int) (calls : Nat) : Prop :=
  (∀ call < calls, io.gzprintf_returns call ≠ 0) ∧
    ((∃ call < calls, io.gzprintf_returns call < 0) ∨ gzclose_returns ≠ 0)

/-- If no call returns zero, a file is incomplete exactly if a failure goes unnoticed. -/
theorem update_io.not_complete_iff {io : update_io} {gzclose_returns : Int} {calls : Nat}
    (hnonzero : ∀ call < calls, io.gzprintf_returns call ≠ 0) :
    ¬ io.Complete gzclose_returns calls ↔ io.FailsUnnoticed gzclose_returns calls := by
  unfold update_io.Complete update_io.FailsUnnoticed
  rw [and_iff_right hnonzero, not_and_or, not_forall]
  refine or_congr (exists_congr fun call => ?_) Iff.rfl
  rw [Classical.not_imp, not_lt]
  refine and_congr_right fun hcall => ?_
  exact ⟨fun hle => lt_of_le_of_ne hle (hnonzero call hcall), le_of_lt⟩

/-- An update that is staged by a process that goes on is complete, unless the
one thing that failed is a call with a negative result or the closing of the
file. The result of `gzclose` is not looked at. -/
theorem write_update_publishes_complete_iff (s : Session) (state : state_t) (io : update_io) (gzclose_returns : Int) :
    (∀ state' update, write_update s state io = some (state', update) →
        io.Complete gzclose_returns (update_lines s state io).length) ↔
      ¬ (io.opened = true ∧ io.renamed = true ∧ (∀ line ∈ update_lines s state io, line.isSome) ∧
        io.FailsUnnoticed gzclose_returns (update_lines s state io).length) := by
  have hstaged := write_update_isSome_iff s state io
  simp only [Passes, Nat.zero_add] at hstaged
  constructor
  · rintro hcomplete ⟨hopened, hrenamed, hcomposed, hfails⟩
    have hsome := hstaged.mpr ⟨hopened, ⟨hcomposed, hfails.1⟩, hrenamed⟩
    obtain ⟨⟨state', update⟩, hwrite⟩ := Option.isSome_iff_exists.mp hsome
    exact (update_io.not_complete_iff hfails.1).mpr hfails (hcomplete state' update hwrite)
  · intro hnot state' update hwrite
    obtain ⟨hopened, ⟨hcomposed, hnonzero⟩, hrenamed⟩ := hstaged.mp (by rw [hwrite, Option.isSome_some])
    by_contra hincomplete
    apply hnot
    exact ⟨hopened, hrenamed, hcomposed, (update_io.not_complete_iff hnonzero).mp hincomplete⟩

/-- Everything goes well, but for one call that returns an error code. -/
def failing_io : update_io := { healthy_io 100 with gzprintf_returns := fun call => if call = 1 then -1 else 1 }

/-- The very first update is staged without its second line. -/
theorem write_update_publishes_incomplete :
    ¬ ∀ (s : Session) (state : state_t) (io : update_io) (gzclose_returns : Int) (state' : state_t)
        (update : update_t), write_update s state io = some (state', update) →
        io.Complete gzclose_returns (update_lines s state io).length := by
  intro hcomplete
  obtain ⟨state', update, hwrite⟩ := @write_update_completes initialized_session rfl
    (initial_state initialized_session.target domain_whitelist_init empty_bloom) (healthy_io 100)
    empty_bloom_lookup (healthy_io_healthy 100) rfl rfl
  obtain ⟨-, ⟨hcomposed, -⟩, -⟩ := (write_update_isSome_iff _ _ _).mp (by rw [hwrite, Option.isSome_some])
  have hfails : (write_update initialized_session
      (initial_state initialized_session.target domain_whitelist_init empty_bloom) failing_io).isSome := by
    apply (write_update_isSome_iff _ _ _).mpr
    rw [failing_io, update_lines_gzprintf_returns]
    refine ⟨rfl, ⟨hcomposed, fun call _ => ?_⟩, rfl⟩
    show (if 0 + call = 1 then (-1 : Int) else 1) ≠ 0
    split <;> decide
  obtain ⟨⟨state'', update'⟩, hwrite'⟩ := Option.isSome_iff_exists.mp hfails
  have hcall := (hcomplete _ _ _ 0 _ _ hwrite').1 1 (Nat.lt_of_succ_lt (two_lt_length_update_lines _ _ _))
  exact absurd hcall (by decide)

end bismark_passive.main
