import BismarkPassive.Target

namespace bismark_passive

/-- The arguments of one `gzprintf` call, one constructor for each format. -/
inductive Line where
  | version (file_format_version : Nat) (build_id : cstring)
  | session (bismark_id : cstring) (start_timestamp_microseconds : Int64) (sequence_number : Int)
      (current_timestamp : Int)
  | pcap_statistics (ps_recv ps_drop ps_ifdrop : UInt32)
  | blank
  | domain (domain : cstring)
  | seed (seed_hex_digest : cstring)
  | unanonymized
  | packets (start_time_microseconds : Int64) (discarded_by_overflow : UInt32)
  | packet (timestamp : Int32) (size : UInt16) (flow_id : Int)
  | flows (base_timestamp_seconds : Int) (num_elements : UInt32) (num_expired_flows num_dropped_flows : Int)
  | flow (id : Nat) (source_anonymized : Bool) (source_digest : UInt64)
      (destination_anonymized : Bool) (destination_digest : UInt64)
      (transport_protocol : UInt8) (port_source port_destination : UInt16)
  | dns (num_dropped_a_entries num_dropped_cname_entries : Int)
  | a (packet_id : UInt16) (mac_id : UInt8) (domain_anonymized : Bool) (domain : cstring)
      (address_digest : UInt64) (ttl : Int32)
  | cname (packet_id : UInt16) (mac_id : UInt8) (domain_anonymized : Bool) (domain : cstring)
      (cname_anonymized : Bool) (cname : cstring) (ttl : Int32)
  | addresses (first : Int) (size : Nat)
  | address (mac : cstring) (ip : UInt64)
  | drop (size : Nat) (count : UInt32)
  | urls (num_dropped_url_entries : Int)
  | url (flow_id : UInt16) (url : cstring)
  deriving DecidableEq

/-- An open update file: what each further `gzprintf` call returns, and the
lines of the calls that succeeded. -/
structure gzFile where
  gzprintf_returns : Nat → Int
  calls : Nat
  written : List Line

def gzprintf (handle : gzFile) (line : Line) : Int × gzFile :=
  let returned := handle.gzprintf_returns handle.calls
  (returned, { handle with
    calls := handle.calls + 1
    written := if 0 < returned then handle.written ++ [line] else handle.written })

/-- No further call on the file fails. -/
def gzFile.Healthy (handle : gzFile) : Prop :=
  ∀ call, handle.calls ≤ call → 0 < handle.gzprintf_returns call

/-- The file after successful calls that printed these lines. -/
def gzFile.append (handle : gzFile) (lines : List Line) : gzFile :=
  { handle with calls := handle.calls + lines.length, written := handle.written ++ lines }

@[simp] theorem gzFile.append_nil (handle : gzFile) : handle.append [] = handle := by
  simp [gzFile.append]

@[simp] theorem gzFile.append_append (handle : gzFile) (first second : List Line) :
    (handle.append first).append second = handle.append (first ++ second) := by
  simp [gzFile.append, Nat.add_assoc]

@[simp] theorem gzFile.append_written (handle : gzFile) (lines : List Line) :
    (handle.append lines).written = handle.written ++ lines := rfl

theorem gzFile.Healthy.append {handle : gzFile} (h : handle.Healthy) (lines : List Line) :
    (handle.append lines).Healthy :=
  fun call hcall => h call (le_trans (Nat.le_add_right _ _) hcall)

theorem gzprintf_healthy {handle : gzFile} (h : handle.Healthy) (line : Line) :
    (gzprintf handle line).1 ≠ 0 ∧ (gzprintf handle line).2 = handle.append [line] := by
  have hpositive : 0 < handle.gzprintf_returns handle.calls := h _ (le_refl _)
  refine ⟨ne_of_gt hpositive, ?_⟩
  simp [gzprintf, gzFile.append, hpositive]

/-- How a writer ends: it returns, or the process dies inside it. -/
abbrev writer_result := Option Int

/-- `if (!gzprintf(handle, line)) return -1;` followed by the rest. -/
def write_line (line : Line) (rest : gzFile → writer_result × gzFile) (handle : gzFile) :
    writer_result × gzFile :=
  let (returned, handle) := gzprintf handle line
  if returned = 0 then (some (-1), handle) else rest handle

theorem write_line_healthy {handle : gzFile} (h : handle.Healthy) (line : Line)
    (rest : gzFile → writer_result × gzFile) :
    write_line line rest handle = rest (handle.append [line]) := by
  obtain ⟨hreturned, hhandle⟩ := gzprintf_healthy h line
  simp [write_line, hreturned, hhandle]

/-- Prints the lines one by one. A line that is `none` cannot be composed, and
the process dies when its turn comes. -/
def write_lines (rest : gzFile → writer_result × gzFile) : List (Option Line) → gzFile → writer_result × gzFile
  | [], handle => rest handle
  | some line :: lines, handle => write_line line (write_lines rest lines) handle
  | none :: _, handle => (none, handle)

/-- The last line of a section. -/
def write_blank : gzFile → writer_result × gzFile := write_line .blank fun handle => (some 0, handle)

/-- A healthy file takes every line. -/
theorem write_lines_healthy {handle : gzFile} (h : handle.Healthy) (rest : gzFile → writer_result × gzFile)
    (lines : List Line) :
    write_lines rest (lines.map some) handle = rest (handle.append lines) := by
  induction lines generalizing handle with
  | nil => simp [write_lines]
  | cons line lines ih =>
    rw [List.map_cons, write_lines, write_line_healthy h, ih (h.append [line]), gzFile.append_append,
      List.singleton_append]

/-- If each line can be composed, all of them can. -/
theorem exists_map_some {lines : List (Option Line)} (h : ∀ line ∈ lines, line.isSome) :
    ∃ composed : List Line, lines = composed.map some := by
  induction lines with
  | nil => exact ⟨[], rfl⟩
  | cons line lines ih =>
    obtain ⟨hline, hlines⟩ := List.forall_mem_cons.mp h
    obtain ⟨line, rfl⟩ := Option.isSome_iff_exists.mp hline
    obtain ⟨composed, rfl⟩ := ih hlines
    exact ⟨line :: composed, rfl⟩

/-- Printing that survives a healthy file has composed every line. -/
theorem write_lines_composed {handle : gzFile} (h : handle.Healthy) {rest : gzFile → writer_result × gzFile}
    {lines : List (Option Line)} {result : Int} (hwrite : (write_lines rest lines handle).1 = some result) :
    ∃ composed : List Line, lines = composed.map some := by
  induction lines generalizing handle with
  | nil => exact ⟨[], rfl⟩
  | cons line lines ih =>
    cases line with
    | none => simp [write_lines] at hwrite
    | some line =>
      rw [write_lines, write_line_healthy h] at hwrite
      obtain ⟨composed, hcomposed⟩ := ih (h.append [line]) hwrite
      exact ⟨line :: composed, by rw [hcomposed, List.map_cons]⟩

theorem write_blank_healthy {handle : gzFile} (h : handle.Healthy) :
    write_blank handle = (some 0, handle.append [.blank]) := by
  rw [write_blank, write_line_healthy h]

/-- On a file that takes every line the writer returns zero and has only added
lines. -/
def Completes (writer : gzFile → writer_result × gzFile) : Prop :=
  ∀ handle, handle.Healthy → ∃ lines, writer handle = (some 0, handle.append lines)

theorem completes_at_once : Completes fun handle => (some 0, handle) :=
  fun handle _ => ⟨[], by rw [gzFile.append_nil]⟩

theorem write_line_completes (line : Line) {rest : gzFile → writer_result × gzFile} (hrest : Completes rest) :
    Completes (write_line line rest) := by
  intro handle hhandle
  obtain ⟨lines, hlines⟩ := hrest _ (hhandle.append [line])
  exact ⟨line :: lines, by rw [write_line_healthy hhandle, hlines, gzFile.append_append, List.singleton_append]⟩

theorem write_blank_completes : Completes write_blank := write_line_completes _ completes_at_once

/-- Printing them completes if what follows does. -/
theorem write_lines_completes {rest : gzFile → writer_result × gzFile} (hrest : Completes rest)
    {lines : List (Option Line)} (hcomposed : ∀ line ∈ lines, line.isSome) : Completes (write_lines rest lines) := by
  induction lines with
  | nil => exact hrest
  | cons line lines ih =>
    obtain ⟨hline, hlines⟩ := List.forall_mem_cons.mp hcomposed
    obtain ⟨line, rfl⟩ := Option.isSome_iff_exists.mp hline
    exact write_line_completes line (ih hlines)

end bismark_passive
