import BismarkPassive.Main.FrequentTotals
import BismarkPassive.Main.Throughput
import BismarkPassive.Main.UpdateRoundTrip

namespace bismark_passive.main

open text machine counting device_throughput

/-! A reader of the frequent update files -/

theorem uint32_of_printed (value : UInt32) : value.toInt32.toUInt32 = value := UInt32.toUInt32_toInt32 value

/-- A number of bytes, which is printed as signed. -/
def bytes_field : Column UInt32 := int32_field.as UInt32.toInt32 Int32.toUInt32 uint32_of_printed

def device_row : Row (word_t × UInt32) := word_field.cons bytes_field.row

/-- What a frequent update file says. -/
structure frequent_update_t where
  current_timestamp : Int
  router : line_t
  devices : List (word_t × UInt32)

def device_record_line (device : word_t × UInt32) : frequent_line := .device device.1 device.2.toInt32

def frequent_update_t.lines (update : frequent_update_t) : List frequent_line :=
  .version FREQUENT_FILE_FORMAT_VERSION :: .timestamp update.current_timestamp :: .router update.router ::
    .length update.devices.length :: (update.devices.map device_record_line ++ [.blank])

/-- The characters that `fprintf` prints for a line. -/
def frequent_line.text (line : frequent_line) : cstring := text.line line.fields

def frequent_update_t.text (update : frequent_update_t) : cstring := update.lines.flatMap frequent_line.text

def timestamp_row : Row Int := decimal_field.row

def length_row : Row Nat := unsigned_field.row

/-- The number of devices is in the file, too. -/
def read_frequent_lines : LineReader frequent_update_t :=
  version_row.format.next >>= fun version => timestamp_row.format.next >>= fun current_timestamp =>
    line_format.next >>= fun router => line_format.paragraph >>= fun more =>
      length_row.format.next >>= fun length => device_row.format.paragraph >>= fun devices =>
        if version = FREQUENT_FILE_FORMAT_VERSION ∧ more.isEmpty = true ∧ devices.length = length then
          pure ⟨current_timestamp, router, devices⟩
        else failure

def read_frequent_update (contents : cstring) : Option frequent_update_t :=
  match read_frequent_lines (contents.splitOn newline) with
  | some (update, [[]]) => some update
  | _ => none

/-- The lines of text that a call prints, which are two for the router. -/
def frequent_line.text_lines : frequent_line → List cstring
  | .router mac => [mac, []]
  | line => [joined line.fields]

theorem frequent_line.text_eq (line : frequent_line) :
    line.text = line.text_lines.flatMap fun text_line => text_line ++ [newline] := by
  cases line <;>
    simp [frequent_line.text, frequent_line.text_lines, frequent_line.fields, text.line, joined, List.intercalate]

/-- The text as the rows the reader expects. -/
theorem frequent_update_t.text_lines_eq (update : frequent_update_t) :
    update.lines.flatMap frequent_line.text_lines =
      [version_row.format.write FREQUENT_FILE_FORMAT_VERSION] ++
        ([timestamp_row.format.write update.current_timestamp] ++
          ([line_format.write update.router] ++
            ([[]] ++
              ([length_row.format.write update.devices.length] ++
                (update.devices.map device_row.format.write ++ [[]]))))) := by
  have hdevices : (update.devices.map device_record_line).flatMap frequent_line.text_lines =
      update.devices.map device_row.format.write := by
    rw [List.flatMap_map, List.map_eq_flatMap]
    rfl
  simp only [frequent_update_t.lines, List.flatMap_cons, List.flatMap_append, hdevices]
  rfl

/-- Every frequent update file is read back. -/
theorem read_frequent_text (update : frequent_update_t) : read_frequent_update update.text = some update := by
  have hunbroken : ∀ text_line ∈ update.lines.flatMap frequent_line.text_lines, newline ∉ text_line := by
    simp only [frequent_update_t.text_lines_eq, List.forall_mem_append, List.forall_mem_singleton, List.forall_mem_map]
    exact ⟨version_row.format.newline_not_mem _, timestamp_row.format.newline_not_mem _,
      line_format.newline_not_mem _, List.not_mem_nil, length_row.format.newline_not_mem _,
      fun device _ => device_row.format.newline_not_mem device, List.not_mem_nil⟩
  have hversion := version_row.format.next_reads FREQUENT_FILE_FORMAT_VERSION
  have htimestamp := timestamp_row.format.next_reads update.current_timestamp
  have hrouter := line_format.next_reads update.router
  have hempty := line_format.paragraph_reads (List.forall_mem_nil _)
  have hlength := length_row.format.next_reads update.devices.length
  have hdevices := device_row.format.paragraph_reads fun device (_ : device ∈ update.devices) =>
    word_field.cons_write_ne_nil bytes_field.row device
  have hread : read_frequent_lines (update.lines.flatMap frequent_line.text_lines ++ [[]]) = some (update, [[]]) := by
    simp only [update.text_lines_eq, List.append_assoc]
    rw [read_frequent_lines, hversion.run_bind, htimestamp.run_bind, hrouter.run_bind]
    change (line_format.paragraph >>= _) (List.map line_format.write [] ++ [[]] ++ _) = _
    rw [hempty.run_bind, hlength.run_bind, ← List.append_assoc, hdevices.run_bind, if_pos ⟨rfl, rfl, rfl⟩]
    rfl
  rw [read_frequent_update, frequent_update_t.text, splitOn_printed frequent_line.text_eq hunbroken, hread]

/-! The files of a run -/

/-- The frames since the last frequent update. -/
def frames_since (frames : List frame_t) : List (program_event × Unit) → List frame_t
  | [] => frames
  | (.process_packet frame, _) :: trace => frames_since (frames ++ [frame]) trace
  | (.write_update _, _) :: trace => frames_since frames trace
  | (.write_frequent_update _, _) :: trace => frames_since [] trace

/-- The frames since the last update, over two parts of a run. -/
theorem frames_since_append (frames : List frame_t) (first second : List (program_event × Unit)) :
    frames_since frames (first ++ second) = frames_since (frames_since frames first) second := by
  induction first generalizing frames with
  | nil => rfl
  | cons step first ih =>
    obtain ⟨event, _⟩ := step
    cases event with
    | process_packet frame => exact ih (frames ++ [frame])
    | write_update io => exact ih frames
    | write_frequent_update io => exact ih []

variable {s : Session} {bismark_mac : mac_address_t} {domain_whitelist : domain_whitelist_t}
  {bloom_whitelist : bloom_whitelist_t} {trace : List (program_event × Unit)} {state state' : state_t}

/-- The throughput table is that of the frames since the last frequent update. -/
theorem program_run_throughput
    (run : Execution (program_step s bismark_mac) (initial_state s.target domain_whitelist bloom_whitelist) trace
      state) :
    state.device_throughput_table =
      (dissect_all s.target (address_table.address_table_init, device_throughput_table_init)
        (frames_since [] trace)).2 := by
  refine run.invariant (fun trace state => state.device_throughput_table =
    (dissect_all s.target (address_table.address_table_init, device_throughput_table_init) (frames_since [] trace)).2)
    rfl ?_
  intro trace state event state' _ run h hstep
  rw [frames_since_append]
  cases event with
  | process_packet frame =>
    obtain ⟨⟨_, locals⟩, hprocess, heq⟩ := Option.map_eq_some_iff.mp hstep
    obtain ⟨rfl, -⟩ := Prod.mk.inj heq
    have hdissected := congrArg Prod.snd (process_packet_dissects hprocess)
    have hframe := dissect_all_snoc s.target (state.address_table, state.device_throughput_table) [] frame
    refine (hdissected.trans hframe).trans ?_
    rw [frames_since, frames_since, dissect_all_snoc, ← h]
    rfl
  | write_update io =>
    obtain ⟨⟨_, update⟩, hwrite, heq⟩ := Option.map_eq_some_iff.mp hstep
    obtain ⟨rfl, -⟩ := Prod.mk.inj heq
    obtain ⟨-, -, -, -, -, -, -, -, -, -, _, _, -, -, -, -, -, -, -, -, -, -, -, rfl⟩ :=
      write_update_eq_some_iff.mp hwrite
    exact h
  | write_frequent_update io =>
    obtain ⟨-, hwrite⟩ := Option.ite_none_right_eq_some.mp hstep
    obtain ⟨_, hwritten, heq⟩ := Option.map_eq_some_iff.mp hwrite
    obtain ⟨rfl, -⟩ := Prod.mk.inj heq
    obtain ⟨-, hreset⟩ := Option.ite_none_right_eq_some.mp hwritten
    obtain rfl := Option.some.inj hreset
    rfl

theorem prints_frequent_isSome {fprintf_returns : Nat → Int} {call : Nat} {lines : List (Option frequent_line)}
    (h : prints_frequent fprintf_returns call lines = true) : ∀ line ∈ lines, line.isSome := by
  induction lines generalizing call with
  | nil => exact List.forall_mem_nil _
  | cons line lines ih =>
    rw [prints_frequent, Bool.and_eq_true, Bool.and_eq_true] at h
    exact List.forall_mem_cons.mpr ⟨h.1.1, ih h.2⟩

theorem shown_mac_word {mac_address : mac_address_t} {shown : cstring} (h : shown_mac s mac_address = some shown) :
    Unspaced shown := by
  unfold shown_mac at h
  split at h
  · exact buffer_to_hex_word h
  · obtain ⟨digest_mac, -, hhex⟩ := Option.bind_eq_some_iff.mp h
    exact buffer_to_hex_word hhex

/-- What is printed of the devices, if all of them can be shown. -/
theorem exists_devices {entries : List device_throughput_table_entry_t} {P : device_throughput_table_entry_t → Prop}
    (h : ∀ line ∈ entries.map (device_line s), line.isSome) (hentries : ∀ entry ∈ entries, P entry) :
    ∃ devices : List (word_t × UInt32),
      entries.map (device_line s) = (devices.map device_record_line).map some ∧
      List.Forall₂ (fun entry device => shown_mac s entry.mac_address = some device.1.val ∧
        device.2 = entry.bytes_transferred ∧ P entry) entries devices := by
  induction entries with
  | nil => exact ⟨[], rfl, .nil⟩
  | cons entry entries ih =>
    obtain ⟨hfirst, hrest⟩ := List.forall_mem_cons.mp h
    obtain ⟨hentry, hentries⟩ := List.forall_mem_cons.mp hentries
    obtain ⟨devices, hlines, hdevices⟩ := ih hrest hentries
    rw [device_line_eq, Option.isSome_map] at hfirst
    obtain ⟨shown, hshown⟩ := Option.isSome_iff_exists.mp hfirst
    refine ⟨(⟨shown, shown_mac_word hshown⟩, entry.bytes_transferred) :: devices, ?_,
      .cons ⟨hshown, rfl, hentry⟩ hdevices⟩
    rw [List.map_cons, hlines, device_line_eq, hshown]
    rfl

/-- What a registered device is credited with, and what it is not. -/
theorem registered_bytes {frames : List frame_t} {table : device_throughput_table_t}
    (hregisters : Registers table (devices_seen frames) (frames.flatMap (recorded_bytes (devices_registered frames))))
    {entry : device_throughput_table_entry_t} (hentry : entry ∈ table.entries) :
    entry.bytes_transferred + .ofNat (bytes_received (unregistered_frames frames) entry.mac_address) =
      .ofNat (bytes_sent frames entry.mac_address + bytes_received frames entry.mac_address) := by
  have hregistered : entry.mac_address ∈ devices_registered frames := by
    rw [devices_registered, ← hregisters.devices]
    exact List.mem_map_of_mem hentry
  rw [hregisters.bytes_transferred entry hentry, ← amount_recorded_bytes _ hregistered frames, unregistered_frames,
    UInt32.ofNat_add]

/-- What a frequent update file of a run says is what it is read as: the time,
the router, and each device that got an entry since the last such file with its
bytes, which are those that it sent and received, modulo 2^32, up to what
devices without an entry sent to it. -/
theorem frequent_files_read_back (hupdates : s.target.enable_frequent_updates = true)
    (run : Execution (program_step s bismark_mac) (initial_state s.target domain_whitelist bloom_whitelist) trace
      state) {io : frequent_io} (hwrite : write_frequent_update s bismark_mac state io = some state') :
    ∃ update : frequent_update_t,
      frequent_update_lines s bismark_mac state io = update.lines.map some ∧
      read_frequent_update update.text = some update ∧
      update.current_timestamp = io.current_timestamp ∧ buffer_to_hex bismark_mac.toList = some update.router.val ∧
      List.Forall₂ (fun mac_address device => shown_mac s mac_address = some device.1.val ∧
          device.2 + .ofNat (bytes_received (unregistered_frames (frames_since [] trace)) mac_address) =
            .ofNat (bytes_sent (frames_since [] trace) mac_address +
              bytes_received (frames_since [] trace) mac_address))
        (devices_registered (frames_since [] trace)) update.devices := by
  obtain ⟨hprints, -⟩ := Option.ite_none_right_eq_some.mp hwrite
  rw [Bool.and_eq_true, Bool.and_eq_true] at hprints
  have hcomposed := prints_frequent_isSome hprints.1.2
  rw [frequent_update_lines, device_throughput_lines] at hcomposed
  simp only [List.forall_mem_cons, List.forall_mem_append] at hcomposed
  obtain ⟨-, -, hrouter, -, hdevices, -⟩ := hcomposed
  rw [Option.isSome_map] at hrouter
  obtain ⟨router, hrouter⟩ := Option.isSome_iff_exists.mp hrouter
  have hregisters := dissect_all_registers hupdates address_table.address_table_init (frames_since [] trace)
  rw [← program_run_throughput run] at hregisters
  obtain ⟨devices, hlines, hshown⟩ := exists_devices hdevices fun entry hentry => registered_bytes hregisters hentry
  refine ⟨⟨io.current_timestamp, ⟨router, (buffer_to_hex_word hrouter).2⟩, devices⟩, ?_, read_frequent_text _, rfl,
    hrouter, ?_⟩
  · have hlength : state.device_throughput_table.entries.length = devices.length := hshown.length_eq
    rw [frequent_update_lines, device_throughput_lines, hrouter, hlines, hlength, frequent_update_t.lines]
    simp
  · rw [devices_registered, ← hregisters.devices, List.forall₂_map_left_iff]
    refine hshown.imp fun entry device h => ⟨h.1, ?_⟩
    rw [h.2.1]
    exact h.2.2

def frequent_session : Session :=
  { anonymizing_session with target := { frequent_target with disable_anonymization := false } }

def healthy_frequent_io : frequent_io where
  opened := true
  fprintf_returns _ := 1
  current_timestamp := 100
  renamed := true

def router : mac_address_t := Vector.replicate ETH_ALEN 1

theorem frequent_session_writes :
    ((process_packet frequent_session (initial_state frequent_session.target domain_whitelist_init empty_bloom)
      (throughput_frame 1 2 100)).bind fun result =>
        write_frequent_update frequent_session router result.1 healthy_frequent_io).isSome := by
  decide +kernel

/-- One device sends a frame to another one. -/
theorem frequent_files_read_back_two_devices :
    ∃ state state' update,
      Execution (program_step frequent_session router)
        (initial_state frequent_session.target domain_whitelist_init empty_bloom)
        [(.process_packet (throughput_frame 1 2 100), ())] state ∧
      write_frequent_update frequent_session router state healthy_frequent_io = some state' ∧
      read_frequent_update update.text = some update ∧ update.devices.map Prod.snd = [100, 100] := by
  obtain ⟨state', hwrites⟩ := Option.isSome_iff_exists.mp frequent_session_writes
  obtain ⟨⟨state, locals⟩, hprocess, hwrite⟩ := Option.bind_eq_some_iff.mp hwrites
  have hstep : program_step frequent_session router
      (initial_state frequent_session.target domain_whitelist_init empty_bloom)
      (.process_packet (throughput_frame 1 2 100)) = some (state, ()) := by
    rw [program_step, hprocess]
    rfl
  have run := Execution.nil.snoc hstep
  obtain ⟨update, -, hread, -, -, hdevices⟩ := frequent_files_read_back rfl run hwrite
  have hframes : frames_since [] ([] ++ [(program_event.process_packet (throughput_frame 1 2 100), ())]) =
      [throughput_frame 1 2 100] := rfl
  have hregistered : devices_registered [throughput_frame 1 2 100] =
      [(throughput_frame 1 2 100).ether_shost, (throughput_frame 1 2 100).ether_dhost] := by decide
  have hmissed : unregistered_frames [throughput_frame 1 2 100] = [] := by decide
  have hsource : bytes_sent [throughput_frame 1 2 100] (throughput_frame 1 2 100).ether_shost +
      bytes_received [throughput_frame 1 2 100] (throughput_frame 1 2 100).ether_shost = 100 := by decide
  have hdestination : bytes_sent [throughput_frame 1 2 100] (throughput_frame 1 2 100).ether_dhost +
      bytes_received [throughput_frame 1 2 100] (throughput_frame 1 2 100).ether_dhost = 100 := by decide
  rw [hframes, hregistered, hmissed] at hdevices
  refine ⟨state, state', update, run, hwrite, hread, ?_⟩
  generalize update.devices = devices at hdevices
  have hnothing (bytes_transferred : UInt32) (mac_address : mac_address_t) :
      bytes_transferred + .ofNat (bytes_received [] mac_address) = bytes_transferred := UInt32.add_zero _
  cases hdevices with
  | cons hfirst hrest =>
    cases hrest with
    | cons hsecond hnone =>
      cases hnone
      rw [hsource, hnothing] at hfirst
      rw [hdestination, hnothing] at hsecond
      rw [List.map_cons, List.map_cons, List.map_nil, hfirst.2, hsecond.2]
      rfl

end bismark_passive.main
