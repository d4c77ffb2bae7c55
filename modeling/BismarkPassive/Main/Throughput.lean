import BismarkPassive.DeviceThroughput.Totals
import BismarkPassive.Main.Dissection
import BismarkPassive.Main.Steps
import BismarkPassive.Reference

namespace bismark_passive.main

open bytes counting address_table device_throughput

/-- The address table and the throughput table after these frames. -/
def dissect_all (target : Target) (tables : address_table_t × device_throughput_table_t) (frames : List frame_t) :
    address_table_t × device_throughput_table_t :=
  frames.foldl (fun tables frame =>
    ((get_flow_entry_for_packet target frame.caplen.toInt32.toInt frame.len tables.1 tables.2).run
      frame.memory).2.2) tables

/-- The devices in the order in which frames name them. -/
def devices_seen (frames : List frame_t) : List mac_address_t :=
  frames.flatMap fun frame => [frame.ether_shost, frame.ether_dhost]

/-- The devices for which the throughput table has room. -/
def devices_registered (frames : List frame_t) : List mac_address_t :=
  first_keys DEVICE_THROUGHPUT_TABLE_SIZE (devices_seen frames)

def bytes_sent (frames : List frame_t) (mac_address : mac_address_t) : Nat :=
  amount (frames.map fun frame => (frame.ether_shost, frame.len.toNat)) mac_address

def bytes_received (frames : List frame_t) (mac_address : mac_address_t) : Nat :=
  amount (frames.map fun frame => (frame.ether_dhost, frame.len.toNat)) mac_address

/-- The frames whose source has no room in the table. -/
def unregistered_frames (frames : List frame_t) : List frame_t :=
  frames.filter fun frame => frame.ether_shost ∉ devices_registered frames

/-- What is recorded of a frame: nothing at all if its source is refused. -/
def recorded_bytes (registered : List mac_address_t) (frame : frame_t) : List (mac_address_t × Nat) :=
  if frame.ether_shost ∈ registered then
    (frame.ether_shost, frame.len.toNat) ::
      if frame.ether_dhost ∈ registered then [(frame.ether_dhost, frame.len.toNat)] else []
  else []

/-- The devices' bytes are counted whatever the frame carries. -/
theorem run_get_flow_entry_for_packet_throughput (target : Target) (frame : frame_t) (table : address_table_t)
    (device_throughput_table : device_throughput_table_t) :
    ((get_flow_entry_for_packet target frame.caplen.toInt32.toInt frame.len table
      device_throughput_table).run frame.memory).2.2.2 =
      record_throughput target device_throughput_table frame.ether_shost frame.ether_dhost frame.len := by
  simp only [get_flow_entry_for_packet, Reader.run_bind]
  split
  · rw [Reader.run_bind]
    rfl
  · rfl

/-- What a packet does to the two tables is what dissecting its frame does. -/
theorem process_packet_dissects {s : Session} {state state' : state_t} {frame : frame_t} {locals : packet_locals}
    (h : process_packet s state frame = some (state', locals)) :
    (state'.address_table, state'.device_throughput_table) =
      dissect_all s.target (state.address_table, state.device_throughput_table) [frame] := by
  have hfound := (process_packet_spec h).found
  rw [dissect_all, List.foldl_cons, List.foldl_nil, hfound]

theorem dissect_all_snoc (target : Target) (tables : address_table_t × device_throughput_table_t)
    (frames : List frame_t) (frame : frame_t) :
    (dissect_all target tables (frames ++ [frame])).2 =
      record_throughput target (dissect_all target tables frames).2 frame.ether_shost frame.ether_dhost frame.len := by
  rw [dissect_all, List.foldl_append, List.foldl_cons, List.foldl_nil, run_get_flow_entry_for_packet_throughput,
    dissect_all]

theorem devices_seen_snoc (frames : List frame_t) (frame : frame_t) :
    devices_seen (frames ++ [frame]) = devices_seen frames ++ [frame.ether_shost] ++ [frame.ether_dhost] := by
  rw [devices_seen, List.flatMap_append, List.flatMap_singleton, devices_seen, List.append_assoc]
  rfl

theorem mem_devices_seen {frames : List frame_t} {frame : frame_t} (h : frame ∈ frames) :
    frame.ether_shost ∈ devices_seen frames ∧ frame.ether_dhost ∈ devices_seen frames :=
  ⟨List.mem_flatMap.mpr ⟨frame, h, by simp⟩, List.mem_flatMap.mpr ⟨frame, h, by simp⟩⟩

/-- One frame: the second call is made only if the first one succeeds. -/
theorem record_throughput_registers {target : Target} (hupdates : target.enable_frequent_updates = true)
    {table : device_throughput_table_t} {frames : List frame_t} {recorded : List (mac_address_t × Nat)}
    (h : Registers table (devices_seen frames) recorded) (frame : frame_t) :
    Registers (record_throughput target table frame.ether_shost frame.ether_dhost frame.len)
      (devices_seen (frames ++ [frame]))
      (recorded ++ recorded_bytes (devices_registered (frames ++ [frame])) frame) := by
  rw [record_throughput, if_pos hupdates, devices_registered, devices_seen_snoc, recorded_bytes]
  have hshost : frame.ether_shost ∈ first_keys DEVICE_THROUGHPUT_TABLE_SIZE
      (devices_seen frames ++ [frame.ether_shost] ++ [frame.ether_dhost]) ↔
      frame.ether_shost ∈ first_keys DEVICE_THROUGHPUT_TABLE_SIZE (devices_seen frames ++ [frame.ether_shost]) :=
    mem_first_keys_append (List.mem_append_right _ (List.mem_singleton_self _))
  by_cases hsource : frame.ether_shost ∈
      first_keys DEVICE_THROUGHPUT_TABLE_SIZE (devices_seen frames ++ [frame.ether_shost])
  · obtain ⟨hzero, hrecorded⟩ := h.record frame.ether_shost frame.len hsource
    rw [if_pos (hshost.mpr hsource)]
    simp only [if_pos hzero]
    by_cases hdestination : frame.ether_dhost ∈ first_keys DEVICE_THROUGHPUT_TABLE_SIZE
        (devices_seen frames ++ [frame.ether_shost] ++ [frame.ether_dhost])
    · obtain ⟨-, hboth⟩ := hrecorded.record frame.ether_dhost frame.len hdestination
      rw [if_pos hdestination]
      rwa [List.append_assoc recorded] at hboth
    · obtain ⟨hrefused, hfull⟩ := hrecorded.refuse frame.ether_dhost frame.len hdestination
      rw [if_neg hdestination, hrefused]
      exact hrecorded.see hfull frame.ether_dhost
  · obtain ⟨hrefused, hfull⟩ := h.refuse frame.ether_shost frame.len hsource
    have hunregistered : frame.ether_shost ∉ first_keys DEVICE_THROUGHPUT_TABLE_SIZE
        (devices_seen frames ++ [frame.ether_shost] ++ [frame.ether_dhost]) := fun hmem => hsource (hshost.mp hmem)
    rw [if_neg hunregistered, List.append_nil, hrefused]
    simp only [if_neg (show ¬(-1 : Int) = 0 by decide)]
    have hseen := h.see hfull frame.ether_shost
    refine hseen.see ?_ frame.ether_dhost
    rwa [first_keys_snoc_full hfull]

/-- All frames since the initialisation. -/
theorem dissect_all_registers {target : Target} (hupdates : target.enable_frequent_updates = true)
    (address_table : address_table_t) (frames : List frame_t) :
    Registers (dissect_all target (address_table, device_throughput_table_init) frames).2 (devices_seen frames)
      (frames.flatMap (recorded_bytes (devices_registered frames))) := by
  induction frames using List.reverseRecOn with
  | nil => exact device_throughput_table_init_registers
  | append_singleton frames frame ih =>
    -- Whether the devices of the earlier frames are registered has not changed.
    have hearlier : frames.flatMap (recorded_bytes (devices_registered (frames ++ [frame]))) =
        frames.flatMap (recorded_bytes (devices_registered frames)) := by
      refine List.flatMap_congr fun earlier hmem => ?_
      obtain ⟨hshost, hdhost⟩ := mem_devices_seen hmem
      unfold recorded_bytes devices_registered
      rw [devices_seen_snoc, List.append_assoc]
      simp only [mem_first_keys_append hshost, mem_first_keys_append hdhost]
    rw [dissect_all_snoc, List.flatMap_append, List.flatMap_singleton, hearlier]
    exact record_throughput_registers hupdates ih frame

theorem amount_map_cons (key : frame_t → mac_address_t) (frame : frame_t) (frames : List frame_t)
    (mac_address : mac_address_t) :
    amount ((frame :: frames).map fun frame => (key frame, frame.len.toNat)) mac_address =
      (if key frame = mac_address then frame.len.toNat else 0) +
        amount (frames.map fun frame => (key frame, frame.len.toNat)) mac_address := by
  rw [List.map_cons, ← List.singleton_append, amount_append, amount_singleton]

/-- A frame of a registered source is recorded for both ends, of which a
registered device keeps its own. -/
theorem amount_recorded_bytes_of_source {registered : List mac_address_t} {mac_address : mac_address_t}
    (hregistered : mac_address ∈ registered) {frame : frame_t} (hsource : frame.ether_shost ∈ registered) :
    amount (recorded_bytes registered frame) mac_address =
      (if frame.ether_shost = mac_address then frame.len.toNat else 0) +
        if frame.ether_dhost = mac_address then frame.len.toNat else 0 := by
  rw [recorded_bytes, if_pos hsource, ← List.singleton_append, amount_append, amount_singleton]
  by_cases hdestination : frame.ether_dhost ∈ registered
  · rw [if_pos hdestination, amount_singleton]
  · have hother : frame.ether_dhost ≠ mac_address := by
      rintro rfl
      exact hdestination hregistered
    rw [if_neg hdestination, amount_nil, if_neg hother]

/-- What the table misses of a registered device's bytes it received from
devices without room in the table. -/
theorem amount_recorded_bytes (registered : List mac_address_t) {mac_address : mac_address_t}
    (hregistered : mac_address ∈ registered) (frames : List frame_t) :
    amount (frames.flatMap (recorded_bytes registered)) mac_address +
        bytes_received (frames.filter fun frame => frame.ether_shost ∉ registered) mac_address =
      bytes_sent frames mac_address + bytes_received frames mac_address := by
  induction frames with
  | nil => rfl
  | cons frame frames ih =>
    have hsent := amount_map_cons frame_t.ether_shost frame frames mac_address
    have hreceived := amount_map_cons frame_t.ether_dhost frame
    simp only [bytes_sent, bytes_received] at ih ⊢
    rw [hsent, hreceived, List.flatMap_cons, amount_append]
    by_cases hsource : frame.ether_shost ∈ registered
    · have hkept : (frame :: frames).filter (fun frame => decide (frame.ether_shost ∉ registered)) =
          frames.filter fun frame => frame.ether_shost ∉ registered := by simp [hsource]
      rw [hkept, amount_recorded_bytes_of_source hregistered hsource]
      omega
    · have hskipped : (frame :: frames).filter (fun frame => decide (frame.ether_shost ∉ registered)) =
          frame :: frames.filter fun frame => frame.ether_shost ∉ registered := by simp [hsource]
      have hother : frame.ether_shost ≠ mac_address := by
        rintro rfl
        exact hsource hregistered
      rw [hskipped, hreceived, recorded_bytes, if_neg hsource, amount_nil, if_neg hother]
      omega

theorem ofNat_add_eq_iff (recorded missed : Nat) :
    UInt32.ofNat recorded = .ofNat (recorded + missed) ↔ 2 ^ 32 ∣ missed := by
  rw [← UInt32.toNat_inj, UInt32.toNat_ofNat', UInt32.toNat_ofNat']
  omega

/-- The throughput table accounts for all bytes of its devices, modulo 2^32,
exactly if what each of them received from devices without room in the table
is nothing, modulo 2^32. -/
theorem throughput_complete_iff {target : Target} (hupdates : target.enable_frequent_updates = true)
    (address_table : address_table_t) (frames : List frame_t) :
    (∀ entry ∈ (dissect_all target (address_table, device_throughput_table_init) frames).2.entries,
      entry.bytes_transferred =
        .ofNat (bytes_sent frames entry.mac_address + bytes_received frames entry.mac_address)) ↔
      ∀ mac_address ∈ devices_registered frames,
        2 ^ 32 ∣ bytes_received (unregistered_frames frames) mac_address := by
  have hregisters := dissect_all_registers hupdates address_table frames
  have hentry (entry : device_throughput_table_entry_t)
      (hmem : entry ∈ (dissect_all target (address_table, device_throughput_table_init) frames).2.entries) :
      entry.mac_address ∈ devices_registered frames ∧
        (entry.bytes_transferred =
            .ofNat (bytes_sent frames entry.mac_address + bytes_received frames entry.mac_address) ↔
          2 ^ 32 ∣ bytes_received (unregistered_frames frames) entry.mac_address) := by
    have hregistered : entry.mac_address ∈ devices_registered frames := by
      rw [devices_registered, ← hregisters.devices]
      exact List.mem_map_of_mem hmem
    refine ⟨hregistered, ?_⟩
    rw [hregisters.bytes_transferred entry hmem, ← amount_recorded_bytes _ hregistered frames, ofNat_add_eq_iff,
      unregistered_frames]
  constructor
  · intro hcomplete mac_address hmac_address
    rw [devices_registered, ← hregisters.devices] at hmac_address
    obtain ⟨entry, hmem, rfl⟩ := List.mem_map.mp hmac_address
    exact (hentry entry hmem).2.mp (hcomplete entry hmem)
  · intro hnothing entry hmem
    obtain ⟨hregistered, hiff⟩ := hentry entry hmem
    exact hiff.mpr (hnothing entry.mac_address hregistered)

/-- The reference build with frequent updates. -/
def frequent_target : Target := { reference_target with enable_frequent_updates := true }

/-- A frame of no known protocol from one device to another one. -/
def throughput_frame (source destination : UInt8) (len : UInt32) : frame_t where
  ts := ⟨0, 0⟩
  caplen := 14
  len := len
  bytes := [destination, 0, 0, 0, 0, 0, source, 0, 0, 0, 0, 0, 0, 0]

/-- Two devices exchange frames. -/
theorem throughput_complete_two_devices :
    (dissect_all frequent_target (address_table_init, device_throughput_table_init)
      [throughput_frame 1 2 100, throughput_frame 2 1 60]).2.entries.map
        (fun entry => entry.bytes_transferred) = [160, 160] := by
  have hcomplete := (@throughput_complete_iff frequent_target rfl address_table_init
    [throughput_frame 1 2 100, throughput_frame 2 1 60]).mpr (by decide)
  rw [List.map_congr_left hcomplete]
  decide

/-- Frames between as many devices as the table has room for. -/
def filling_frames : List frame_t :=
  (List.range 16).map fun pair => throughput_frame (.ofNat (2 * pair)) (.ofNat (2 * pair + 1)) 64

/-- A frame of another device to the first one is lost. -/
theorem throughput_incomplete_full_table :
    ∃ entry ∈ (dissect_all frequent_target (address_table_init, device_throughput_table_init)
        (filling_frames ++ [throughput_frame 99 0 64])).2.entries,
      entry.bytes_transferred ≠ .ofNat
        (bytes_sent (filling_frames ++ [throughput_frame 99 0 64]) entry.mac_address +
          bytes_received (filling_frames ++ [throughput_frame 99 0 64]) entry.mac_address) := by
  decide +kernel

end bismark_passive.main
