import BismarkPassive.Main.Run

namespace bismark_passive.main

open machine address_table

variable {s : Session} {domain_whitelist : domain_whitelist_t} {bloom_whitelist : bloom_whitelist_t}

/-- The mappings that the packets of a run added to the address table, oldest first. -/
def mappings (trace : main_trace) : List address_table_entry_t :=
  (trace.filterMap captured).flatMap capture_t.new_mappings

theorem mappings_append (first second : main_trace) :
    mappings (first ++ second) = mappings first ++ mappings second := by
  simp [mappings]

@[simp] theorem mappings_processed (event : main_event) (capture : capture_t) :
    mappings [(event, .processed capture)] = capture.new_mappings := by
  simp [mappings, captured]

@[simp] theorem mappings_written (event : main_event) (update : update_t) :
    mappings [(event, .written update)] = [] := by
  simp [mappings, captured]

section packet

variable {table table' : address_table_t} {frame : frame_t} {dissection : dissection_t}
  {log : List address_table_entry_t} {sent : Nat}

theorem looked_up_logs (h : table.Logs log sent) (frame : frame_t) (dissection : dissection_t) :
    (looked_up table frame dissection).Logs (log ++ looked_up_mappings table frame dissection) sent := by
  have hsource := address_table_lookup_logs h dissection.entry.ip_source frame.ether_shost
  have hdestination := address_table_lookup_logs hsource dissection.entry.ip_destination frame.ether_dhost
  rw [List.append_assoc] at hdestination
  exact hdestination

theorem looked_up_again (h : table.Logs log sent) (frame : frame_t) (dissection : dissection_t) :
    (looked_up table frame dissection).new_mapping (dissection.destination_mapping frame) = [] := by
  have hsource := address_table_lookup_logs h dissection.entry.ip_source frame.ether_shost
  exact address_table_lookup_again hsource dissection.entry.ip_destination frame.ether_dhost

/-- Looking the destination up for a DNS payload adds nothing. -/
theorem Dissected.logs (h : Dissected table frame dissection table') (hlogs : table.Logs log sent) :
    table'.Logs (log ++ looked_up_mappings table frame dissection) sent := by
  have hlooked := looked_up_logs hlogs frame dissection
  obtain ⟨_, _, rfl⟩ | hagain := h.lookups
  · exact hlooked
  · have hlogs' := address_table_lookup_logs hlooked dissection.entry.ip_destination frame.ether_dhost
    rw [← hagain] at hlogs'
    have hnothing := looked_up_again hlogs frame dissection
    rw [dissection_t.destination_mapping] at hnothing
    rwa [hnothing, List.append_nil] at hlogs'

/-- The id for a DNS payload is the slot of the most recent addition of the
packet's destination. -/
theorem Dissected.mac_id (h : Dissected table frame dissection table') (hlogs : table.Logs log sent)
    (hmac_id : 0 ≤ dissection.mac_id) :
    ∃ index : Nat, (log ++ looked_up_mappings table frame dissection)[index]? =
        some (dissection.destination_mapping frame) ∧
      (∀ later, index < later →
        (log ++ looked_up_mappings table frame dissection)[later]? ≠ some (dissection.destination_mapping frame)) ∧
      (log ++ looked_up_mappings table frame dissection).length ≤ index + MAC_TABLE_ENTRIES ∧
      dissection.mac_id = (index : Int) % 256 := by
  obtain ⟨_, hnone, _⟩ | hagain := h.lookups
  · omega
  · have hid : dissection.mac_id = (address_table_lookup (looked_up table frame dissection)
        dissection.entry.ip_destination frame.ether_dhost).1 := congrArg Prod.fst hagain
    cases hprivate : is_address_private dissection.entry.ip_destination with
    | false =>
      rw [address_table_lookup_public hprivate] at hid
      omega
    | true =>
      have hlooked := looked_up_logs hlogs frame dissection
      have hfound := address_table_lookup_id hlooked hprivate frame.ether_dhost
      have hnothing := looked_up_again hlogs frame dissection
      rw [dissection_t.destination_mapping] at hnothing
      rw [hnothing, List.append_nil, ← hid] at hfound
      exact hfound

end packet

section run

variable {state state' : state_t} {frame : frame_t} {locals : packet_locals} {log : List address_table_entry_t}
  {sent : Nat}

/-- A packet appends the mappings it looks up that are not in the ring. -/
theorem ProcessedPacket.logs (h : ProcessedPacket s state frame state' locals)
    (hlogs : state.address_table.Logs log sent) :
    state'.address_table.Logs (log ++ packet_mappings state frame locals) sent := by
  obtain ⟨hother, _, hsame⟩ | ⟨hip, hdissected⟩ := h.dissected
  · rw [packet_mappings, if_neg hother, List.append_nil, hsame]
    exact hlogs
  · rw [packet_mappings, if_pos hip]
    exact hdissected.logs hlogs

/-- The id of a DNS response is the place of its last mapping in the log, modulo the ring's size. -/
theorem ProcessedPacket.mac_id (h : ProcessedPacket s state frame state' locals)
    (hlogs : state.address_table.Logs log sent) (hmac_id : 0 ≤ locals.dissection.mac_id) :
    ∃ index : Nat, (log ++ packet_mappings state frame locals)[index]? =
        some (locals.dissection.destination_mapping frame) ∧
      (∀ later, index < later → (log ++ packet_mappings state frame locals)[later]? ≠
        some (locals.dissection.destination_mapping frame)) ∧
      (log ++ packet_mappings state frame locals).length ≤ index + MAC_TABLE_ENTRIES ∧
      locals.dissection.mac_id = (index : Int) % 256 := by
  obtain ⟨_, hinit, _⟩ | ⟨hip, hdissected⟩ := h.dissected
  · rw [hinit] at hmac_id
    simp [dissection_init] at hmac_id
  · rw [packet_mappings, if_pos hip]
    exact hdissected.mac_id hlogs hmac_id

/-- The address table is the ring of the mappings that packets added to it. -/
theorem main_run_logs {trace : main_trace} {state : state_t}
    (run : main_run s domain_whitelist bloom_whitelist trace state) :
    ∃ sent, state.address_table.Logs (mappings trace) sent := by
  refine run.invariant (fun trace state => ∃ sent, state.address_table.Logs (mappings trace) sent)
    ⟨0, address_table_init_logs⟩ ?_
  rintro trace state event state' output run ⟨sent, hlogs⟩ hstep
  rw [mappings_append]
  obtain ⟨capture, rfl, rfl, hpacket, _, hmappings⟩ | ⟨io, healthy, update, rfl, rfl, hupdate⟩ :=
    main_step_cases hstep
  · rw [mappings_processed, hmappings]
    exact ⟨sent, hpacket.logs hlogs⟩
  · rw [mappings_written, List.append_nil, hupdate.reset]
    exact ⟨_, hlogs.reset_added⟩

end run

end bismark_passive.main
