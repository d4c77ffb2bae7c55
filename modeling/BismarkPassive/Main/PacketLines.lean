import BismarkPassive.Main.Run

namespace bismark_passive.main

open machine packet_series

variable {s : Session} {domain_whitelist : domain_whitelist_t} {bloom_whitelist : bloom_whitelist_t}

/-- The packets that the packet series had room for. -/
def stored (captures : List capture_t) : List capture_t :=
  captures.filter fun capture => decide (0 ≤ capture.locals.packet_id)

/-- The entry of a packet that was stored after this one, or as the first one. -/
def packet_entry (previous : Option capture_t) (capture : capture_t) : packet_data_t where
  timestamp :=
    match previous with
    | none => 0
    | some previous => (capture.frame.ts.microseconds - previous.frame.ts.microseconds).toInt32
  size := capture.frame.len.toUInt16
  flow := capture.locals.flow_id

def packet_entries : Option capture_t → List capture_t → List packet_data_t
  | _, [] => []
  | previous, capture :: captures => packet_entry previous capture :: packet_entries (some capture) captures

/-- The last packet's entry is relative to the one before it. -/
theorem packet_entries_snoc (previous : Option capture_t) (captures : List capture_t) (capture : capture_t) :
    packet_entries previous (captures ++ [capture]) =
      packet_entries previous captures ++ [packet_entry (captures.getLast?.or previous) capture] := by
  induction captures generalizing previous with
  | nil => rfl
  | cons first captures ih =>
    rw [List.cons_append, packet_entries, ih, packet_entries, List.cons_append, List.getLast?_cons]
    cases captures.getLast? <;> rfl

/-- Each entry is relative to the packet before it. -/
theorem packet_entries_getElem? (previous : Option capture_t) (captures : List capture_t) (index : Nat) :
    (packet_entries previous captures)[index]? =
      captures[index]?.map (packet_entry (if index = 0 then previous else captures[index - 1]?)) := by
  induction captures generalizing previous index with
  | nil => simp [packet_entries]
  | cons first captures ih =>
    cases index with
    | zero => rfl
    | succ index =>
      rw [packet_entries, List.getElem?_cons_succ, List.getElem?_cons_succ, ih]
      cases index <;> rfl

/-- The packet series consists of the entries of the period's stored packets,
each of which knows its position. -/
structure Aligned (captures : List capture_t) (series : packet_series_t) : Prop where
  entries : series.packet_data.items = packet_entries none (stored captures)
  last_time : ∀ last : capture_t, (stored captures).getLast? = some last →
    series.last_time_microseconds = last.frame.ts.microseconds
  position : ∀ (index : Nat) (capture : capture_t),
    (stored captures)[index]? = some capture → capture.locals.packet_id = index

theorem packet_entries_length (previous : Option capture_t) (captures : List capture_t) :
    (packet_entries previous captures).length = captures.length := by
  induction captures generalizing previous with
  | nil => rfl
  | cons first captures ih => rw [packet_entries, List.length_cons, List.length_cons, ih]

theorem Aligned.length {captures : List capture_t} {series : packet_series_t} (h : Aligned captures series) :
    series.length = (stored captures).length := by
  rw [packet_series_t.length, h.entries, packet_entries_length]

theorem stored_snoc_of_stored (captures : List capture_t) {capture : capture_t}
    (h : 0 ≤ capture.locals.packet_id) : stored (captures ++ [capture]) = stored captures ++ [capture] := by
  simp [stored, h]

theorem stored_snoc_of_refused (captures : List capture_t) {capture : capture_t}
    (h : capture.locals.packet_id < 0) : stored (captures ++ [capture]) = stored captures := by
  simp [stored, h]

/-- The entry that the series composes is the one the captures determine. -/
theorem Aligned.next {captures : List capture_t} {series : packet_series_t} (h : Aligned captures series)
    (capture : capture_t) :
    series.next capture.frame.ts capture.frame.len capture.locals.flow_id.toNat =
      packet_entry (stored captures).getLast? capture := by
  have hflow : UInt16.ofInt (capture.locals.flow_id.toNat : Int) = capture.locals.flow_id := by
    have hlt := capture.locals.flow_id.toNat_lt
    apply UInt16.toNat_inj.mp
    rw [UInt16.ofInt, UInt16.toNat_ofNat']
    omega
  rw [packet_series_t.next, hflow, h.length]
  cases hlast : (stored captures).getLast? with
  | none =>
    rw [List.getLast?_eq_none_iff] at hlast
    rw [hlast, if_pos List.length_nil]
    rfl
  | some last =>
    have hnonempty : (stored captures).length ≠ 0 := by
      intro hzero
      rw [List.length_eq_zero_iff.mp hzero] at hlast
      cases hlast
    rw [if_neg hnonempty, h.last_time last hlast]
    rfl

/-- A packet keeps the series aligned with the captures. -/
theorem Aligned.packet {captures : List capture_t} {series series' : packet_series_t} (h : Aligned captures series)
    {capture : capture_t}
    (hadd : packet_series_add_packet series capture.frame.ts capture.frame.len capture.locals.flow_id.toNat =
      (capture.locals.packet_id, series')) :
    Aligned (captures ++ [capture]) series' := by
  have hnext := h.next capture
  rcases packet_series_add_packet_cases series capture.frame.ts capture.frame.len
      capture.locals.flow_id.toNat with ⟨_, hid, hitems, _, htime⟩ | ⟨_, hfull⟩
  · rw [hadd] at hid hitems htime
    have hposition : capture.locals.packet_id = (stored captures).length := by rw [← h.length, ← hid]
    have hstored : stored (captures ++ [capture]) = stored captures ++ [capture] :=
      stored_snoc_of_stored captures (by omega)
    refine ⟨?_, fun last hlast => ?_, fun index other hother => ?_⟩
    · rw [hitems, hnext, h.entries, hstored, packet_entries_snoc, Option.or_none]
    · rw [hstored, List.getLast?_append, List.getLast?_singleton, Option.some_or, Option.some.injEq] at hlast
      rw [htime, hlast]
    · rw [hstored] at hother
      by_cases hindex : index < (stored captures).length
      · rw [List.getElem?_append_left hindex] at hother
        exact h.position index other hother
      · rw [List.getElem?_append_right (not_lt.mp hindex), List.getElem?_singleton] at hother
        split at hother
        · obtain rfl := Option.some.inj hother
          omega
        · cases hother
  · rw [hadd, Prod.mk.injEq] at hfull
    obtain ⟨hid, rfl⟩ := hfull
    have hstored : stored (captures ++ [capture]) = stored captures := stored_snoc_of_refused captures (by omega)
    refine ⟨?_, fun last hlast => ?_, ?_⟩
    · rw [packet_series_t.discard_packet_data, h.entries, hstored]
    · rw [hstored] at hlast
      rw [← h.last_time last hlast]
      unfold packet_series_t.discard
      split <;> rfl
    · rw [hstored]
      exact h.position

/-- In every state the packet series consists of the stored packets since the
last update, in their order. -/
theorem main_run_aligned {trace : main_trace} {state : state_t}
    (run : main_run s domain_whitelist bloom_whitelist trace state) :
    Aligned (period trace) state.packet_data := by
  refine run.invariant (fun trace state => Aligned (period trace) state.packet_data) ⟨rfl, ?_, ?_⟩ ?_
  · intro last hlast
    cases hlast
  · intro index capture hcapture
    cases hcapture
  · intro trace state event state' output run haligned hstep
    obtain ⟨capture, rfl, rfl, hpacket, _⟩ | ⟨io, healthy, update, rfl, rfl, hupdate⟩ := main_step_cases hstep
    · rw [period_snoc_processed]
      exact haligned.packet hpacket.series
    · rw [period_snoc_written, hupdate.reset]
      refine ⟨rfl, fun last hlast => ?_, fun index capture hcapture => ?_⟩
      · cases hlast
      · cases hcapture

/-! The packet section of an update -/

def Line.is_packet : Line → Bool
  | .packet .. => true
  | _ => false

/-- The packet lines of an update. -/
def update_t.packet_lines (update : update_t) : List Line := update.packets.filter Line.is_packet

/-- The packet records of an update are the series' entries. -/
theorem Updated.packet_lines {state state' : state_t} {io : update_io} {update : update_t}
    (h : Updated s state io state' update) : update.packet_lines = packet_series.packet_lines state.packet_data := by
  have hlines : (packet_series.packet_lines state.packet_data).filter Line.is_packet =
      packet_series.packet_lines state.packet_data := by
    refine List.filter_eq_self.mpr fun line hline => ?_
    obtain ⟨data, _, rfl⟩ := List.mem_map.mp hline
    rfl
  rw [update_t.packet_lines, h.packets, packet_section, List.cons_append,
    List.filter_cons_of_neg (by simp [Line.is_packet]), List.filter_append, hlines]
  simp [Line.is_packet]

/-- The packet that was stored before the one in this position. -/
def stored_before (captures : List capture_t) (index : Nat) : Option capture_t :=
  if index = 0 then none else (stored captures)[index - 1]?

/-- The line of the packet in this position. -/
def stored_line (captures : List capture_t) (index : Nat) (capture : capture_t) : Line :=
  packet_line (packet_entry (stored_before captures index) capture)

/-- The packet lines of an update are those of the period's stored packets. -/
theorem main_run_packet_lines {trace : main_trace} {state : state_t} {io : update_io} {healthy : io.Healthy}
    {update : update_t}
    (run : main_run s domain_whitelist bloom_whitelist
      (trace ++ [(.write_update io healthy, .written update)]) state) (index : Nat) :
    update.packet_lines[index]? = (stored (period trace))[index]?.map (stored_line (period trace) index) := by
  obtain ⟨state₀, run₀, hupdate⟩ := main_run_update run
  rw [hupdate.packet_lines, packet_series.packet_lines, (main_run_aligned run₀).entries, List.getElem?_map,
    packet_entries_getElem?, Option.map_map]
  rfl

end bismark_passive.main
