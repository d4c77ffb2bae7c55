import BismarkPassive.Main.FrequentUpdate
import BismarkPassive.Main.Publication

namespace bismark_passive.main

open machine flow_table address_table packet_series dns http device_throughput

/-! The data that composing a line, or processing a packet, hands to
`anonymization_process` -/

def name_inputs (table : dns_table_t) (name : cstring) : List (List UInt8) :=
  match bloom_whitelist_lookup table.bloom name with
  | none => []
  | some malware_flag => if table.shows malware_flag name then [] else [name]

def a_inputs (s : Session) (table : dns_table_t) (entry : dns_a_entry_t) : List (List UInt8) :=
  (if s.target.disable_anonymization then [] else [s.target.bytes32 entry.ip_address]) ++
    name_inputs table entry.domain_name

def cname_inputs (s : Session) (table : dns_table_t) (entry : dns_cname_entry_t) : List (List UInt8) :=
  if s.target.disable_anonymization then []
  else name_inputs table entry.domain_name ++ name_inputs table entry.cname

def address_inputs (s : Session) (entry : address_table_entry_t) : List (List UInt8) :=
  if s.target.disable_anonymization then [] else [s.target.bytes32 entry.ip_address, entry.mac_address.toList]

def flow_address_inputs (s : Session) (unanonymized : Bool) (address : UInt32) : List (List UInt8) :=
  if s.target.disable_anonymization || unanonymized then [] else [s.target.bytes32 address]

def flow_inputs (s : Session) (entry : flow_table_entry_t) : List (List UInt8) :=
  flow_address_inputs s entry.ip_source_unanonymized entry.ip_source ++
    flow_address_inputs s entry.ip_destination_unanonymized entry.ip_destination

def url_inputs (s : Session) (frame : frame_t) (dissection : dissection_t) : List (List UInt8) :=
  if s.target.enable_http_url && decide (0 < dissection.http_bytes_len) && !s.target.disable_anonymization then
    match tokenize ((frame.bytes.drop dissection.http_bytes).takeWhile (· != 0)) with
    | none => []
    | some (method, url) =>
      if strcasecmp_eq method [71, 69, 84] then [if MAX_URL < url.length then url.take (MAX_URL - 1) else url] else []
  else []

def device_inputs (s : Session) (entry : device_throughput_table_entry_t) : List (List UInt8) :=
  if s.target.disable_anonymization then [] else [entry.mac_address.toList]

/-- `assert(initialized)` holds whenever this data is processed. -/
def AssertionHolds (s : Session) (inputs : List (List UInt8)) : Prop :=
  inputs ≠ [] → s.anonymization.initialized = true

/-- A line is composed unless the lookup crashes or the assertion fails. -/
theorem a_line_isSome_iff {s : Session} {table : dns_table_t} {entry : dns_a_entry_t} :
    (a_line s table entry).isSome ↔
      (bloom_whitelist_lookup table.bloom entry.domain_name).isSome ∧ AssertionHolds s (a_inputs s table entry) := by
  have hhex (digest : digest_t) : (buffer_to_hex digest.toList).isSome :=
    buffer_to_hex_isSome (by rw [Vector.length_toList]; decide)
  have hdigest (name : cstring) : (hex_domain_digest s name).isSome = s.anonymization.initialized := by
    simp only [hex_domain_digest, anonymize_domain, anonymization_process]
    cases s.anonymization.initialized with
    | false => rfl
    | true => exact hhex _
  simp only [a_line, a_name, AssertionHolds, a_inputs, name_inputs]
  cases hlookup : bloom_whitelist_lookup table.bloom entry.domain_name with
  | none => simp
  | some malware_flag =>
    cases hshows : table.shows malware_flag entry.domain_name <;>
      cases hdisabled : s.target.disable_anonymization <;>
        cases hinitialized : s.anonymization.initialized <;>
          simp_all [anonymize_ip, anonymization_process, Option.isSome_bind]

/-! The calls of an update, each with the data that goes into its line -/

abbrev composition := Option Line × List (List UInt8)

def plain (lines : List (Option Line)) : List composition := lines.map fun line => (line, [])

def flow_compositions (s : Session) (table : flow_table_t) : List composition :=
  (all_slots.filter fun idx => (table.entries idx).occupied = .ENTRY_OCCUPIED_BUT_UNSENT).map fun idx =>
    (flow_line s idx (table.entries idx), flow_inputs s (table.entries idx))

def a_compositions (s : Session) (table : dns_table_t) : List composition :=
  table.a_entries.items.map fun entry => (a_line s table entry, a_inputs s table entry)

def cname_compositions (s : Session) (table : dns_table_t) : List composition :=
  table.cname_entries.items.map fun entry => (cname_line s table entry, cname_inputs s table entry)

def address_compositions (s : Session) (table : address_table_t) : List composition :=
  table.added_ids.map fun mac_id =>
    (address_line s (table.entries (mac_slot mac_id)), address_inputs s (table.entries (mac_slot mac_id)))

/-- The calls before the first A line. -/
def compositions_before (s : Session) (state : state_t) (io : update_io) : List composition :=
  plain (header_lines s state io ++ whitelist_lines state ++ anonymization_lines s ++
      packet_series_lines state.packet_data ++
      [some (.flows state.flow_table.base_timestamp_seconds state.flow_table.num_elements
        state.flow_table.num_expired_flows state.flow_table.num_dropped_flows)]) ++
    flow_compositions s state.flow_table ++
    plain [some .blank, some (.dns state.dns_table.num_dropped_a_entries state.dns_table.num_dropped_cname_entries)]

/-- The calls after the last A line. -/
def compositions_after (s : Session) (state : state_t) (io : update_io) : List composition :=
  plain [some .blank] ++ cname_compositions s state.dns_table ++
    plain [some .blank, some (.addresses (NORM (state.address_table.last -
      state.address_table.added_since_last_update + 1)) MAC_TABLE_ENTRIES)] ++
    address_compositions s state.address_table ++
    plain (some .blank :: drop_statistics_lines state.drop_statistics ++ url_lines s state io)

def update_compositions (s : Session) (state : state_t) (io : update_io) : List composition :=
  compositions_before s state io ++ a_compositions s state.dns_table ++ compositions_after s state io

/-- The compositions are those of the lines of the update, in order. -/
theorem update_compositions_lines (s : Session) (state : state_t) (io : update_io) :
    (update_compositions s state io).map Prod.fst = update_lines s state io := by
  have hplain (lines : List (Option Line)) : (plain lines).map Prod.fst = lines := by
    rw [plain, List.map_map]
    exact List.map_id lines
  simp -implicitDefEqProofs only [update_compositions, compositions_before, compositions_after, flow_compositions,
    a_compositions, cname_compositions, address_compositions, List.map_append, hplain, List.map_map,
    Function.comp_def, update_lines, flow_table_lines, unsent_lines, dns_table_lines, address_table_lines,
    List.append_assoc, List.cons_append, List.nil_append]

/-- The data processed from a call on: a call that returns zero, like a line
that is not composed, is the last one. -/
def evaluated (gzprintf_returns : Nat → Int) : Nat → List composition → List (List UInt8)
  | _, [] => []
  | call, (line, inputs) :: rest =>
    inputs ++ (if line.isSome ∧ gzprintf_returns call ≠ 0 then evaluated gzprintf_returns (call + 1) rest else [])

def update_inputs (s : Session) (state : state_t) (io : update_io) : List (List UInt8) :=
  if io.opened then evaluated io.gzprintf_returns 0 (update_compositions s state io) else []

section evaluated

variable {gzprintf_returns : Nat → Int}

theorem passes_cons_iff {call : Nat} {line : Option Line} {lines : List (Option Line)} :
    Passes gzprintf_returns call (line :: lines) ↔
      (line.isSome ∧ gzprintf_returns call ≠ 0) ∧ Passes gzprintf_returns (call + 1) lines := by
  cases line with
  | none => exact iff_of_false not_passes_none (by simp)
  | some line => rw [passes_cons]; simp

/-- The second part is evaluated if the first one passes. -/
theorem evaluated_append (call : Nat) (first second : List composition) :
    evaluated gzprintf_returns call (first ++ second) = evaluated gzprintf_returns call first ++
      (open Classical in if Passes gzprintf_returns call (first.map Prod.fst) then
        evaluated gzprintf_returns (call + first.length) second else []) := by
  induction first generalizing call with
  | nil => simp [evaluated, passes_nil]
  | cons composition first ih =>
    obtain ⟨line, inputs⟩ := composition
    rw [List.cons_append, evaluated, evaluated, List.map_cons, passes_cons_iff, ih, List.length_cons,
      List.append_assoc]
    congr 1
    by_cases hgoes : line.isSome ∧ gzprintf_returns call ≠ 0
    · have hlength : call + (first.length + 1) = call + 1 + first.length := by omega
      rw [if_pos hgoes, if_pos hgoes, hlength]
      by_cases hpasses : Passes gzprintf_returns (call + 1) (first.map Prod.fst)
      · rw [if_pos hpasses, if_pos ⟨hgoes, hpasses⟩]
      · rw [if_neg hpasses, if_neg fun h => hpasses h.2]
    · rw [if_neg hgoes, if_neg hgoes, if_neg fun h => hgoes h.1, List.append_nil]

theorem evaluated_eq_nil {compositions : List composition} (h : ∀ composition ∈ compositions, composition.2 = [])
    (call : Nat) : evaluated gzprintf_returns call compositions = [] := by
  induction compositions generalizing call with
  | nil => rfl
  | cons composition rest ih =>
    obtain ⟨hfirst, hrest⟩ := List.forall_mem_cons.mp h
    rw [evaluated, hfirst, ih hrest, ite_self, List.append_nil]

/-- No data is processed if and only if none belongs to a line that is reached. -/
theorem evaluated_map_eq_nil_iff {α : Type} {items : List α} {compose : α → composition} {call : Nat} :
    evaluated gzprintf_returns call (items.map compose) = [] ↔
      ∀ idx item, items[idx]? = some item →
        Passes gzprintf_returns call ((items.take idx).map fun item => (compose item).1) → (compose item).2 = [] := by
  induction items generalizing call with
  | nil => simp [evaluated]
  | cons first items ih =>
    rw [List.map_cons, evaluated, List.append_eq_nil_iff]
    constructor
    · rintro ⟨hfirst, hrest⟩ idx item hitem hpasses
      cases idx with
      | zero =>
        obtain rfl := Option.some.inj hitem
        exact hfirst
      | succ idx =>
        rw [List.take_succ_cons, List.map_cons, passes_cons_iff] at hpasses
        rw [if_pos hpasses.1] at hrest
        exact ih.mp hrest idx item hitem hpasses.2
    · intro h
      refine ⟨h 0 first rfl passes_nil, ?_⟩
      split
      · rename_i hgoes
        refine ih.mpr fun idx item hitem hpasses => h (idx + 1) item hitem ?_
        rw [List.take_succ_cons, List.map_cons, passes_cons_iff]
        exact ⟨hgoes, hpasses⟩
      · rfl

end evaluated

/-! The assertion in a build without anonymisation -/

section disabled

variable {s : Session} (hdisabled : s.target.disable_anonymization = true) (state : state_t) (io : update_io)

include hdisabled

theorem compositions_before_disabled : ∀ composition ∈ compositions_before s state io, composition.2 = [] := by
  intro composition hmem
  simp only [compositions_before, plain, flow_compositions, flow_inputs, flow_address_inputs, hdisabled, Bool.true_or,
    if_true, List.append_nil, List.mem_append, List.mem_map] at hmem
  rcases hmem with (⟨_, _, rfl⟩ | ⟨_, _, rfl⟩) | ⟨_, _, rfl⟩ <;> rfl

theorem compositions_after_disabled : ∀ composition ∈ compositions_after s state io, composition.2 = [] := by
  intro composition hmem
  simp only [compositions_after, plain, cname_compositions, cname_inputs, address_compositions, address_inputs,
    hdisabled, if_true, List.mem_append, List.mem_map] at hmem
  rcases hmem with (((⟨_, _, rfl⟩ | ⟨_, _, rfl⟩) | ⟨_, _, rfl⟩) | ⟨_, _, rfl⟩) | ⟨_, _, rfl⟩ <;> rfl

theorem a_inputs_disabled (table : dns_table_t) (entry : dns_a_entry_t) :
    a_inputs s table entry = name_inputs table entry.domain_name := by
  rw [a_inputs, if_pos hdisabled, List.nil_append]

end disabled

/-- The update gets to the A line with this index. -/
def GetsTo (s : Session) (state : state_t) (io : update_io) (idx : Nat) : Prop :=
  io.opened = true ∧ Passes io.gzprintf_returns 0 ((compositions_before s state io).map Prod.fst ++
    (state.dns_table.a_entries.items.take idx).map (a_line s state.dns_table))

/-- A whitelist or the filter has the name, if the lookup does not crash. -/
def Shown (table : dns_table_t) (name : cstring) : Prop :=
  ∀ malware_flag, bloom_whitelist_lookup table.bloom name = some malware_flag → table.shows malware_flag name = true

theorem name_inputs_eq_nil_iff {table : dns_table_t} {name : cstring} :
    name_inputs table name = [] ↔ Shown table name := by
  unfold name_inputs Shown
  cases bloom_whitelist_lookup table.bloom name with
  | none => simp
  | some malware_flag => simp

/-- In a build without anonymisation nothing but hidden names in A lines is
handed to the anonymiser. -/
theorem update_inputs_eq_nil_iff {s : Session} (hdisabled : s.target.disable_anonymization = true) (state : state_t)
    (io : update_io) : update_inputs s state io = [] ↔
      ∀ idx entry, state.dns_table.a_entries.items[idx]? = some entry → GetsTo s state io idx →
        Shown state.dns_table entry.domain_name := by
  rw [update_inputs]
  by_cases hopened : io.opened = true
  · rw [if_pos hopened, update_compositions, List.append_assoc, evaluated_append,
      evaluated_eq_nil (compositions_before_disabled hdisabled state io), List.nil_append]
    simp only [GetsTo, passes_append, hopened, true_and, Nat.zero_add, List.length_map]
    by_cases hbefore : Passes io.gzprintf_returns 0 ((compositions_before s state io).map Prod.fst)
    · rw [if_pos hbefore, evaluated_append, evaluated_eq_nil (compositions_after_disabled hdisabled state io),
        ite_self, List.append_nil, a_compositions, evaluated_map_eq_nil_iff]
      simp only [hbefore, true_and, a_inputs_disabled hdisabled, name_inputs_eq_nil_iff]
    · rw [if_neg hbefore]
      exact iff_of_true rfl fun idx entry _ h => absurd h.1 hbefore
  · rw [if_neg hopened]
    exact iff_of_true rfl fun idx entry _ h => absurd h.1 hopened

/-! The whole program -/

/-- What `main` does about the anonymiser before it starts capturing; `none`
when it returns. -/
def initialize_anonymization (target : Target) (externals : Externals) (seed_file : Option (List UInt8)) :
    Option anonymization_t :=
  if target.disable_anonymization then some anonymization_zero else anonymization_init externals seed_file

/-- The session of a program that has got as far as that. -/
def Started (s : Session) : Prop :=
  ∃ seed_file, initialize_anonymization s.target s.externals seed_file = some s.anonymization

/-- The call of `anonymize_mac` that follows. -/
def startup_inputs (s : Session) (bismark_mac : mac_address_t) : List (List UInt8) :=
  if s.target.enable_frequent_updates then [bismark_mac.toList] else []

/-- The anonymiser is initialised exactly in builds that use it. -/
theorem Started.initialized {s : Session} (hstarted : Started s) :
    s.anonymization.initialized = !s.target.disable_anonymization := by
  obtain ⟨seed_file, hinitialize⟩ := hstarted
  unfold initialize_anonymization at hinitialize
  cases hdisabled : s.target.disable_anonymization with
  | true =>
    rw [hdisabled, if_pos rfl] at hinitialize
    rw [← Option.some.inj hinitialize]
    rfl
  | false =>
    rw [hdisabled, if_neg (by decide)] at hinitialize
    exact anonymization_init_initialized hinitialize

inductive program_event where
  | process_packet (frame : frame_t)
  | write_update (io : update_io)
  | write_frequent_update (io : frequent_io)

/-- A packet, or one of the writers that the signal handler calls, whatever the
results of their calls are. -/
def program_step (s : Session) (bismark_mac : mac_address_t) (state : state_t) :
    program_event → Option (state_t × Unit)
  | .process_packet frame => (process_packet s state frame).map fun result => (result.1, ())
  | .write_update io => (write_update s state io).map fun result => (result.1, ())
  | .write_frequent_update io =>
    if s.target.enable_frequent_updates then
      (write_frequent_update s bismark_mac state io).map fun state => (state, ())
    else none

def packet_inputs (s : Session) (state : state_t) (frame : frame_t) : List (List UInt8) :=
  url_inputs s frame ((get_flow_entry_for_packet s.target frame.caplen.toInt32.toInt frame.len state.address_table
    state.device_throughput_table).run frame.memory).2.1

def program_inputs (s : Session) (state : state_t) : program_event → List (List UInt8)
  | .process_packet frame => packet_inputs s state frame
  | .write_update io => update_inputs s state io
  | .write_frequent_update _ => state.device_throughput_table.entries.flatMap (device_inputs s)

/-- The names of all A lines that an update gets to are shown. -/
def ShowsNames (s : Session) (state : state_t) : program_event → Prop
  | .write_update io => ∀ idx entry, state.dns_table.a_entries.items[idx]? = some entry → GetsTo s state io idx →
      Shown state.dns_table entry.domain_name
  | _ => True

theorem assertionHolds_disabled_iff {s : Session} (hstarted : Started s)
    (hdisabled : s.target.disable_anonymization = true) (inputs : List (List UInt8)) :
    AssertionHolds s inputs ↔ inputs = [] := by
  rw [AssertionHolds, hstarted.initialized, hdisabled]
  simp

/-- A build without anonymisation hashes something only to hide a name. -/
theorem program_inputs_eq_nil_iff {s : Session} (hdisabled : s.target.disable_anonymization = true) (state : state_t)
    (event : program_event) : program_inputs s state event = [] ↔ ShowsNames s state event := by
  cases event with
  | process_packet frame =>
    refine iff_of_true ?_ trivial
    rw [program_inputs, packet_inputs, url_inputs, if_neg (by simp [hdisabled])]
  | write_update io => exact update_inputs_eq_nil_iff hdisabled state io
  | write_frequent_update io =>
    refine iff_of_true ?_ trivial
    simp [program_inputs, device_inputs, hdisabled]

/-- In a run of the program up to any event, the assertion of the anonymiser
holds whenever it is evaluated, if and only if the build anonymises, or it has
no frequent updates and every update so far gets to shown names only. -/
theorem assertion_holds_iff {s : Session} (hstarted : Started s) {bismark_mac : mac_address_t}
    {domain_whitelist : domain_whitelist_t} {bloom_whitelist : bloom_whitelist_t} {trace : List (program_event × Unit)}
    {state : state_t} (event : program_event) :
    Execution (program_step s bismark_mac) (initial_state s.target domain_whitelist bloom_whitelist) trace state →
    ((AssertionHolds s (startup_inputs s bismark_mac) ∧
      Along (program_step s bismark_mac) (initial_state s.target domain_whitelist bloom_whitelist)
        (fun state event => AssertionHolds s (program_inputs s state event)) trace ∧
      AssertionHolds s (program_inputs s state event)) ↔
    (s.target.disable_anonymization = false ∨ s.target.enable_frequent_updates = false ∧
      Along (program_step s bismark_mac) (initial_state s.target domain_whitelist bloom_whitelist)
        (ShowsNames s) trace ∧ ShowsNames s state event)) := by
  intro _
  cases hdisabled : s.target.disable_anonymization with
  | false =>
    have hholds (inputs : List (List UInt8)) : AssertionHolds s inputs := by
      intro _
      rw [hstarted.initialized, hdisabled]
      rfl
    exact iff_of_true ⟨hholds _, fun _ _ _ _ _ _ _ => hholds _, hholds _⟩ (.inl rfl)
  | true =>
    have hstep (state : state_t) (event : program_event) :
        AssertionHolds s (program_inputs s state event) ↔ ShowsNames s state event :=
      (assertionHolds_disabled_iff hstarted hdisabled _).trans (program_inputs_eq_nil_iff hdisabled state event)
    have hstartup : AssertionHolds s (startup_inputs s bismark_mac) ↔ s.target.enable_frequent_updates = false := by
      rw [assertionHolds_disabled_iff hstarted hdisabled, startup_inputs]
      cases s.target.enable_frequent_updates <;> simp
    simp only [hstep, hstartup, Bool.true_eq_false, false_or]

/-- A build without anonymisation, and one that also has frequent updates. -/
def disabled_session : Session := { reference_session with anonymization := anonymization_zero }

def disabled_frequent_session : Session :=
  { disabled_session with target := { reference_target with enable_frequent_updates := true } }

/-- The first update, of empty tables, does without the anonymiser. -/
theorem assertion_holds_iff_first_update :
    AssertionHolds disabled_session (program_inputs disabled_session
      (initial_state disabled_session.target domain_whitelist_init empty_bloom) (.write_update (healthy_io 100))) := by
  have hholds := @assertion_holds_iff disabled_session ⟨none, rfl⟩ (Vector.replicate ETH_ALEN 0)
    domain_whitelist_init empty_bloom [] _ (.write_update (healthy_io 100)) Execution.nil
  refine (hholds.mpr (.inr ⟨rfl, Along.nil, ?_⟩)).2.2
  intro idx entry hentry
  cases hentry

/-- With frequent updates the assertion already fails when `main` digests the
address of the router. -/
theorem assertion_fails_at_startup :
    ¬ ∀ (s : Session) (bismark_mac : mac_address_t) (domain_whitelist : domain_whitelist_t)
        (bloom_whitelist : bloom_whitelist_t) (trace : List (program_event × Unit)) (state : state_t)
        (event : program_event), Started s →
      Execution (program_step s bismark_mac) (initial_state s.target domain_whitelist bloom_whitelist) trace state →
      AssertionHolds s (startup_inputs s bismark_mac) ∧
        Along (program_step s bismark_mac) (initial_state s.target domain_whitelist bloom_whitelist)
          (fun state event => AssertionHolds s (program_inputs s state event)) trace ∧
        AssertionHolds s (program_inputs s state event) := by
  intro hholds
  have hstartup := (hholds disabled_frequent_session (Vector.replicate ETH_ALEN 0) domain_whitelist_init empty_bloom []
    _ (.write_update (healthy_io 100)) ⟨none, rfl⟩ Execution.nil).1
  have hinitialized := hstartup (by decide)
  exact absurd hinitialized (by decide)

end bismark_passive.main
