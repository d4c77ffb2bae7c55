import BismarkPassive.Dns.Ledger
import BismarkPassive.Http.Ledger
import BismarkPassive.Main.DnsReferences
import BismarkPassive.Main.Termination

namespace bismark_passive.dns

open containers

/-! The strings of the entries -/

/-- Each entry has its strings. -/
structure owned_table_t.Paired (owned : owned_table_t) : Prop where
  a_strings : owned.a_strings.length = owned.table.a_entries.items.length
  cname_strings : owned.cname_strings.length = owned.table.cname_entries.items.length

variable {externals : Externals} {owned : owned_table_t} {packet : dns_packet_t}

theorem owned_table_init_paired (whitelist : Option domain_whitelist_t) (bloom : bloom_whitelist_t)
    (strings : Ledger) : (owned_table_init whitelist bloom strings).Paired :=
  ⟨rfl, rfl⟩

theorem owned_table_t.Paired.held_length (h : owned.Paired) :
    owned.held.length = owned.table.a_entries.items.length + 2 * owned.table.cname_entries.items.length := by
  have hpairs (strings : List (Nat × Nat)) :
      (strings.flatMap fun pair => [pair.1, pair.2]).length = 2 * strings.length := by
    rw [List.length_flatMap]
    simp [Nat.mul_comm]
  rw [owned_table_t.held, List.length_append, hpairs, h.a_strings, h.cname_strings]

/-- An address record brings its string with its entry. -/
theorem owned_table_t.Paired.add_a_record (h : owned.Paired) (record : resource_record_t) :
    (owned.add_a_record packet record).Paired := by
  have hrefused : ¬ (-1 : Int) = 0 := by decide
  unfold owned_table_t.add_a_record dns_table_add_a
  dsimp only
  split
  · simp only [if_neg hrefused]
    exact ⟨h.a_strings, h.cname_strings⟩
  · rename_i a_entries hpush
    refine ⟨?_, h.cname_strings⟩
    rw [if_pos rfl, List.length_append, List.length_singleton, (Bounded.push_eq_some_iff.mp hpush).2,
      List.length_append, List.length_singleton, h.a_strings]

/-- An alias brings both of its strings. -/
theorem owned_table_t.Paired.add_cname_record (h : owned.Paired) (record : resource_record_t) :
    (owned.add_cname_record externals packet record).Paired := by
  have hrefused : ¬ (-1 : Int) = 0 := by decide
  unfold owned_table_t.add_cname_record
  cases externals.dn_expand (seen packet.memory packet.len) record.rdata with
  | none => exact ⟨h.a_strings, h.cname_strings⟩
  | some expanded =>
    unfold dns_table_add_cname
    dsimp only
    split
    · simp only [if_neg hrefused]
      exact ⟨h.a_strings, h.cname_strings⟩
    · rename_i cname_entries hpush
      refine ⟨h.a_strings, ?_⟩
      rw [if_pos rfl, List.length_append, List.length_singleton, (Bounded.push_eq_some_iff.mp hpush).2,
        List.length_append, List.length_singleton, h.cname_strings]

/-- A record of any type brings the strings of its entry. -/
theorem owned_table_t.Paired.add_record (h : owned.Paired) (record : resource_record_t) :
    (owned_table_t.add_record externals packet owned record).Paired := by
  unfold owned_table_t.add_record
  split
  · exact h
  split
  · exact h.add_a_record record
  split
  · exact h.add_cname_record record
  · exact h

theorem owned_table_t.Paired.process_dns_packet (h : owned.Paired) :
    (owned.process_dns_packet externals packet).Paired := by
  unfold owned_table_t.process_dns_packet
  generalize packet_records externals packet.memory packet.len = records
  induction records generalizing owned with
  | nil => exact h
  | cons record records ih => exact ih (h.add_record record)

end bismark_passive.dns

namespace bismark_passive.main

open machine containers dns http

/-! The strings that the program has duplicated -/

/-- The DNS message of a packet, as the parser gets it. -/
def capture_t.dns_packet (capture : capture_t) : dns_packet_t where
  memory address := capture.frame.memory (capture.locals.dissection.dns_bytes + address)
  len := capture.locals.dissection.dns_bytes_len.toNat
  packet_id := UInt16.ofInt capture.locals.packet_id
  mac_id := UInt8.ofInt capture.locals.dissection.mac_id

/-- The DNS messages that a packet hands to the parser, at most one. -/
def capture_t.dns_packets (capture : capture_t) : List dns_packet_t :=
  if 0 < capture.locals.dissection.dns_bytes_len ∧ 0 ≤ capture.locals.dissection.mac_id ∧
      0 ≤ capture.locals.packet_id then [capture.dns_packet]
  else []

/-- The state, and who owns the strings of its tables. -/
structure owned_state_t where
  state : state_t
  names : owned_table_t
  urls : owned_urls_t

def owned_initial_state (target : Target) (domain_whitelist : domain_whitelist_t)
    (bloom_whitelist : bloom_whitelist_t) : owned_state_t where
  state := initial_state target domain_whitelist bloom_whitelist
  names := owned_table_init (some domain_whitelist) bloom_whitelist .empty
  urls := owned_urls_init .empty

/-- The HTTP part of `process_packet`. -/
def process_owned_urls (s : Session) (capture : capture_t) (urls : owned_urls_t) : Option owned_urls_t :=
  if s.target.enable_http_url && decide (0 < capture.locals.dissection.http_bytes_len) then do
    let (_, urls) ← urls.process_http_packet s (capture.frame.bytes.drop capture.locals.dissection.http_bytes)
      capture.locals.dissection.http_bytes_len capture.locals.flow_id
    pure urls
  else some urls

/-- A step of the program, with the calls of `strdup` and `free` that it makes. -/
def owned_step (s : Session) (owned : owned_state_t) (event : main_event) : Option (owned_state_t × main_output) := do
  let (state, output) ← main_step s owned.state event
  match output with
  | .processed capture =>
    let urls ← process_owned_urls s capture owned.urls
    pure (⟨state, capture.dns_packets.foldl (owned_table_t.process_dns_packet s.externals) owned.names, urls⟩, output)
  | .written _ =>
    let names := owned_table_init (some owned.state.domain_whitelist) owned.state.bloom_whitelist
      owned.names.dns_table_destroy
    let urls := if s.target.enable_http_url then owned_urls_init owned.urls.http_table_destroy else owned.urls
    pure (⟨state, names, urls⟩, output)

/-- The names of the entries that an update says were dropped. -/
def update_t.dropped_names (update : update_t) : Int :=
  match update.dns with
  | .dns num_dropped_a_entries num_dropped_cname_entries :: _ => num_dropped_a_entries + 2 * num_dropped_cname_entries
  | _ => 0

/-- The URLs that an update says were dropped. -/
def update_t.dropped_urls (update : update_t) : Int :=
  match update.urls with
  | .urls num_dropped_url_entries :: _ => num_dropped_url_entries
  | _ => 0

/-- The alias records of a run whose data does not expand. -/
def unexpanded (s : Session) (trace : main_trace) : Nat :=
  (((trace.filterMap captured).flatMap capture_t.dns_packets).map (dns_packet_t.unexpanded s.externals)).sum

def reported_names (trace : main_trace) : Int := ((updates trace).map update_t.dropped_names).sum

def reported_urls (trace : main_trace) : Int := ((updates trace).map update_t.dropped_urls).sum

variable {s : Session} {trace : main_trace} {state state' : state_t} {owned : owned_state_t}

theorem unexpanded_processed (event : main_event) (capture : capture_t) :
    unexpanded s (trace ++ [(event, .processed capture)]) =
      unexpanded s trace + (capture.dns_packets.map (dns_packet_t.unexpanded s.externals)).sum := by
  have hlast : [(event, main_output.processed capture)].filterMap captured = [capture] := rfl
  rw [unexpanded, List.filterMap_append, hlast, List.flatMap_append, List.flatMap_singleton, List.map_append,
    List.sum_append]
  rfl

theorem unexpanded_written (event : main_event) (update : update_t) :
    unexpanded s (trace ++ [(event, .written update)]) = unexpanded s trace := by
  have hlast : [(event, main_output.written update)].filterMap captured = [] := rfl
  rw [unexpanded, List.filterMap_append, hlast, List.append_nil]
  rfl

theorem reported_processed (report : update_t → Int) (event : main_event) (capture : capture_t) :
    ((updates (trace ++ [(event, .processed capture)])).map report).sum = ((updates trace).map report).sum := by
  rw [updates_snoc_processed]

theorem reported_written (report : update_t → Int) (event : main_event) (update : update_t) :
    ((updates (trace ++ [(event, .written update)])).map report).sum =
      ((updates trace).map report).sum + report update := by
  rw [updates_snoc_written, List.map_append, List.sum_append, List.map_singleton, List.sum_singleton]

/-- The tables are those of the program, and the lost strings are those of the
entries that were dropped, and those of the aliases that do not expand. -/
structure StringsAccounted (s : Session) (trace : main_trace) (owned : owned_state_t) : Prop where
  names_table : owned.names.table = owned.state.dns_table
  urls_table : owned.urls.table = owned.state.http_table
  names_paired : owned.names.Paired
  names : ∃ before lost, owned.names.Owns before lost ∧ (before : Int) = reported_names trace + unexpanded s trace
  urls : ∃ before lost, owned.urls.Owns before lost ∧ (before : Int) = reported_urls trace

theorem strings_accounted_init (domain_whitelist : domain_whitelist_t) (bloom_whitelist : bloom_whitelist_t) :
    StringsAccounted s [] (owned_initial_state s.target domain_whitelist bloom_whitelist) where
  names_table := rfl
  urls_table := rfl
  names_paired := owned_table_init_paired _ _ _
  names := ⟨0, [], ⟨Ledger.empty_accounts, rfl⟩, rfl⟩
  urls := ⟨0, [], owned_urls_init_owns Ledger.empty_accounts, rfl⟩

/-- Following the strings does not change what is recorded. -/
theorem process_owned_urls_table (capture : capture_t) (urls : owned_urls_t) :
    (process_owned_urls s capture urls).map owned_urls_t.table =
      process_http s capture.frame capture.locals.dissection capture.locals.flow_id urls.table := by
  unfold process_owned_urls process_http
  split
  · rw [← process_http_packet_table]
    cases urls.process_http_packet s (capture.frame.bytes.drop capture.locals.dissection.http_bytes)
      capture.locals.dissection.http_bytes_len capture.locals.flow_id <;> rfl
  · rfl

theorem dns_packets_table (capture : capture_t) (names : owned_table_t) :
    (capture.dns_packets.foldl (owned_table_t.process_dns_packet s.externals) names).table =
      process_dns s capture.frame capture.locals.dissection capture.locals.packet_id names.table := by
  unfold capture_t.dns_packets process_dns
  split
  · exact process_dns_packet_table names capture.dns_packet
  · rfl

/-- A packet loses the strings of what it reports dropped and of aliases that do not expand. -/
theorem StringsAccounted.processed (h : StringsAccounted s trace owned) {capture : capture_t}
    (hpacket : ProcessedPacket s owned.state capture.frame state' capture.locals) (event : main_event) :
    ∃ urls, process_owned_urls s capture owned.urls = some urls ∧
      StringsAccounted s (trace ++ [(event, .processed capture)])
        ⟨state', capture.dns_packets.foldl (owned_table_t.process_dns_packet s.externals) owned.names, urls⟩ := by
  have htable := @process_owned_urls_table s capture owned.urls
  rw [h.urls_table, hpacket.http] at htable
  obtain ⟨urls, hurls, hurls_table⟩ := Option.map_eq_some_iff.mp htable
  obtain ⟨before, lost, hnames, hbefore⟩ := h.names
  obtain ⟨lost', hnames'⟩ := hnames.process_dns_packets capture.dns_packets
  refine ⟨urls, hurls, ?_, hurls_table, ?_, ⟨_, lost', hnames', ?_⟩, ?_⟩
  · rw [dns_packets_table, hpacket.dns, h.names_table]
  · have hpaired (packets : List dns_packet_t) {names : owned_table_t} (hnames : names.Paired) :
        (packets.foldl (owned_table_t.process_dns_packet s.externals) names).Paired := by
      induction packets generalizing names with
      | nil => exact hnames
      | cons packet packets ih => exact ih hnames.process_dns_packet
    exact hpaired _ h.names_paired
  · rw [Nat.cast_add, hbefore, unexpanded_processed, reported_names, reported_names, reported_processed, Nat.cast_add,
      Int.add_assoc]
  · obtain ⟨before, lost, howns, hbefore⟩ := h.urls
    rw [reported_urls, reported_processed, ← reported_urls, ← hbefore]
    unfold process_owned_urls at hurls
    split at hurls
    · obtain ⟨⟨_, processed⟩, hprocess, heq⟩ := Option.bind_eq_some_iff.mp hurls
      obtain rfl := Option.some.inj heq
      obtain ⟨lost', howns'⟩ := howns.process_http_packet hprocess
      exact ⟨before, lost', howns', rfl⟩
    · obtain rfl := Option.some.inj hurls
      exact ⟨before, lost, howns, rfl⟩

/-- An update frees the strings of the tables it has printed. -/
theorem StringsAccounted.written (h : StringsAccounted s trace owned) {io : update_io} {update : update_t}
    (hupdate : Updated s owned.state io state' update) (event : main_event) :
    StringsAccounted s (trace ++ [(event, .written update)])
      ⟨state', owned_table_init (some owned.state.domain_whitelist) owned.state.bloom_whitelist
          owned.names.dns_table_destroy,
        if s.target.enable_http_url then owned_urls_init owned.urls.http_table_destroy else owned.urls⟩ := by
  refine ⟨?_, ?_, owned_table_init_paired _ _ _, ?_, ?_⟩
  · rw [hupdate.reset]
    rfl
  · rw [hupdate.reset]
    dsimp only [reset_state]
    split
    · rfl
    · exact h.urls_table
  · obtain ⟨before, lost, howns, hbefore⟩ := h.names
    obtain ⟨_, _, -, -, hdns⟩ := hupdate.dns
    have hdropped : update.dropped_names =
        owned.names.table.num_dropped_a_entries + 2 * owned.names.table.num_dropped_cname_entries := by
      rw [update_t.dropped_names, hdns, h.names_table]
      rfl
    have hdestroyed : owned.names.dns_table_destroy.Accounts [] lost :=
      (howns.accounts.perm (.of_eq (List.append_nil _).symm)).release_all
    refine ⟨lost.length, lost, ⟨hdestroyed, by simp [owned_table_init, dns_table_init]⟩, ?_⟩
    rw [howns.lost_length, hbefore, unexpanded_written, reported_names, reported_names, reported_written, hdropped]
    ring
  · obtain ⟨before, lost, howns, hbefore⟩ := h.urls
    rw [reported_urls, reported_written, ← reported_urls, ← hbefore]
    obtain ⟨henabled, hurls⟩ | ⟨henabled, lines, -, hurls⟩ := hupdate.urls
    · have hdropped : update.dropped_urls = 0 := by rw [update_t.dropped_urls, hurls]
      rw [henabled, hdropped]
      exact ⟨before, lost, howns, (Int.add_zero _).symm⟩
    · have hdropped : update.dropped_urls = owned.urls.table.num_dropped_url_entries := by
        rw [update_t.dropped_urls, hurls, h.urls_table]
        rfl
      have hdestroyed : owned.urls.http_table_destroy.Accounts [] lost :=
        (howns.accounts.perm (.of_eq (List.append_nil _).symm)).release_all
      rw [henabled, hdropped, ← howns.lost_length]
      exact ⟨lost.length, lost, owned_urls_init_owns hdestroyed, rfl⟩

variable {domain_whitelist : domain_whitelist_t} {bloom_whitelist : bloom_whitelist_t}

/-- Every run has an execution that follows its strings. -/
theorem main_run_strings (run : main_run s domain_whitelist bloom_whitelist trace state) :
    ∃ owned, Execution (owned_step s) (owned_initial_state s.target domain_whitelist bloom_whitelist) trace owned ∧
      owned.state = state ∧ StringsAccounted s trace owned := by
  refine run.invariant (fun trace state => ∃ owned, Execution (owned_step s)
    (owned_initial_state s.target domain_whitelist bloom_whitelist) trace owned ∧ owned.state = state ∧
      StringsAccounted s trace owned) ⟨_, .nil, rfl, strings_accounted_init _ _⟩ ?_
  rintro trace _ event state' output - ⟨owned, hrun, rfl, haccounted⟩ hstep
  obtain ⟨capture, -, rfl, hpacket, -⟩ | ⟨io, -, update, -, rfl, hupdate⟩ := main_step_cases hstep
  · obtain ⟨urls, hurls, hnext⟩ := haccounted.processed hpacket event
    refine ⟨_, hrun.snoc ?_, rfl, hnext⟩
    simp only [owned_step, hstep, Option.bind_eq_bind, Option.bind_some, hurls, Option.pure_def]
  · refine ⟨_, hrun.snoc ?_, rfl, haccounted.written hupdate event⟩
    simp only [owned_step, hstep, Option.bind_eq_bind, Option.bind_some, Option.pure_def]

/-- As long as no signal interrupts an update, no string is freed twice or while
an entry has it, and those never freed are the entries' own, those of the
entries that the updates report as dropped and of the ones dropped since, and
one for each alias that does not expand. -/
theorem strings_freed_or_reported (run : main_run s domain_whitelist bloom_whitelist trace state) :
    ∃ owned, Execution (owned_step s) (owned_initial_state s.target domain_whitelist bloom_whitelist) trace owned ∧
      owned.state = state ∧ owned.names.table = state.dns_table ∧ owned.urls.table = state.http_table ∧
      owned.names.strings.Sound owned.names.held ∧ owned.urls.strings.Sound owned.urls.urls ∧
      (owned.names.strings.outstanding : Int) =
        (state.dns_table.a_entries.items.length + state.dns_table.num_dropped_a_entries) +
          2 * (state.dns_table.cname_entries.items.length + state.dns_table.num_dropped_cname_entries) +
          reported_names trace + unexpanded s trace ∧
      (owned.urls.strings.outstanding : Int) =
        (state.http_table.entries.items.length + state.http_table.num_dropped_url_entries) + reported_urls trace := by
  obtain ⟨owned, hrun, rfl, h⟩ := main_run_strings run
  obtain ⟨before, lost, hnames, hbefore⟩ := h.names
  obtain ⟨before', lost', hurls, hbefore'⟩ := h.urls
  refine ⟨owned, hrun, rfl, h.names_table, h.urls_table, hnames.accounts.sound, hurls.accounts.sound, ?_, ?_⟩
  · rw [hnames.accounts.outstanding, h.names_paired.held_length, Nat.cast_add, hnames.lost_length, hbefore,
    h.names_table]
    push_cast
    ring
  · rw [hurls.accounts.outstanding, hurls.urls_length, Nat.cast_add, hurls.lost_length, hbefore', h.urls_table]
    ring

/-- After a response and an update nothing is held any more. -/
theorem strings_freed_or_reported_response :
    ∃ trace owned, Execution (owned_step initialized_session)
        (owned_initial_state initialized_session.target domain_whitelist_init empty_bloom) trace owned ∧
      (period trace = [] ∧ (updates trace).length = 1) ∧
      (owned.names.strings.outstanding : Int) = reported_names trace + unexpanded initialized_session trace := by
  obtain ⟨capture, state, -, -, run⟩ := @main_run_goes_on_packet initialized_session rfl domain_whitelist_init
    empty_bloom [] _ .nil response_frame
  obtain ⟨update, state', run'⟩ := main_run_goes_on_update rfl run empty_bloom_lookup (healthy_io_healthy 100) rfl rfl
  obtain ⟨owned, hrun, -, -, -, -, -, hnames, -⟩ := strings_freed_or_reported run'
  obtain ⟨_, -, hupdate⟩ := main_run_update run'
  refine ⟨_, owned, hrun, ⟨period_snoc_written _ _ _, ?_⟩, ?_⟩
  · rw [updates_snoc_written, List.length_append, updates_snoc_processed]
    rfl
  · rw [hnames, hupdate.reset]
    simp [reset_state, dns_table_init]

end bismark_passive.main
