import BismarkPassive.Hasher
import BismarkPassive.Main.Devices
import BismarkPassive.Sha1.Calls

namespace bismark_passive

open main machine flow_table address_table dns http device_throughput

/-! The program with `sha1.c` and with the keyed hash of the standard -/

/-- What is in the array that a function has written its output to. -/
def digest_of (output : List UInt8) : digest_t := Vector.ofFn fun i => output.getD i 0

def standard_hmac (key data : List UInt8) : digest_t := digest_of (sha1_standard.hmac key data)

/-- `sha1_hmac` of `sha1.c`, where the stack holds these contexts for the call.
Calls with the same key and data find the same on the stack. -/
def linked_hmac {w : Nat} (stack : List UInt8 → List UInt8 → polarssl.sha1_context w × polarssl.sha1_context w)
    (key data : List UInt8) : digest_t :=
  digest_of (polarssl.sha1_hmac (stack key data).1 (stack key data).2 key data)

theorem linked_hmac_eq {w : Nat} (hw : 32 ≤ w)
    (stack : List UInt8 → List UInt8 → polarssl.sha1_context w × polarssl.sha1_context w) {key data : List UInt8}
    (hkey : key.length < 2 ^ 32) (hdata : data.length < 2 ^ 32) :
    linked_hmac stack key data = standard_hmac key data :=
  congrArg digest_of (polarssl.sha1_hmac_keyed_digest hw _ _ hkey hdata)

def main.started_t.linked (hash : List UInt8 → List UInt8 → digest_t) (started : started_t) : started_t :=
  { started with session := started.session.linked hash }

variable {s : Session} {hash : List UInt8 → List UInt8 → digest_t}

/-- The size of the buffers that names are expanded to. Everything that the
program hashes is shorter. -/
def MAXDNAME : Nat := 1025

/-- The other hash gives the same digest to all that the program hashes. -/
def SameHash (s : Session) (hash : List UInt8 → List UInt8 → digest_t) : Prop :=
  ∀ data, data.length < MAXDNAME → SameDigest s (s.linked hash) data

/-- The names fit into the buffers. -/
abbrev NamesFit (table : dns_table_t) : Prop := NamesAre (fun name => name.length < MAXDNAME) table

/-- The two hashes agree on every address. -/
theorem SameHash.addresses (h : SameHash s hash) : SameAddresses s hash := by
  intro address
  have hlength : (s.target.bytes32 address).length = 4 := by
    unfold Target.bytes32
    split <;> rfl
  apply h
  rw [hlength]
  decide

theorem SameHash.names (h : SameHash s hash) {table : dns_table_t} (hnames : NamesFit table) :
    SameNameDigests s hash table where
  a_entries entry hentry := h _ (hnames.a_entries entry hentry)
  cname_entries entry hentry := ⟨h _ (hnames.cname_entries entry hentry).1, h _ (hnames.cname_entries entry hentry).2⟩

theorem SameHash.anonymize_mac (h : SameHash s hash) (mac : mac_address_t) :
    anonymize_mac (s.linked hash) mac = anonymize_mac s mac := by
  apply anonymize_mac_same
  apply h
  rw [Vector.length_toList]
  decide

/-- The two hashes agree on every URL that a packet can request. -/
theorem SameHash.requested_url (h : SameHash s hash) {bytes : List UInt8} {url : cstring}
    (hurl : requested_url bytes = some url) : SameDigest s (s.linked hash) url := by
  obtain ⟨⟨method, whole⟩, -, hcut⟩ := Option.bind_eq_some_iff.mp hurl
  obtain ⟨-, hcut⟩ := Option.ite_none_right_eq_some.mp hcut
  obtain rfl := Option.some.inj hcut
  have hlimits : MAX_URL = 1024 ∧ MAXDNAME = 1025 := ⟨rfl, rfl⟩
  apply h
  split
  · rw [List.length_take]
    omega
  · omega

/-- The other hash writes the same update. -/
theorem SameHash.write_update (h : SameHash s hash) {state : state_t} (hnames : NamesFit state.dns_table)
    (io : update_io) : write_update (s.linked hash) state io = write_update s state io := by
  have haddress (entry : address_table_entry_t) : address_line (s.linked hash) entry = address_line s entry := by
    rw [address_line, address_line, anonymize_ip_linked h.addresses, h.anonymize_mac]
    rfl
  have haddresses : address_table_write_update (s.linked hash) state.address_table =
      address_table_write_update s state.address_table := by
    funext handle
    simp only [address_table_write_update, haddress]
  rw [main.write_update, main.write_update, flow_table_write_update_linked h.addresses, haddresses,
    dns_table_write_update_linked h.addresses (h.names hnames)]
  rfl

/-- The other hash shows the same lines in a frequent update. -/
theorem SameHash.frequent_update_lines (h : SameHash s hash) (bismark_mac : mac_address_t) (state : state_t)
    (io : frequent_io) :
    frequent_update_lines (s.linked hash) bismark_mac state io = frequent_update_lines s bismark_mac state io := by
  have hdevice (entry : device_throughput_table_entry_t) :
      device_line (s.linked hash) entry = device_line s entry := by
    rw [device_line, device_line, h.anonymize_mac]
    rfl
  have hdevices : device_throughput_lines (s.linked hash) state.device_throughput_table =
      device_throughput_lines s state.device_throughput_table := by
    rw [device_throughput_lines, device_throughput_lines, List.map_congr_left fun entry _ => hdevice entry]
  rw [main.frequent_update_lines, main.frequent_update_lines, hdevices]

theorem SameHash.write_frequent_update (h : SameHash s hash) (bismark_mac : mac_address_t) (state : state_t)
    (io : frequent_io) :
    write_frequent_update (s.linked hash) bismark_mac state io = write_frequent_update s bismark_mac state io := by
  rw [main.write_frequent_update, main.write_frequent_update, h.frequent_update_lines]

/-- With the other hash a packet leads to the same state. -/
theorem SameHash.process_packet (h : SameHash s hash) (state : state_t) (frame : frame_t) :
    process_packet (s.linked hash) state frame = process_packet s state frame := by
  have hhttp (dissection : dissection_t) (flow_id : UInt16) :
      process_http (s.linked hash) frame dissection flow_id state.http_table =
        process_http s frame dissection flow_id state.http_table := by
    rw [process_http, process_http, process_http_packet_linked fun url hurl => h.requested_url hurl]
    rfl
  unfold main.process_packet
  simp only [process_dns_linked, hhttp]
  rfl

/-! Whole runs -/

theorem SameHash.main_step (h : SameHash s hash) {state : state_t} (hnames : NamesFit state.dns_table)
    (event : main_event) : main_step (s.linked hash) state event = main_step s state event := by
  cases event with
  | process_packet frame =>
    rw [main.main_step, main.main_step, h.process_packet]
    rfl
  | write_update io healthy => rw [main.main_step, main.main_step, h.write_update hnames]

/-- What `dn_expand` promises about lengths: it fails on a name that does not
fit into the buffer of its caller. -/
def ExpandsToFit (expand : List UInt8 → Nat → Option (cstring × Nat)) : Prop :=
  ExpandsTo (fun name => name.length < MAXDNAME) expand

theorem SameHash.keeps_run (h : SameHash s hash) (hexpand : ExpandsToFit s.externals.dn_expand)
    {domain_whitelist : domain_whitelist_t} {bloom_whitelist : bloom_whitelist_t} {trace : main_trace}
    {state : state_t} (run : main_run s domain_whitelist bloom_whitelist trace state) :
    main_run (s.linked hash) domain_whitelist bloom_whitelist trace state := by
  induction run with
  | nil => exact .nil
  | snoc run hstep ih => exact ih.snoc ((h.main_step (main_run_names hexpand run) _).trans hstep)

theorem SameHash.symm (h : SameHash s hash) : SameHash (s.linked hash) s.externals.sha1_hmac :=
  fun data hdata => (h data hdata).symm

theorem SameHash.main_run_iff (h : SameHash s hash) (hexpand : ExpandsToFit s.externals.dn_expand)
    {domain_whitelist : domain_whitelist_t} {bloom_whitelist : bloom_whitelist_t} {trace : main_trace}
    {state : state_t} :
    main_run (s.linked hash) domain_whitelist bloom_whitelist trace state ↔
      main_run s domain_whitelist bloom_whitelist trace state :=
  ⟨h.symm.keeps_run hexpand, h.keeps_run hexpand⟩

/-- What a step publishes is the same, too. -/
theorem SameHash.publish_step (h : SameHash s hash) {state : state_t} (hnames : NamesFit state.dns_table)
    (bismark_mac : mac_address_t) (event : program_event) :
    publish_step (s.linked hash) bismark_mac state event = publish_step s bismark_mac state event := by
  cases event with
  | process_packet frame => rw [main.publish_step, main.publish_step, h.process_packet]
  | write_update io => rw [main.publish_step, main.publish_step, h.write_update hnames]
  | write_frequent_update io =>
    rw [main.publish_step, main.publish_step, h.write_frequent_update, h.frequent_update_lines]
    rfl

/-- A run that publishes with the one hash publishes the same with the other. -/
theorem SameHash.keeps_published (h : SameHash s hash) (hexpand : ExpandsToFit s.externals.dn_expand)
    {bismark_mac : mac_address_t} {domain_whitelist : domain_whitelist_t} {bloom_whitelist : bloom_whitelist_t}
    {trace : List (program_event × published_t)} {state : state_t}
    (run : Execution (main.publish_step s bismark_mac) (initial_state s.target domain_whitelist bloom_whitelist)
      trace state) :
    Execution (main.publish_step (s.linked hash) bismark_mac) (initial_state s.target domain_whitelist bloom_whitelist)
      trace state := by
  obtain ⟨other, run', rfl, -⟩ := run.followed (fun _ => True)
    (fun state other => state = other ∧ NamesFit state.dns_table) ⟨rfl, NamesAre.init⟩ (by
      rintro state _ event next published ⟨rfl, hnames⟩ - hstep
      exact ⟨next, (h.publish_step hnames bismark_mac event).trans hstep, rfl,
        publish_step_names hexpand hnames hstep⟩) fun _ _ => trivial
  exact run'

/-- The two hashes publish the same in the same runs. -/
theorem SameHash.published_iff (h : SameHash s hash) (hexpand : ExpandsToFit s.externals.dn_expand)
    {bismark_mac : mac_address_t} {domain_whitelist : domain_whitelist_t} {bloom_whitelist : bloom_whitelist_t}
    {trace : List (program_event × published_t)} {state : state_t} :
    Execution (main.publish_step (s.linked hash) bismark_mac) (initial_state s.target domain_whitelist bloom_whitelist)
        trace state ↔
      Execution (main.publish_step s bismark_mac) (initial_state s.target domain_whitelist bloom_whitelist)
        trace state :=
  ⟨h.symm.keeps_published hexpand, h.keeps_published hexpand⟩

/-! From the start of the process on -/

section start

variable {hash' : List UInt8 → List UInt8 → digest_t}

/-- The hashes agree on what the program can hash. -/
def HashesAgree (hash hash' : List UInt8 → List UInt8 → digest_t) : Prop :=
  ∀ key data, key.length = ANONYMIZATION_SEED_LEN → data.length < MAXDNAME → hash' key data = hash key data

theorem HashesAgree.same (h : HashesAgree hash hash') (hseed : s.anonymization.seed.length = ANONYMIZATION_SEED_LEN) :
    SameHash (s.linked hash) hash' := by
  intro data hdata
  have hdigest : hash' s.anonymization.seed data = hash s.anonymization.seed data := h _ _ hseed hdata
  change (if s.anonymization.initialized then some (hash' s.anonymization.seed data) else none) = _
  rw [hdigest]
  rfl

variable {target : Target} {externals : Externals} {build_id : cstring} {io : startup_io} {started : started_t}

/-- The seed's digest is the same. -/
theorem HashesAgree.anonymization_init (h : HashesAgree hash hash') (seed_file : Option (List UInt8)) :
    anonymization_init (externals.linked hash') seed_file = anonymization_init (externals.linked hash) seed_file := by
  unfold bismark_passive.anonymization_init
  congr 1
  funext contents
  split
  · rfl
  · rename_i hlong
    have hlength : (contents.take ANONYMIZATION_SEED_LEN).length = ANONYMIZATION_SEED_LEN :=
      List.length_take_of_le (Nat.le_of_not_lt hlong)
    have hshort : (contents.take ANONYMIZATION_SEED_LEN).length < MAXDNAME := by
      rw [hlength]
      decide
    have hdigest := h _ _ hlength hshort
    simp only [Externals.linked, hdigest]

/-- A seed that was loaded has its full length. -/
theorem anonymization_init_seed_length {seed_file : Option (List UInt8)} {anonymization : anonymization_t}
    (h : anonymization_init externals seed_file = some anonymization) :
    anonymization.seed.length = ANONYMIZATION_SEED_LEN := by
  simp only [anonymization_init, Option.bind_eq_bind, Option.bind_eq_some_iff] at h
  obtain ⟨contents, -, h⟩ := h
  split at h
  · cases h
  · rename_i hlong
    simp only [Option.bind_eq_some_iff, Option.pure_def, Option.some.injEq] at h
    obtain ⟨_, -, rfl⟩ := h
    exact List.length_take_of_le (Nat.le_of_not_lt hlong)

/-- So has the seed that the program starts with. -/
theorem initialize_anonymization_seed_length {seed_file : Option (List UInt8)} {anonymization : anonymization_t}
    (h : initialize_anonymization target externals seed_file = some anonymization) :
    anonymization.seed.length = ANONYMIZATION_SEED_LEN := by
  unfold initialize_anonymization at h
  split at h
  · obtain rfl := Option.some.inj h
    exact List.length_replicate
  · exact anonymization_init_seed_length h

theorem startup_session (h : startup target (externals.linked hash) build_id io = some started) :
    (∃ unlinked : Session, started.session = unlinked.linked hash ∧ unlinked.externals = externals) ∧
      started.session.anonymization.seed.length = ANONYMIZATION_SEED_LEN := by
  obtain ⟨token, anonymization, hstarted⟩ := startup_spec h
  rw [hstarted.session]
  exact ⟨⟨session_of target externals build_id io token anonymization, rfl, rfl⟩,
    initialize_anonymization_seed_length hstarted.initialized⟩

/-- The process starts the same way with either hash. -/
theorem HashesAgree.startup (h : HashesAgree hash hash') :
    startup target (externals.linked hash') build_id io =
      (startup target (externals.linked hash) build_id io).map (started_t.linked hash') := by
  have hinit : initialize_anonymization target (externals.linked hash') io.seed_file =
      initialize_anonymization target (externals.linked hash) io.seed_file := by
    rw [initialize_anonymization, h.anonymization_init]
    rfl
  have hrouter {token : List UInt8} {anonymization : anonymization_t}
      (hanonymization : initialize_anonymization target (externals.linked hash) io.seed_file = some anonymization)
      (mac : mac_address_t) :
      router_mac (session_of target (externals.linked hash') build_id io token anonymization) mac =
        router_mac (session_of target (externals.linked hash) build_id io token anonymization) mac := by
    have hsame : SameHash ((session_of target externals build_id io token anonymization).linked hash) hash' :=
      h.same (initialize_anonymization_seed_length hanonymization)
    have hmac := hsame.anonymize_mac mac
    unfold router_mac
    exact congrArg (fun shown => if target.enable_frequent_updates then shown else some mac) hmac
  unfold main.startup
  rw [hinit]
  cases initialize_bismark_id io with
  | none => rfl
  | some token =>
    cases load_whitelist io with
    | none => rfl
    | some domain_whitelist =>
      cases hanonymization : initialize_anonymization target (externals.linked hash) io.seed_file with
      | none => rfl
      | some anonymization =>
        simp only [Option.bind_eq_bind, Option.bind_some, hrouter hanonymization, Option.map_bind]
        rfl

theorem HashesAgree.hasher_main (h : HashesAgree hash hash') (s : Session) (io : hasher.hasher_io)
    (argv : List cstring) :
    hasher.hasher_main (s.linked hash') io argv = hasher.hasher_main (s.linked hash) io argv := by
  have hinit := @HashesAgree.anonymization_init _ _ s.externals h io.seed_file
  unfold hasher.hasher_main
  split
  · rfl
  · simp only [Session.linked, hinit]
    split
    · rfl
    · rename_i argument _ _ anonymization hanonymization
      have hseed : anonymization.seed.length = ANONYMIZATION_SEED_LEN := anonymization_init_seed_length hanonymization
      have hsame : SameHash ({ s with anonymization := anonymization }.linked hash) hash' := h.same hseed
      exact congrArg (Option.map _) (hsame.anonymize_mac (hasher.scan_mac_address io argument))

end start

/-- Linked with the `sha1_hmac` of `sha1.c`, whatever the stack holds where it
is called and however wide an `unsigned long` is, the process starts as with
the keyed hash of the standard, has the same runs with the same updates and the
same lines in frequent updates, and the hasher prints the same. -/
theorem hmac_is_standard {w : Nat} (hw : 32 ≤ w)
    (stack : List UInt8 → List UInt8 → polarssl.sha1_context w × polarssl.sha1_context w) {target : Target}
    {externals : Externals} (hexpand : ExpandsToFit externals.dn_expand) (build_id : cstring) (io : startup_io) :
    startup target (externals.linked standard_hmac) build_id io =
        (startup target (externals.linked (linked_hmac stack)) build_id io).map (started_t.linked standard_hmac) ∧
      (∀ started, startup target (externals.linked (linked_hmac stack)) build_id io = some started →
        (∀ domain_whitelist bloom_whitelist trace state,
          main_run (started.session.linked standard_hmac) domain_whitelist bloom_whitelist trace state ↔
            main_run started.session domain_whitelist bloom_whitelist trace state) ∧
        (∀ bismark_mac domain_whitelist bloom_whitelist trace state,
          Execution (publish_step (started.session.linked standard_hmac) bismark_mac)
              (initial_state started.session.target domain_whitelist bloom_whitelist) trace state ↔
            Execution (publish_step started.session bismark_mac)
              (initial_state started.session.target domain_whitelist bloom_whitelist) trace state) ∧
        ∀ bismark_mac state io,
          frequent_update_lines (started.session.linked standard_hmac) bismark_mac state io =
              frequent_update_lines started.session bismark_mac state io ∧
            write_frequent_update (started.session.linked standard_hmac) bismark_mac state io =
              write_frequent_update started.session bismark_mac state io) ∧
      ∀ (s : Session) io argv, hasher.hasher_main (s.linked standard_hmac) io argv =
        hasher.hasher_main (s.linked (linked_hmac stack)) io argv := by
  have hagree : HashesAgree (linked_hmac stack) standard_hmac := by
    intro key data hkey hdata
    have hlimits : ANONYMIZATION_SEED_LEN = 16 ∧ MAXDNAME = 1025 := ⟨rfl, rfl⟩
    exact (linked_hmac_eq hw stack (by omega) (by omega)).symm
  refine ⟨hagree.startup, fun started hstart => ?_, hagree.hasher_main⟩
  obtain ⟨⟨unlinked, hsession, rfl⟩, hseed⟩ := startup_session hstart
  rw [hsession] at hseed ⊢
  have hsame : SameHash (unlinked.linked (linked_hmac stack)) standard_hmac := hagree.same hseed
  rw [← unlinked.linked_dn_expand (linked_hmac stack)] at hexpand
  refine ⟨fun _ _ _ _ => hsame.main_run_iff hexpand, fun _ _ _ _ _ => hsame.published_iff hexpand, ?_⟩
  exact fun bismark_mac state io =>
    ⟨hsame.frequent_update_lines bismark_mac state io, hsame.write_frequent_update bismark_mac state io⟩

/-- The stack holds the same before every call. -/
def leftover_stack (_ _ : List UInt8) : polarssl.sha1_context 64 × polarssl.sha1_context 64 :=
  (polarssl.leftover_context, polarssl.leftover_context)

theorem expandsToFit_first_start : ExpandsToFit anonymizing_session.externals.dn_expand := by
  intro message offset name length h
  obtain ⟨-, h⟩ := Option.ite_none_right_eq_some.mp h
  obtain ⟨rfl, -⟩ := Prod.mk.inj (Option.some.inj h)
  decide

/-- This start succeeds with any keyed hash. -/
theorem startup_linked_first_start (hash : List UInt8 → List UInt8 → digest_t) :
    ∃ started, startup anonymizing_session.target (anonymizing_session.externals.linked hash) [49] first_start =
      some started ∧ started.session.anonymization.initialized = true := by
  have hlength (digest : digest_t) : digest.toList.length ≤ 1023 := by
    rw [Vector.length_toList]
    decide
  obtain ⟨hex_digest, hhex⟩ := Option.isSome_iff_exists.mp (buffer_to_hex_isSome (hlength
    (hash (List.replicate ANONYMIZATION_SEED_LEN 0) (List.replicate ANONYMIZATION_SEED_LEN 0))))
  have hinit : initialize_anonymization anonymizing_session.target (anonymizing_session.externals.linked hash)
      first_start.seed_file = some ⟨List.replicate ANONYMIZATION_SEED_LEN 0, hex_digest, true⟩ :=
    congrArg
      (Option.bind · fun hex => some (anonymization_t.mk (List.replicate ANONYMIZATION_SEED_LEN 0) hex true)) hhex
  unfold main.startup
  rw [hinit]
  exact ⟨_, rfl, rfl⟩

theorem hmac_is_standard_first_start :
    ∃ started trace state,
      startup anonymizing_session.target (anonymizing_session.externals.linked (linked_hmac leftover_stack)) [49]
        first_start = some started ∧
      startup anonymizing_session.target (anonymizing_session.externals.linked standard_hmac) [49] first_start =
        some (started.linked standard_hmac) ∧
      trace.map Prod.fst = [.process_packet (tcp_frame 0)] ∧
      main_run (started.session.linked standard_hmac) domain_whitelist_init started.bloom_whitelist trace state := by
  obtain ⟨started, hstart, hinitialized⟩ := startup_linked_first_start (linked_hmac leftover_stack)
  obtain ⟨capture, state, -, -, run⟩ := @main_run_goes_on_packet started.session hinitialized domain_whitelist_init
    started.bloom_whitelist [] _ .nil (tcp_frame 0)
  obtain ⟨hstandard, hruns, -⟩ := @hmac_is_standard _ (by decide) leftover_stack anonymizing_session.target _
    expandsToFit_first_start [49] first_start
  rw [hstart] at hstandard
  exact ⟨started, _, state, hstart, hstandard, rfl, ((hruns started hstart).1 _ _ _ _).mpr run⟩

end bismark_passive
