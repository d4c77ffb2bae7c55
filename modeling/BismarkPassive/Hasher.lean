import BismarkPassive.AddressTable.Collector
import BismarkPassive.Main.FrequentReader

namespace bismark_passive.hasher

open text

/-! The program of `hasher.c`, which tells how updates name a device -/

/-- What the program gets from its surroundings: the seed file if it can be
opened, how `sscanf` treats what the language leaves open, and what the stack
holds where `mac_address` is. -/
structure hasher_io where
  seed_file : Option (List UInt8)
  library : scan_library
  mac_address : mac_address_t

/-- `':'` -/
def colon : UInt8 := 58

/-- `sscanf(argv[1], "%hhx:%hhx:%hhx:%hhx:%hhx:%hhx", ..)`; the bytes that are
not converted stay as they were. -/
def scan_mac_address (io : hasher_io) (argument : cstring) : mac_address_t :=
  let bytes := scan_bytes io.library colon ETH_ALEN argument
  Vector.ofFn fun i => bytes.getD i (io.mac_address.get i)

/-- `printf("%02hhx:%02hhx:%02hhx:%02hhx:%02hhx:%02hhx\n", ..)` -/
def print_mac_address (mac_address : mac_address_t) : cstring :=
  separated colon (mac_address.toList.map fun byte => hex_digits [byte]) ++ [newline]

/-- The exit status and the standard output. Of the session only the hash
function is used; the anonymiser is the program's own. `none` is a failing
assertion. -/
def hasher_main (s : Session) (io : hasher_io) (argv : List cstring) : Option (Int × cstring) :=
  match argv[1]? with
  | none => some (1, [])
  | some argument =>
    match anonymization_init s.externals io.seed_file with
    | none => some (1, [])
    | some anonymization =>
      (anonymize_mac { s with anonymization := anonymization } (scan_mac_address io argument)).map fun digest =>
        (0, print_mac_address digest)

/-! What it prints is the name with colons -/

theorem colon_ends : Ends [colon] := by
  intro byte hbyte
  obtain rfl : colon = byte := Option.some.inj hbyte
  decide

/-- An address is read back however its bytes are spelled. -/
theorem scan_mac_address_spelled (io : hasher_io) {mac_address : mac_address_t} {spelled : List (List UInt8)}
    (h : List.Forall₂ Spells spelled mac_address.toList) :
    scan_mac_address io (separated colon spelled) = mac_address := by
  have hbytes := scan_bytes_separated io.library colon_ends h
  rw [Vector.length_toList] at hbytes
  apply Vector.ext
  intro i hi
  rw [scan_mac_address, hbytes]
  simp

theorem colon_not_lowerHex {digit : UInt8} (h : LowerHex digit) : digit ≠ colon := by
  rintro rfl
  exact absurd h (by decide)

/-- Without the colons the bytes are printed as digits only. -/
theorem filter_separated (bytes : List UInt8) :
    (separated colon (bytes.map fun byte => hex_digits [byte])).filter (· ≠ colon) = hex_digits bytes := by
  have hdigits (byte : UInt8) : (hex_digits [byte]).filter (· ≠ colon) = hex_digits [byte] := by
    refine List.filter_eq_self.mpr fun digit hdigit => ?_
    simpa using colon_not_lowerHex (lowerHex_hex_digits digit hdigit)
  induction bytes with
  | nil => rfl
  | cons byte bytes ih =>
    have hcons : hex_digits (byte :: bytes) = hex_digits [byte] ++ hex_digits bytes := by
      simp [hex_digits]
    cases bytes with
    | nil => exact hdigits byte
    | cons second bytes =>
      have hseparated : separated colon ((byte :: second :: bytes).map fun byte => hex_digits [byte]) =
          hex_digits [byte] ++ colon :: separated colon ((second :: bytes).map fun byte => hex_digits [byte]) :=
        rfl
      rw [hseparated, List.filter_append, hdigits, List.filter_cons_of_neg (by simp), ih, hcons]

theorem filter_print_mac_address (mac_address : mac_address_t) :
    (print_mac_address mac_address).filter (· ≠ colon) = hex_digits mac_address.toList ++ [newline] := by
  rw [print_mac_address, List.filter_append, filter_separated]
  rfl

/-! The names in updates -/

open main machine address_table device_throughput

section names

variable (s : Session) (hasher : hasher_io)

/-- Whatever way the device's address is spelled, the program prints this name
for it, apart from the colons. -/
def Names (mac_address : mac_address_t) (name : cstring) : Prop :=
  ∀ program spelled, List.Forall₂ Spells spelled mac_address.toList →
    ∃ output, hasher_main s hasher [program, separated colon spelled] = some (0, output) ∧
      output.filter (· ≠ colon) = name ++ [newline]

end names

variable {s : Session} {hasher : hasher_io} {mac_address : mac_address_t} {name : cstring}

/-- The name of the digest is what the program prints. -/
theorem names_digest (hseed : anonymization_init s.externals hasher.seed_file = some s.anonymization)
    {digest : mac_address_t} (hdigest : anonymize_mac s mac_address = some digest)
    (hname : buffer_to_hex digest.toList = some name) : Names s hasher mac_address name := by
  intro program spelled hspelled
  obtain ⟨-, rfl⟩ := buffer_to_hex_eq_some_iff.mp hname
  refine ⟨print_mac_address digest, ?_, filter_print_mac_address digest⟩
  simp only [hasher_main, List.getElem?_cons_succ, List.getElem?_cons_zero, hseed,
    scan_mac_address_spelled hasher hspelled, hdigest, Option.map_some]

theorem names_shown (hanonymized : s.target.disable_anonymization = false)
    (hseed : anonymization_init s.externals hasher.seed_file = some s.anonymization)
    (hname : shown_mac s mac_address = some name) : Names s hasher mac_address name := by
  rw [shown_mac, if_neg (by simp [hanonymized])] at hname
  obtain ⟨digest, hdigest, hhex⟩ := Option.bind_eq_some_iff.mp hname
  exact names_digest hseed hdigest hhex

/-- An address line shows its mapping's device by this name. -/
theorem address_line_shown {entry : address_table_entry_t} {ip : UInt64}
    (h : address_line s entry = some (.address name ip)) : shown_mac s entry.mac_address = some name := by
  unfold address_line at h
  unfold shown_mac
  split at h
  · obtain ⟨mac, hmac, hline⟩ := Option.bind_eq_some_iff.mp h
    obtain ⟨rfl, -⟩ := Line.address.inj (Option.some.inj hline)
    rw [if_pos ‹_›, hmac]
  · obtain ⟨digest_ip, -, h⟩ := Option.bind_eq_some_iff.mp h
    obtain ⟨digest_mac, hdigest, h⟩ := Option.bind_eq_some_iff.mp h
    obtain ⟨mac, hmac, hline⟩ := Option.bind_eq_some_iff.mp h
    obtain ⟨rfl, -⟩ := Line.address.inj (Option.some.inj hline)
    rw [if_neg ‹_›, hdigest]
    exact hmac

/-- A mapping that an update sends was added by a packet before it. -/
theorem address_line_mapping {domain_whitelist : domain_whitelist_t} {bloom_whitelist : bloom_whitelist_t}
    {trace : main_trace} {state : state_t} (run : main_run s domain_whitelist bloom_whitelist trace state)
    {update : update_t} (hupdate : update ∈ updates trace) {ip : UInt64}
    (hline : Line.address name ip ∈ update.addresses) :
    ∃ mapping ∈ mappings trace, address_line s mapping = some (.address name ip) := by
  obtain ⟨⟨event, output⟩, hmem, hwritten⟩ := List.mem_filterMap.mp hupdate
  obtain ⟨before, after, state₀, state₁, rfl, hbefore, hstep⟩ := run.step_of_mem hmem
  obtain ⟨_, rfl, rfl, -⟩ | ⟨io, healthy, written, rfl, rfl, hupdated⟩ := main_step_cases hstep
  · cases hwritten
  · obtain rfl := Option.some.inj hwritten
    obtain ⟨sent, hlogs⟩ := main_run_logs hbefore
    obtain ⟨lines, hlines, haddresses⟩ := hupdated.addresses
    rw [haddresses, address_section, List.cons_append] at hline
    have hmapping : Line.address name ip ∈ lines := by simpa using hline
    obtain ⟨mac_id, hmac_id, hcomposed⟩ := mem_of_map_some hlines hmapping
    have hentry : state₀.address_table.entries (mac_slot mac_id) ∈ unsent (mappings before) sent := by
      rw [← hlogs.added_entries]
      exact List.mem_map_of_mem hmac_id
    refine ⟨_, ?_, hcomposed⟩
    rw [mappings_append]
    exact List.mem_append_left _ (List.mem_of_mem_drop (List.mem_of_mem_drop hentry))

theorem device_line_shown {entry : device_throughput_table_entry_t} {bytes_transferred : Int32}
    (h : device_line s entry = some (.device name bytes_transferred)) :
    shown_mac s entry.mac_address = some name := by
  rw [device_line_eq] at h
  obtain ⟨shown, hshown, hline⟩ := Option.map_eq_some_iff.mp h
  obtain ⟨rfl, -⟩ := frequent_line.device.inj hline
  exact hshown

/-- With the seed of the router the program tells, apart from colons, the name
in each address line for the mapping it was composed from, the name in each
device line for its entry, and the router's. -/
theorem hasher_names_devices {target : Target} {externals : Externals} {build_id : cstring} {io : startup_io}
    {started : started_t} (hstart : startup target externals build_id io = some started)
    (hanonymized : target.disable_anonymization = false) (hseed : hasher.seed_file = io.seed_file) :
    (∀ (domain_whitelist : domain_whitelist_t) trace state,
      main_run started.session domain_whitelist started.bloom_whitelist trace state →
      ∀ update ∈ updates trace, ∀ name ip, Line.address name ip ∈ update.addresses →
        ∃ mapping ∈ mappings trace, address_line started.session mapping = some (.address name ip) ∧
          Names started.session hasher mapping.mac_address name) ∧
    (∀ state frequent name bytes_transferred, some (frequent_line.device name bytes_transferred) ∈
        frequent_update_lines started.session started.bismark_mac state frequent →
      ∃ entry ∈ state.device_throughput_table.entries,
        device_line started.session entry = some (.device name bytes_transferred) ∧
          Names started.session hasher entry.mac_address name) ∧
    (target.enable_frequent_updates = true → ∀ state frequent name, some (frequent_line.router name) ∈
        frequent_update_lines started.session started.bismark_mac state frequent →
      ∃ bismark_id, initialize_bismark_id io = some bismark_id ∧
        Names started.session hasher (scan_bismark_mac io.library bismark_id) name) := by
  obtain ⟨token, anonymization, hstarted⟩ := startup_spec hstart
  have hinit : anonymization_init externals io.seed_file = some anonymization := by
    have hinitialized := hstarted.initialized
    rwa [initialize_anonymization, if_neg (by simp [hanonymized])] at hinitialized
  have hsession : started.session.target.disable_anonymization = false ∧
      anonymization_init started.session.externals hasher.seed_file = some started.session.anonymization := by
    rw [hstarted.session, hseed]
    exact ⟨hanonymized, hinit⟩
  refine ⟨?_, ?_, ?_⟩
  · intro domain_whitelist trace state run update hupdate name ip hline
    obtain ⟨mapping, hmapping, hcomposed⟩ := address_line_mapping run hupdate hline
    exact ⟨mapping, hmapping, hcomposed, names_shown hsession.1 hsession.2 (address_line_shown hcomposed)⟩
  · intro state frequent name bytes_transferred hline
    have hdevice : some (frequent_line.device name bytes_transferred) ∈
        state.device_throughput_table.entries.map (device_line started.session) := by
      simpa [frequent_update_lines, device_throughput_lines] using hline
    obtain ⟨entry, hentry, hcomposed⟩ := List.mem_map.mp hdevice
    exact ⟨entry, hentry, hcomposed, names_shown hsession.1 hsession.2 (device_line_shown hcomposed)⟩
  · intro hupdates state frequent name hline
    have hrouter : buffer_to_hex started.bismark_mac.toList = some name := by
      simp only [frequent_update_lines, List.mem_cons, Option.some.injEq, reduceCtorEq, false_or] at hline
      obtain hrouter | hdevice := hline
      · obtain ⟨mac, hmac, heq⟩ := Option.map_eq_some_iff.mp hrouter.symm
        obtain rfl := frequent_line.router.inj heq
        exact hmac
      · obtain ⟨entry, -, hcomposed⟩ : ∃ entry ∈ state.device_throughput_table.entries,
            device_line started.session entry = some (.router name) := by
          simpa [device_throughput_lines] using hdevice
        rw [device_line_eq] at hcomposed
        obtain ⟨_, _, heq⟩ := Option.map_eq_some_iff.mp hcomposed
        cases heq
    refine ⟨token, hstarted.bismark_id, names_digest hsession.2 ?_ hrouter⟩
    have hmac := hstarted.bismark_mac
    rwa [router_mac, if_pos (by rw [hstarted.session]; exact hupdates)] at hmac

/-- The program run on the router itself. -/
def router_hasher : hasher_io where
  seed_file := first_start.seed_file
  library := first_start.library
  mac_address := Vector.replicate ETH_ALEN 0

/-- A device with the address 01:01:01:01:01:01 is asked for. -/
theorem hasher_names_devices_first_start :
    ∃ started name output,
      startup anonymizing_session.target anonymizing_session.externals [49] first_start = some started ∧
      device_line started.session ⟨router, 100⟩ = some (.device name 100) ∧
      hasher_main started.session router_hasher [[], separated colon (List.replicate ETH_ALEN [48, 49])] =
        some (0, output) ∧
      output.filter (· ≠ colon) = name ++ [newline] := by
  obtain ⟨started, hstart, hinitialized, -, -⟩ := startup_first_start
  obtain ⟨-, hdevices, -⟩ := @hasher_names_devices router_hasher _ _ _ _ _ hstart rfl rfl
  have hshown := shown_mac_isSome (s := started.session) (fun _ => hinitialized) router
  obtain ⟨name, hname⟩ := Option.isSome_iff_exists.mp hshown
  have hline : device_line started.session ⟨router, 100⟩ = some (.device name 100) := by
    rw [device_line_eq, hname]
    rfl
  obtain ⟨entry, hentry, -, hnames⟩ := hdevices
    { initial_state anonymizing_session.target domain_whitelist_init empty_bloom with
      device_throughput_table := ⟨[⟨router, 100⟩]⟩ } healthy_frequent_io name 100
    (by simp [frequent_update_lines, device_throughput_lines, hline])
  obtain rfl := List.mem_singleton.mp hentry
  have hspelled : List.Forall₂ Spells (List.replicate ETH_ALEN [48, 49]) router.toList := by
    have hdigits : Spells [48, 49] 1 := ⟨List.cons_ne_nil _ _, by decide, List.all_eq_true.mp (by decide)⟩
    have hrouter : router.toList = [1, 1, 1, 1, 1, 1] := rfl
    rw [hrouter]
    exact .cons hdigits (.cons hdigits (.cons hdigits (.cons hdigits (.cons hdigits (.cons hdigits .nil)))))
  obtain ⟨output, houtput, hfilter⟩ := hnames [] _ hspelled
  exact ⟨started, name, output, hstart, hline, houtput, hfilter⟩

end bismark_passive.hasher
