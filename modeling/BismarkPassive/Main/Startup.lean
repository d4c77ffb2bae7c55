import BismarkPassive.Main.Assertions
import BismarkPassive.Text.Rows
import BismarkPassive.Text.ScanHex
import BismarkPassive.Whitelist.File

namespace bismark_passive.main

open text

/-! What `main` does before it starts capturing -/

/-- What the start of the process gets from its surroundings: the clock, the
contents of the files that can be opened, and how `sscanf` treats what the
language leaves open. There is no whitelist without a second argument. -/
structure startup_io where
  start_timeval : timeval
  bismark_id : Option (List UInt8)
  library : scan_library
  domain_whitelist : Option whitelist_io
  filter : filter_io
  seed_file : Option (List UInt8)

/-- The width in `"%14s\n"`. -/
def BISMARK_ID_LENGTH : Nat := 14

/-- The bytes that `initialize_bismark_id` stores in `bismark_id`, which are
followed by zeros. -/
def initialize_bismark_id (io : startup_io) : Option (List UInt8) :=
  io.bismark_id.bind fun file => (scan_string BISMARK_ID_LENGTH file).1

/-- The string in a buffer with zeros behind these bytes. -/
def string_at (bytes : List UInt8) : cstring := bytes.takeWhile (· != 0)

/-- `bismark_mac`, where the bytes that are not converted stay zero. -/
def scan_bismark_mac (library : scan_library) (bismark_id : List UInt8) : mac_address_t :=
  let bytes := scan_pairs library ETH_ALEN (string_at (bismark_id.drop 2))
  Vector.ofFn fun i => bytes.getD i 0

/-- `main` goes on when the whitelist cannot be loaded. -/
def load_whitelist (io : startup_io) : Option domain_whitelist_entries :=
  match io.domain_whitelist with
  | none => some domain_whitelist_entries_init
  | some whitelist => (initialize_domain_whitelist whitelist).map Prod.snd

/-- What the start leaves for the capture. -/
structure started_t where
  session : Session
  bismark_mac : mac_address_t
  domain_whitelist : domain_whitelist_entries
  bloom_whitelist : bloom_whitelist_t

def session_of (target : Target) (externals : Externals) (build_id : cstring) (io : startup_io)
    (bismark_id : List UInt8) (anonymization : anonymization_t) : Session where
  target := target
  externals := externals
  build_id := build_id
  bismark_id := string_at bismark_id
  start_timestamp_microseconds := io.start_timeval.microseconds
  anonymization := anonymization

/-- The address of the router as it is printed. -/
def router_mac (s : Session) (bismark_mac : mac_address_t) : Option mac_address_t :=
  if s.target.enable_frequent_updates then anonymize_mac s bismark_mac else some bismark_mac

/-- `none` when the process exits or dies before it initialises the tables. -/
def startup (target : Target) (externals : Externals) (build_id : cstring) (io : startup_io) : Option started_t := do
  let bismark_id ← initialize_bismark_id io
  let domain_whitelist ← load_whitelist io
  let anonymization ← initialize_anonymization target externals io.seed_file
  let session := session_of target externals build_id io bismark_id anonymization
  let bismark_mac ← router_mac session (scan_bismark_mac io.library bismark_id)
  pure
    { session := session
      bismark_mac := bismark_mac
      domain_whitelist := domain_whitelist
      bloom_whitelist := (initialize_bloom_whitelist io.filter).2 }

section spec

variable (target : Target) (externals : Externals) (build_id : cstring) (io : startup_io)

/-- What a process that gets to the capture has found and made of it. -/
structure StartedFrom (token : List UInt8) (anonymization : anonymization_t) (started : started_t) : Prop where
  bismark_id : initialize_bismark_id io = some token
  initialized : initialize_anonymization target externals io.seed_file = some anonymization
  session : started.session = session_of target externals build_id io token anonymization
  bismark_mac : router_mac started.session (scan_bismark_mac io.library token) = some started.bismark_mac
  domain_whitelist : load_whitelist io = some started.domain_whitelist
  bloom_whitelist : started.bloom_whitelist = (initialize_bloom_whitelist io.filter).2

end spec

variable {target : Target} {externals : Externals} {build_id : cstring} {io : startup_io} {started : started_t}

theorem startup_spec (h : startup target externals build_id io = some started) :
    ∃ bismark_id anonymization, StartedFrom target externals build_id io bismark_id anonymization started := by
  simp only [startup, Option.bind_eq_bind, Option.bind_eq_some_iff, Option.pure_def, Option.some.injEq] at h
  obtain ⟨bismark_id, hid, whitelist, hwhitelist, anonymization, hanonymization, bismark_mac, hmac, rfl⟩ := h
  exact ⟨bismark_id, anonymization, hid, hanonymization, rfl, hmac, hwhitelist, rfl⟩

/-! The names that the session consists of -/

/-- `%s` stops at white space. -/
theorem scan_string_not_space {width : Nat} {file token rest : List UInt8}
    (h : scan_string width file = (some token, rest)) : ∀ byte ∈ token, isspace byte = false := by
  unfold scan_string at h
  obtain ⟨htoken, -⟩ := Prod.mk.inj h
  split at htoken
  · cases htoken
  · obtain rfl := Option.some.inj htoken
    intro byte hbyte
    simpa using List.mem_takeWhile_imp (List.mem_of_mem_take hbyte)

/-- The id is one word. -/
theorem initialize_bismark_id_word {token : List UInt8} (h : initialize_bismark_id io = some token) :
    Unspaced (string_at token) := by
  obtain ⟨file, -, hscan⟩ := Option.bind_eq_some_iff.mp h
  have hbytes (byte : UInt8) (hbyte : byte ∈ string_at token) : isspace byte = false :=
    scan_string_not_space (Prod.ext hscan rfl) byte ((List.takeWhile_sublist _).subset hbyte)
  constructor
  · intro hmem
    exact absurd (hbytes space hmem) (by decide)
  · intro hmem
    exact absurd (hbytes newline hmem) (by decide)

/-- The seed is shown in lower-case hexadecimal digits. -/
theorem initialize_anonymization_lowerHex {seed_file : Option (List UInt8)} {anonymization : anonymization_t}
    (h : initialize_anonymization target externals seed_file = some anonymization) :
    ∀ digit ∈ anonymization.seed_hex_digest, LowerHex digit := by
  unfold initialize_anonymization at h
  split at h
  · obtain rfl := Option.some.inj h
    exact fun _ hdigit => absurd hdigit List.not_mem_nil
  · simp only [anonymization_init, Option.bind_eq_bind, Option.bind_eq_some_iff] at h
    obtain ⟨contents, -, h⟩ := h
    split at h
    · cases h
    · simp only [Option.bind_eq_some_iff, Option.pure_def, Option.some.injEq] at h
      obtain ⟨hex_digest, hhex, rfl⟩ := h
      obtain ⟨-, rfl⟩ := buffer_to_hex_eq_some_iff.mp hhex
      exact lowerHex_hex_digits

/-! The whitelist consists of lines, even if memory runs out while it is loaded -/

/-- The name can be printed on a line of its own. -/
def Listable (name : cstring) : Prop := name ≠ [] ∧ newline ∉ name

/-- A line of the whitelist file is neither empty nor broken. -/
theorem next_token_listable {contents token rest : cstring} (h : next_token newline contents = some (token, rest)) :
    Listable token := by
  unfold next_token at h
  split at h
  · cases h
  · rename_i byte behind hskipped
    obtain ⟨rfl, -⟩ := Prod.mk.inj (Option.some.inj h)
    have hbyte : byte ≠ newline := by
      have hhead := List.head?_dropWhile_not (· == newline) contents
      rw [hskipped] at hhead
      simpa using hhead
    refine ⟨?_, not_mem_takeWhile _⟩
    rw [List.takeWhile_cons_of_pos (by simpa using hbyte)]
    exact List.cons_ne_nil _ _

/-- So is each copy of one. -/
theorem copy_lines_listable {allocated : allocations} {num_lines call : Nat} {contents : cstring} {result : Int}
    {domains : List (Option cstring)} (h : copy_lines allocated num_lines call contents = some (result, domains)) :
    ∀ name, some name ∈ domains → Listable name := by
  induction num_lines generalizing call contents result domains with
  | zero =>
    obtain ⟨-, rfl⟩ := Prod.mk.inj (Option.some.inj h)
    exact fun _ hmem => absurd hmem List.not_mem_nil
  | succ num_lines ih =>
    rw [copy_lines] at h
    obtain ⟨⟨line, rest⟩, htoken, h⟩ := Option.bind_eq_some_iff.mp h
    simp only at h
    split at h
    · obtain ⟨⟨result', domains'⟩, hrest, h⟩ := Option.bind_eq_some_iff.mp h
      obtain ⟨-, rfl⟩ := Prod.mk.inj (Option.some.inj h)
      intro name hmem
      obtain heq | hmem := List.mem_cons.mp hmem
      · obtain rfl := Option.some.inj heq
        exact next_token_listable htoken
      · exact ih hrest name hmem
    · obtain ⟨-, rfl⟩ := Prod.mk.inj (Option.some.inj h)
      intro name hmem
      cases List.eq_of_mem_replicate hmem

/-- So is each domain loaded from the file's contents. -/
theorem load_duplicates_listable {allocated : allocations} {first_contents second_contents : cstring} {result : Int}
    {whitelist : domain_whitelist_entries}
    (h : load_duplicates allocated first_contents second_contents = some (result, whitelist)) :
    ∀ name, some name ∈ whitelist.domains → Listable name := by
  unfold load_duplicates at h
  simp only at h
  split at h
  · split at h
    · obtain ⟨-, rfl⟩ := Prod.mk.inj (Option.some.inj h)
      exact fun _ hmem => absurd hmem List.not_mem_nil
    · split at h
      · obtain ⟨⟨result', domains⟩, hcopied, heq⟩ := Option.map_eq_some_iff.mp h
        obtain ⟨-, rfl⟩ := Prod.mk.inj heq
        exact copy_lines_listable hcopied
      · cases h
  · cases h

/-- The domains of a loaded whitelist can be listed in an update. -/
theorem load_whitelist_listable {whitelist : domain_whitelist_entries} (h : load_whitelist io = some whitelist) :
    ∀ name, some name ∈ whitelist.domains → Listable name := by
  have hnone : ∀ name, some name ∈ domain_whitelist_entries_init.domains → Listable name :=
    fun _ hmem => absurd hmem List.not_mem_nil
  unfold load_whitelist at h
  split at h
  · exact Option.some.inj h ▸ hnone
  · obtain ⟨⟨result, loaded⟩, hload, rfl⟩ := Option.map_eq_some_iff.mp h
    unfold initialize_domain_whitelist at hload
    split at hload
    · exact (Prod.mk.inj (Option.some.inj hload)).2 ▸ hnone
    · simp only at hload
      split at hload
      · exact (Prod.mk.inj (Option.some.inj hload)).2 ▸ hnone
      · split at hload
        · exact (Prod.mk.inj (Option.some.inj hload)).2 ▸ hnone
        · split at hload
          · exact (Prod.mk.inj (Option.some.inj hload)).2 ▸ hnone
          · obtain ⟨first_contents, -, hload⟩ := Option.bind_eq_some_iff.mp hload
            obtain ⟨second_contents, -, hload⟩ := Option.bind_eq_some_iff.mp hload
            obtain ⟨⟨result', whitelist⟩, hduplicates, hload⟩ := Option.bind_eq_some_iff.mp hload
            obtain ⟨-, rfl⟩ := Prod.mk.inj (Option.some.inj hload)
            exact load_duplicates_listable hduplicates

end bismark_passive.main
