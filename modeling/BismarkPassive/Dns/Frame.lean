import BismarkPassive.Bytes.Memory
import BismarkPassive.Dns.Storage

namespace bismark_passive.dns

open bytes

/-! The arrays of `dns_table_write_update` on the stack. A hidden name is
printed from an array of a block that has been left. -/

def hex_digest_size : Nat := ANONYMIZATION_DIGEST_LENGTH * 2 + 1

/-- Two arrays do not overlap. -/
def Apart (first first_size second second_size : Nat) : Prop :=
  first + first_size ≤ second ∨ second + second_size ≤ first

instance (first first_size second second_size : Nat) : Decidable (Apart first first_size second second_size) :=
  inferInstanceAs (Decidable (_ ∨ _))

/-- Arrays that overlap share the first byte of one of them. -/
theorem shared_of_not_apart {first first_size second second_size : Nat} (hfirst : 0 < first_size)
    (hsecond : 0 < second_size) (h : ¬ Apart first first_size second second_size) :
    ∃ i j, first + i = second + j ∧ (i = 0 ∨ j = 0) ∧ i < first_size ∧ j < second_size := by
  unfold Apart at h
  exact ⟨second - first, first - second, by omega, by omega, by omega, by omega⟩

/-- Where the compiler puts the two arrays of each of the three blocks, and
which bytes it puts to another use between the end of a block and the output
of the line. Only arrays of one block have to be apart. -/
structure layout_t where
  a_domain_digest : Nat
  a_hex_domain_digest : Nat
  domain_digest : Nat
  hex_domain_digest : Nat
  cname_digest : Nat
  hex_cname_digest : Nat
  a_apart : Apart a_domain_digest ANONYMIZATION_DIGEST_LENGTH a_hex_domain_digest hex_digest_size
  domain_apart : Apart domain_digest ANONYMIZATION_DIGEST_LENGTH hex_domain_digest hex_digest_size
  cname_apart : Apart cname_digest ANONYMIZATION_DIGEST_LENGTH hex_cname_digest hex_digest_size
  a_reused : Nat → Bool
  domain_reused : Nat → Bool
  cname_reused : Nat → Bool
  readable : Nat
  readable_ge : hex_digest_size ≤ readable

/-- For each entry, what is on the stack when its turn comes, and what reused
bytes are overwritten with after each of the blocks. -/
structure garbage_t where
  a_stack : Nat → Nat → UInt8
  a_domain : Nat → Nat → UInt8
  cname_stack : Nat → Nat → UInt8
  cname_domain : Nat → Nat → UInt8
  cname_target : Nat → Nat → UInt8

/-- The decision about a name, and the block of a hidden one. Returns whether
the name is anonymized, and the stack. -/
def name_block (s : Session) (plain : Bool) (table : dns_table_t) (name : cstring) (digest_at hex_at : Nat)
    (stack : Nat → UInt8) : Option (Bool × (Nat → UInt8)) := do
  let malware_flag ← bloom_whitelist_lookup table.bloom name
  if plain || table.shows malware_flag name then pure (false, stack)
  else
    let digest ← anonymize_domain s name
    let hex ← buffer_to_hex digest.toList
    pure (true, store (store stack digest_at digest.toList) hex_at (hex ++ [0]))

def a_line_framed (s : Session) (layout : layout_t) (garbage : garbage_t) (table : dns_table_t) (idx : Nat)
    (entry : dns_a_entry_t) : Option Line := do
  let address_digest ←
    if s.target.disable_anonymization then some entry.ip_address.toUInt64 else anonymize_ip s entry.ip_address
  let (domain_anonymized, stack) ← name_block s false table entry.domain_name layout.a_domain_digest
    layout.a_hex_domain_digest (garbage.a_stack idx)
  let stack := reuse stack layout.a_reused (garbage.a_domain idx)
  let domain_string :=
    if domain_anonymized then load_string stack layout.a_hex_domain_digest layout.readable else entry.domain_name
  pure (.a entry.packet_id entry.mac_id domain_anonymized domain_string address_digest entry.ttl)

def cname_line_framed (s : Session) (layout : layout_t) (garbage : garbage_t) (table : dns_table_t) (idx : Nat)
    (entry : dns_cname_entry_t) : Option Line := do
  let (domain_anonymized, stack) ← name_block s s.target.disable_anonymization table entry.domain_name
    layout.domain_digest layout.hex_domain_digest (garbage.cname_stack idx)
  let stack := reuse stack layout.domain_reused (garbage.cname_domain idx)
  let (cname_anonymized, stack) ← name_block s s.target.disable_anonymization table entry.cname
    layout.cname_digest layout.hex_cname_digest stack
  let stack := reuse stack layout.cname_reused (garbage.cname_target idx)
  let domain_string :=
    if domain_anonymized then load_string stack layout.hex_domain_digest layout.readable else entry.domain_name
  let cname_string :=
    if cname_anonymized then load_string stack layout.hex_cname_digest layout.readable else entry.cname
  pure (.cname entry.packet_id entry.mac_id domain_anonymized domain_string cname_anonymized cname_string entry.ttl)

/-- `dns_table_write_update` with its arrays laid out on the stack. -/
def dns_table_write_update_framed (s : Session) (layout : layout_t) (garbage : garbage_t) (table : dns_table_t) :
    gzFile → writer_result × gzFile :=
  write_line (.dns table.num_dropped_a_entries table.num_dropped_cname_entries)
    (write_lines
      (write_line .blank
        (write_lines write_blank (table.cname_entries.items.mapIdx (cname_line_framed s layout garbage table))))
      (table.a_entries.items.mapIdx (a_line_framed s layout garbage table)))

/-- No byte of a hexadecimal digest is put to another use before it is printed. -/
structure layout_t.Intact (layout : layout_t) : Prop where
  a_domain : ∀ i < hex_digest_size, layout.a_reused (layout.a_hex_domain_digest + i) = false
  domain : ∀ i < hex_digest_size, layout.domain_reused (layout.hex_domain_digest + i) = false
  domain_later : ∀ i < hex_digest_size, layout.cname_reused (layout.hex_domain_digest + i) = false
  cname : ∀ i < hex_digest_size, layout.cname_reused (layout.hex_cname_digest + i) = false
  digest_apart :
    Apart layout.hex_domain_digest hex_digest_size layout.cname_digest ANONYMIZATION_DIGEST_LENGTH
  hex_apart : Apart layout.hex_domain_digest hex_digest_size layout.hex_cname_digest hex_digest_size

/-- The lines show the digests of hidden names in their fields. -/
structure ShowsDigests (s : Session) (table : dns_table_t) (a_lines cname_lines : List Line) : Prop where
  a_count : a_lines.length = table.a_entries.items.length
  a : ∀ (idx : Nat) (entry : dns_a_entry_t), table.a_entries.items[idx]? = some entry →
    ¬ Allowed table entry.domain_name →
    ∃ domain address, a_lines[idx]? = some (.a entry.packet_id entry.mac_id true domain address entry.ttl) ∧
      hex_domain_digest s entry.domain_name = some domain
  cname : ∀ (idx : Nat) (entry : dns_cname_entry_t), table.cname_entries.items[idx]? = some entry →
    ¬ Allowed table entry.domain_name → ¬ Allowed table entry.cname →
    ∃ domain cname, cname_lines[idx]? =
        some (.cname entry.packet_id entry.mac_id true domain true cname entry.ttl) ∧
      hex_domain_digest s entry.domain_name = some domain ∧ hex_domain_digest s entry.cname = some cname

/-- An update of this table shows the right digests. -/
def PrintsDigests (s : Session) (layout : layout_t) (garbage : garbage_t) (table : dns_table_t) (handle : gzFile) :
    Prop :=
  ∃ a_lines cname_lines, dns_table_write_update_framed s layout garbage table handle =
      (some 0, handle.append (dns_section table a_lines cname_lines)) ∧
    ShowsDigests s table a_lines cname_lines

/-- The stack when the line of a hidden A name is printed. -/
def layout_t.a_stack (layout : layout_t) (garbage : garbage_t) (idx : Nat) (digest : digest_t) (hex : cstring) :
    Nat → UInt8 :=
  reuse (store (store (garbage.a_stack idx) layout.a_domain_digest digest.toList) layout.a_hex_domain_digest
    (hex ++ [0])) layout.a_reused (garbage.a_domain idx)

/-- The stack when the line of two hidden CNAME names is printed. -/
def layout_t.cname_stack (layout : layout_t) (garbage : garbage_t) (idx : Nat) (domain_digest : digest_t)
    (domain : cstring) (cname_digest : digest_t) (cname : cstring) : Nat → UInt8 :=
  reuse (store (store (reuse (store (store (garbage.cname_stack idx) layout.domain_digest domain_digest.toList)
      layout.hex_domain_digest (domain ++ [0])) layout.domain_reused (garbage.cname_domain idx))
    layout.cname_digest cname_digest.toList) layout.hex_cname_digest (cname ++ [0]))
    layout.cname_reused (garbage.cname_target idx)

/-- A digest has forty digits. -/
theorem buffer_to_hex_digest {digest : digest_t} {hex : cstring} (h : buffer_to_hex digest.toList = some hex) :
    (hex ++ [0]).length = hex_digest_size ∧ ∀ byte ∈ hex, byte ≠ 0 := by
  obtain ⟨-, rfl⟩ := buffer_to_hex_eq_some_iff.mp h
  constructor
  · rw [List.length_append, hex_digits_length, Vector.length_toList]
    rfl
  · exact fun digit hdigit => (lowerHex_hex_digits digit hdigit).ne_zero

/-- The digest of a name, and what the name's block makes of it. -/
structure HexDigest (s : Session) (name : cstring) (digest : digest_t) (hex : cstring) : Prop where
  anonymized : anonymize_domain s name = some digest
  printed : buffer_to_hex digest.toList = some hex

theorem HexDigest.hex_domain_digest {s : Session} {name : cstring} {digest : digest_t} {hex : cstring}
    (h : HexDigest s name digest hex) : hex_domain_digest s name = some hex := by
  rw [dns.hex_domain_digest, h.anonymized, Option.bind_eq_bind, Option.bind_some, h.printed]

/-- The string in an array is the digest exactly if all of its bytes are there. -/
theorem load_hex_iff (layout : layout_t) {stack : Nat → UInt8} {digest : digest_t} {hex : cstring}
    (h : buffer_to_hex digest.toList = some hex) (address : Nat) :
    load_string stack address layout.readable = hex ↔ Holds stack address (hex ++ [0]) := by
  obtain ⟨hlength, hdigits⟩ := buffer_to_hex_digest h
  have hreadable := layout.readable_ge
  rw [List.length_append, List.length_singleton] at hlength
  exact load_string_eq_iff (by omega) hdigits

section intact

variable {layout : layout_t} (hintact : layout.Intact) {stack garbage : Nat → UInt8} {digest other : digest_t}
  {hex other_hex : cstring} (hhex : buffer_to_hex digest.toList = some hex)
  (hother : buffer_to_hex other.toList = some other_hex)

include hintact hhex

theorem layout_t.Intact.a_holds :
    Holds (reuse (store stack layout.a_hex_domain_digest (hex ++ [0])) layout.a_reused garbage)
      layout.a_hex_domain_digest (hex ++ [0]) := by
  apply (holds_store _ _ _).reuse
  rw [(buffer_to_hex_digest hhex).1]
  exact hintact.a_domain

theorem layout_t.Intact.domain_holds :
    Holds (reuse (store stack layout.hex_domain_digest (hex ++ [0])) layout.domain_reused garbage)
      layout.hex_domain_digest (hex ++ [0]) := by
  apply (holds_store _ _ _).reuse
  rw [(buffer_to_hex_digest hhex).1]
  exact hintact.domain

theorem layout_t.Intact.cname_holds :
    Holds (reuse (store stack layout.hex_cname_digest (hex ++ [0])) layout.cname_reused garbage)
      layout.hex_cname_digest (hex ++ [0]) := by
  apply (holds_store _ _ _).reuse
  rw [(buffer_to_hex_digest hhex).1]
  exact hintact.cname

variable (hheld : Holds stack layout.hex_domain_digest (hex ++ [0]))

include hheld

theorem layout_t.Intact.domain_holds_later :
    Holds (reuse stack layout.cname_reused garbage) layout.hex_domain_digest (hex ++ [0]) := by
  apply hheld.reuse
  rw [(buffer_to_hex_digest hhex).1]
  exact hintact.domain_later

include hother

/-- The owner's digest outlasts the target's block. -/
theorem layout_t.Intact.domain_outlasts :
    Holds (store (store stack layout.cname_digest other.toList) layout.hex_cname_digest (other_hex ++ [0]))
      layout.hex_domain_digest (hex ++ [0]) := by
  have hdigest_length : other.toList.length = ANONYMIZATION_DIGEST_LENGTH := Vector.length_toList
  apply Holds.store
  · apply hheld.store
    rw [(buffer_to_hex_digest hhex).1, hdigest_length]
    exact hintact.digest_apart
  · rw [(buffer_to_hex_digest hhex).1, (buffer_to_hex_digest hother).1]
    exact hintact.hex_apart

end intact

/-- The block of a name does what `a_name` and `cname_name` say. -/
theorem name_block_cases (s : Session) (plain : Bool) (table : dns_table_t) (name : cstring) (digest_at hex_at : Nat)
    (stack : Nat → UInt8) {named : Option (Bool × cstring)}
    (hnamed : named = do
      let malware_flag ← bloom_whitelist_lookup table.bloom name
      if plain || table.shows malware_flag name then pure (false, name)
      else
        let digest ← hex_domain_digest s name
        pure (true, digest)) :
    name_block s plain table name digest_at hex_at stack = none ∧ named = none ∨
      name_block s plain table name digest_at hex_at stack = some (false, stack) ∧ named = some (false, name) ∨
      ∃ digest hex, HexDigest s name digest hex ∧ named = some (true, hex) ∧
        name_block s plain table name digest_at hex_at stack =
          some (true, store (store stack digest_at digest.toList) hex_at (hex ++ [0])) := by
  subst hnamed
  unfold name_block hex_domain_digest
  cases bloom_whitelist_lookup table.bloom name with
  | none => exact .inl ⟨rfl, rfl⟩
  | some malware_flag =>
    simp only [Option.bind_eq_bind, Option.bind_some]
    by_cases hshown : (plain || table.shows malware_flag name) = true
    · rw [if_pos hshown, if_pos hshown]
      exact .inr (.inl ⟨rfl, rfl⟩)
    · rw [if_neg hshown, if_neg hshown]
      cases hdigest : anonymize_domain s name with
      | none => exact .inl ⟨rfl, rfl⟩
      | some digest =>
        simp only [Option.bind_some]
        cases hhex : buffer_to_hex digest.toList with
        | none => exact .inl ⟨rfl, rfl⟩
        | some hex => exact .inr (.inr ⟨digest, hex, ⟨hdigest, hhex⟩, rfl, rfl⟩)

/-- With room for the terminator the line is the one of the model of the table. -/
theorem a_line_intact {layout : layout_t} (hintact : layout.Intact) (s : Session) (garbage : garbage_t)
    (table : dns_table_t) (idx : Nat) (entry : dns_a_entry_t) :
    a_line_framed s layout garbage table idx entry = a_line s table entry := by
  have hname : a_name s table entry.domain_name = _ := rfl
  obtain ⟨hblock, hnamed⟩ | ⟨hblock, hnamed⟩ | ⟨digest, hex, hdigest, hnamed, hblock⟩ :=
    name_block_cases s false table entry.domain_name layout.a_domain_digest layout.a_hex_domain_digest
      (garbage.a_stack idx) hname
  · simp only [a_line_framed, a_line, hblock, hnamed, Option.bind_eq_bind, Option.bind_none]
  · simp only [a_line_framed, a_line, hblock, hnamed, Option.bind_eq_bind, Option.bind_some, Bool.false_eq_true,
      if_false]
  · have hread := (load_hex_iff layout hdigest.printed _).mpr
      (@layout_t.Intact.a_holds layout hintact (store (garbage.a_stack idx) layout.a_domain_digest digest.toList)
        (garbage.a_domain idx) digest hex hdigest.printed)
    simp only [a_line_framed, a_line, hblock, hnamed, Option.bind_eq_bind, Option.bind_some, if_true, hread]

/-- So is the line of an alias. -/
theorem cname_line_intact {layout : layout_t} (hintact : layout.Intact) (s : Session) (garbage : garbage_t)
    (table : dns_table_t) (idx : Nat) (entry : dns_cname_entry_t) :
    cname_line_framed s layout garbage table idx entry = cname_line s table entry := by
  have hname (name : cstring) : cname_name s table name = _ := rfl
  obtain ⟨hblock, hnamed⟩ | ⟨hblock, hnamed⟩ | ⟨digest, hex, hdigest, hnamed, hblock⟩ :=
    name_block_cases s s.target.disable_anonymization table entry.domain_name layout.domain_digest
      layout.hex_domain_digest (garbage.cname_stack idx) (hname entry.domain_name)
  · simp only [cname_line_framed, cname_line, hblock, hnamed, Option.bind_eq_bind, Option.bind_none]
  · -- Only the target may be hidden.
    obtain ⟨hblock', hnamed'⟩ | ⟨hblock', hnamed'⟩ | ⟨digest', hex', hdigest', hnamed', hblock'⟩ :=
      name_block_cases s s.target.disable_anonymization table entry.cname layout.cname_digest
        layout.hex_cname_digest (reuse (garbage.cname_stack idx) layout.domain_reused (garbage.cname_domain idx))
        (hname entry.cname)
    · simp only [cname_line_framed, cname_line, hblock, hnamed, hblock', hnamed', Option.bind_eq_bind,
        Option.bind_some, Option.bind_none]
    · simp only [cname_line_framed, cname_line, hblock, hnamed, hblock', hnamed', Option.bind_eq_bind,
        Option.bind_some, Bool.false_eq_true, if_false]
    · have hread {stack garbage : Nat → UInt8} := (load_hex_iff layout hdigest'.printed _).mpr
        (@layout_t.Intact.cname_holds layout hintact stack garbage digest' hex' hdigest'.printed)
      simp only [cname_line_framed, cname_line, hblock, hnamed, hblock', hnamed', Option.bind_eq_bind,
        Option.bind_some, Bool.false_eq_true, if_false, if_true, hread]
  · have howner := @layout_t.Intact.domain_holds layout hintact
      (store (garbage.cname_stack idx) layout.domain_digest digest.toList) (garbage.cname_domain idx) digest hex
      hdigest.printed
    obtain ⟨hblock', hnamed'⟩ | ⟨hblock', hnamed'⟩ | ⟨digest', hex', hdigest', hnamed', hblock'⟩ :=
      name_block_cases s s.target.disable_anonymization table entry.cname layout.cname_digest
        layout.hex_cname_digest (reuse (store (store (garbage.cname_stack idx) layout.domain_digest digest.toList)
          layout.hex_domain_digest (hex ++ [0])) layout.domain_reused (garbage.cname_domain idx)) (hname entry.cname)
    · simp only [cname_line_framed, cname_line, hblock, hnamed, hblock', hnamed', Option.bind_eq_bind,
        Option.bind_some, Option.bind_none]
    · have hread := (load_hex_iff layout hdigest.printed _).mpr
        (@layout_t.Intact.domain_holds_later layout hintact _ (garbage.cname_target idx) digest hex hdigest.printed
          howner)
      simp only [cname_line_framed, cname_line, hblock, hnamed, hblock', hnamed', Option.bind_eq_bind,
        Option.bind_some, Bool.false_eq_true, if_false, if_true, hread]
    · have hread := (load_hex_iff layout hdigest.printed _).mpr
        (@layout_t.Intact.domain_holds_later layout hintact _ (garbage.cname_target idx) digest hex hdigest.printed
          (hintact.domain_outlasts hdigest.printed hdigest'.printed howner))
      have hread' {stack garbage : Nat → UInt8} := (load_hex_iff layout hdigest'.printed _).mpr
        (@layout_t.Intact.cname_holds layout hintact stack garbage digest' hex' hdigest'.printed)
      simp only [cname_line_framed, cname_line, hblock, hnamed, hblock', hnamed', Option.bind_eq_bind,
        Option.bind_some, if_true, hread, hread']

/-- In an intact layout this is the writer as it is read. -/
theorem dns_table_write_update_intact {layout : layout_t} (hintact : layout.Intact) (s : Session)
    (garbage : garbage_t) (table : dns_table_t) :
    dns_table_write_update_framed s layout garbage table = dns_table_write_update_stored s storage_kept table := by
  have ha : a_line_framed s layout garbage table = a_line_stored s storage_kept table := by
    funext idx entry
    rw [a_line_intact hintact, a_line_kept]
  have hcname : cname_line_framed s layout garbage table = cname_line_stored s storage_kept table := by
    funext idx entry
    rw [cname_line_intact hintact, cname_line_kept]
  rw [dns_table_write_update_framed, dns_table_write_update_stored, ha, hcname]

section lines

variable {s : Session} {table : dns_table_t} (hanonymized : s.target.disable_anonymization = false)
  (hinitialized : s.anonymization.initialized = true) {io : filter_io}
  (hloaded : initialize_bloom_whitelist io = (0, table.bloom))

include hinitialized in
theorem hexDigest_exists (name : cstring) : ∃ digest hex, HexDigest s name digest hex := by
  have hdigest : (anonymize_domain s name).isSome := by
    simp [anonymize_domain, anonymization_process, hinitialized]
  obtain ⟨digest, hdigest⟩ := Option.isSome_iff_exists.mp hdigest
  have hhex : (buffer_to_hex digest.toList).isSome := buffer_to_hex_isSome (by rw [Vector.length_toList]; decide)
  obtain ⟨hex, hhex⟩ := Option.isSome_iff_exists.mp hhex
  exact ⟨digest, hex, hdigest, hhex⟩

include hloaded

theorem name_block_allowed {name : cstring} (hallowed : Allowed table name) (digest_at hex_at : Nat)
    (stack : Nat → UInt8) : name_block s false table name digest_at hex_at stack = some (false, stack) := by
  obtain ⟨malware_flag, hlookup, hshows⟩ := shows_iff_allowed hloaded name
  rw [name_block, hlookup, Option.bind_eq_bind, Option.bind_some, hshows.mpr hallowed]
  rfl

theorem name_block_hidden {name : cstring} (hhidden : ¬ Allowed table name) {digest : digest_t} {hex : cstring}
    (h : HexDigest s name digest hex) (digest_at hex_at : Nat) (stack : Nat → UInt8) :
    name_block s false table name digest_at hex_at stack =
      some (true, store (store stack digest_at digest.toList) hex_at (hex ++ [0])) := by
  obtain ⟨malware_flag, hlookup, hshows⟩ := shows_iff_allowed hloaded name
  rw [name_block, hlookup, Option.bind_eq_bind, Option.bind_some, Bool.false_or, if_neg (mt hshows.mp hhidden)]
  simp only [h.anonymized, h.printed, Option.bind_eq_bind, Option.bind_some, Option.pure_def]

include hinitialized

theorem name_block_completes (name : cstring) (digest_at hex_at : Nat) (stack : Nat → UInt8) :
    ∃ anonymized stack', name_block s false table name digest_at hex_at stack = some (anonymized, stack') := by
  by_cases hallowed : Allowed table name
  · exact ⟨_, _, name_block_allowed hloaded hallowed digest_at hex_at stack⟩
  · obtain ⟨digest, hex, hdigest⟩ := hexDigest_exists hinitialized name
    exact ⟨_, _, name_block_hidden hloaded hallowed hdigest digest_at hex_at stack⟩

include hanonymized

/-- A hidden name is printed as what the stack holds from its digits on. -/
theorem a_line_framed_hidden (layout : layout_t) (garbage : garbage_t) (idx : Nat) {entry : dns_a_entry_t}
    (hhidden : ¬ Allowed table entry.domain_name) {digest : digest_t} {hex : cstring}
    (hdigest : HexDigest s entry.domain_name digest hex) :
    ∃ address, a_line_framed s layout garbage table idx entry = some (.a entry.packet_id entry.mac_id true
      (load_string (layout.a_stack garbage idx digest hex) layout.a_hex_domain_digest layout.readable) address
      entry.ttl) := by
  have haddress : (anonymize_ip s entry.ip_address).isSome := by
    simp [anonymize_ip, anonymization_process, hinitialized]
  obtain ⟨address, haddress⟩ := Option.isSome_iff_exists.mp haddress
  refine ⟨address, ?_⟩
  simp only [a_line_framed, hanonymized, Bool.false_eq_true, if_false, haddress,
    name_block_hidden hloaded hhidden hdigest, Option.bind_eq_bind, Option.bind_some, Option.pure_def, if_true,
    layout_t.a_stack]

omit hinitialized in
/-- Both names of an alias are, each from its own array on. -/
theorem cname_line_framed_hidden (layout : layout_t) (garbage : garbage_t) (idx : Nat) {entry : dns_cname_entry_t}
    (hhidden : ¬ Allowed table entry.domain_name) (hhidden' : ¬ Allowed table entry.cname)
    {domain_digest cname_digest : digest_t} {domain cname : cstring}
    (hdomain : HexDigest s entry.domain_name domain_digest domain)
    (hcname : HexDigest s entry.cname cname_digest cname) :
    cname_line_framed s layout garbage table idx entry = some (.cname entry.packet_id entry.mac_id true
      (load_string (layout.cname_stack garbage idx domain_digest domain cname_digest cname)
        layout.hex_domain_digest layout.readable) true
      (load_string (layout.cname_stack garbage idx domain_digest domain cname_digest cname)
        layout.hex_cname_digest layout.readable) entry.ttl) := by
  simp only [cname_line_framed, hanonymized, name_block_hidden hloaded hhidden hdomain,
    name_block_hidden hloaded hhidden' hcname, Option.bind_eq_bind, Option.bind_some, Option.pure_def, if_true,
    layout_t.cname_stack]

/-- All lines can be composed, whatever they show. -/
theorem framed_lines_composed (layout : layout_t) (garbage : garbage_t) :
    ∃ a_lines cname_lines : List Line,
      table.a_entries.items.mapIdx (a_line_framed s layout garbage table) = a_lines.map some ∧
      table.cname_entries.items.mapIdx (cname_line_framed s layout garbage table) = cname_lines.map some := by
  have ha : ∀ line ∈ table.a_entries.items.mapIdx (a_line_framed s layout garbage table), line.isSome := by
    intro line hmem
    obtain ⟨idx, hidx, rfl⟩ := List.mem_mapIdx.mp hmem
    obtain ⟨anonymized, stack, hblock⟩ := name_block_completes hinitialized hloaded
      table.a_entries.items[idx].domain_name layout.a_domain_digest layout.a_hex_domain_digest (garbage.a_stack idx)
    have haddress : (anonymize_ip s table.a_entries.items[idx].ip_address).isSome := by
      simp [anonymize_ip, anonymization_process, hinitialized]
    obtain ⟨address, haddress⟩ := Option.isSome_iff_exists.mp haddress
    simp only [a_line_framed, hanonymized, Bool.false_eq_true, if_false, haddress, hblock, Option.bind_eq_bind,
      Option.bind_some, Option.pure_def, Option.isSome_some]
  have hcname : ∀ line ∈ table.cname_entries.items.mapIdx (cname_line_framed s layout garbage table),
      line.isSome := by
    intro line hmem
    obtain ⟨idx, hidx, rfl⟩ := List.mem_mapIdx.mp hmem
    obtain ⟨anonymized, stack, hblock⟩ := name_block_completes hinitialized hloaded
      table.cname_entries.items[idx].domain_name layout.domain_digest layout.hex_domain_digest
      (garbage.cname_stack idx)
    obtain ⟨anonymized', stack', hblock'⟩ := name_block_completes hinitialized hloaded
      table.cname_entries.items[idx].cname layout.cname_digest layout.hex_cname_digest
      (reuse stack layout.domain_reused (garbage.cname_domain idx))
    simp only [cname_line_framed, hanonymized, hblock, hblock', Option.bind_eq_bind, Option.bind_some,
      Option.pure_def, Option.isSome_some]
  obtain ⟨a_lines, ha⟩ := exists_map_some ha
  obtain ⟨cname_lines, hcname⟩ := exists_map_some hcname
  exact ⟨a_lines, cname_lines, ha, hcname⟩

/-- An update shows the right digests if its lines do. -/
theorem printsDigests_iff {layout : layout_t} {garbage : garbage_t} {handle : gzFile} (hhandle : handle.Healthy) :
    PrintsDigests s layout garbage table handle ↔ ∃ a_lines cname_lines : List Line,
      table.a_entries.items.mapIdx (a_line_framed s layout garbage table) = a_lines.map some ∧
      table.cname_entries.items.mapIdx (cname_line_framed s layout garbage table) = cname_lines.map some ∧
      ShowsDigests s table a_lines cname_lines := by
  obtain ⟨a_lines, cname_lines, ha, hcname⟩ := framed_lines_composed hanonymized hinitialized hloaded layout garbage
  have hheader := hhandle.append [.dns table.num_dropped_a_entries table.num_dropped_cname_entries]
  have hafter_a := (hheader.append a_lines).append [.blank]
  have hwrite : dns_table_write_update_framed s layout garbage table handle =
      (some 0, handle.append (dns_section table a_lines cname_lines)) := by
    rw [dns_table_write_update_framed, ha, hcname, write_line_healthy hhandle, write_lines_healthy hheader,
      write_line_healthy (hheader.append _), write_lines_healthy hafter_a, write_blank_healthy (hafter_a.append _)]
    simp only [dns_section, gzFile.append_append, List.cons_append, List.append_assoc, List.nil_append]
  constructor
  · rintro ⟨a_lines', cname_lines', hwrite', hshows⟩
    have hsection := congrArg (fun result : writer_result × gzFile => result.2.written) (hwrite.symm.trans hwrite')
    simp only [gzFile.append_written, List.append_cancel_left_eq] at hsection
    have hlength : a_lines.length = a_lines'.length := by
      rw [hshows.a_count]
      simpa using (congrArg List.length ha).symm
    obtain ⟨rfl, rfl⟩ := dns_section_injective hlength hsection
    exact ⟨a_lines, cname_lines, ha, hcname, hshows⟩
  · rintro ⟨a_lines', cname_lines', ha', hcname', hshows⟩
    obtain rfl := List.map_injective_iff.mpr (Option.some_injective Line) (ha.symm.trans ha')
    obtain rfl := List.map_injective_iff.mpr (Option.some_injective Line) (hcname.symm.trans hcname')
    exact ⟨a_lines, cname_lines, hwrite, hshows⟩

/-- In an intact layout every hidden name is shown by its digest. -/
theorem layout_t.Intact.printsDigests {layout : layout_t} (hintact : layout.Intact) (garbage : garbage_t)
    {handle : gzFile} (hhandle : handle.Healthy) : PrintsDigests s layout garbage table handle := by
  obtain ⟨a_lines, cname_lines, hwrite, hdiscloses⟩ :=
    (printsExactly_iff hanonymized hinitialized hloaded storage_kept hhandle).mpr (storage_kept_keeps s table)
  refine ⟨a_lines, cname_lines, ?_, hdiscloses.a_count, ?_, ?_⟩
  · rw [dns_table_write_update_intact hintact]
    exact hwrite
  · intro idx entry hentry hhidden
    obtain ⟨anonymized, text, address, hline, hname, -⟩ := hdiscloses.a idx entry hentry
    obtain ⟨rfl, htext⟩ := hname.hidden hhidden
    exact ⟨text, address, hline, htext⟩
  · intro idx entry hentry hhidden hhidden'
    obtain ⟨_, domain, _, cname, hline, hname, hname'⟩ := hdiscloses.cname idx entry hentry
    obtain ⟨rfl, hdomain⟩ := hname.hidden hhidden
    obtain ⟨rfl, hcname⟩ := hname'.hidden hhidden'
    exact ⟨domain, cname, hline, hdomain, hcname⟩

/-- Where an update shows the right digests, they are still in their arrays. -/
theorem PrintsDigests.a_holds {layout : layout_t} {garbage : garbage_t} {handle : gzFile} (hhandle : handle.Healthy)
    (h : PrintsDigests s layout garbage table handle) (idx : Nat) {entry : dns_a_entry_t}
    (hentry : table.a_entries.items[idx]? = some entry) (hhidden : ¬ Allowed table entry.domain_name)
    {digest : digest_t} {hex : cstring} (hdigest : HexDigest s entry.domain_name digest hex) :
    Holds (layout.a_stack garbage idx digest hex) layout.a_hex_domain_digest (hex ++ [0]) := by
  rw [printsDigests_iff hanonymized hinitialized hloaded hhandle] at h
  obtain ⟨a_lines, cname_lines, ha, -, -, hshows, -⟩ := h
  obtain ⟨text, address, hshown, htext⟩ := hshows idx entry hentry hhidden
  obtain ⟨address', hline⟩ := a_line_framed_hidden hanonymized hinitialized hloaded layout garbage idx hhidden hdigest
  rw [getElem?_of_composed ha hentry, hline, Option.some.injEq, Line.a.injEq] at hshown
  rw [hdigest.hex_domain_digest, Option.some.injEq] at htext
  obtain ⟨-, -, -, hread, -⟩ := hshown
  rw [← load_hex_iff layout hdigest.printed, hread, htext]

/-- What is printed of a hidden alias are the digits of both its names. -/
theorem PrintsDigests.cname_holds {layout : layout_t} {garbage : garbage_t} {handle : gzFile}
    (hhandle : handle.Healthy) (h : PrintsDigests s layout garbage table handle) (idx : Nat)
    {entry : dns_cname_entry_t} (hentry : table.cname_entries.items[idx]? = some entry)
    (hhidden : ¬ Allowed table entry.domain_name) (hhidden' : ¬ Allowed table entry.cname)
    {domain_digest cname_digest : digest_t} {domain cname : cstring}
    (hdomain : HexDigest s entry.domain_name domain_digest domain)
    (htarget : HexDigest s entry.cname cname_digest cname) :
    Holds (layout.cname_stack garbage idx domain_digest domain cname_digest cname) layout.hex_domain_digest
        (domain ++ [0]) ∧
      Holds (layout.cname_stack garbage idx domain_digest domain cname_digest cname) layout.hex_cname_digest
        (cname ++ [0]) := by
  rw [printsDigests_iff hanonymized hinitialized hloaded hhandle] at h
  obtain ⟨a_lines, cname_lines, -, hcname, -, -, hshows⟩ := h
  obtain ⟨text, text', hshown, htext, htext'⟩ := hshows idx entry hentry hhidden hhidden'
  rw [getElem?_of_composed hcname hentry, cname_line_framed_hidden hanonymized hloaded layout garbage idx hhidden
    hhidden' hdomain htarget, Option.some.injEq, Line.cname.injEq] at hshown
  rw [hdomain.hex_domain_digest, Option.some.injEq] at htext
  rw [htarget.hex_domain_digest, Option.some.injEq] at htext'
  obtain ⟨-, -, -, hread, -, hread', -⟩ := hshown
  rw [← load_hex_iff layout hdomain.printed, ← load_hex_iff layout htarget.printed, hread, hread', htext, htext']
  exact ⟨rfl, rfl⟩

end lines

/-- A keyed hash whose digests of one-letter names are zeros, and of longer
names repeat one digit. -/
def digit_session : Session :=
  { anonymizing_session with externals :=
      { anonymizing_session.externals with
        sha1_hmac := fun _ data => Vector.replicate _ (if data.length = 1 then 0 else 0x11) } }

/-- The address of `a` and the alias `a` of `bc`, in no whitelist. -/
def hidden_table : dns_table_t :=
  { alias_table with a_entries := ⟨[⟨0, 0, [97], 0, 60⟩], by decide⟩ }

/-- Every reused byte is overwritten with the same value, which is in no digest. -/
def sevens : garbage_t where
  a_stack _ _ := 7
  a_domain _ _ := 7
  cname_stack _ _ := 7
  cname_domain _ _ := 7
  cname_target _ _ := 7

def repeated (byte : UInt8) : digest_t := Vector.replicate ANONYMIZATION_DIGEST_LENGTH byte

/-- The two digests of that table. -/
theorem digit_session_digests :
    HexDigest digit_session [97] (repeated 0) (List.replicate 40 48) ∧
      HexDigest digit_session [98, 99] (repeated 0x11) (List.replicate 40 49) :=
  ⟨⟨rfl, rfl⟩, ⟨rfl, rfl⟩⟩

theorem hidden_table_hidden (name : cstring) : ¬ Allowed hidden_table name := alias_table_hidden name

theorem digits_getElem {memory : Nat → UInt8} {address : Nat} {digit : UInt8}
    (h : Holds memory address (List.replicate 40 digit ++ [0])) {i : Nat} (hi : i < hex_digest_size) :
    memory (address + i) = if i < 40 then digit else 0 := by
  have hsize : hex_digest_size = 41 := rfl
  have hlength : (List.replicate 40 digit).length = 40 := List.length_replicate
  rw [h.getElem (by rw [List.length_append, hlength, List.length_singleton]; omega), List.getElem_append]
  simp only [hlength, List.getElem_replicate, List.getElem_singleton, dite_eq_ite]

/-- A byte that is used again shows. -/
theorem not_reused {memory : Nat → UInt8} {reused : Nat → Bool} {location i : Nat} {digit : UInt8}
    (h : reuse memory reused (fun _ => 7) location = if i < 40 then digit else 0) (hdigit : digit ≠ 7) :
    reused location = false := by
  by_contra hreused
  rw [reuse, if_pos (by simpa using hreused)] at h
  split at h
  · exact hdigit h.symm
  · exact absurd h (by decide)

/-- Where that table is printed right, the layout is intact. -/
theorem intact_of_printsDigests {layout : layout_t}
    (h : PrintsDigests digit_session layout sevens hidden_table healthy_file) : layout.Intact := by
  have hanonymized : digit_session.target.disable_anonymization = false := rfl
  have hinitialized : digit_session.anonymization.initialized = true := rfl
  have hloaded : initialize_bloom_whitelist vacant_filter = (0, hidden_table.bloom) := rfl
  have hsize : hex_digest_size = 41 := rfl
  have hdigest_size : ANONYMIZATION_DIGEST_LENGTH = 20 := rfl
  obtain ⟨hdomain, htarget⟩ := digit_session_digests
  have hdigit : (48 : UInt8) ≠ 7 ∧ (49 : UInt8) ≠ 7 ∧ (49 : UInt8) ≠ 48 ∧ (17 : UInt8) ≠ 48 := by decide
  have ha := h.a_holds hanonymized hinitialized hloaded healthy_file_healthy 0 rfl (hidden_table_hidden _) hdomain
  obtain ⟨howner, hcname⟩ := h.cname_holds hanonymized hinitialized hloaded healthy_file_healthy 0 rfl
    (hidden_table_hidden _) (hidden_table_hidden _) hdomain htarget
  have hlater {i : Nat} (hi : i < hex_digest_size) : layout.cname_reused (layout.hex_domain_digest + i) = false :=
    not_reused (digits_getElem howner hi) hdigit.1
  have hspared {i : Nat} (hi : i < hex_digest_size) : layout.cname_reused (layout.hex_cname_digest + i) = false :=
    not_reused (digits_getElem hcname hi) hdigit.2.1
  have hhex : Apart layout.hex_domain_digest hex_digest_size layout.hex_cname_digest hex_digest_size := by
    by_contra hoverlap
    obtain ⟨i, j, hsame, hfirst, hi, hj⟩ := shared_of_not_apart (by decide) (by decide) hoverlap
    have howner_byte := digits_getElem howner hi
    rw [hsame, digits_getElem hcname hj] at howner_byte
    obtain rfl | rfl := hfirst
    · rw [if_pos (show 0 < 40 by decide)] at howner_byte
      split at howner_byte <;> exact absurd howner_byte (by decide)
    · rw [if_pos (show 0 < 40 by decide)] at howner_byte
      split at howner_byte <;> exact absurd howner_byte (by decide)
  -- Behind the target's digits is what its digest and the owner's block left.
  have hbehind {i : Nat} (hi : i < hex_digest_size) :
      store (reuse (store (store (sevens.cname_stack 0) layout.domain_digest (repeated 0).toList)
          layout.hex_domain_digest (List.replicate 40 48 ++ [0])) layout.domain_reused (sevens.cname_domain 0))
        layout.cname_digest (repeated 0x11).toList (layout.hex_domain_digest + i) =
        if i < 40 then 48 else 0 := by
    have hprinted := digits_getElem howner hi
    rw [layout_t.cname_stack, reuse, if_neg (by rw [hlater hi]; decide), store_outside] at hprinted
    · exact hprinted
    · have hlength : (List.replicate 40 (49 : UInt8) ++ [0]).length = hex_digest_size := rfl
      unfold Apart at hhex
      omega
  have hraw_length : (repeated 0x11).toList.length = ANONYMIZATION_DIGEST_LENGTH := Vector.length_toList
  have hraw : Apart layout.hex_domain_digest hex_digest_size layout.cname_digest ANONYMIZATION_DIGEST_LENGTH := by
    by_contra hoverlap
    obtain ⟨i, j, hsame, -, hi, hj⟩ := shared_of_not_apart (by decide) (by decide) hoverlap
    have hbyte := hbehind hi
    rw [hsame, store_inside (by rwa [hraw_length])] at hbyte
    simp only [repeated, Vector.toList_replicate, List.getElem_replicate] at hbyte
    split at hbyte <;> exact absurd hbyte (by decide)
  refine ⟨fun i hi => not_reused (digits_getElem ha hi) hdigit.1, fun i hi => ?_, fun i => hlater, fun i => hspared,
    hraw, hhex⟩
  have hbyte := hbehind hi
  rw [store_outside] at hbyte
  · exact not_reused hbyte hdigit.1
  · unfold Apart at hraw
    omega

/-- Hidden names are shown by their digests in every table and whatever reused
bytes are overwritten with, exactly if the compiler puts no byte of their
arrays to another use before the line is printed. -/
theorem digests_printed_iff (layout : layout_t) :
    (∀ (s : Session) (io : filter_io) (table : dns_table_t) (garbage : garbage_t) (handle : gzFile),
      s.target.disable_anonymization = false → s.anonymization.initialized = true →
      initialize_bloom_whitelist io = (0, table.bloom) → handle.Healthy →
      PrintsDigests s layout garbage table handle) ↔ layout.Intact := by
  constructor
  · intro hprinted
    exact intact_of_printsDigests
      (hprinted digit_session vacant_filter hidden_table sevens healthy_file rfl rfl rfl healthy_file_healthy)
  · intro hintact s io table garbage handle hanonymized hinitialized hloaded hhandle
    exact hintact.printsDigests hanonymized hinitialized hloaded garbage hhandle

/-- The arrays of all blocks at the same places, and nothing else put there. -/
def shared_layout : layout_t where
  a_domain_digest := 0
  a_hex_domain_digest := 20
  domain_digest := 0
  hex_domain_digest := 20
  cname_digest := 0
  hex_cname_digest := 20
  a_apart := by decide
  domain_apart := by decide
  cname_apart := by decide
  a_reused _ := false
  domain_reused _ := false
  cname_reused _ := false
  readable := 64
  readable_ge := by decide

/-- Then the owner's field shows the digest of the target. -/
theorem digests_not_printed_shared :
    ¬ PrintsDigests digit_session shared_layout sevens hidden_table healthy_file := by
  intro hprinted
  exact absurd (intact_of_printsDigests hprinted).hex_apart (by decide)

end bismark_passive.dns
