import BismarkPassive.Dns.Table
import BismarkPassive.Reference
import BismarkPassive.Whitelist.Rule

namespace bismark_passive.dns

/-! A hidden name is printed from a buffer that belongs to the block in which
its digest was made, and this block has been left by then. -/

/-- What `gzprintf` finds in such buffers, for the entry with an index and the
digest written to the buffer: in the one of an A name, in the one of a CNAME
owner, where the block of the target may have written its digest since, and in
the one of a CNAME target. -/
structure storage_t where
  a_domain : Nat → cstring → cstring
  cname_domain : Nat → cstring → Option cstring → cstring
  cname_target : Nat → cstring → cstring

/-- The buffers keep their contents. -/
def storage_kept : storage_t where
  a_domain _ digest := digest
  cname_domain _ digest _ := digest
  cname_target _ digest := digest

/-- The two buffers of a CNAME entry are never in use at once, and lie at the
same place. -/
def storage_shared : storage_t where
  a_domain _ digest := digest
  cname_domain _ digest target := target.getD digest
  cname_target _ digest := digest

/-- The digest that the block of a name writes to its buffer, if it is entered. -/
def written : Bool × cstring → Option cstring
  | (true, digest) => some digest
  | (false, _) => none

def a_line_stored (s : Session) (storage : storage_t) (table : dns_table_t) (idx : Nat) (entry : dns_a_entry_t) :
    Option Line := do
  let address_digest ←
    if s.target.disable_anonymization then some entry.ip_address.toUInt64 else anonymize_ip s entry.ip_address
  let domain ← a_name s table entry.domain_name
  let domain_string := ((written domain).map (storage.a_domain idx)).getD domain.2
  pure (.a entry.packet_id entry.mac_id domain.1 domain_string address_digest entry.ttl)

def cname_line_stored (s : Session) (storage : storage_t) (table : dns_table_t) (idx : Nat)
    (entry : dns_cname_entry_t) : Option Line := do
  let domain ← cname_name s table entry.domain_name
  let cname ← cname_name s table entry.cname
  let domain_string := ((written domain).map fun digest =>
    storage.cname_domain idx digest (written cname)).getD domain.2
  let cname_string := ((written cname).map (storage.cname_target idx)).getD cname.2
  pure (.cname entry.packet_id entry.mac_id domain.1 domain_string cname.1 cname_string entry.ttl)

/-- `dns_table_write_update` with the buffers in this storage. -/
def dns_table_write_update_stored (s : Session) (storage : storage_t) (table : dns_table_t) :
    gzFile → writer_result × gzFile :=
  write_line (.dns table.num_dropped_a_entries table.num_dropped_cname_entries)
    (write_lines
      (write_line .blank
        (write_lines write_blank (table.cname_entries.items.mapIdx (cname_line_stored s storage table))))
      (table.a_entries.items.mapIdx (a_line_stored s storage table)))

theorem written_getD (name : Bool × cstring) : (written name).getD name.2 = name.2 := by
  obtain ⟨anonymized, text⟩ := name
  cases anonymized <;> rfl

theorem a_line_kept (s : Session) (table : dns_table_t) (idx : Nat) (entry : dns_a_entry_t) :
    a_line_stored s storage_kept table idx entry = a_line s table entry := by
  simp only [a_line_stored, a_line, storage_kept, Option.map_id', written_getD]

theorem cname_line_kept (s : Session) (table : dns_table_t) (idx : Nat) (entry : dns_cname_entry_t) :
    cname_line_stored s storage_kept table idx entry = cname_line s table entry := by
  simp only [cname_line_stored, cname_line, storage_kept, Option.map_id', written_getD]

/-- With buffers that keep their contents this is the writer as it is read. -/
theorem dns_table_write_update_kept (s : Session) (table : dns_table_t) :
    dns_table_write_update_stored s storage_kept table = dns_table_write_update s table := by
  have hmapIdx {α : Type} (items : List α) (compose : Nat → α → Option Line) (line : α → Option Line)
      (h : ∀ idx item, compose idx item = line item) : items.mapIdx compose = items.map line := by
    apply List.ext_getElem?
    intro idx
    rw [List.getElem?_mapIdx, List.getElem?_map]
    exact congrArg (Option.map · items[idx]?) (funext (h idx))
  rw [dns_table_write_update_stored, dns_table_write_update, hmapIdx _ _ _ (a_line_kept s table),
    hmapIdx _ _ _ (cname_line_kept s table)]

/-! The rule for disclosing a name -/

/-- A whitelisted domain matches the name, or both bits of the name are set. -/
def Allowed (table : dns_table_t) (name : cstring) : Prop :=
  (∃ whitelist, table.whitelist = some whitelist ∧ ∃ domain ∈ whitelist.domains, Matches name domain) ∨
    ∃ a, table.bloom.a = some a ∧ GETBIT a ((sax_hash name).toNat % BLOOMSIZE) = true ∧
      GETBIT a ((sdbm_hash name).toNat % BLOOMSIZE) = true

/-- What a name field may show. -/
structure Discloses (s : Session) (table : dns_table_t) (name : cstring) (anonymized : Bool) (text : cstring) :
    Prop where
  allowed : Allowed table name → anonymized = false ∧ text = name
  hidden : ¬ Allowed table name → anonymized = true ∧ hex_domain_digest s name = some text

/-- A lookup in a loaded filter tests both bits. -/
theorem bloom_whitelist_lookup_loaded {io : filter_io} {bloom : bloom_whitelist_t}
    (hloaded : initialize_bloom_whitelist io = (0, bloom)) (name : cstring) :
    ∃ a, bloom.a = some a ∧ bloom_whitelist_lookup bloom name = some
      (if GETBIT a ((sax_hash name).toNat % BLOOMSIZE) = true ∧ GETBIT a ((sdbm_hash name).toNat % BLOOMSIZE) = true
        then 0 else -1) := by
  unfold initialize_bloom_whitelist bloom_whitelist_load at hloaded
  cases hcalloc : io.calloc with
  | false => simp [hcalloc] at hloaded
  | true =>
    cases hfilter : io.filter with
    | none => simp [hcalloc, hfilter] at hloaded
    | some filter =>
      cases hmalloc : io.malloc with
      | false => simp [hcalloc, hfilter, hmalloc] at hloaded
      | true =>
        simp only [hcalloc, hfilter, hmalloc, if_true, Prod.mk.injEq, true_and] at hloaded
        subst hloaded
        refine ⟨_, rfl, ?_⟩
        have hnumbers : List.range NUMHASH = [0, 1] := rfl
        simp only [bloom_whitelist_lookup, bloom_whitelist_init, hnumbers, bloom_lookup_from, if_true,
          Option.bind_eq_bind, Option.bind_some, Nat.one_ne_zero, if_false]
        by_cases hsax : GETBIT (read_filter (bloom_whitelist_init bloom_whitelist_zero) filter)
            ((sax_hash name).toNat % BLOOMSIZE) = true
        · rw [bloom_whitelist_init] at hsax
          simp only [hsax, if_true, true_and, apply_ite some]
        · rw [bloom_whitelist_init] at hsax
          simp only [hsax, if_false, false_and, Bool.false_eq_true]

/-- With filters that were loaded a name is shown exactly when it is allowed. -/
theorem shows_iff_allowed {io : filter_io} {table : dns_table_t}
    (hloaded : initialize_bloom_whitelist io = (0, table.bloom)) (name : cstring) :
    ∃ malware_flag, bloom_whitelist_lookup table.bloom name = some malware_flag ∧
      (table.shows malware_flag name = true ↔ Allowed table name) := by
  obtain ⟨a, ha, hlookup⟩ := bloom_whitelist_lookup_loaded hloaded name
  refine ⟨_, hlookup, ?_⟩
  have hwhitelist (whitelist : domain_whitelist_t) : (domain_whitelist_lookup whitelist name == 0) = true ↔
      ∃ domain ∈ whitelist.domains, Matches name domain := by
    simp only [domain_whitelist_lookup, ← whitelisted_by_iff, ← List.any_eq_true]
    split <;> simp_all
  rw [dns_table_t.shows, Bool.or_eq_true, Allowed]
  refine or_congr ?_ ?_
  · cases table.whitelist with
    | none => simp
    | some whitelist => simp only [hwhitelist, Option.some.injEq, exists_eq_left']
  · simp only [ha, Option.some.injEq, exists_eq_left']
    split <;> simp_all

/-! The names of an anonymising build -/

section names

variable {s : Session} {table : dns_table_t} (hanonymized : s.target.disable_anonymization = false)
  (hinitialized : s.anonymization.initialized = true) {io : filter_io}
  (hloaded : initialize_bloom_whitelist io = (0, table.bloom))

include hinitialized hloaded

/-- The decision about a name, and the digest of a hidden one. -/
theorem a_name_discloses (name : cstring) :
    ∃ shown, a_name s table name = some shown ∧ Discloses s table name shown.1 shown.2 := by
  obtain ⟨malware_flag, hlookup, hshows⟩ := shows_iff_allowed hloaded name
  rw [a_name, hlookup, Option.bind_eq_bind, Option.bind_some]
  by_cases hallowed : Allowed table name
  · rw [if_pos (hshows.mpr hallowed)]
    exact ⟨_, rfl, fun _ => ⟨rfl, rfl⟩, fun h => absurd hallowed h⟩
  · rw [if_neg (mt hshows.mp hallowed)]
    have hdigest : (hex_domain_digest s name).isSome := by
      simp only [hex_domain_digest, anonymize_domain, anonymization_process, hinitialized]
      exact buffer_to_hex_isSome (by rw [Vector.length_toList]; decide)
    obtain ⟨digest, hdigest⟩ := Option.isSome_iff_exists.mp hdigest
    rw [hdigest]
    exact ⟨_, rfl, fun h => absurd h hallowed, fun _ => ⟨rfl, hdigest⟩⟩

include hanonymized

omit hinitialized hloaded in
/-- The three decisions are one. -/
theorem cname_name_eq_a_name (name : cstring) : cname_name s table name = a_name s table name := by
  simp only [cname_name, a_name, hanonymized, Bool.false_or]

end names

/-! The lines -/

/-- Every entry has exactly one line, in table order, which shows what it may
show of each name, and the digest of the address. -/
structure DisclosesExactly (s : Session) (table : dns_table_t) (a_lines cname_lines : List Line) : Prop where
  a_count : a_lines.length = table.a_entries.items.length
  cname_count : cname_lines.length = table.cname_entries.items.length
  a : ∀ (idx : Nat) (entry : dns_a_entry_t), table.a_entries.items[idx]? = some entry →
    ∃ anonymized text address, a_lines[idx]? = some
        (.a entry.packet_id entry.mac_id anonymized text address entry.ttl) ∧
      Discloses s table entry.domain_name anonymized text ∧ anonymize_ip s entry.ip_address = some address
  cname : ∀ (idx : Nat) (entry : dns_cname_entry_t), table.cname_entries.items[idx]? = some entry →
    ∃ domain_anonymized domain cname_anonymized cname, cname_lines[idx]? = some
        (.cname entry.packet_id entry.mac_id domain_anonymized domain cname_anonymized cname entry.ttl) ∧
      Discloses s table entry.domain_name domain_anonymized domain ∧
      Discloses s table entry.cname cname_anonymized cname

/-- What the block of a name writes to its buffer. -/
def Writes (s : Session) (table : dns_table_t) (name : cstring) (digest : Option cstring) : Prop :=
  (Allowed table name → digest = none) ∧ (¬ Allowed table name → digest = hex_domain_digest s name)

/-- The digests of the hidden names of this table are still in their buffers
when they are printed. -/
structure storage_t.Keeps (storage : storage_t) (s : Session) (table : dns_table_t) : Prop where
  a_domain : ∀ (idx : Nat) (entry : dns_a_entry_t) (digest : cstring), table.a_entries.items[idx]? = some entry →
    Writes s table entry.domain_name (some digest) → storage.a_domain idx digest = digest
  cname_domain : ∀ (idx : Nat) (entry : dns_cname_entry_t) (digest : cstring) (target : Option cstring),
    table.cname_entries.items[idx]? = some entry → Writes s table entry.domain_name (some digest) →
      Writes s table entry.cname target → storage.cname_domain idx digest target = digest
  cname_target : ∀ (idx : Nat) (entry : dns_cname_entry_t) (digest : cstring),
    table.cname_entries.items[idx]? = some entry → Writes s table entry.cname (some digest) →
      storage.cname_target idx digest = digest

/-- What is disclosed of a name says what is stored for it. -/
theorem Discloses.writes {s : Session} {table : dns_table_t} {name : cstring} {shown : Bool × cstring}
    (h : Discloses s table name shown.1 shown.2) : Writes s table name (written shown) := by
  obtain ⟨anonymized, text⟩ := shown
  constructor
  · intro hallowed
    obtain ⟨rfl, -⟩ := h.allowed hallowed
    rfl
  · intro hhidden
    obtain ⟨rfl, hdigest⟩ := h.hidden hhidden
    exact hdigest.symm

theorem Writes.unique {s : Session} {table : dns_table_t} {name : cstring} {digest other : Option cstring}
    (h : Writes s table name digest) (h' : Writes s table name other) : digest = other := by
  by_cases hallowed : Allowed table name
  · rw [h.1 hallowed, h'.1 hallowed]
  · rw [h.2 hallowed, h'.2 hallowed]

/-- A name field is right if and only if its buffer, if used, keeps the digest. -/
theorem Discloses.stored_iff {s : Session} {table : dns_table_t} {name : cstring} {shown : Bool × cstring}
    (h : Discloses s table name shown.1 shown.2) (read : cstring → cstring) :
    Discloses s table name shown.1 (((written shown).map read).getD shown.2) ↔
      ∀ digest, Writes s table name (some digest) → read digest = digest := by
  have hwrites := h.writes
  obtain ⟨anonymized, text⟩ := shown
  cases anonymized with
  | false =>
    refine iff_of_true h fun digest hdigest => ?_
    cases hwrites.unique hdigest
  | true =>
    have hhidden : ¬ Allowed table name := fun hallowed => Bool.noConfusion (h.allowed hallowed).1
    obtain ⟨-, hdigest⟩ := h.hidden hhidden
    constructor
    · intro hread digest hwritten
      obtain rfl := Option.some.inj (hwrites.unique hwritten)
      exact Option.some.inj ((hread.hidden hhidden).2.symm.trans hdigest)
    · intro hread
      have hkept : ((written (true, text)).map read).getD text = text := hread text hwrites
      exact ⟨fun hallowed => absurd hallowed hhidden, fun _ => ⟨rfl, hkept.symm ▸ hdigest⟩⟩

/-- The line of an entry, if all lines could be composed. -/
theorem getElem?_of_composed {α : Type} {items : List α} {compose : Nat → α → Option Line} {lines : List Line}
    (h : items.mapIdx compose = lines.map some) {idx : Nat} {item : α} (hitem : items[idx]? = some item) :
    lines[idx]? = compose idx item := by
  have hat := congrArg (fun lines => lines[idx]?) h
  simp only [List.getElem?_mapIdx, hitem, Option.map_some, List.getElem?_map] at hat
  obtain ⟨line, hline, hcomposed⟩ := Option.map_eq_some_iff.mp hat.symm
  exact hline.trans hcomposed

/-- Lines that can be composed are written one after the other. -/
theorem dns_table_write_update_stored_healthy {s : Session} {storage : storage_t} {table : dns_table_t}
    {handle : gzFile} (hhandle : handle.Healthy) {a_lines cname_lines : List Line}
    (ha : table.a_entries.items.mapIdx (a_line_stored s storage table) = a_lines.map some)
    (hcname : table.cname_entries.items.mapIdx (cname_line_stored s storage table) = cname_lines.map some) :
    dns_table_write_update_stored s storage table handle =
      (some 0, handle.append (dns_section table a_lines cname_lines)) := by
  have hheader := hhandle.append [.dns table.num_dropped_a_entries table.num_dropped_cname_entries]
  have hafter_a := (hheader.append a_lines).append [.blank]
  rw [dns_table_write_update_stored, ha, hcname, write_line_healthy hhandle, write_lines_healthy hheader,
    write_line_healthy (hheader.append _), write_lines_healthy hafter_a, write_blank_healthy (hafter_a.append _)]
  simp only [dns_section, gzFile.append_append, List.cons_append, List.append_assoc, List.nil_append]

theorem dns_section_injective {table : dns_table_t} {a_lines a_lines' cname_lines cname_lines' : List Line}
    (hlength : a_lines.length = a_lines'.length)
    (h : dns_section table a_lines cname_lines = dns_section table a_lines' cname_lines') :
    a_lines = a_lines' ∧ cname_lines = cname_lines' := by
  simp only [dns_section, List.cons_append, List.append_assoc, List.cons.injEq, true_and] at h
  obtain ⟨ha, hrest⟩ := List.append_inj h hlength
  exact ⟨ha, List.append_cancel_right (List.cons.inj hrest).2⟩

section lines

variable {s : Session} {table : dns_table_t} (hanonymized : s.target.disable_anonymization = false)
  (hinitialized : s.anonymization.initialized = true) {io : filter_io}
  (hloaded : initialize_bloom_whitelist io = (0, table.bloom)) (storage : storage_t)

include hanonymized hinitialized hloaded

/-- The line of an entry shows what its block of storage holds in the end. -/
theorem a_line_stored_eq (idx : Nat) (entry : dns_a_entry_t) :
    ∃ shown address, a_line_stored s storage table idx entry = some (.a entry.packet_id entry.mac_id shown.1
        (((written shown).map (storage.a_domain idx)).getD shown.2) address entry.ttl) ∧
      Discloses s table entry.domain_name shown.1 shown.2 ∧ anonymize_ip s entry.ip_address = some address := by
  obtain ⟨shown, hname, hshown⟩ := a_name_discloses hinitialized hloaded entry.domain_name
  have haddress : (anonymize_ip s entry.ip_address).isSome := by
    simp [anonymize_ip, anonymization_process, hinitialized]
  obtain ⟨address, haddress⟩ := Option.isSome_iff_exists.mp haddress
  refine ⟨shown, address, ?_, hshown, haddress⟩
  simp only [a_line_stored, hanonymized, Bool.false_eq_true, if_false, haddress, hname, Option.bind_eq_bind,
    Option.bind_some, Option.pure_def]

/-- So does that of an alias, with two blocks. -/
theorem cname_line_stored_eq (idx : Nat) (entry : dns_cname_entry_t) :
    ∃ domain cname, cname_line_stored s storage table idx entry = some (.cname entry.packet_id entry.mac_id domain.1
        (((written domain).map fun digest => storage.cname_domain idx digest (written cname)).getD domain.2) cname.1
        (((written cname).map (storage.cname_target idx)).getD cname.2) entry.ttl) ∧
      Discloses s table entry.domain_name domain.1 domain.2 ∧ Discloses s table entry.cname cname.1 cname.2 := by
  obtain ⟨domain, hdomain, hdomain_shown⟩ := a_name_discloses hinitialized hloaded entry.domain_name
  obtain ⟨cname, hcname, hcname_shown⟩ := a_name_discloses hinitialized hloaded entry.cname
  refine ⟨domain, cname, ?_, hdomain_shown, hcname_shown⟩
  simp only [cname_line_stored, cname_name_eq_a_name hanonymized, hdomain, hcname, Option.bind_eq_bind,
    Option.bind_some, Option.pure_def]

/-- Every line can be composed. -/
theorem dns_lines_composed :
    ∃ a_lines cname_lines : List Line,
      table.a_entries.items.mapIdx (a_line_stored s storage table) = a_lines.map some ∧
      table.cname_entries.items.mapIdx (cname_line_stored s storage table) = cname_lines.map some := by
  have ha : ∀ line ∈ table.a_entries.items.mapIdx (a_line_stored s storage table), line.isSome := by
    intro line hmem
    obtain ⟨idx, hidx, rfl⟩ := List.mem_mapIdx.mp hmem
    obtain ⟨_, _, hline, _⟩ := a_line_stored_eq hanonymized hinitialized hloaded storage idx _
    rw [hline, Option.isSome_some]
  have hcname : ∀ line ∈ table.cname_entries.items.mapIdx (cname_line_stored s storage table), line.isSome := by
    intro line hmem
    obtain ⟨idx, hidx, rfl⟩ := List.mem_mapIdx.mp hmem
    obtain ⟨_, _, hline, _⟩ := cname_line_stored_eq hanonymized hinitialized hloaded storage idx _
    rw [hline, Option.isSome_some]
  obtain ⟨a_lines, ha⟩ := exists_map_some ha
  obtain ⟨cname_lines, hcname⟩ := exists_map_some hcname
  exact ⟨a_lines, cname_lines, ha, hcname⟩

/-- The lines disclose what they should exactly if the storage is kept. -/
theorem disclosesExactly_iff {a_lines cname_lines : List Line}
    (ha : table.a_entries.items.mapIdx (a_line_stored s storage table) = a_lines.map some)
    (hcname : table.cname_entries.items.mapIdx (cname_line_stored s storage table) = cname_lines.map some) :
    DisclosesExactly s table a_lines cname_lines ↔ storage.Keeps s table := by
  constructor
  · intro hdiscloses
    constructor
    case a_domain =>
      intro idx entry digest hentry hwrites
      obtain ⟨anonymized, text, address, hline, hname, -⟩ := hdiscloses.a idx entry hentry
      obtain ⟨shown, address', hstored, hshown, -⟩ :=
        a_line_stored_eq hanonymized hinitialized hloaded storage idx entry
      rw [getElem?_of_composed ha hentry, hstored] at hline
      simp only [Option.some.injEq, Line.a.injEq, true_and] at hline
      obtain ⟨rfl, rfl, -⟩ := hline
      exact (hshown.stored_iff _).mp hname digest hwrites
    case cname_domain =>
      intro idx entry digest target hentry hwrites htarget
      obtain ⟨_, _, _, _, hline, hname, -⟩ := hdiscloses.cname idx entry hentry
      obtain ⟨domain, cname, hstored, hdomain, hcname_shown⟩ :=
        cname_line_stored_eq hanonymized hinitialized hloaded storage idx entry
      rw [getElem?_of_composed hcname hentry, hstored] at hline
      simp only [Option.some.injEq, Line.cname.injEq, true_and] at hline
      obtain ⟨rfl, rfl, -⟩ := hline
      rw [htarget.unique hcname_shown.writes]
      exact (hdomain.stored_iff _).mp hname digest hwrites
    case cname_target =>
      intro idx entry digest hentry hwrites
      obtain ⟨_, _, _, _, hline, -, hname⟩ := hdiscloses.cname idx entry hentry
      obtain ⟨domain, cname, hstored, -, hcname_shown⟩ :=
        cname_line_stored_eq hanonymized hinitialized hloaded storage idx entry
      rw [getElem?_of_composed hcname hentry, hstored] at hline
      simp only [Option.some.injEq, Line.cname.injEq, true_and] at hline
      obtain ⟨-, -, rfl, rfl, -⟩ := hline
      exact (hcname_shown.stored_iff _).mp hname digest hwrites
  · intro hkeeps
    constructor
    case a_count => simpa using (congrArg List.length ha).symm
    case cname_count => simpa using (congrArg List.length hcname).symm
    case a =>
      intro idx entry hentry
      obtain ⟨shown, address, hstored, hshown, haddress⟩ :=
        a_line_stored_eq hanonymized hinitialized hloaded storage idx entry
      refine ⟨_, _, address, (getElem?_of_composed ha hentry).trans hstored, ?_, haddress⟩
      exact (hshown.stored_iff _).mpr fun digest => hkeeps.a_domain idx entry digest hentry
    case cname =>
      intro idx entry hentry
      obtain ⟨domain, cname, hstored, hdomain, hcname_shown⟩ :=
        cname_line_stored_eq hanonymized hinitialized hloaded storage idx entry
      refine ⟨_, _, _, _, (getElem?_of_composed hcname hentry).trans hstored, ?_, ?_⟩
      · apply (hdomain.stored_iff _).mpr
        exact fun digest hwrites => hkeeps.cname_domain idx entry digest _ hentry hwrites hcname_shown.writes
      · apply (hcname_shown.stored_iff _).mpr
        exact fun digest => hkeeps.cname_target idx entry digest hentry

/-- What an update of these tables shows. -/
def PrintsExactly (s : Session) (storage : storage_t) (table : dns_table_t) (handle : gzFile) : Prop :=
  ∃ a_lines cname_lines, dns_table_write_update_stored s storage table handle =
      (some 0, handle.append (dns_section table a_lines cname_lines)) ∧
    DisclosesExactly s table a_lines cname_lines

/-- And so does the section that a healthy file takes. -/
theorem printsExactly_iff {handle : gzFile} (hhandle : handle.Healthy) :
    PrintsExactly s storage table handle ↔ storage.Keeps s table := by
  obtain ⟨a_lines, cname_lines, ha, hcname⟩ := dns_lines_composed hanonymized hinitialized hloaded storage
  have hwrite := dns_table_write_update_stored_healthy hhandle ha hcname
  rw [← disclosesExactly_iff hanonymized hinitialized hloaded storage ha hcname]
  constructor
  · rintro ⟨a_lines', cname_lines', hwrite', hdiscloses⟩
    have hsection := congrArg (fun result : writer_result × gzFile => result.2.written) (hwrite.symm.trans hwrite')
    simp only [gzFile.append_written, List.append_cancel_left_eq] at hsection
    have hlength : a_lines.length = a_lines'.length := by
      rw [hdiscloses.a_count]
      simpa using (congrArg List.length ha).symm
    obtain ⟨rfl, rfl⟩ := dns_section_injective hlength hsection
    exact hdiscloses
  · intro hdiscloses
    exact ⟨a_lines, cname_lines, hwrite, hdiscloses⟩

/-- Names are disclosed exactly as they may be, if and only if the buffers of
the hidden ones keep their contents until the line is printed. -/
theorem discloses_exactly_iff :
    (∀ handle : gzFile, handle.Healthy → PrintsExactly s storage table handle) ↔ storage.Keeps s table := by
  constructor
  · intro hprinted
    exact (printsExactly_iff hanonymized hinitialized hloaded storage healthy_file_healthy).mp
      (hprinted healthy_file healthy_file_healthy)
  · intro hkeeps handle hhandle
    exact (printsExactly_iff hanonymized hinitialized hloaded storage hhandle).mpr hkeeps

end lines

theorem storage_kept_keeps (s : Session) (table : dns_table_t) : storage_kept.Keeps s table where
  a_domain _ _ _ _ _ := rfl
  cname_domain _ _ _ _ _ _ _ := rfl
  cname_target _ _ _ _ _ := rfl

/-- A keyed hash that tells names of different lengths apart. -/
def length_session : Session :=
  { anonymizing_session with externals :=
      { anonymizing_session.externals with sha1_hmac := fun _ data => Vector.replicate _ (.ofNat data.length) } }

/-- A filter that could be loaded, but has no name. -/
def vacant_filter : filter_io where
  calloc := true
  filter := some []
  malloc := true

/-- The alias `a` of the name `bc`, in no whitelist. -/
def alias_table : dns_table_t :=
  { dns_table_init none (initialize_bloom_whitelist vacant_filter).2 with
    cname_entries := ⟨[⟨0, 0, [97], [98, 99], 60⟩], by decide⟩ }

theorem alias_table_hidden (name : cstring) : ¬ Allowed alias_table name := by
  rintro (⟨_, hnone, _⟩ | ⟨a, ha, hbit, _⟩)
  · cases hnone
  · obtain rfl := Option.some.inj ha
    simp [GETBIT, read_filter] at hbit

theorem discloses_exactly_iff_kept : PrintsExactly length_session storage_kept alias_table healthy_file := by
  have hprinted := (@discloses_exactly_iff length_session alias_table rfl rfl vacant_filter rfl storage_kept).mpr
    (storage_kept_keeps _ _)
  exact hprinted healthy_file healthy_file_healthy

/-- With the two buffers at one place the owner's field shows the digest of the
target. -/
theorem shared_storage_discloses_wrongly :
    ¬ ∀ (s : Session) (io : filter_io) (table : dns_table_t) (storage : storage_t),
      s.target.disable_anonymization = false → s.anonymization.initialized = true →
      initialize_bloom_whitelist io = (0, table.bloom) →
      ∀ handle : gzFile, handle.Healthy → PrintsExactly s storage table handle := by
  intro hprinted
  have hkeeps := (@printsExactly_iff length_session alias_table rfl rfl vacant_filter rfl storage_shared _
    healthy_file_healthy).mp (hprinted length_session vacant_filter alias_table storage_shared rfl rfl rfl _
      healthy_file_healthy)
  have hwrites (name : cstring) : Writes length_session alias_table name (hex_domain_digest length_session name) :=
    ⟨fun hallowed => absurd hallowed (alias_table_hidden name), fun _ => rfl⟩
  have hdigest : storage_shared.cname_domain 0 _ _ = _ :=
    hkeeps.cname_domain 0 _ _ _ rfl (hwrites [97]) (hwrites [98, 99])
  revert hdigest
  decide

end bismark_passive.dns
