import BismarkPassive.Containers.Ledger
import BismarkPassive.Dns.Provenance

namespace bismark_passive.dns

open bytes containers

/-- A table, the strings that its entries point to, and all strings that the
parser has duplicated. -/
structure owned_table_t where
  table : dns_table_t
  a_strings : List Nat
  cname_strings : List (Nat × Nat)
  strings : Ledger

/-- A packet as the parser gets it. -/
structure dns_packet_t where
  memory : Nat → UInt8
  len : Nat
  packet_id : UInt16
  mac_id : UInt8

def owned_table_init (whitelist : Option domain_whitelist_t) (bloom : bloom_whitelist_t) (strings : Ledger) :
    owned_table_t where
  table := dns_table_init whitelist bloom
  a_strings := []
  cname_strings := []
  strings := strings

variable (externals : Externals)

/-- `add_a_record` with its `strdup`. The string stays with the entry if the
table takes it. -/
def owned_table_t.add_a_record (owned : owned_table_t) (packet : dns_packet_t) (record : resource_record_t) :
    owned_table_t :=
  let (domain_name, strings) := owned.strings.issue
  let (result, table) := dns_table_add_a owned.table
    { packet_id := packet.packet_id
      mac_id := packet.mac_id
      domain_name := record.name
      ip_address := (load32 record.rdata).run packet.memory
      ttl := record.ttl }
  { owned with
    table := table
    a_strings := if result = 0 then owned.a_strings ++ [domain_name] else owned.a_strings
    strings := strings }

/-- `add_cname_record` with its two calls of `strdup`. -/
def owned_table_t.add_cname_record (owned : owned_table_t) (packet : dns_packet_t) (record : resource_record_t) :
    owned_table_t :=
  let (domain_name, strings) := owned.strings.issue
  match externals.dn_expand (seen packet.memory packet.len) record.rdata with
  | none => { owned with strings := strings }
  | some (name, _) =>
    let (cname, strings) := strings.issue
    let (result, table) := dns_table_add_cname owned.table
      { packet_id := packet.packet_id
        mac_id := packet.mac_id
        domain_name := record.name
        cname := name
        ttl := record.ttl }
    { owned with
      table := table
      cname_strings := if result = 0 then owned.cname_strings ++ [(domain_name, cname)] else owned.cname_strings
      strings := strings }

def owned_table_t.add_record (packet : dns_packet_t) (owned : owned_table_t) (record : resource_record_t) :
    owned_table_t :=
  if record.class_ ≠ C_IN then owned
  else if record.type = T_A then owned.add_a_record packet record
  else if record.type = T_CNAME then owned.add_cname_record externals packet record
  else owned

/-- One packet, with the records that the parser gets to. -/
def owned_table_t.process_dns_packet (owned : owned_table_t) (packet : dns_packet_t) : owned_table_t :=
  (packet_records externals packet.memory packet.len).foldl (owned_table_t.add_record externals packet) owned

/-- The strings of the entries, in the order in which `dns_table_destroy` frees them. -/
def owned_table_t.held (owned : owned_table_t) : List Nat :=
  owned.a_strings ++ owned.cname_strings.flatMap fun strings => [strings.1, strings.2]

def owned_table_t.dns_table_destroy (owned : owned_table_t) : Ledger := owned.strings.release_all owned.held

/-- The packets of an update period, and what `write_update` does to the table at its end. -/
def owned_table_t.period (whitelist : Option domain_whitelist_t) (bloom : bloom_whitelist_t) (owned : owned_table_t)
    (packets : List dns_packet_t) : owned_table_t :=
  owned_table_init whitelist bloom
    (packets.foldl (owned_table_t.process_dns_packet externals) owned).dns_table_destroy

/-- The table at the start of the period after these ones. -/
def update_periods (whitelist : Option domain_whitelist_t) (bloom : bloom_whitelist_t)
    (periods : List (List dns_packet_t)) : owned_table_t :=
  periods.foldl (owned_table_t.period externals whitelist bloom) (owned_table_init whitelist bloom .empty)

def dns_packet_t.records (packet : dns_packet_t) : List resource_record_t :=
  packet_records externals packet.memory packet.len

/-- The alias records whose data does not expand. -/
def dns_packet_t.unexpanded (packet : dns_packet_t) : Nat :=
  (packet.records externals).countP fun record =>
    decide record.IsAlias && !record.Expands externals packet.memory packet.len

def dns_packet_t.addresses (packet : dns_packet_t) : Nat := (packet.records externals).countP (·.IsAddress)

def dns_packet_t.aliases (packet : dns_packet_t) : Nat :=
  (packet.records externals).countP (·.Expands externals packet.memory packet.len)

variable {externals : Externals} {whitelist : Option domain_whitelist_t} {bloom : bloom_whitelist_t}

/-- The entries' strings are held, and the other ones that were not freed are
lost: those lost before, and those of the entries that the table refused. -/
structure owned_table_t.Owns (owned : owned_table_t) (before : Nat) (lost : List Nat) : Prop where
  accounts : owned.strings.Accounts owned.held lost
  lost_length : (lost.length : Int) =
    before + owned.table.num_dropped_a_entries + 2 * owned.table.num_dropped_cname_entries

/-- Keeping account of the strings does not change what becomes of the table. -/
theorem add_record_table (packet : dns_packet_t) (owned : owned_table_t) (record : resource_record_t) :
    (owned_table_t.add_record externals packet owned record).table =
      (dns.add_record externals packet.len packet.packet_id packet.mac_id owned.table record).run packet.memory := by
  unfold owned_table_t.add_record dns.add_record
  simp only [ite_not, Reader.run_ite, Reader.run_pure, add_a_record, add_cname_record, Reader.run_bind, run_dn_expand]
  by_cases hclass : record.class_ = C_IN
  · rw [if_pos hclass, if_pos hclass]
    by_cases ha : record.type = T_A
    · rw [if_pos ha, if_pos ha]
      rfl
    · rw [if_neg ha, if_neg ha]
      by_cases hcname : record.type = T_CNAME
      · rw [if_pos hcname, if_pos hcname, owned_table_t.add_cname_record]
        cases externals.dn_expand (seen packet.memory packet.len) record.rdata <;> rfl
      · rw [if_neg hcname, if_neg hcname]
  · rw [if_neg hclass, if_neg hclass]

/-- The ledger leaves the table as the parser has it. -/
theorem process_dns_packet_table (owned : owned_table_t) (packet : dns_packet_t) :
    (owned.process_dns_packet externals packet).table =
      ((dns.process_dns_packet externals packet.len owned.table packet.packet_id packet.mac_id).run
        packet.memory).2 := by
  rw [process_dns_packet_after, owned_table_t.process_dns_packet, dns_table_t.after]
  generalize packet_records externals packet.memory packet.len = records
  induction records generalizing owned with
  | nil => rfl
  | cons record records ih => rw [List.foldl_cons, List.foldl_cons, ih, add_record_table]

variable {owned : owned_table_t} {before : Nat} {lost : List Nat} {packet : dns_packet_t}

/-- An entry that a full table refuses takes its string with it. -/
theorem owned_table_t.Owns.add_a_record (h : owned.Owns before lost) (record : resource_record_t) :
    ∃ lost', (owned.add_a_record packet record).Owns before lost' := by
  have hissued := h.accounts.issue
  unfold owned_table_t.add_a_record dns_table_add_a
  cases hpush : owned.table.a_entries.push
      { packet_id := packet.packet_id
        mac_id := packet.mac_id
        domain_name := record.name
        ip_address := (load32 record.rdata).run packet.memory
        ttl := record.ttl } with
  | none =>
    have hrefused : ¬ (-1 : Int) = 0 := by decide
    simp only [if_neg hrefused]
    refine ⟨_, hissued.lose, ?_⟩
    rw [List.length_append, List.length_singleton, Nat.cast_add, h.lost_length]
    dsimp only
    omega
  | some a_entries =>
    refine ⟨lost, hissued.perm ?_, h.lost_length⟩
    simp only [if_true, owned_table_t.held, List.append_assoc]
    exact List.perm_append_comm.append_left owned.a_strings

/-- A name whose alias does not expand is lost, and a refused entry takes both
of its strings with it. -/
theorem owned_table_t.Owns.add_cname_record (h : owned.Owns before lost) (record : resource_record_t) :
    ∃ lost', (owned.add_cname_record externals packet record).Owns
      (before + if (externals.dn_expand (seen packet.memory packet.len) record.rdata).isSome then 0 else 1) lost' := by
  have hissued := h.accounts.issue
  unfold owned_table_t.add_cname_record
  cases hexpanded : externals.dn_expand (seen packet.memory packet.len) record.rdata with
  | none =>
    refine ⟨_, hissued.lose, ?_⟩
    rw [List.length_append, List.length_singleton, Nat.cast_add, h.lost_length]
    simp only [Option.isSome_none, Bool.false_eq_true, if_false]
    omega
  | some expanded =>
    obtain ⟨name, length⟩ := expanded
    have hboth := hissued.issue
    unfold dns_table_add_cname
    cases hpush : owned.table.cname_entries.push
        { packet_id := packet.packet_id
          mac_id := packet.mac_id
          domain_name := record.name
          cname := name
          ttl := record.ttl } with
    | none =>
      have hrefused : ¬ (-1 : Int) = 0 := by decide
      simp only [hpush, if_neg hrefused]
      refine ⟨_, hboth.lose.lose, ?_⟩
      simp only [List.length_append, List.length_singleton, Nat.cast_add, h.lost_length, Option.isSome_some, if_true]
      omega
    | some cname_entries =>
      refine ⟨lost, ?_, ?_⟩
      · simp only [hpush, if_true]
        have hheld : owned.held ++ [owned.strings.issue.1] ++ [owned.strings.issue.2.issue.1] =
            owned.a_strings ++
              (owned.cname_strings ++ [(owned.strings.issue.1, owned.strings.issue.2.issue.1)]).flatMap
                fun strings => [strings.1, strings.2] := by
          rw [owned_table_t.held, List.flatMap_append, List.flatMap_singleton, List.append_assoc, List.append_assoc]
          rfl
        rw [hheld] at hboth
        exact hboth
      · simp only [hpush, h.lost_length, Option.isSome_some, if_true, Nat.add_zero]

/-- A record leaks a string only if it is an alias whose data does not expand. -/
theorem owned_table_t.Owns.add_record (h : owned.Owns before lost) (record : resource_record_t) :
    ∃ lost', (owned_table_t.add_record externals packet owned record).Owns
      (before + if record.IsAlias ∧ ¬ record.Expands externals packet.memory packet.len then 1 else 0) lost' := by
  have htypes : T_A ≠ T_CNAME := by decide
  unfold owned_table_t.add_record resource_record_t.Expands
  simp only [ite_not]
  by_cases hclass : record.class_ = C_IN
  · rw [if_pos hclass]
    by_cases ha : record.type = T_A
    · have hother : ¬ record.IsAlias := fun halias => htypes (ha.symm.trans halias.2)
      rw [if_pos ha, if_neg fun hlost => hother hlost.1]
      exact h.add_a_record record
    · rw [if_neg ha]
      by_cases hcname : record.type = T_CNAME
      · have halias : record.IsAlias := ⟨hclass, hcname⟩
        rw [if_pos hcname]
        obtain ⟨lost', hadded⟩ := @owned_table_t.Owns.add_cname_record externals owned before lost packet h record
        refine ⟨lost', ?_⟩
        cases hexpanded : externals.dn_expand (seen packet.memory packet.len) record.rdata with
        | none => simpa [hexpanded, halias] using hadded
        | some expanded => simpa [hexpanded, halias] using hadded
      · rw [if_neg hcname, if_neg fun hlost => hcname hlost.1.2]
        exact ⟨lost, h⟩
  · rw [if_neg hclass, if_neg fun hlost => hclass hlost.1.1]
    exact ⟨lost, h⟩

/-- A packet leaks one string for each such alias. -/
theorem owned_table_t.Owns.process_dns_packet (h : owned.Owns before lost) :
    ∃ lost', (owned.process_dns_packet externals packet).Owns (before + packet.unexpanded externals) lost' := by
  unfold owned_table_t.process_dns_packet dns_packet_t.unexpanded dns_packet_t.records
  generalize packet_records externals packet.memory packet.len = records
  induction records generalizing owned before lost with
  | nil => exact ⟨lost, h⟩
  | cons record records ih =>
    obtain ⟨lost', hrecord⟩ := @owned_table_t.Owns.add_record externals owned before lost packet h record
    obtain ⟨lost'', hrest⟩ := ih hrecord
    refine ⟨lost'', ?_⟩
    rw [List.countP_cons, Nat.add_comm (List.countP _ _), ← Nat.add_assoc]
    simpa using hrest

/-- And so do any number of packets. -/
theorem owned_table_t.Owns.process_dns_packets (h : owned.Owns before lost) (packets : List dns_packet_t) :
    ∃ lost', (packets.foldl (owned_table_t.process_dns_packet externals) owned).Owns
      (before + (packets.map (dns_packet_t.unexpanded externals)).sum) lost' := by
  induction packets generalizing owned before lost with
  | nil => exact ⟨lost, h⟩
  | cons packet packets ih =>
    obtain ⟨lost', hpacket⟩ := @owned_table_t.Owns.process_dns_packet externals owned before lost packet h
    rw [List.map_cons, List.sum_cons, ← Nat.add_assoc]
    exact ih hpacket

/-- What the table's counters of a period say. -/
theorem process_dns_packets_dropped (packets : List dns_packet_t) (strings : Ledger) :
    (packets.foldl (owned_table_t.process_dns_packet externals)
        (owned_table_init whitelist bloom strings)).table.num_dropped_a_entries =
      ((packets.map (dns_packet_t.addresses externals)).sum - DNS_TABLE_A_ENTRIES : Nat) ∧
    (packets.foldl (owned_table_t.process_dns_packet externals)
        (owned_table_init whitelist bloom strings)).table.num_dropped_cname_entries =
      ((packets.map (dns_packet_t.aliases externals)).sum - DNS_TABLE_CNAME_ENTRIES : Nat) := by
  have htable : ∃ as cnames, (packets.foldl (owned_table_t.process_dns_packet externals)
        (owned_table_init whitelist bloom strings)).table =
      (dns_table_init whitelist bloom).record_all as cnames ∧
      as.length = (packets.map (dns_packet_t.addresses externals)).sum ∧
      cnames.length = (packets.map (dns_packet_t.aliases externals)).sum := by
    induction packets using List.reverseRecOn with
    | nil => exact ⟨[], [], (dns_table_t.record_all_nil _).symm, rfl, rfl⟩
    | append_singleton packets packet ih =>
      obtain ⟨as, cnames, htable, has, hcnames⟩ := ih
      refine ⟨as ++ (packet.records externals).filterMap
          (resource_record_t.a_entry packet.memory packet.packet_id packet.mac_id),
        cnames ++ (packet.records externals).filterMap
          (resource_record_t.cname_entry externals packet.memory packet.len packet.packet_id packet.mac_id),
        ?_, ?_, ?_⟩
      · rw [List.foldl_append, List.foldl_cons, List.foldl_nil, process_dns_packet_table, run_process_dns_packet_eq,
          htable, dns_table_t.record_all_append, dns_packet_t.records]
      · rw [List.length_append, has, List.map_append, List.sum_append, List.map_singleton, List.sum_singleton,
          List.length_filterMap_eq_countP, dns_packet_t.addresses]
        simp only [a_entry_isSome]
      · rw [List.length_append, hcnames, List.map_append, List.sum_append, List.map_singleton, List.sum_singleton,
          List.length_filterMap_eq_countP, dns_packet_t.aliases]
        simp only [cname_entry_isSome]
  obtain ⟨as, cnames, htable, has, hcnames⟩ := htable
  rw [htable, ← has, ← hcnames]
  simp only [dns_table_t.record_all, Bounded.push_all_refused, List.length_drop, dns_table_init, Bounded.empty_items,
    List.length_nil, Nat.sub_zero, zero_add, and_self]

/-- The strings that a period loses. -/
def period_losses (externals : Externals) (packets : List dns_packet_t) : Nat :=
  (packets.map (dns_packet_t.unexpanded externals)).sum +
    ((packets.map (dns_packet_t.addresses externals)).sum - DNS_TABLE_A_ENTRIES) +
    2 * ((packets.map (dns_packet_t.aliases externals)).sum - DNS_TABLE_CNAME_ENTRIES)

/-- After each period no strings are held, and those of all periods are lost. -/
theorem update_periods_owns (whitelist : Option domain_whitelist_t) (bloom : bloom_whitelist_t)
    (periods : List (List dns_packet_t)) :
    ∃ strings lost, update_periods externals whitelist bloom periods = owned_table_init whitelist bloom strings ∧
      strings.Accounts [] lost ∧ lost.length = (periods.map (period_losses externals)).sum := by
  induction periods using List.reverseRecOn with
  | nil => exact ⟨.empty, [], rfl, Ledger.empty_accounts, rfl⟩
  | append_singleton periods packets ih =>
    obtain ⟨strings, lost, hinit, haccounts, hlost⟩ := ih
    have howns : (owned_table_init whitelist bloom strings).Owns lost.length lost :=
      ⟨haccounts, by simp [owned_table_init, dns_table_init]⟩
    obtain ⟨lost', hperiod⟩ := @owned_table_t.Owns.process_dns_packets externals _ _ _ howns packets
    obtain ⟨ha, hcname⟩ := @process_dns_packets_dropped externals whitelist bloom packets strings
    refine ⟨_, lost', ?_, (hperiod.accounts.perm (.of_eq (List.append_nil _).symm)).release_all, ?_⟩
    · rw [update_periods, List.foldl_append, ← update_periods, hinit]
      rfl
    · have hlength := hperiod.lost_length
      rw [ha, hcname, hlost] at hlength
      rw [List.map_append, List.sum_append, List.map_singleton, List.sum_singleton, period_losses]
      omega

/-- Every string that the parser duplicated has been freed exactly once at the
start of the next period, exactly if in every period the tables had room for
all address and alias records and all aliases expanded. Nothing is freed twice. -/
theorem strings_settled_iff (whitelist : Option domain_whitelist_t) (bloom : bloom_whitelist_t)
    (periods : List (List dns_packet_t)) :
    ((update_periods externals whitelist bloom periods).strings.Settled ↔
      ∀ packets ∈ periods, (packets.map (dns_packet_t.addresses externals)).sum ≤ DNS_TABLE_A_ENTRIES ∧
        (packets.map (dns_packet_t.aliases externals)).sum ≤ DNS_TABLE_CNAME_ENTRIES ∧
        ∀ packet ∈ packets, packet.unexpanded externals = 0) ∧
    (update_periods externals whitelist bloom periods).strings.released.Nodup := by
  obtain ⟨strings, lost, hinit, haccounts, hlost⟩ := @update_periods_owns externals whitelist bloom periods
  rw [hinit]
  refine ⟨?_, haccounts.released_nodup⟩
  rw [owned_table_init, haccounts.settled_iff, ← List.length_eq_zero_iff, hlost, List.sum_eq_zero_iff_forall_eq_nat,
    List.forall_mem_map]
  refine forall₂_congr fun packets _ => ?_
  have hunexpanded : (packets.map (dns_packet_t.unexpanded externals)).sum = 0 ↔
      ∀ packet ∈ packets, packet.unexpanded externals = 0 := by
    rw [List.sum_eq_zero_iff_forall_eq_nat, List.forall_mem_map]
  rw [← hunexpanded, period_losses]
  omega

/-- A response about the root name with an alias that does not expand. -/
def broken_alias : List UInt8 :=
  [0, 1, 0x81, 0x80, 0, 0, 0, 1, 0, 0, 0, 0] ++ ([0] ++ be16 T_CNAME ++ be16 C_IN ++ be32 60 ++ be16 1 ++ [1])

/-- Its owner's name is lost when the period ends. -/
theorem strings_not_settled_broken_alias :
    ¬ (update_periods reference_session.externals none ⟨0, none, 0, fun _ => none⟩
      [[⟨fun address => broken_alias.getD address 0, broken_alias.length, 3, 4⟩]]).strings.Settled := by
  intro hsettled
  exact absurd (hsettled 0) (by decide)

end bismark_passive.dns
