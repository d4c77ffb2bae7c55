import BismarkPassive.Http.Agreement
import BismarkPassive.Main.Names

namespace bismark_passive

open main flow_table dns http

/-! The program linked with another keyed hash -/

section linked

variable (hash : List UInt8 → List UInt8 → digest_t)

def Externals.linked (externals : Externals) : Externals := { externals with sha1_hmac := hash }

def Session.linked (s : Session) : Session := { s with externals := s.externals.linked hash }

theorem Session.linked_dn_expand (s : Session) : (s.linked hash).externals.dn_expand = s.externals.dn_expand := rfl

end linked

variable {s : Session} {hash : List UInt8 → List UInt8 → digest_t}

/-- The other hash gives the same digest to every IP address. -/
def SameAddresses (s : Session) (hash : List UInt8 → List UInt8 → digest_t) : Prop :=
  ∀ address, SameDigest s (s.linked hash) (s.target.bytes32 address)

/-- The other hash gives the same digest to every name in the table. -/
abbrev SameNameDigests (s : Session) (hash : List UInt8 → List UInt8 → digest_t) (table : dns_table_t) : Prop :=
  NamesAre (SameDigest s (s.linked hash)) table

theorem anonymize_ip_linked (h : SameAddresses s hash) (address : UInt32) :
    anonymize_ip (s.linked hash) address = anonymize_ip s address :=
  congrArg (Option.bind · _) (h address)

theorem hex_domain_digest_linked {name : cstring} (h : SameDigest s (s.linked hash) name) :
    hex_domain_digest (s.linked hash) name = hex_domain_digest s name :=
  congrArg (Option.bind · _) h

/-! What is written of the tables -/

theorem flow_line_linked (h : SameAddresses s hash) (idx : Slot) (entry : flow_table_entry_t) :
    flow_line (s.linked hash) idx entry = flow_line s idx entry := by
  have haddress (unanonymized : Bool) (address : UInt32) :
      address_digest (s.linked hash) unanonymized address = address_digest s unanonymized address := by
    rw [address_digest, address_digest, anonymize_ip_linked h]
    rfl
  rw [flow_line, flow_line, haddress, haddress]

theorem flow_table_write_update_linked (h : SameAddresses s hash) (table : flow_table_t) :
    flow_table_write_update (s.linked hash) table = flow_table_write_update s table := by
  have hentries (slots : List Slot) (table : flow_table_t) (handle : gzFile) :
      write_entries (s.linked hash) slots table handle = write_entries s slots table handle := by
    induction slots generalizing table handle with
    | nil => rfl
    | cons idx slots ih => simp only [write_entries, flow_line_linked h, ih]
  funext handle
  simp only [flow_table_write_update, hentries]

theorem a_line_linked (h : SameAddresses s hash) (table : dns_table_t) {entry : dns_a_entry_t}
    (hname : SameDigest s (s.linked hash) entry.domain_name) :
    a_line (s.linked hash) table entry = a_line s table entry := by
  have hshown : a_name (s.linked hash) table entry.domain_name = a_name s table entry.domain_name := by
    rw [a_name, a_name, hex_domain_digest_linked hname]
  rw [a_line, a_line, hshown, anonymize_ip_linked h]
  rfl

theorem cname_name_linked (table : dns_table_t) {name : cstring} (h : SameDigest s (s.linked hash) name) :
    cname_name (s.linked hash) table name = cname_name s table name := by
  rw [cname_name, cname_name, hex_domain_digest_linked h]
  rfl

theorem dns_table_write_update_linked (h : SameAddresses s hash) {table : dns_table_t}
    (hnames : SameNameDigests s hash table) :
    dns_table_write_update (s.linked hash) table = dns_table_write_update s table := by
  have ha : table.a_entries.items.map (a_line (s.linked hash) table) = table.a_entries.items.map (a_line s table) :=
    List.map_congr_left fun entry hentry => a_line_linked h table (hnames.a_entries entry hentry)
  have hcname : table.cname_entries.items.map (cname_line (s.linked hash) table) =
      table.cname_entries.items.map (cname_line s table) := by
    refine List.map_congr_left fun entry hentry => ?_
    obtain ⟨hdomain, htarget⟩ := hnames.cname_entries entry hentry
    rw [cname_line, cname_line, cname_name_linked table hdomain, cname_name_linked table htarget]
  rw [dns_table_write_update, dns_table_write_update, ha, hcname]

/-! What is recorded of a packet -/

/-- The parser of DNS messages does not use the keyed hash. -/
theorem run_process_dns_packet_linked (externals : Externals) (memory : Nat → UInt8) (len : Nat) (table : dns_table_t)
    (packet_id : UInt16) (mac_id : UInt8) :
    ((process_dns_packet (externals.linked hash) len table packet_id mac_id).run memory).2 =
      ((process_dns_packet externals len table packet_id mac_id).run memory).2 := by
  have hquestions (count offset : Nat) :
      skip_questions (externals.linked hash) len count offset = skip_questions externals len count offset := by
    induction count generalizing offset with
    | zero => rfl
    | succ count ih =>
      simp only [skip_questions, ih]
      rfl
  have hparse (offset : Nat) :
      parse_resource_record (externals.linked hash) len offset = parse_resource_record externals len offset := rfl
  have hextracted (sections : List Bool) (offset : Nat) :
      extracted_records (externals.linked hash) memory len sections offset =
        extracted_records externals memory len sections offset := by
    induction sections generalizing offset with
    | nil => rfl
    | cons extracted sections ih => simp only [extracted_records, hparse, ih]
  have hrecords : packet_records (externals.linked hash) memory len = packet_records externals memory len := by
    simp only [packet_records, hquestions, hextracted]
  rw [run_process_dns_packet_eq, run_process_dns_packet_eq, hrecords]
  rfl

theorem process_dns_linked (frame : frame_t) (dissection : dissection_t) (packet_id : Int) (table : dns_table_t) :
    process_dns (s.linked hash) frame dissection packet_id table = process_dns s frame dissection packet_id table := by
  unfold process_dns
  split
  · exact run_process_dns_packet_linked _ _ _ _ _ _
  · rfl

/-- A payload is recorded alike if the other hash agrees on its URL. -/
theorem process_http_packet_linked {bytes : List UInt8}
    (h : ∀ url, requested_url bytes = some url → SameDigest s (s.linked hash) url) (len : Int) (table : http_table_t)
    (flow_id : UInt16) :
    process_http_packet (s.linked hash) bytes len table flow_id = process_http_packet s bytes len table flow_id := by
  unfold process_http_packet
  unfold requested_url at h
  cases htokens : tokenize (bytes.takeWhile (· != 0)) with
  | none => rfl
  | some tokens =>
    obtain ⟨method, url⟩ := tokens
    rw [htokens] at h
    by_cases hget : strcasecmp_eq method [71, 69, 84] = true
    · have hurl := h _ (if_pos hget)
      have hadd :
          add_url (s.linked hash) table flow_id (if MAX_URL < url.length then url.take (MAX_URL - 1) else url) =
            add_url s table flow_id (if MAX_URL < url.length then url.take (MAX_URL - 1) else url) :=
        congrArg (Option.bind · _) hurl
      simp only [hadd]
      rfl
    · simp only [if_neg hget]

end bismark_passive
