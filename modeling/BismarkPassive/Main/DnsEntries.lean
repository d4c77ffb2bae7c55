import BismarkPassive.Main.Mappings
import BismarkPassive.Main.PacketLines

namespace bismark_passive.main

open machine containers address_table packet_series dns

variable {s : Session} {domain_whitelist : domain_whitelist_t} {bloom_whitelist : bloom_whitelist_t}

/-- Packets after which no update was written belong to the same period. -/
theorem period_append {before after : main_trace} (hafter : updates after = []) :
    period (before ++ after) = period before ++ after.filterMap captured := by
  induction after using List.reverseRecOn with
  | nil => simp
  | append_singleton after last ih =>
    obtain ⟨event, output⟩ := last
    cases output with
    | processed capture =>
      rw [updates_snoc_processed] at hafter
      rw [← List.append_assoc, period_snoc_processed, ih hafter, List.filterMap_append, List.append_assoc]
      rfl
    | written update => simp at hafter

/-- The DNS entries that a packet's payload has for an empty table. -/
def extracted (s : Session) (domain_whitelist : domain_whitelist_t) (bloom_whitelist : bloom_whitelist_t)
    (capture : capture_t) : dns_table_t :=
  process_dns s capture.frame capture.locals.dissection capture.locals.packet_id
    (dns_table_init (some domain_whitelist) bloom_whitelist)

/-- These ids are those of a packet of the current period with this property. -/
def Refers (trace : main_trace) (packet_id : UInt16) (mac_id : UInt8) (contains : capture_t → Prop) : Prop :=
  ∃ (before after : main_trace) (event : main_event) (capture : capture_t),
    trace = before ++ (event, .processed capture) :: after ∧ updates after = [] ∧
    (stored (period before)).length = packet_id.toNat ∧ capture.locals.packet_id = (packet_id.toNat : Int) ∧
    capture.locals.dissection.mac_id = (mac_id.toNat : Int) ∧ contains capture

theorem Refers.imp {trace : main_trace} {packet_id : UInt16} {mac_id : UInt8} {contains contains' : capture_t → Prop}
    (h : Refers trace packet_id mac_id contains) (himp : ∀ capture, contains capture → contains' capture) :
    Refers trace packet_id mac_id contains' := by
  obtain ⟨before, after, event, capture, htrace, hafter, hstored, hpacket_id, hmac_id, hcontains⟩ := h
  exact ⟨before, after, event, capture, htrace, hafter, hstored, hpacket_id, hmac_id, himp capture hcontains⟩

theorem Refers.snoc_processed {trace : main_trace} {packet_id : UInt16} {mac_id : UInt8}
    {contains : capture_t → Prop} (h : Refers trace packet_id mac_id contains) (event : main_event)
    (capture : capture_t) : Refers (trace ++ [(event, .processed capture)]) packet_id mac_id contains := by
  obtain ⟨before, after, event', capture', rfl, hafter, h⟩ := h
  exact ⟨before, after ++ [(event, .processed capture)], event', capture', by simp, by simpa using hafter, h⟩

/-- A packet's own ids survive the narrowing. -/
theorem narrowed_packet_id {series series' : packet_series_t} {timestamp : timeval} {size : UInt32}
    {flow packet_id : Int} (hadd : packet_series_add_packet series timestamp size flow = (packet_id, series'))
    (hstored : 0 ≤ packet_id) : packet_id = series.length ∧ (UInt16.ofInt packet_id).toNat = series.length := by
  obtain ⟨hroom, hid, _⟩ | ⟨_, hfull⟩ := packet_series_add_packet_cases series timestamp size flow
  · rw [hadd] at hid
    have hid : packet_id = series.length := hid
    have hlt : series.length < 65536 := hroom
    refine ⟨hid, ?_⟩
    rw [hid, UInt16.ofInt, UInt16.toNat_ofNat']
    omega
  · rw [hadd, Prod.mk.injEq] at hfull
    omega

theorem narrowed_mac_id {index : Nat} : (UInt8.ofInt ((index : Int) % 256)).toNat = index % 256 := by
  rw [UInt8.ofInt, UInt8.toNat_ofNat']
  omega

/-- Every entry of the DNS table refers to the packet of the period whose
payload it is from. -/
structure DnsAligned (s : Session) (domain_whitelist : domain_whitelist_t) (bloom_whitelist : bloom_whitelist_t)
    (trace : main_trace) (table : dns_table_t) : Prop where
  a_entries : ∀ entry ∈ table.a_entries.items, Refers trace entry.packet_id entry.mac_id fun capture =>
    entry ∈ (extracted s domain_whitelist bloom_whitelist capture).a_entries.items
  cname_entries : ∀ entry ∈ table.cname_entries.items, Refers trace entry.packet_id entry.mac_id fun capture =>
    entry ∈ (extracted s domain_whitelist bloom_whitelist capture).cname_entries.items

/-- What is pushed into a sequence was there before, or would have been pushed
into an empty sequence. -/
theorem mem_push_all {α : Type} {capacity : Nat} {sequence : Bounded α capacity} {items : List α} {item : α}
    (h : item ∈ (sequence.push_all items).1.items) :
    item ∈ sequence.items ∨ item ∈ ((Bounded.empty : Bounded α capacity).push_all items).1.items := by
  rw [Bounded.push_all_items, List.take_append, List.mem_append] at h
  obtain hold | hnew := h
  · exact .inl (List.mem_of_mem_take hold)
  · right
    rw [Bounded.push_all_items, Bounded.empty_items, List.nil_append]
    exact List.take_subset_take_left items (Nat.sub_le _ _) hnew

/-- The packet just processed is the one that its entries refer to. -/
theorem refers_last {trace : main_trace} {state state' : state_t}
    (run : main_run s domain_whitelist bloom_whitelist trace state) {capture : capture_t}
    (hpacket : ProcessedPacket s state capture.frame state' capture.locals)
    (hmac_id : 0 ≤ capture.locals.dissection.mac_id) (hstored : 0 ≤ capture.locals.packet_id)
    {contains : capture_t → Prop} (hcontains : contains capture) (event : main_event) :
    Refers (trace ++ [(event, .processed capture)]) (UInt16.ofInt capture.locals.packet_id)
      (UInt8.ofInt capture.locals.dissection.mac_id) contains := by
  obtain ⟨sent, hlogs⟩ := main_run_logs run
  obtain ⟨index, _, _, _, hindex⟩ := hpacket.mac_id hlogs hmac_id
  obtain ⟨hid, hnarrowed⟩ := narrowed_packet_id hpacket.series hstored
  refine ⟨trace, [], event, capture, rfl, rfl, ?_, ?_, ?_, hcontains⟩
  · rw [hnarrowed, (main_run_aligned run).length]
  · rw [hnarrowed, hid]
  · rw [hindex, narrowed_mac_id]
    omega

/-- So do all entries after those of the packet have been pushed. -/
theorem refers_pushed {trace : main_trace} {state state' : state_t}
    (run : main_run s domain_whitelist bloom_whitelist trace state) {capture : capture_t}
    (hpacket : ProcessedPacket s state capture.frame state' capture.locals) {α : Type} {capacity : Nat}
    {sequence : Bounded α capacity} {offered : List α} {packet_id : α → UInt16} {mac_id : α → UInt8}
    {contains : α → capture_t → Prop}
    (hold : ∀ entry ∈ sequence.items, Refers trace (packet_id entry) (mac_id entry) (contains entry))
    (hids : ∀ entry ∈ offered, packet_id entry = UInt16.ofInt capture.locals.packet_id ∧
      mac_id entry = UInt8.ofInt capture.locals.dissection.mac_id)
    (hwanted : offered = [] ∨ 0 ≤ capture.locals.dissection.mac_id ∧ 0 ≤ capture.locals.packet_id)
    (hcontains : ∀ entry ∈ ((Bounded.empty : Bounded α capacity).push_all offered).1.items, contains entry capture)
    (event : main_event) :
    ∀ entry ∈ (sequence.push_all offered).1.items,
      Refers (trace ++ [(event, .processed capture)]) (packet_id entry) (mac_id entry) (contains entry) := by
  intro entry hentry
  obtain hmem | hnew := mem_push_all hentry
  · exact (hold entry hmem).snoc_processed _ _
  · have hmem : entry ∈ offered := by
      have htaken := hnew
      rw [Bounded.push_all_items, Bounded.empty_items, List.nil_append] at htaken
      exact List.mem_of_mem_take htaken
    obtain ⟨hmac_id, hstored⟩ := hwanted.resolve_left fun hnone => absurd (hnone ▸ hmem) List.not_mem_nil
    obtain ⟨hpacket_id, hmac⟩ := hids entry hmem
    rw [hpacket_id, hmac]
    exact refers_last run hpacket hmac_id hstored (hcontains entry hnew) event

/-- In every run each entry of the DNS table refers to the packet it was extracted from. -/
theorem main_run_dns_aligned {trace : main_trace} {state : state_t}
    (run : main_run s domain_whitelist bloom_whitelist trace state) :
    DnsAligned s domain_whitelist bloom_whitelist trace state.dns_table := by
  refine run.invariant (fun trace state => DnsAligned s domain_whitelist bloom_whitelist trace state.dns_table)
    ⟨fun _ h => absurd h List.not_mem_nil, fun _ h => absurd h List.not_mem_nil⟩ ?_
  intro trace state event state' output run haligned hstep
  obtain ⟨capture, rfl, rfl, hpacket, _⟩ | ⟨io, healthy, update, rfl, rfl, hupdate⟩ := main_step_cases hstep
  · obtain ⟨as, cnames, hids, hwanted, hoffer⟩ :=
      process_dns_offers s capture.frame capture.locals.dissection capture.locals.packet_id
    have hextracted : extracted s domain_whitelist bloom_whitelist capture =
        (dns_table_init (some domain_whitelist) bloom_whitelist).record_all as cnames := hoffer _
    rw [hpacket.dns, hoffer]
    refine ⟨refers_pushed run hpacket haligned.a_entries hids.a_entries (hwanted.imp_left And.left) ?_ _,
      refers_pushed run hpacket haligned.cname_entries hids.cname_entries (hwanted.imp_left And.right) ?_ _⟩
    · rw [hextracted]
      exact fun _ h => h
    · rw [hextracted]
      exact fun _ h => h
  · rw [hupdate.reset]
    exact ⟨fun _ h => absurd h List.not_mem_nil, fun _ h => absurd h List.not_mem_nil⟩

/-! The DNS lines of an update -/

/-- The packet id and the mapping id of a DNS line. -/
def Line.dns_ids : Line → Option (UInt16 × UInt8)
  | .a packet_id mac_id .. => some (packet_id, mac_id)
  | .cname packet_id mac_id .. => some (packet_id, mac_id)
  | _ => none

/-- The line prints one of the entries of the table. -/
def Prints (s : Session) (table : dns_table_t) (line : Line) : Prop :=
  (∃ entry ∈ table.a_entries.items, a_line s table entry = some line) ∨
    ∃ entry ∈ table.cname_entries.items, cname_line s table entry = some line

theorem a_line_ids {table : dns_table_t} {entry : dns_a_entry_t} {line : Line} (h : a_line s table entry = some line) :
    Line.dns_ids line = some (entry.packet_id, entry.mac_id) := by
  unfold a_line at h
  split at h <;>
    simp only [Option.bind_eq_bind, Option.bind_eq_some_iff, Option.pure_def, Option.some.injEq] at h <;>
    obtain ⟨_, _, _, _, rfl⟩ := h <;> rfl

theorem cname_line_ids {table : dns_table_t} {entry : dns_cname_entry_t} {line : Line}
    (h : cname_line s table entry = some line) : Line.dns_ids line = some (entry.packet_id, entry.mac_id) := by
  simp only [cname_line, Option.bind_eq_bind, Option.bind_eq_some_iff, Option.pure_def, Option.some.injEq] at h
  obtain ⟨_, _, _, _, rfl⟩ := h
  rfl

/-- A line shows the same for every table with the same whitelists. -/
theorem a_line_congr {table other : dns_table_t} (hwhitelist : table.whitelist = other.whitelist)
    (hbloom : table.bloom = other.bloom) (entry : dns_a_entry_t) : a_line s table entry = a_line s other entry := by
  cases table
  cases other
  cases hwhitelist
  cases hbloom
  rfl

/-- The line of an alias depends on the table's whitelists alone. -/
theorem cname_line_congr {table other : dns_table_t} (hwhitelist : table.whitelist = other.whitelist)
    (hbloom : table.bloom = other.bloom) (entry : dns_cname_entry_t) :
    cname_line s table entry = cname_line s other entry := by
  cases table
  cases other
  cases hwhitelist
  cases hbloom
  rfl

theorem mem_of_map_some {α : Type} {f : α → Option Line} {items : List α} {lines : List Line} {line : Line}
    (hcomposed : items.map f = lines.map some) (hline : line ∈ lines) : ∃ item ∈ items, f item = some line := by
  have hmem : some line ∈ items.map f := by
    rw [hcomposed]
    exact List.mem_map_of_mem hline
  exact List.mem_map.mp hmem

/-- The records of one packet are taken under the run's whitelists. -/
theorem extracted_whitelists (s : Session) (domain_whitelist : domain_whitelist_t)
    (bloom_whitelist : bloom_whitelist_t) (capture : capture_t) :
    (extracted s domain_whitelist bloom_whitelist capture).whitelist = some domain_whitelist ∧
      (extracted s domain_whitelist bloom_whitelist capture).bloom = bloom_whitelist := by
  obtain ⟨_, _, _, _, hoffer⟩ :=
    process_dns_offers s capture.frame capture.locals.dissection capture.locals.packet_id
  rw [extracted, hoffer]
  exact ⟨rfl, rfl⟩

/-- A DNS line comes from an entry, and so from a packet of the period. -/
theorem dns_line_origin {trace : main_trace} {state state' : state_t} {io : update_io} {update : update_t}
    (run : main_run s domain_whitelist bloom_whitelist trace state) (hupdate : Updated s state io state' update)
    {line : Line} (hline : line ∈ update.dns) {packet_id : UInt16} {mac_id : UInt8}
    (hids : Line.dns_ids line = some (packet_id, mac_id)) :
    Refers trace packet_id mac_id fun capture =>
      Prints s (extracted s domain_whitelist bloom_whitelist capture) line := by
  have hwhitelists := main_run_whitelists run
  have haligned := main_run_dns_aligned run
  obtain ⟨a_lines, cname_lines, ha, hcname, hdns⟩ := hupdate.dns
  rw [hdns, dns_section] at hline
  simp only [List.cons_append, List.mem_cons, List.mem_append, List.not_mem_nil, or_false] at hline
  obtain rfl | (hline | rfl | hline) | rfl := hline
  · cases hids
  · obtain ⟨entry, hentry, hprints⟩ := mem_of_map_some ha hline
    obtain ⟨rfl, rfl⟩ := Prod.mk.inj (Option.some.inj ((a_line_ids hprints).symm.trans hids))
    refine (haligned.a_entries entry hentry).imp fun capture hcontains => .inl ⟨entry, hcontains, ?_⟩
    obtain ⟨hwhitelist, hbloom⟩ := extracted_whitelists s domain_whitelist bloom_whitelist capture
    rw [← hprints]
    exact a_line_congr (hwhitelist.trans hwhitelists.dns_whitelist.symm)
      (hbloom.trans hwhitelists.dns_bloom.symm) entry
  · cases hids
  · obtain ⟨entry, hentry, hprints⟩ := mem_of_map_some hcname hline
    obtain ⟨rfl, rfl⟩ := Prod.mk.inj (Option.some.inj ((cname_line_ids hprints).symm.trans hids))
    refine (haligned.cname_entries entry hentry).imp fun capture hcontains => .inr ⟨entry, hcontains, ?_⟩
    obtain ⟨hwhitelist, hbloom⟩ := extracted_whitelists s domain_whitelist bloom_whitelist capture
    rw [← hprints]
    exact cname_line_congr (hwhitelist.trans hwhitelists.dns_whitelist.symm)
      (hbloom.trans hwhitelists.dns_bloom.symm) entry
  · cases hids

end bismark_passive.main
