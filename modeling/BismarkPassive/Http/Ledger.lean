import BismarkPassive.Containers.Ledger
import BismarkPassive.Http.Parser

namespace bismark_passive.http

open containers

/-- A table, the strings that its entries point to, and all strings that
`add_url` has duplicated. -/
structure owned_urls_t where
  table : http_table_t
  urls : List Nat
  strings : Ledger

def owned_urls_init (strings : Ledger) : owned_urls_t where
  table := http_table_init
  urls := []
  strings := strings

variable (s : Session)

/-- `add_url` with its `strdup`. The string stays with the entry if the table
takes it. -/
def owned_urls_t.add_url (owned : owned_urls_t) (flow_id : UInt16) (url : cstring) : Option (Int × owned_urls_t) := do
  let url_digest ← anonymize_url s url
  let (copy, strings) := owned.strings.issue
  let (result, table) := http_table_add_url owned.table { flow_id := flow_id, url := strdup_digest url_digest }
  pure (0,
    { table := table
      urls := if result = 0 then owned.urls ++ [copy] else owned.urls
      strings := strings })

def owned_urls_t.process_http_packet (owned : owned_urls_t) (bytes : List UInt8) (len : Int) (flow_id : UInt16) :
    Option (Int × owned_urls_t) :=
  if len ≤ 0 then some (-1, owned)
  else
    match tokenize (bytes.takeWhile (· != 0)) with
    | none => some (-1, owned)
    | some (method, url) =>
      if strcasecmp_eq method [71, 69, 84] then do
        let url := if MAX_URL < url.length then url.take (MAX_URL - 1) else url
        if s.target.disable_anonymization then some (0, owned)
        else do
          let (_, owned) ← owned.add_url s flow_id url
          pure (0, owned)
      else some (-1, owned)

def owned_urls_t.http_table_destroy (owned : owned_urls_t) : Ledger := owned.strings.release_all owned.urls

variable {s} {owned owned' : owned_urls_t} {flow_id : UInt16} {result : Int}

/-- The ledger leaves the table as the parser has it. -/
theorem process_http_packet_table (owned : owned_urls_t) (bytes : List UInt8) (len : Int) (flow_id : UInt16) :
    (owned.process_http_packet s bytes len flow_id).map (fun processed => (processed.1, processed.2.table)) =
      process_http_packet s bytes len owned.table flow_id := by
  unfold owned_urls_t.process_http_packet process_http_packet
  by_cases hlen : len ≤ 0
  · rw [if_pos hlen, if_pos hlen]
    rfl
  rw [if_neg hlen, if_neg hlen]
  cases tokenize (bytes.takeWhile (· != 0)) with
  | none => rfl
  | some tokens =>
    obtain ⟨method, url⟩ := tokens
    by_cases hget : strcasecmp_eq method [71, 69, 84] = true
    · simp only [if_pos hget]
      by_cases hdisabled : s.target.disable_anonymization = true
      · rw [if_pos hdisabled, if_pos hdisabled]
        rfl
      · rw [if_neg hdisabled, if_neg hdisabled, owned_urls_t.add_url, add_url]
        cases anonymize_url s (if MAX_URL < url.length then url.take (MAX_URL - 1) else url) <;> rfl
    · simp only [if_neg hget]
      rfl

/-- The entries' strings are held, and the other ones that were not freed are
lost: those lost before, and those of the entries that the table refused. -/
structure owned_urls_t.Owns (owned : owned_urls_t) (before : Nat) (lost : List Nat) : Prop where
  accounts : owned.strings.Accounts owned.urls lost
  urls_length : owned.urls.length = owned.table.entries.items.length
  lost_length : (lost.length : Int) = before + owned.table.num_dropped_url_entries

variable {before : Nat} {lost : List Nat}

theorem owned_urls_init_owns {strings : Ledger} (h : strings.Accounts [] lost) :
    (owned_urls_init strings).Owns lost.length lost :=
  ⟨h, rfl, (Int.add_zero _).symm⟩

/-- A URL is kept, or its string is freed again or lost. -/
theorem owned_urls_t.Owns.add_url (h : owned.Owns before lost) {url : cstring}
    (hadd : owned.add_url s flow_id url = some (result, owned')) : ∃ lost', owned'.Owns before lost' := by
  obtain ⟨url_digest, -, hadded⟩ := Option.bind_eq_some_iff.mp hadd
  obtain ⟨-, rfl⟩ := Prod.mk.inj (Option.some.inj hadded)
  have hissued := h.accounts.issue
  cases hpush : owned.table.entries.push { flow_id := flow_id, url := strdup_digest url_digest } with
  | none =>
    have hrefused : ¬ (-1 : Int) = 0 := by decide
    simp only [if_neg hrefused]
    refine ⟨_, hissued.lose, h.urls_length, ?_⟩
    rw [List.length_append, List.length_singleton, Nat.cast_add, h.lost_length]
    dsimp only
    omega
  | some entries =>
    refine ⟨lost, hissued, ?_, h.lost_length⟩
    simp only [if_true, List.length_append, List.length_singleton, (Bounded.push_eq_some_iff.mp hpush).2,
      h.urls_length]

/-- The same for a whole payload. -/
theorem owned_urls_t.Owns.process_http_packet (h : owned.Owns before lost) {bytes : List UInt8} {len : Int}
    (hprocess : owned.process_http_packet s bytes len flow_id = some (result, owned')) :
    ∃ lost', owned'.Owns before lost' := by
  have hsame {result' : Int} (heq : some (result', owned) = some (result, owned')) :
      ∃ lost', owned'.Owns before lost' := by
    obtain ⟨-, rfl⟩ := Prod.mk.inj (Option.some.inj heq)
    exact ⟨lost, h⟩
  unfold owned_urls_t.process_http_packet at hprocess
  split at hprocess
  · exact hsame hprocess
  split at hprocess
  · exact hsame hprocess
  split at hprocess
  · dsimp only at hprocess
    split at hprocess
    · exact hsame hprocess
    · obtain ⟨⟨_, added⟩, hadd, heq⟩ := Option.bind_eq_some_iff.mp hprocess
      obtain ⟨-, rfl⟩ := Prod.mk.inj (Option.some.inj heq)
      exact h.add_url hadd
  · exact hsame hprocess

end bismark_passive.http
