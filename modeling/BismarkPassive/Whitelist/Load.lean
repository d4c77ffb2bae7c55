import BismarkPassive.Printed
import BismarkPassive.Text.Tokens
import BismarkPassive.Whitelist.Rule

namespace bismark_passive

open text

/-! `domain_whitelist_load` -/

/-- Which of the calls of `strdup` and `calloc` get memory, in their order. -/
abbrev allocations := Nat → Bool

/-- A whitelist with the pointers that `domains` has for its `size` entries;
`none` is a null pointer. -/
structure domain_whitelist_entries where
  domains : List (Option cstring)

def domain_whitelist_entries_init : domain_whitelist_entries := ⟨[]⟩

/-- The first loop, `while (strtok(ptr, "\n") != NULL)`. -/
def count_lines (contents : cstring) : Nat :=
  match h : next_token newline contents with
  | none => 0
  | some (_, rest) =>
    have : rest.length < contents.length := (next_token_eq_some h).2
    count_lines rest + 1
termination_by contents.length

/-- The second loop, with so many lines still to be copied: the return value,
and the entries from here on. `calloc` has left zeros behind a failing `strdup`.
The last argument is what `strtok` has not seen yet; `strdup` of its null
pointer is undefined. -/
def copy_lines (allocated : allocations) : Nat → Nat → cstring → Option (Int × List (Option cstring))
  | 0, _, _ => some (0, [])
  | num_lines + 1, call, contents => do
    let (line, rest) ← next_token newline contents
    if allocated call then do
      let (result, domains) ← copy_lines allocated num_lines (call + 1) rest
      pure (result, some line :: domains)
    else pure (-1, List.replicate (num_lines + 1) none)

/-- `first_contents` and `second_contents` are what the two calls of `strdup` find
at `orig_contents`. The first loop is undefined without a string to start on;
the second one, if it is entered at all, without a string or an array. -/
def load_duplicates (allocated : allocations) (first_contents second_contents : cstring) :
    Option (Int × domain_whitelist_entries) :=
  if allocated 0 then
    let num_lines := count_lines first_contents
    if num_lines = 0 then some (0, ⟨[]⟩)
    else if allocated 1 && allocated 2 then
      (copy_lines allocated num_lines 3 second_contents).map fun (result, domains) => (result, ⟨domains⟩)
    else none
  else none

/-- The return value and the whitelist; `none` where C leaves the behaviour undefined. -/
def domain_whitelist_load (allocated : allocations) (orig_contents : cstring) :
    Option (Int × domain_whitelist_entries) :=
  load_duplicates allocated orig_contents orig_contents

/-- The loop of `domain_whitelist_lookup`; `none` when it gets to a null pointer. -/
def domain_whitelist_entries.lookup_from (domain : cstring) : List (Option cstring) → Option Int
  | [] => some (-1)
  | none :: _ => none
  | some whitelisted :: domains =>
    if whitelisted_by domain whitelisted then some 0 else domain_whitelist_entries.lookup_from domain domains

/-- `domain_whitelist_lookup` -/
def domain_whitelist_entries.lookup (whitelist : domain_whitelist_entries) (domain : cstring) : Option Int :=
  domain_whitelist_entries.lookup_from domain whitelist.domains

/-- `domain_whitelist_write_update`; a null pointer is no argument for `%s`. -/
def domain_whitelist_entries.write_update (whitelist : domain_whitelist_entries) :
    gzFile → writer_result × gzFile :=
  write_lines write_blank (whitelist.domains.map (Option.map Line.domain))

/-- A whitelist without null pointers. -/
def domain_whitelist_t.entries (whitelist : domain_whitelist_t) : domain_whitelist_entries :=
  ⟨whitelist.domains.map some⟩

/-- A table without a missing entry is looked up as the list is. -/
theorem entries_lookup (whitelist : domain_whitelist_t) (domain : cstring) :
    whitelist.entries.lookup domain = some (domain_whitelist_lookup whitelist domain) := by
  obtain ⟨domains⟩ := whitelist
  rw [domain_whitelist_entries.lookup, domain_whitelist_t.entries, domain_whitelist_lookup]
  induction domains with
  | nil => rfl
  | cons whitelisted domains ih =>
    rw [List.map_cons, domain_whitelist_entries.lookup_from, List.any_cons]
    cases whitelisted_by domain whitelisted with
    | true => rfl
    | false => exact ih

theorem entries_write_update (whitelist : domain_whitelist_t) :
    whitelist.entries.write_update = domain_whitelist_write_update whitelist := by
  rw [domain_whitelist_entries.write_update, domain_whitelist_t.entries, List.map_map]
  rfl

/-! The two loops -/

/-- The non-empty lines of the contents. -/
def whitelist_lines (contents : cstring) : List cstring := pieces newline contents

/-- The lines are counted as they are listed. -/
theorem count_lines_eq (contents : cstring) : count_lines contents = (whitelist_lines contents).length := by
  induction contents using count_lines.induct with
  | case1 contents hnone =>
    rw [whitelist_lines, next_token_eq_none hnone, count_lines]
    split
    · rfl
    · simp_all
  | case2 contents line rest hsome _ ih =>
    rw [whitelist_lines, (next_token_eq_some hsome).1, List.length_cons, ← whitelist_lines, ← ih, count_lines]
    split <;> simp_all

/-- The second loop finds the lines that the first one counted. It copies them
all or stops at one that gets no memory. -/
theorem copy_lines_spec (allocated : allocations) (call : Nat) (contents : cstring) :
    copy_lines allocated (whitelist_lines contents).length call contents =
        some (0, (whitelist_lines contents).map some) ∨
      ∃ copied failed rest, whitelist_lines contents = copied ++ failed :: rest ∧
        copy_lines allocated (whitelist_lines contents).length call contents =
          some (-1, copied.map some ++ List.replicate (rest.length + 1) none) := by
  generalize hlines : whitelist_lines contents = lines
  induction lines generalizing call contents with
  | nil => exact .inl rfl
  | cons line lines ih =>
    cases htoken : next_token newline contents with
    | none =>
      rw [whitelist_lines, next_token_eq_none htoken] at hlines
      cases hlines
    | some found =>
      obtain ⟨token, rest⟩ := found
      have hpieces := (next_token_eq_some htoken).1
      rw [whitelist_lines, hpieces, List.cons.injEq] at hlines
      obtain ⟨rfl, hrest⟩ := hlines
      rw [List.length_cons, copy_lines]
      simp only [htoken, Option.bind_eq_bind, Option.bind_some, Option.pure_def]
      cases hcall : allocated call with
      | false => exact .inr ⟨[], token, lines, rfl, rfl⟩
      | true =>
        obtain hcopied | ⟨copied, failed, behind, hsplit, hfailed⟩ := ih (call + 1) rest hrest
        · left
          rw [hcopied]
          rfl
        · right
          refine ⟨token :: copied, failed, behind, congrArg (token :: ·) hsplit, ?_⟩
          rw [hfailed]
          rfl

/-- What becomes of the whitelist when the loading comes to an end. -/
theorem domain_whitelist_load_cases {allocated : allocations} {contents : cstring} {result : Int}
    {whitelist : domain_whitelist_entries} (h : domain_whitelist_load allocated contents = some (result, whitelist)) :
    (result = 0 ∧ whitelist = domain_whitelist_t.entries ⟨whitelist_lines contents⟩) ∨
      ∃ copied failed rest, whitelist_lines contents = copied ++ failed :: rest ∧ result = -1 ∧
        whitelist = ⟨copied.map some ++ List.replicate (rest.length + 1) none⟩ := by
  rw [domain_whitelist_load, load_duplicates, count_lines_eq] at h
  split at h
  · by_cases hempty : (whitelist_lines contents).length = 0
    · rw [if_pos hempty, Option.some.injEq, Prod.mk.injEq] at h
      left
      refine ⟨h.1.symm, ?_⟩
      rw [← h.2, List.length_eq_zero_iff.mp hempty]
      rfl
    · rw [if_neg hempty] at h
      split at h
      · obtain hcopied | ⟨copied, failed, rest, hsplit, hfailed⟩ := copy_lines_spec allocated 3 contents
        · rw [hcopied, Option.map_some, Option.some.injEq, Prod.mk.injEq] at h
          exact .inl ⟨h.1.symm, h.2.symm⟩
        · rw [hfailed, Option.map_some, Option.some.injEq, Prod.mk.injEq] at h
          exact .inr ⟨copied, failed, rest, hsplit, h.1.symm, h.2.symm⟩
      · cases h
  · cases h

/-! A load that succeeds -/

/-- With memory for all lines the load succeeds. -/
theorem domain_whitelist_load_succeeds {allocated : allocations} (hallocated : ∀ call, allocated call = true)
    (contents : cstring) : domain_whitelist_load allocated contents =
      some (0, domain_whitelist_t.entries ⟨whitelist_lines contents⟩) := by
  have hcopied (lines : Nat) (call : Nat) (rest : cstring) (domains : List (Option cstring)) :
      copy_lines allocated lines call rest ≠ some (-1, domains) := by
    induction lines generalizing call rest domains with
    | zero => simp [copy_lines]
    | succ lines ih =>
      rw [copy_lines]
      simp only [hallocated, if_true, Option.bind_eq_bind, Option.pure_def]
      intro hfailed
      simp only [Option.bind_eq_some_iff, Option.some.injEq, Prod.mk.injEq] at hfailed
      obtain ⟨_, _, ⟨result, domains⟩, hrest, rfl, _⟩ := hfailed
      exact ih _ _ _ hrest
  rw [domain_whitelist_load, load_duplicates, if_pos (hallocated 0), count_lines_eq]
  by_cases hempty : (whitelist_lines contents).length = 0
  · rw [if_pos hempty, List.length_eq_zero_iff.mp hempty]
    rfl
  · simp only [if_neg hempty, hallocated, Bool.and_self, if_true]
    obtain hlines | ⟨_, _, _, _, hfailed⟩ := copy_lines_spec allocated 3 contents
    · rw [hlines, Option.map_some]
      rfl
    · exact absurd hfailed (hcopied _ _ _ _)

/-- The whitelist does what its header says of these contents. -/
structure ImplementsRule (whitelist : domain_whitelist_entries) (contents : cstring) : Prop where
  lookup : ∀ domain, whitelist.lookup domain = some 0 ∨ whitelist.lookup domain = some (-1)
  matching : ∀ domain, whitelist.lookup domain = some 0 ↔
    ∃ line ∈ whitelist_lines contents, dns.Matches domain line
  printed : ∀ handle : gzFile, handle.Healthy → whitelist.write_update handle =
    (some 0, handle.append ((whitelist_lines contents).map Line.domain ++ [.blank]))

/-- A loaded table implements the rule of its file. -/
theorem domain_whitelist_entries_implement (contents : cstring) :
    ImplementsRule (domain_whitelist_t.entries ⟨whitelist_lines contents⟩) contents where
  lookup domain := by
    rw [entries_lookup, domain_whitelist_lookup]
    split
    · exact .inl rfl
    · exact .inr rfl
  matching domain := by
    simp only [entries_lookup, domain_whitelist_lookup, ← dns.whitelisted_by_iff, ← List.any_eq_true]
    split <;> simp_all
  printed handle hhandle := by
    have hlines : (whitelist_lines contents).map (fun domain => some (Line.domain domain)) =
        ((whitelist_lines contents).map Line.domain).map some := by
      rw [List.map_map]
      rfl
    rw [entries_write_update, domain_whitelist_write_update, hlines, write_lines_healthy hhandle,
      write_blank_healthy (hhandle.append _), gzFile.append_append]

/-- The characters of a line that shows a domain. -/
theorem domain_text (lines : List cstring) :
    (lines.map Line.domain ++ [Line.blank]).flatMap Line.text =
      (lines.flatMap fun line => line ++ [newline]) ++ [newline] := by
  have hline (line : cstring) : (Line.domain line).text = line ++ [newline] :=
    congrArg (· ++ [newline]) (joined_singleton line)
  rw [List.flatMap_append, List.flatMap_map]
  refine congrArg₂ (· ++ ·) (List.flatMap_congr fun line _ => hline line) rfl

/-- `"a.b\n\nc\n"` -/
def three_lines : cstring := [97, 46, 98, 10, 10, 99, 10]

example : domain_whitelist_lookup ⟨whitelist_lines three_lines⟩ [120, 46, 99] = 0 ∧
    domain_whitelist_lookup ⟨whitelist_lines three_lines⟩ [120, 99] = -1 := by
  decide

/-! A load that fails -/

/-- Lookups find nothing, and nothing is printed. -/
structure Disables (whitelist : domain_whitelist_entries) : Prop where
  lookup : ∀ domain, whitelist.lookup domain = some (-1)
  printed : ∀ handle : gzFile, handle.Healthy → whitelist.write_update handle = (some 0, handle.append [.blank])

/-- A table with a missing entry never reports that a name is not listed. -/
theorem lookup_from_null {domain : cstring} {domains : List (Option cstring)} (hnull : none ∈ domains) :
    domain_whitelist_entries.lookup_from domain domains ≠ some (-1) := by
  induction domains with
  | nil => simp at hnull
  | cons entry domains ih =>
    cases entry with
    | none => simp [domain_whitelist_entries.lookup_from]
    | some whitelisted =>
      rw [domain_whitelist_entries.lookup_from]
      split
      · simp
      · exact ih (by simpa using hnull)

theorem write_lines_null {handle : gzFile} (hhandle : handle.Healthy) {rest : gzFile → writer_result × gzFile}
    {lines : List (Option Line)} (hnull : none ∈ lines) : (write_lines rest lines handle).1 = none := by
  cases hresult : (write_lines rest lines handle).1 with
  | none => rfl
  | some result =>
    obtain ⟨composed, rfl⟩ := write_lines_composed hhandle hresult
    simp at hnull

/-- After a failed load the size counts entries that are null: no lookup gets
past them, and neither does the writer. -/
theorem failed_load_never_disables {allocated : allocations} {contents : cstring}
    {whitelist : domain_whitelist_entries} (h : domain_whitelist_load allocated contents = some (-1, whitelist)) :
    ¬ Disables whitelist ∧ (∀ domain, whitelist.lookup domain ≠ some (-1)) ∧
      ∀ handle : gzFile, handle.Healthy → (whitelist.write_update handle).1 = none := by
  obtain ⟨hresult, -⟩ | ⟨copied, failed, rest, -, -, rfl⟩ := domain_whitelist_load_cases h
  · exact absurd hresult (by decide)
  have hnull : none ∈ copied.map some ++ List.replicate (rest.length + 1) none :=
    List.mem_append_right _ (List.mem_replicate.mpr ⟨Nat.succ_ne_zero _, rfl⟩)
  have hlookup (domain : cstring) : domain_whitelist_entries.lookup ⟨_⟩ domain ≠ some (-1) := lookup_from_null hnull
  refine ⟨fun hdisables => hlookup [] (hdisables.lookup []), hlookup, fun handle hhandle => ?_⟩
  exact write_lines_null hhandle (List.mem_map.mpr ⟨none, hnull, rfl⟩)

/-- The second line gets no memory. -/
theorem second_line_fails : domain_whitelist_load (fun call => call != 4) three_lines =
    some (-1, ⟨[some [97, 46, 98], none]⟩) := by
  rw [domain_whitelist_load, load_duplicates, count_lines_eq]
  rfl

theorem failed_load_never_disables_second_line :
    ¬ Disables ⟨[some [97, 46, 98], none]⟩ ∧
      (∀ domain, domain_whitelist_entries.lookup ⟨[some [97, 46, 98], none]⟩ domain ≠ some (-1)) ∧
      ∀ handle : gzFile, handle.Healthy →
        (domain_whitelist_entries.write_update ⟨[some [97, 46, 98], none]⟩ handle).1 = none :=
  failed_load_never_disables second_line_fails

/-- The first line is still whitelisted and printed, and a lookup of another
name gets to the null pointer. -/
theorem failed_load_whitelists :
    ∃ whitelist, domain_whitelist_load (fun call => call != 4) three_lines = some (-1, whitelist) ∧
      whitelist.lookup [97, 46, 98] = some 0 ∧ whitelist.lookup [99] = none ∧
      (whitelist.write_update ⟨fun _ => 1, 0, []⟩).2.written = [.domain [97, 46, 98]] ∧ ¬ Disables whitelist := by
  refine ⟨_, second_line_fails, by decide, by decide, by decide, fun hdisables => ?_⟩
  have hlookup := hdisables.lookup [99]
  exact absurd hlookup (by decide)

end bismark_passive
