import BismarkPassive.Bytes.Strings
import BismarkPassive.Whitelist.Load

namespace bismark_passive

open bytes

/-- What `initialize_domain_whitelist` gets from its surroundings: the bytes of
the file if it can be opened, whether the other calls succeed, and what lies in
memory behind the block that `malloc` returned, up to the end of the mapped
memory, at each of the two `strdup` calls. -/
structure whitelist_io where
  file : Option (List UInt8)
  seeks : Bool
  malloc : Bool
  fread : Bool
  allocated : allocations
  behind_first : List UInt8
  behind_second : List UInt8

/-- The result of `ftell` as an `int`. -/
def file_length (file : List UInt8) : Int32 := Int32.ofNat file.length

/-- The bytes that `fread` puts into the block. -/
def block (file : List UInt8) : List UInt8 := file.take (file_length file).toInt.toNat

/-- Memory from the block on. -/
def block_memory (file behind : List UInt8) (address : Nat) : UInt8 := (block file ++ behind).getD address 0

/-- What `strdup` reads at the start of the block. -/
def strdup_contents (file behind : List UInt8) : Reader (Option cstring) :=
  read_string (block file ++ behind).length 0

/-- The return value and the whitelist; `none` where C leaves the behaviour
undefined. `malloc` has no block of a negative length, and `fread` no item of
length zero. -/
def initialize_domain_whitelist (io : whitelist_io) : Option (Int × domain_whitelist_entries) :=
  match io.file with
  | none => some (-1, domain_whitelist_entries_init)
  | some file =>
    let length := file_length file
    if !io.seeks || length == -1 then some (-1, domain_whitelist_entries_init)
    else if !io.malloc || decide (length < 0) then some (-1, domain_whitelist_entries_init)
    else if !io.fread || length == 0 then some (-1, domain_whitelist_entries_init)
    else do
      let first_contents ← (strdup_contents file io.behind_first).run (block_memory file io.behind_first)
      let second_contents ← (strdup_contents file io.behind_second).run (block_memory file io.behind_second)
      let (result, whitelist) ← load_duplicates io.allocated first_contents second_contents
      pure (if result < 0 then -1 else 0, whitelist)

/-- The two calls read no byte behind the block. -/
def ReadsBlock (file : List UInt8) (io : whitelist_io) : Prop :=
  (strdup_contents file io.behind_first).Within (block_memory file io.behind_first) (block file).length ∧
    (strdup_contents file io.behind_second).Within (block_memory file io.behind_second) (block file).length

variable {file : List UInt8}

theorem block_memory_holds (file behind : List UInt8) : Holds (block_memory file behind) 0 (block file ++ behind) :=
  holds_getD (block file ++ behind)

/-- The copy stays in its block exactly if the file has a terminator there. -/
theorem strdup_contents_within (file behind : List UInt8) :
    (strdup_contents file behind).Within (block_memory file behind) (block file).length ↔ 0 ∈ block file := by
  have hblock := (holds_append.mp (block_memory_holds file behind)).1
  have hmapped : (block file).length ≤ (block file ++ behind).length := by
    rw [List.length_append]
    omega
  have hwithin := within_read_string hblock hmapped
  rwa [Nat.zero_add] at hwithin

/-- A string that ends in the block is all that the calls read. -/
theorem strdup_contents_run (hzero : 0 ∈ block file) (behind : List UInt8) :
    (strdup_contents file behind).run (block_memory file behind) = some (file.takeWhile (· ≠ 0)) := by
  have hmem : (0 : UInt8) ∈ block file ++ behind := List.mem_append_left behind hzero
  have hfile : file.takeWhile (· ≠ 0) = (block file).takeWhile (· ≠ 0) := by
    conv_lhs => rw [← List.take_append_drop (file_length file).toInt.toNat file]
    exact takeWhile_append_of_zero_mem hzero _
  rw [strdup_contents, run_read_string (block_memory_holds file behind), if_pos hmem,
    takeWhile_append_of_zero_mem hzero, hfile]

/-- What a successful initialisation has read. -/
theorem initialize_domain_whitelist_reads {io : whitelist_io} (hfile : io.file = some file)
    {whitelist : domain_whitelist_entries} (h : initialize_domain_whitelist io = some (0, whitelist)) :
    ∃ first_contents second_contents,
      (strdup_contents file io.behind_first).run (block_memory file io.behind_first) = some first_contents ∧
      (strdup_contents file io.behind_second).run (block_memory file io.behind_second) = some second_contents ∧
      ∃ result, ¬ result < 0 ∧
        load_duplicates io.allocated first_contents second_contents = some (result, whitelist) := by
  simp only [initialize_domain_whitelist, hfile] at h
  split at h
  · simp at h
  split at h
  · simp at h
  split at h
  · simp at h
  simp only [Option.bind_eq_bind, Option.bind_eq_some_iff, Option.pure_def, Option.some.injEq, Prod.mk.injEq] at h
  obtain ⟨first_contents, hfirst, second_contents, hsecond, ⟨result, loaded⟩, hload, hresult, rfl⟩ := h
  refine ⟨first_contents, second_contents, hfirst, hsecond, result, fun hnegative => ?_, hload⟩
  rw [if_pos hnegative] at hresult
  cases hresult

/-- The whitelist is that of the file's bytes, and no byte behind them was read,
exactly if there is a zero byte among the bytes that were read from the file. -/
theorem whitelist_from_file_iff {io : whitelist_io} (hfile : io.file = some file)
    {whitelist : domain_whitelist_entries} (h : initialize_domain_whitelist io = some (0, whitelist)) :
    (whitelist = domain_whitelist_t.entries ⟨whitelist_lines (file.takeWhile (· ≠ 0))⟩ ∧ ReadsBlock file io) ↔
      0 ∈ block file := by
  constructor
  · rintro ⟨-, hreads⟩
    exact (strdup_contents_within file io.behind_first).mp hreads.1
  · intro hzero
    have hreads : ReadsBlock file io :=
      ⟨(strdup_contents_within file _).mpr hzero, (strdup_contents_within file _).mpr hzero⟩
    obtain ⟨first_contents, second_contents, hfirst, hsecond, result, hresult, hload⟩ :=
      initialize_domain_whitelist_reads hfile h
    rw [strdup_contents_run hzero, Option.some.injEq] at hfirst hsecond
    rw [← hfirst, ← hsecond] at hload
    obtain ⟨-, hwhitelist⟩ | ⟨_, _, _, _, hfailed, _⟩ := domain_whitelist_load_cases hload
    · exact ⟨hwhitelist, hreads⟩
    · exact absurd hfailed (fun heq => hresult (heq ▸ by decide))

/-- `"a.b"` -/
def unterminated_file : List UInt8 := [97, 46, 98]

def terminated_file : List UInt8 := unterminated_file ++ [0]

/-- Behind the block of the file lies `"\nc"`, left over from other data. -/
def residue_io : whitelist_io where
  file := some unterminated_file
  seeks := true
  malloc := true
  fread := true
  allocated _ := true
  behind_first := [10, 99, 0]
  behind_second := [10, 99, 0]

def terminated_io : whitelist_io := { residue_io with file := some terminated_file }

/-- Without failing calls the whitelist is that of the two strings read. -/
theorem initialize_domain_whitelist_succeeds {io : whitelist_io} (hfile : io.file = some file)
    (hcalls : io.seeks = true ∧ io.malloc = true ∧ io.fread = true) (hlength : 0 < file_length file)
    (hallocated : ∀ call, io.allocated call = true) {contents : cstring}
    (hfirst : (strdup_contents file io.behind_first).run (block_memory file io.behind_first) = some contents)
    (hsecond : (strdup_contents file io.behind_second).run (block_memory file io.behind_second) = some contents) :
    initialize_domain_whitelist io = some (0, domain_whitelist_t.entries ⟨whitelist_lines contents⟩) := by
  have hload := domain_whitelist_load_succeeds hallocated contents
  rw [domain_whitelist_load] at hload
  have herror : (file_length file == -1) = false := beq_false_of_ne fun h => by
    rw [h] at hlength
    exact absurd hlength (by decide)
  have hempty : (file_length file == 0) = false := beq_false_of_ne fun h => by
    rw [h] at hlength
    exact absurd hlength (by decide)
  have hpositive : decide (file_length file < 0) = false := by
    rw [decide_eq_false_iff_not, Int32.not_lt]
    exact Int32.le_of_lt hlength
  simp only [initialize_domain_whitelist, hfile, hcalls.1, hcalls.2.1, hcalls.2.2, herror, hempty, hpositive, hfirst,
    hsecond, hload, Bool.not_true, Bool.or_self, Bool.false_eq_true, if_false, Option.bind_eq_bind, Option.bind_some,
    Option.pure_def]
  rfl

theorem whitelist_from_file_terminated :
    ∃ whitelist, initialize_domain_whitelist terminated_io = some (0, whitelist) ∧
      ((whitelist = domain_whitelist_t.entries ⟨whitelist_lines (terminated_file.takeWhile (· ≠ 0))⟩ ∧
        ReadsBlock terminated_file terminated_io) ↔ 0 ∈ block terminated_file) :=
  have hload := initialize_domain_whitelist_succeeds (show terminated_io.file = some terminated_file from rfl)
    ⟨rfl, rfl, rfl⟩ (by decide) (fun _ => rfl) (strdup_contents_run (by decide) _) (strdup_contents_run (by decide) _)
  ⟨_, hload, whitelist_from_file_iff rfl hload⟩

/-- The residue adds a domain that is not in the file. -/
theorem whitelist_from_residue :
    ∃ whitelist, initialize_domain_whitelist residue_io = some (0, whitelist) ∧
      whitelist.lookup [99] = some 0 ∧ [99] ∉ whitelist_lines (unterminated_file.takeWhile (· ≠ 0)) ∧
      ¬ ReadsBlock unterminated_file residue_io := by
  have hread : (strdup_contents unterminated_file residue_io.behind_first).run
      (block_memory unterminated_file residue_io.behind_first) = some [97, 46, 98, 10, 99] := by
    rw [strdup_contents, run_read_string (block_memory_holds _ _)]
    decide
  refine ⟨_, initialize_domain_whitelist_succeeds rfl ⟨rfl, rfl, rfl⟩ (by decide) (fun _ => rfl) hread hread,
    by decide, by decide, fun hreads => ?_⟩
  have hzero := (strdup_contents_within _ _).mp hreads.1
  exact absurd hzero (by decide)

end bismark_passive
