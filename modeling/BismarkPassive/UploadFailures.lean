import BismarkPassive.Target
import BismarkPassive.Text.Scan

namespace bismark_passive.upload_failures

open text

def NAME_MAX : Nat := 255

/-- `"passive"` -/
def passive : cstring := [112, 97, 115, 115, 105, 118, 101]

/-- The conversions that `fscanf(handle, "%255s %d\n", ..)` makes, and what it
leaves of the file. It meets the end of the file exactly if it leaves nothing. -/
structure scanned_t where
  directory : Option (List UInt8)
  num_failures : Option integer
  rest : List UInt8

def fscanf (file : List UInt8) : scanned_t :=
  match scan_string NAME_MAX file with
  | (none, rest) => { directory := none, num_failures := none, rest := rest }
  | (some directory, rest) =>
    match scan_int rest with
    | (none, rest) => { directory := some directory, num_failures := none, rest := rest }
    | (some num_failures, rest) =>
      { directory := some directory, num_failures := some num_failures, rest := rest.dropWhile isspace }

/-- `!strcmp(directory, "passive")` -/
def is_passive (directory : List UInt8) : Bool := directory.takeWhile (· != 0) == passive

/-- What a call of `read_failures` meets: the file, unless it cannot be opened,
what the stack holds where the local variables are, and what a conversion gives
for an integer that an `int` cannot represent. -/
structure call_t where
  file : Option (List UInt8)
  directory : List UInt8
  num_failures : Int32
  overflow : integer → Int32

/-- An `int` can represent the integer. -/
def Representable (literal : integer) : Prop := -2 ^ 31 ≤ literal.value ∧ literal.value < 2 ^ 31

instance (literal : integer) : Decidable (Representable literal) :=
  inferInstanceAs (Decidable (-2 ^ 31 ≤ literal.value ∧ literal.value < 2 ^ 31))

def call_t.converted (call : call_t) (literal : integer) : Int32 :=
  if Representable literal then Int32.ofInt literal.value else call.overflow literal

/-- The loop of `read_failures`. A conversion that is not made leaves its
variable as it was. -/
def read_loop (call : call_t) : Nat → List UInt8 → List UInt8 → Int32 → Option Int32
  | 0, _, _, _ => none
  | bound + 1, file, directory, num_failures =>
    let scanned := fscanf file
    let directory := scanned.directory.getD directory
    let num_failures := (scanned.num_failures.map call.converted).getD num_failures
    if is_passive directory then some num_failures
    else if scanned.rest = [] then some (-1)
    else read_loop call bound scanned.rest directory num_failures

/-- `none` would be a loop that does not end. -/
def read_failures (call : call_t) : Option Int32 :=
  match call.file with
  | none => some (-1)
  | some file => read_loop call (file.length + 1) file call.directory call.num_failures

structure upload_failures_t where
  num_failures : Int32
  valid : Bool
  deriving DecidableEq

/-- `num_failures` is not initialised. -/
def upload_failures_init (num_failures : Int32) : upload_failures_t where
  num_failures := num_failures
  valid := false

def upload_failures_check (failures : upload_failures_t) (call : call_t) : Option (Int × upload_failures_t) := do
  let num_failures ← read_failures call
  if num_failures < 0 then pure (-1, failures)
  else if !failures.valid then pure (0, { failures with num_failures := num_failures, valid := true })
  else if failures.num_failures ≠ num_failures then pure (1, { failures with num_failures := num_failures })
  else pure (0, failures)

/-! What one `fscanf` consumes -/

theorem passive_apart : Apart passive := by
  intro byte hbyte
  obtain rfl : 112 = byte := Option.some.inj hbyte
  decide

theorem passive_bytes : ∀ byte ∈ passive, isspace byte = false ∧ byte ≠ 0 := by
  have hall : passive.all (fun byte => !isspace byte && byte != 0) = true := by decide
  simpa using hall

theorem passive_not_space : ∀ byte ∈ passive, isspace byte = false := fun byte hbyte => (passive_bytes byte hbyte).1

theorem passive_length_le : passive.length ≤ NAME_MAX := by decide

theorem not_mem_head_of_space {byte : UInt8} (hspace : isspace byte = true) : byte ∉ passive.head? := by
  intro hhead
  rw [(passive_apart byte hhead).1] at hspace
  cases hspace

/-- Either the rest of the file is blank, or a token is read and an integer
looked for behind it. -/
inductive Scanned (file : List UInt8) : Prop
  | blank (hblank : ∀ byte ∈ file, isspace byte = true) (hscanned : fscanf file = ⟨none, none, []⟩)
  | token (directory behind consumed : List UInt8)
      (hfile : file = file.takeWhile isspace ++ (directory ++ behind)) (hne : directory ≠ [])
      (hdirectory : ∀ byte ∈ directory, isspace byte = false)
      (hend : directory.length = NAME_MAX ∨ behind.head?.all isspace = true)
      (hread : (fscanf file).directory = some directory) (hnumber : (fscanf file).num_failures = (scan_int behind).1)
      (hbehind : behind = consumed ++ (fscanf file).rest) (hconsumed : ∀ byte ∈ consumed, byte ∉ passive.head?)

/-- `fscanf` finds a line, stops in the middle of one, or finds the file's end. -/
theorem fscanf_cases (file : List UInt8) : Scanned file := by
  obtain ⟨hblank, hstring⟩ | ⟨directory, behind, hfile, hne, hdirectory, hend, hstring⟩ :=
    scan_string_cases (show 0 < NAME_MAX by decide) file
  · exact .blank hblank (by rw [fscanf, hstring])
  · obtain ⟨consumed, hbehind, hconsumed⟩ := scan_int_consumed passive_apart behind
    cases hint : scan_int behind with
    | mk number rest =>
      rw [hint] at hbehind
      cases number with
      | none =>
        have hscanned : fscanf file = ⟨some directory, none, rest⟩ := by rw [fscanf, hstring]; simp only [hint]
        exact .token directory behind consumed hfile hne hdirectory hend (by rw [hscanned]) (by rw [hscanned, hint])
          (by rw [hscanned]; exact hbehind) hconsumed
      | some number =>
        have hscanned : fscanf file = ⟨some directory, some number, rest.dropWhile isspace⟩ := by
          rw [fscanf, hstring]
          simp only [hint]
        refine .token directory behind (consumed ++ rest.takeWhile isspace) hfile hne hdirectory hend
          (by rw [hscanned]) (by rw [hscanned, hint]) ?_ ?_
        · rw [hscanned, List.append_assoc, List.takeWhile_append_dropWhile]
          exact hbehind
        · intro byte hbyte
          obtain hbyte | hbyte := List.mem_append.mp hbyte
          · exact hconsumed byte hbyte
          · exact not_mem_head_of_space (List.mem_takeWhile_imp hbyte)

/-- Every round but the last one shortens the file. -/
theorem fscanf_rest_length {file : List UInt8} (hrest : (fscanf file).rest ≠ []) :
    (fscanf file).rest.length < file.length := by
  cases fscanf_cases file with
  | blank hblank hscanned =>
    rw [hscanned] at hrest
    exact absurd rfl hrest
  | token directory behind consumed hfile hne hdirectory hend hread hnumber hbehind hconsumed =>
    have hlength := congrArg List.length hfile
    have hbehind_length := congrArg List.length hbehind
    have hpositive := List.length_pos_of_ne_nil hne
    simp only [List.length_append] at hlength hbehind_length
    omega

/-- Each round of the loop reads a part of the file. -/
theorem read_loop_terminates (call : call_t) {bound : Nat} {file : List UInt8} (hbound : file.length < bound)
    (directory : List UInt8) (num_failures : Int32) :
    ∃ result, read_loop call bound file directory num_failures = some result := by
  induction bound generalizing file directory num_failures with
  | zero => exact absurd hbound (Nat.not_lt_zero _)
  | succ bound ih =>
    unfold read_loop
    dsimp only
    split
    · exact ⟨_, rfl⟩
    split
    · exact ⟨_, rfl⟩
    · rename_i hrest
      have hshorter := fscanf_rest_length hrest
      exact ih (by omega) _ _

/-- The function returns for every file. -/
theorem read_failures_terminates (call : call_t) : ∃ result, read_failures call = some result := by
  unfold read_failures
  split
  · exact ⟨_, rfl⟩
  · exact read_loop_terminates call (Nat.lt_succ_self _) _ _

/-! What the file says -/

/-- The count that a call's file states: the integer behind the first token
`passive` that has one directly behind it, if it is a count. -/
def call_t.count (call : call_t) : Option Int :=
  (call.file.bind (integer_behind passive true)).filter fun count => decide (0 ≤ count)

/-- The first time that `passive` is read as the directory, with the text in
front of it. -/
def first_passive : Nat → List UInt8 → List UInt8 → Option (List UInt8 × scanned_t)
  | 0, _, _ => none
  | bound + 1, before, file =>
    let scanned := fscanf file
    if scanned.directory.any is_passive then some (before ++ file.takeWhile isspace, scanned)
    else if scanned.rest = [] then none
    else first_passive bound (before ++ file.take (file.length - scanned.rest.length)) scanned.rest

/-- A file is read as what it says: if it is blank, the stack does not happen to
hold `passive` where the directory is read to, and where `passive` is first read
from it, it is a token of the file with an integer behind it that fits. -/
structure call_t.Faithful (call : call_t) : Prop where
  blank : ∀ file, call.file = some file → (∀ byte ∈ file, isspace byte = true) → is_passive call.directory = false
  token : ∀ file before scanned, call.file = some file →
    first_passive (file.length + 1) [] file = some (before, scanned) →
      boundary before = true ∧ scanned.directory = some passive ∧
        ∃ literal, scanned.num_failures = some literal ∧ Representable literal

/-- A round that does not read `passive` has gone past no token `passive` with
an integer behind it. -/
theorem integer_behind_fscanf (before : List UInt8) {file : List UInt8}
    (hother : (fscanf file).directory.any is_passive = false) :
    ∃ consumed, file = consumed ++ (fscanf file).rest ∧
      integer_behind passive (boundary before) file =
        integer_behind passive (boundary (before ++ consumed)) (fscanf file).rest := by
  have hspaces : ∀ byte ∈ file.takeWhile isspace, byte ∉ passive.head? :=
    fun byte hbyte => not_mem_head_of_space (List.mem_takeWhile_imp hbyte)
  cases fscanf_cases file with
  | blank hblank hscanned =>
    have hskip := integer_behind_skip (show passive ≠ [] by decide)
      (fun byte hbyte => not_mem_head_of_space (hblank byte hbyte)) before []
    rw [List.append_nil] at hskip
    exact ⟨file, by rw [hscanned, List.append_nil], by rw [hscanned, hskip]⟩
  | token directory behind consumed hfile hne hdirectory hend hread hnumber hbehind hconsumed =>
    have hnone : integer_at passive (directory ++ behind) = none := by
      rw [integer_at, if_neg]
      rintro ⟨hstarts, hspace⟩
      have hlong : passive.length < directory.length ∨ behind.head?.all isspace = true :=
        hend.imp_left fun h => by
          rw [h]
          decide
      rw [token_eq_of_starts passive_not_space hdirectory hlong hstarts hspace] at hread
      rw [hread] at hother
      exact absurd hother (by decide)
    refine ⟨file.takeWhile isspace ++ (directory ++ consumed), ?_, ?_⟩
    · rw [List.append_assoc, List.append_assoc, ← hbehind]
      exact hfile
    · conv_lhs => rw [hfile]
      rw [integer_behind_skip (by decide) hspaces, integer_behind_token hdirectory _ _ hnone hne]
      conv_lhs => rw [hbehind]
      rw [integer_behind_skip (by decide) hconsumed, List.append_assoc, List.append_assoc]

theorem take_consumed {file consumed rest : List UInt8} (h : file = consumed ++ rest) :
    file.take (file.length - rest.length) = consumed := by
  rw [h, List.length_append, Nat.add_sub_cancel, List.take_left]

/-- The directory after a round that does not read `passive`. -/
theorem directory_not_passive {file directory : List UInt8} (hother : (fscanf file).directory.any is_passive = false)
    (hdirectory : (∀ byte ∈ file, isspace byte = true) → is_passive directory = false) :
    is_passive ((fscanf file).directory.getD directory) = false := by
  cases fscanf_cases file with
  | blank hblank hscanned =>
    rw [hscanned]
    exact hdirectory hblank
  | token found behind consumed hfile hne hfound hend hread hnumber hbehind hconsumed =>
    rw [hread] at hother ⊢
    exact hother

/-- If `passive` is never read, no count is found and the file has none. -/
theorem read_loop_none (call : call_t) {bound : Nat} {before file : List UInt8} (hbound : file.length < bound)
    {directory : List UInt8} (hdirectory : (∀ byte ∈ file, isspace byte = true) → is_passive directory = false)
    (num_failures : Int32) (hnever : first_passive bound before file = none) :
    read_loop call bound file directory num_failures = some (-1) ∧
      integer_behind passive (boundary before) file = none := by
  induction bound generalizing before file directory num_failures with
  | zero => exact absurd hbound (Nat.not_lt_zero _)
  | succ bound ih =>
    rw [first_passive] at hnever
    split at hnever
    · cases hnever
    rename_i hother
    rw [Bool.not_eq_true] at hother
    obtain ⟨consumed, hfile, hbehind⟩ := integer_behind_fscanf before hother
    have hread := directory_not_passive hother hdirectory
    rw [read_loop, hbehind]
    rw [if_neg (by rw [hread]; decide)]
    split at hnever
    · rename_i hrest
      rw [if_pos hrest, hrest]
      exact ⟨rfl, rfl⟩
    · rename_i hrest
      have hshorter := fscanf_rest_length hrest
      rw [if_neg hrest]
      rw [take_consumed hfile] at hnever
      exact ih (by omega) (fun _ => hread) _ hnever

/-- Where `passive` is read as a token with an integer behind it, this is the
count of the file. -/
theorem read_loop_some (call : call_t) {bound : Nat} {before file : List UInt8}
    (directory : List UInt8) (hdirectory : (∀ byte ∈ file, isspace byte = true) → is_passive directory = false)
    (num_failures : Int32) {start : List UInt8} {scanned : scanned_t} {literal : integer}
    (hfirst : first_passive bound before file = some (start, scanned)) (hstart : boundary start = true)
    (htoken : scanned.directory = some passive) (hliteral : scanned.num_failures = some literal) :
    read_loop call bound file directory num_failures = some (call.converted literal) ∧
      integer_behind passive (boundary before) file = some literal.value := by
  induction bound generalizing before file directory num_failures with
  | zero => cases hfirst
  | succ bound ih =>
    rw [first_passive] at hfirst
    rw [read_loop]
    split at hfirst
    · obtain ⟨rfl, rfl⟩ := Prod.mk.inj (Option.some.inj hfirst)
      rw [htoken, hliteral]
      refine ⟨rfl, ?_⟩
      cases fscanf_cases file with
      | blank hblank hscanned =>
        rw [hscanned] at htoken
        cases htoken
      | token found behind consumed hfile hne hfound hend hread hnumber hbehind hconsumed =>
        rw [hread, Option.some.injEq] at htoken
        subst htoken
        have hspaces : ∀ byte ∈ file.takeWhile isspace, byte ∉ passive.head? :=
          fun byte hbyte => not_mem_head_of_space (List.mem_takeWhile_imp hbyte)
        rw [hliteral] at hnumber
        conv_lhs => rw [hfile]
        rw [integer_behind_skip hne hspaces]
        refine integer_behind_here hstart hne ?_ hnumber.symm
        cases behind with
        | nil => cases hnumber
        | cons byte behind => exact hend.resolve_left (by decide)
    rename_i hother
    rw [Bool.not_eq_true] at hother
    obtain ⟨consumed, hfile, hbehind⟩ := integer_behind_fscanf before hother
    have hread := directory_not_passive hother hdirectory
    rw [if_neg (by rw [hread]; decide), hbehind]
    split at hfirst
    · cases hfirst
    · rename_i hrest
      rw [if_neg hrest]
      rw [take_consumed hfile] at hfirst
      exact ih _ (fun _ => hread) _ hfirst

theorem converted_toInt {call : call_t} {literal : integer} (h : Representable literal) :
    (call.converted literal).toInt = literal.value := by
  rw [call_t.converted, if_pos h]
  exact Int32.toInt_ofInt_of_le h.1 h.2

/-- From a file that is read as what it says, the function returns the count
that the file states. -/
theorem read_failures_count {call : call_t} (hfaithful : call.Faithful) :
    ∃ result, read_failures call = some result ∧
      (0 ≤ result.toInt → ∃ file, call.file = some file ∧ ContainsInteger passive file result.toInt) ∧
      call.count = if result < 0 then none else some result.toInt := by
  cases hfile : call.file with
  | none =>
    refine ⟨-1, by rw [read_failures, hfile], fun h => absurd h (by decide), ?_⟩
    rw [call_t.count, hfile]
    rfl
  | some file =>
    have hblank := hfaithful.blank file hfile
    rw [read_failures, hfile]
    cases hfirst : first_passive (file.length + 1) [] file with
    | none =>
      obtain ⟨hread, hnone⟩ := read_loop_none call (Nat.lt_succ_self _) hblank call.num_failures hfirst
      refine ⟨-1, hread, fun h => absurd h (by decide), ?_⟩
      have hstated : integer_behind passive true file = none := hnone
      rw [call_t.count, hfile, Option.bind_some, hstated]
      rfl
    | some found =>
      obtain ⟨start, scanned⟩ := found
      obtain ⟨hstart, htoken, literal, hliteral, hfits⟩ := hfaithful.token file start scanned hfile hfirst
      obtain ⟨hread, hbehind⟩ :=
        read_loop_some call call.directory hblank call.num_failures hfirst hstart htoken hliteral
      have hvalue : (call.converted literal).toInt = literal.value := converted_toInt hfits
      refine ⟨_, hread, fun _ => ⟨file, rfl, ?_⟩, ?_⟩
      · rw [hvalue]
        exact integer_behind_contains hbehind
      · have hstated : integer_behind passive true file = some literal.value := hbehind
        have hnegative : call.converted literal < 0 ↔ ¬ 0 ≤ literal.value := by
          rw [Int32.lt_iff_toInt_lt, hvalue, not_le]
          rfl
        rw [call_t.count, hfile, Option.bind_some, hstated, hvalue]
        by_cases hcount : 0 ≤ literal.value
        · rw [Option.filter_some_pos (by simpa using hcount), if_neg fun h => hnegative.mp h hcount]
        · rw [Option.filter_some_neg (by simpa using hcount), if_pos (hnegative.mpr hcount)]

/-! Files of whole lines -/

/-- A directory and its number of failures. -/
structure record_t where
  directory : List UInt8
  written : List UInt8
  literal : integer
  directory_ne : directory ≠ []
  directory_le : directory.length ≤ NAME_MAX
  directory_bytes : ∀ byte ∈ directory, isspace byte = false ∧ byte ≠ 0
  written_literal : Written written literal
  digits_ne : literal.digits ≠ []
  digits_bytes : ∀ byte ∈ literal.digits, isdigit byte = true
  representable : Representable literal

def record_t.line (record : record_t) : List UInt8 := record.directory ++ (32 :: record.written ++ [10])

theorem record_t.directory_head (record : record_t) (rest : List UInt8) :
    ∃ byte behind, record.line ++ rest = byte :: behind ∧ isspace byte = false := by
  obtain ⟨byte, directory, hdirectory⟩ := List.exists_cons_of_ne_nil record.directory_ne
  refine ⟨byte, _, by rw [record_t.line, hdirectory, List.cons_append, List.cons_append], ?_⟩
  exact (record.directory_bytes byte (hdirectory ▸ List.mem_cons_self)).1

theorem head_lines (records : List record_t) : (records.flatMap record_t.line).head?.all (!isspace ·) = true := by
  cases records with
  | nil => rfl
  | cons record records =>
    obtain ⟨byte, behind, hline, hspace⟩ := record.directory_head (records.flatMap record_t.line)
    rw [List.flatMap_cons, hline]
    simp [hspace]

/-- A line is read as it was written. -/
theorem fscanf_line (record : record_t) {rest : List UInt8} (hrest : rest.head?.all (!isspace ·) = true) :
    fscanf (record.line ++ rest) = ⟨some record.directory, some record.literal, rest⟩ := by
  have hfile : record.line ++ rest = record.directory ++ ([32] ++ (record.written ++ 10 :: rest)) := by
    simp [record_t.line]
  have hstring : scan_string NAME_MAX (record.line ++ rest) =
      (some record.directory, [32] ++ (record.written ++ 10 :: rest)) := by
    rw [hfile]
    exact scan_string_token record.directory_ne (fun byte hbyte => (record.directory_bytes byte hbyte).1)
      record.directory_le rfl
  have hint : scan_int ([32] ++ (record.written ++ 10 :: rest)) = (some record.literal, 10 :: rest) := by
    refine scan_int_written (fun byte hbyte => ?_) record.written_literal record.digits_ne record.digits_bytes rfl
    rw [List.mem_singleton.mp hbyte]
    rfl
  have hskip : (10 :: rest).dropWhile isspace = rest := by
    rw [List.dropWhile_cons_of_pos rfl]
    cases rest with
    | nil => rfl
    | cons byte rest => exact List.dropWhile_cons_of_neg (by simpa using hrest)
  rw [fscanf, hstring]
  simp only [hint, hskip]

theorem record_t.is_passive_iff (record : record_t) :
    is_passive record.directory = true ↔ record.directory = passive := by
  have hwhole : record.directory.takeWhile (· != 0) = record.directory := by
    rw [List.takeWhile_eq_self_iff]
    exact fun byte hbyte => by simpa using (record.directory_bytes byte hbyte).2
  rw [is_passive, hwhole, beq_iff_eq]

/-- Only the directory of a line is read as a directory. -/
theorem first_passive_lines {bound : Nat} {before start : List UInt8} {records : List record_t} {scanned : scanned_t}
    (hbefore : boundary before = true)
    (hfirst : first_passive bound before (records.flatMap record_t.line) = some (start, scanned)) :
    boundary start = true ∧ ∃ record ∈ records, record.directory = passive ∧
      scanned.directory = some record.directory ∧ scanned.num_failures = some record.literal := by
  induction records generalizing bound before with
  | nil =>
    cases bound with
    | zero => cases hfirst
    | succ bound => cases hfirst
  | cons record records ih =>
    cases bound with
    | zero => cases hfirst
    | succ bound =>
      have hread := fscanf_line record (head_lines records)
      rw [List.flatMap_cons, first_passive, hread] at hfirst
      dsimp only at hfirst
      split at hfirst
      · rename_i hpassive
        obtain ⟨rfl, rfl⟩ := Prod.mk.inj (Option.some.inj hfirst)
        obtain ⟨byte, behind, hline, hspace⟩ := record.directory_head (records.flatMap record_t.line)
        rw [hline, List.takeWhile_cons_of_neg (by simp [hspace]), List.append_nil]
        exact ⟨hbefore, record, List.mem_cons_self, record.is_passive_iff.mp hpassive, rfl, rfl⟩
      split at hfirst
      · cases hfirst
      · rw [take_consumed rfl] at hfirst
        have hend : boundary (before ++ record.line) = true := by
          rw [record_t.line, ← List.append_assoc, ← List.append_assoc, boundary_snoc]
          rfl
        obtain ⟨hstart, record', hmem, hfound⟩ := ih hend hfirst
        exact ⟨hstart, record', List.mem_cons_of_mem _ hmem, hfound⟩

/-- A file of such lines is read as what it says. -/
theorem lines_faithful {call : call_t} (records : List record_t)
    (hfile : call.file = some (records.flatMap record_t.line))
    (hempty : records = [] → is_passive call.directory = false) : call.Faithful where
  blank := by
    intro file hcall hblank
    obtain rfl := Option.some.inj (hfile.symm.trans hcall)
    cases records with
    | nil => exact hempty rfl
    | cons record records =>
      obtain ⟨byte, behind, hline, hspace⟩ := record.directory_head (records.flatMap record_t.line)
      rw [List.flatMap_cons, hline] at hblank
      rw [hblank byte List.mem_cons_self] at hspace
      cases hspace
  token := by
    intro file before scanned hcall hfirst
    obtain rfl := Option.some.inj (hfile.symm.trans hcall)
    obtain ⟨hstart, record, -, hpassive, hdirectory, hliteral⟩ := first_passive_lines rfl hfirst
    exact ⟨hstart, hpassive ▸ hdirectory, record.literal, hliteral, record.representable⟩

/-! The checks one after the other -/

/-- What the file of the last call that stated a count stated. -/
def last_count (calls : List call_t) : Option Int := calls.reverse.findSome? call_t.count

def check_all (failures : upload_failures_t) : List call_t → Option upload_failures_t
  | [] => some failures
  | call :: calls => do
    let (_, failures) ← upload_failures_check failures call
    check_all failures calls

/-- The count that is remembered. -/
structure upload_failures_t.Remembers (failures : upload_failures_t) (count : Option Int) : Prop where
  valid : failures.valid = count.isSome
  num_failures : ∀ n, count = some n → failures.num_failures.toInt = n

/-- One check of a file that is read as what it says. -/
theorem upload_failures_check_spec {failures : upload_failures_t} {last : Option Int} {call : call_t}
    (hremembers : failures.Remembers last) (hfaithful : call.Faithful) :
    ∃ returned failures', upload_failures_check failures call = some (returned, failures') ∧
      failures'.Remembers (call.count.or last) ∧
      (returned = 1 ↔ ∃ n m, call.count = some n ∧ last = some m ∧ n ≠ m) ∧
      (returned = -1 → failures' = failures) := by
  obtain ⟨result, hread, -, hcount⟩ := read_failures_count hfaithful
  rw [upload_failures_check, hread]
  simp only [Option.bind_eq_bind, Option.bind_some, Option.pure_def]
  by_cases hnegative : result < 0
  · rw [if_pos hnegative] at hcount ⊢
    rw [hcount]
    exact ⟨-1, failures, rfl, hremembers, by simp, fun _ => rfl⟩
  rw [if_neg hnegative] at hcount ⊢
  rw [hcount]
  have hstored : ({ failures with num_failures := result, valid := true } : upload_failures_t).Remembers
      (some result.toInt) := ⟨rfl, fun n hn => Option.some.inj hn⟩
  cases last with
  | none =>
    have hvalid : failures.valid = false := hremembers.valid
    refine ⟨0, _, by rw [hvalid]; rfl, hstored, by simp, fun h => absurd h (by decide)⟩
  | some m =>
    have hvalid : failures.valid = true := hremembers.valid
    have hm := hremembers.num_failures m rfl
    have hsame : failures.num_failures = result ↔ result.toInt = m := by
      rw [← hm, ← Int32.toInt_inj]
      exact eq_comm
    rw [hvalid]
    by_cases hequal : failures.num_failures = result
    · refine ⟨0, failures, by simp [hequal], ⟨hvalid, fun n hn => ?_⟩, ?_, fun _ => rfl⟩
      · rw [hequal]
        exact Option.some.inj hn
      · simp [hsame.mp hequal]
    · refine ⟨1, { failures with num_failures := result }, by simp [hequal, hvalid], ?_, ?_,
      fun h => absurd h (by decide)⟩
      · exact ⟨hvalid, fun n hn => Option.some.inj hn⟩
      · simp only [true_iff]
        exact ⟨_, _, rfl, rfl, fun h => hequal (hsame.mpr h)⟩

/-- After any calls the last count that a file stated is remembered. -/
theorem check_all_spec {failures : upload_failures_t} {last : Option Int} (hremembers : failures.Remembers last)
    {calls : List call_t} (hfaithful : ∀ call ∈ calls, call.Faithful) :
    ∃ failures', check_all failures calls = some failures' ∧ failures'.Remembers ((last_count calls).or last) := by
  induction calls generalizing failures last with
  | nil => exact ⟨failures, rfl, hremembers⟩
  | cons call calls ih =>
    obtain ⟨hcall, hcalls⟩ := List.forall_mem_cons.mp hfaithful
    obtain ⟨returned, middle, hcheck, hmiddle, -⟩ := upload_failures_check_spec hremembers hcall
    obtain ⟨failures', hrest, hremembers'⟩ := ih hmiddle hcalls
    refine ⟨failures', by rw [check_all, hcheck]; exact hrest, ?_⟩
    have hlast : (last_count (call :: calls)).or last = (last_count calls).or (call.count.or last) := by
      rw [last_count, List.reverse_cons, List.findSome?_append, List.findSome?_singleton, Option.or_assoc, last_count]
    rw [hlast]
    exact hremembers'

/-- The function returns for every file. If the files are read as what they say,
it returns counts that the files state, a check reports exactly the changes of
the count, and one that finds no count leaves the remembered one alone. -/
theorem upload_failures_faithful (num_failures : Int32) (earlier : List call_t) (call : call_t) :
    (∃ result, read_failures call = some result) ∧
      ((∀ checked ∈ earlier ++ [call], checked.Faithful) →
        ∃ failures result returned failures',
          check_all (upload_failures_init num_failures) earlier = some failures ∧
          read_failures call = some result ∧
          (0 ≤ result.toInt → ∃ file, call.file = some file ∧ ContainsInteger passive file result.toInt) ∧
          upload_failures_check failures call = some (returned, failures') ∧
          (returned = 1 ↔ ∃ n m, call.count = some n ∧ last_count earlier = some m ∧ n ≠ m) ∧
          (returned = -1 → failures' = failures)) := by
  refine ⟨read_failures_terminates call, fun hfaithful => ?_⟩
  have hearlier : ∀ checked ∈ earlier, checked.Faithful :=
    fun checked hmem => hfaithful checked (List.mem_append_left _ hmem)
  have hinitial : (upload_failures_init num_failures).Remembers none := ⟨rfl, fun n hn => nomatch hn⟩
  obtain ⟨failures, hchecks, hremembers⟩ := check_all_spec hinitial hearlier
  rw [Option.or_none] at hremembers
  have hcall := hfaithful call (List.mem_append_right _ List.mem_cons_self)
  obtain ⟨result, hread, hstates, -⟩ := read_failures_count hcall
  obtain ⟨returned, failures', hcheck, -, hchanged, hkept⟩ := upload_failures_check_spec hremembers hcall
  exact ⟨failures, result, returned, failures', hchecks, hread, hstates, hcheck, hchanged, hkept⟩

/-- A call on this file, with a stack of zeros. -/
def clean_call (file : List UInt8) : call_t where
  file := some file
  directory := []
  num_failures := 0
  overflow _ := 0

/-- The line of `passive` with a number of one digit. -/
def passive_record (digit : UInt8) (hdigit : isdigit digit = true)
    (hfits : Representable ⟨false, [digit]⟩) : record_t where
  directory := passive
  written := [digit]
  literal := ⟨false, [digit]⟩
  directory_ne := List.cons_ne_nil _ _
  directory_le := passive_length_le
  directory_bytes := passive_bytes
  written_literal := .unsigned [digit]
  digits_ne := List.cons_ne_nil _ _
  digits_bytes := fun _ hbyte => List.mem_singleton.mp hbyte ▸ hdigit
  representable := hfits

/-- `"passive 3"` and `"passive 4"`, each a line -/
def counting_file : List UInt8 := passive ++ [32, 51, 10]

def changed_file : List UInt8 := passive ++ [32, 52, 10]

/-- `"frequent 5"` and `"passive x"` on two lines -/
def garbled_file : List UInt8 := [102, 114, 101, 113, 117, 101, 110, 116, 32, 53, 10] ++ passive ++ [32, 120]

theorem counting_file_faithful : (clean_call counting_file).Faithful :=
  lines_faithful [passive_record 51 rfl (by decide)] rfl fun h => nomatch h

theorem changed_file_faithful : (clean_call changed_file).Faithful :=
  lines_faithful [passive_record 52 rfl (by decide)] rfl fun h => nomatch h

/-- A count, then another one. -/
theorem upload_failures_faithful_changed :
    ∃ failures result returned failures',
      check_all (upload_failures_init 0) [clean_call counting_file] = some failures ∧
      read_failures (clean_call changed_file) = some result ∧
      (0 ≤ result.toInt →
        ∃ file, (clean_call changed_file).file = some file ∧ ContainsInteger passive file result.toInt) ∧
      upload_failures_check failures (clean_call changed_file) = some (returned, failures') ∧
      (returned = 1 ↔ ∃ n m, (clean_call changed_file).count = some n ∧
        last_count [clean_call counting_file] = some m ∧ n ≠ m) ∧
      (returned = -1 → failures' = failures) := by
  refine (upload_failures_faithful 0 [clean_call counting_file] (clean_call changed_file)).2 fun checked hchecked => ?_
  rw [List.mem_append, List.mem_singleton, List.mem_singleton] at hchecked
  obtain rfl | rfl := hchecked
  · exact counting_file_faithful
  · exact changed_file_faithful

/-- The count of another directory is reported for a file that states none. -/
theorem garbled_file_reported :
    check_all (upload_failures_init 0) [clean_call counting_file] = some ⟨3, true⟩ ∧
      (clean_call garbled_file).count = none ∧ (¬ ∃ n, ContainsInteger passive garbled_file n) ∧
      read_failures (clean_call garbled_file) = some 5 ∧
      upload_failures_check ⟨3, true⟩ (clean_call garbled_file) = some (1, ⟨5, true⟩) := by
  refine ⟨by decide, by decide, ?_, by decide, by decide⟩
  rintro ⟨n, hcontains⟩
  obtain ⟨found, hfound⟩ := integer_behind_of_contains hcontains
  have hnone : integer_behind passive true garbled_file = none := by decide
  rw [hnone] at hfound
  cases hfound

end bismark_passive.upload_failures
