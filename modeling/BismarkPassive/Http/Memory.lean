import BismarkPassive.Bytes.Access
import BismarkPassive.Http.Parser
import BismarkPassive.Reference
import BismarkPassive.Text.Tokens

namespace bismark_passive.http

open bytes

/-! The parser on the memory that the payload lies in. Addresses count from the
payload's first byte; `mapped` is the number of bytes up to the end of the
mapped memory and bounds the loops. -/

/-- `strtok(s, " ")` behind the test for the end of the string: the address of
the token, and the pointer that the next call goes on from. -/
def strtok_scan (mapped : Nat) (s : Nat) : Access (Option Nat × Nat) := do
  let token ← skip (· == 32) mapped s
  let byte ← access8 token
  if byte = 0 then pure (none, token)
  else do
    let token_end ← skip (fun byte => byte != 32 && byte != 0) mapped token
    let byte ← access8 token_end
    if byte = 0 then pure (some token, token_end)
    else do
      store8 token_end 0
      pure (some token, token_end + 1)

def strtok_memory (mapped : Nat) (s : Nat) : Access (Option Nat × Nat) := do
  let byte ← access8 s
  if byte = 0 then pure (none, s) else strtok_scan mapped s

/-- The loop of `tokenize`, with so many slots of `vec` left to fill. -/
def tokenize_rest (mapped : Nat) : Nat → Nat → List (Option Nat) → Access (Nat × List (Option Nat))
  | 0, _, vec => pure (vec.length, vec)
  | slots + 1, s, vec => do
    let (token, s) ← strtok_memory mapped s
    match token with
    | none => pure (vec.length + 1, vec ++ [none])
    | some token => tokenize_rest mapped slots s (vec ++ [some token])

def tokenize_memory (mapped : Nat) (buf vecsize : Nat) : Access (Nat × List (Option Nat)) := do
  let (token, s) ← strtok_memory mapped buf
  tokenize_rest mapped (vecsize - 1) s [token]

/-- `strcasecmp` with a constant, up to its sign. -/
def strcasecmp_memory : Nat → cstring → Access Bool
  | address, [] => do
    let byte ← access8 address
    pure (byte == 0)
  | address, expected :: constant => do
    let byte ← access8 address
    if byte ≠ 0 ∧ tolower byte = tolower expected then strcasecmp_memory (address + 1) constant else pure false

/-- Ends the URL behind its first `MAX_URL - 1` bytes if it is too long. -/
def cut_url (mapped : Nat) (url : Nat) : Access Unit := do
  let url_end ← skip (· != 0) mapped url
  let length := Int32.ofNat (url_end - url)
  if Int32.ofNat MAX_URL < length then store8 (url + MAX_URL - 1) 0

def process_http_packet_memory (s : Session) (mapped : Nat) (len : Int32) (table : http_table_t)
    (flow_id : UInt16) : Access (Option (Int × http_table_t)) :=
  if len ≤ 0 then pure (some (-1, table))
  else do
    let (n, argv) ← tokenize_memory mapped 0 3
    match n, argv with
    | 3, some method :: some url :: _ => do
      let get ← strcasecmp_memory method [71, 69, 84]
      if !get then pure (some (-1, table))
      else do
        cut_url mapped url
        if s.target.disable_anonymization then pure (some (0, table))
        else do
          let ul ← access_string mapped url
          pure ((add_url s table flow_id ul).map fun added => (0, added.2))
    | _, _ => pure (some (-1, table))

/-- The words that a space ends. -/
def closed_words (payload : List UInt8) : List (List UInt8) := (payload.splitOn 32).dropLast.filter (· ≠ [])

/-- The tokens that the parser asks for end inside the payload. -/
def EndsInside (payload : List UInt8) : Prop := 0 ∈ payload ∨ 3 ≤ (closed_words payload).length

instance (payload : List UInt8) : Decidable (EndsInside payload) :=
  inferInstanceAs (Decidable (0 ∈ payload ∨ 3 ≤ (closed_words payload).length))

/-- Bytes of a token. -/
def Word (word : List UInt8) : Prop := ∀ byte ∈ word, (byte != 32 && byte != 0) = true

def Spaces (spaces : List UInt8) : Prop := ∀ byte ∈ spaces, (byte == 32) = true

variable {mapped : Nat} {before content spaces word more : List UInt8}

/-- What `strtok` finds: spaces, then a word, then the end of memory, the end of
the string or a space. -/
theorem strtok_cases (content : List UInt8) :
    ∃ spaces word, Spaces spaces ∧ Word word ∧
      (content = spaces ++ word ∨ (∃ more, content = spaces ++ (word ++ 0 :: more)) ∨
        word ≠ [] ∧ ∃ more, content = spaces ++ (word ++ 32 :: more)) := by
  have hcontent : content = content.takeWhile (· == 32) ++ content.dropWhile (· == 32) :=
    List.takeWhile_append_dropWhile.symm
  have hspaces : Spaces (content.takeWhile (· == 32)) := fun _ => List.mem_takeWhile_imp
  have hhead := List.head?_dropWhile_not (p := fun byte : UInt8 => byte == 32) content
  generalize content.takeWhile (· == 32) = spaces at hcontent hspaces
  generalize content.dropWhile (· == 32) = rest at hcontent hhead
  have hrest : rest = rest.takeWhile (fun byte => byte != 32 && byte != 0) ++
      rest.dropWhile fun byte => byte != 32 && byte != 0 := List.takeWhile_append_dropWhile.symm
  have hword : Word (rest.takeWhile fun byte => byte != 32 && byte != 0) := fun _ => List.mem_takeWhile_imp
  generalize (rest.takeWhile fun byte => byte != 32 && byte != 0) = word at hrest hword
  have hend := List.head?_dropWhile_not (p := fun byte : UInt8 => byte != 32 && byte != 0) rest
  refine ⟨spaces, word, hspaces, hword, ?_⟩
  rw [hcontent]
  cases hmore : rest.dropWhile fun byte => byte != 32 && byte != 0 with
  | nil =>
    rw [hmore, List.append_nil] at hrest
    exact .inl (congrArg (spaces ++ ·) hrest)
  | cons byte more =>
    rw [hmore] at hrest hend
    by_cases hbyte : byte = 0
    · subst hbyte
      exact .inr (.inl ⟨more, congrArg (spaces ++ ·) hrest⟩)
    · have hspace : byte = 32 := by simpa [hbyte] using hend
      subst hspace
      refine .inr (.inr ⟨?_, more, congrArg (spaces ++ ·) hrest⟩)
      rintro rfl
      rw [hrest] at hhead
      simp at hhead

/-- Words up to a space are closed by it. -/
theorem closed_words_append (first rest : List UInt8) :
    closed_words (first ++ 32 :: rest) = text.pieces 32 first ++ closed_words rest := by
  have hsplit := List.splitOnP_append_cons (p := fun byte : UInt8 => byte == 32) first rest (beq_self_eq_true 32)
  have hne : rest.splitOn 32 ≠ [] := by
    rw [List.splitOn_eq_splitOnP]
    exact List.splitOnP_ne_nil _ _
  rw [closed_words, List.splitOn_eq_splitOnP, hsplit, ← List.splitOn_eq_splitOnP, ← List.splitOn_eq_splitOnP,
    List.dropLast_append_of_ne_nil hne, List.filter_append]
  rfl

theorem Word.not_mem (h : Word word) : 32 ∉ word ∧ 0 ∉ word :=
  ⟨fun hmem => absurd (h 32 hmem) (by decide), fun hmem => absurd (h 0 hmem) (by decide)⟩

theorem Spaces.not_mem (h : Spaces spaces) : 0 ∉ spaces := fun hmem => absurd (h 0 hmem) (by decide)

theorem spaces_cons {byte : UInt8} (h : Spaces (byte :: spaces)) : byte = 32 ∧ Spaces spaces :=
  ⟨by simpa using h byte List.mem_cons_self, fun other hother => h other (List.mem_cons_of_mem _ hother)⟩

/-- A word that nothing ends is not counted. -/
theorem closed_words_open (hspaces : Spaces spaces) (hword : Word word) : closed_words (spaces ++ word) = [] := by
  induction spaces with
  | nil => simp [closed_words, text.splitOn_of_not_mem hword.not_mem.1]
  | cons byte spaces ih =>
    obtain ⟨rfl, hrest⟩ := spaces_cons hspaces
    have hskip := closed_words_append [] (spaces ++ word)
    rw [text.pieces_nil, List.nil_append, ih hrest] at hskip
    exact hskip

/-- The first closed word comes before those of the rest. -/
theorem closed_words_closed (hspaces : Spaces spaces) (hword : Word word) (hne : word ≠ []) (more : List UInt8) :
    closed_words (spaces ++ (word ++ 32 :: more)) = word :: closed_words more := by
  induction spaces with
  | nil => rw [List.nil_append, closed_words_append, text.pieces_of_not_mem hne hword.not_mem.1, List.singleton_append]
  | cons byte spaces ih =>
    obtain ⟨rfl, hrest⟩ := spaces_cons hspaces
    have hskip := closed_words_append [] (spaces ++ (word ++ 32 :: more))
    rw [text.pieces_nil, List.nil_append, ih hrest] at hskip
    exact hskip

/-- The three ways a call of `strtok` ends. -/
theorem run_strtok_nul (more : List UInt8) :
    (strtok_memory mapped before.length).run (before ++ 0 :: more) =
      some ((none, before.length), before ++ 0 :: more) := by
  simp [strtok_memory]

/-- The first byte of the spaces and the word is not the end of the string. -/
theorem run_strtok_scan (mapped : Nat) (before : List UInt8) (hspaces : Spaces spaces) (hword : Word word)
    (hne : spaces ++ word ≠ []) (more : List UInt8) :
    (strtok_memory mapped before.length).run (before ++ spaces ++ word ++ more) =
      (strtok_scan mapped before.length).run (before ++ spaces ++ word ++ more) := by
  have hbytes : 0 ∉ spaces ++ word := fun h => (List.mem_append.mp h).elim hspaces.not_mem hword.not_mem.2
  obtain ⟨byte, rest, hcons⟩ := List.exists_cons_of_ne_nil hne
  rw [hcons] at hbytes
  have hbyte : byte ≠ 0 := fun hzero => hbytes (hzero ▸ List.mem_cons_self)
  rw [List.append_assoc before, hcons, List.append_assoc, List.cons_append, strtok_memory, Access.run_bind,
    run_access8, Option.bind_some, if_neg hbyte]

/-- The scan up to the word. -/
theorem run_strtok_word (mapped : Nat) (before : List UInt8) {byte : UInt8} (hspaces : Spaces spaces)
    (hbyte : byte ≠ 32 ∧ byte ≠ 0) (hmapped : spaces.length < mapped) (more : List UInt8) :
    (strtok_scan mapped before.length).run (before ++ spaces ++ byte :: more) =
      (skip (fun byte => byte != 32 && byte != 0) mapped (before ++ spaces).length >>= fun token_end => do
        let byte ← access8 token_end
        if byte = 0 then pure (some (before ++ spaces).length, token_end)
        else do
          store8 token_end 0
          pure (some (before ++ spaces).length, token_end + 1)).run (before ++ spaces ++ byte :: more) := by
  rw [strtok_scan, Access.run_bind, run_skip hspaces (by simpa using hbyte.1) hmapped, Option.bind_some,
    Access.run_bind, run_access8, Option.bind_some, if_neg hbyte.2]

/-- A word that nothing ends runs out of the payload. -/
theorem run_strtok_open (hspaces : Spaces spaces) (hword : Word word) (hmapped : (spaces ++ word).length ≤ mapped) :
    (strtok_memory mapped before.length).run (before ++ spaces ++ word) = none := by
  by_cases hne : spaces ++ word = []
  · rw [List.append_assoc, hne, List.append_nil, strtok_memory, Access.run_bind, run_access8_end, Option.bind_none]
  have hscan := run_strtok_scan mapped before hspaces hword hne []
  rw [List.append_nil] at hscan
  rw [hscan]
  cases word with
  | nil => rw [List.append_nil, strtok_scan, Access.run_bind, run_skip_end hspaces, Option.bind_none]
  | cons first word =>
    have hfirst := (List.forall_mem_cons.mp hword).1
    rw [List.length_append, List.length_cons] at hmapped
    rw [run_strtok_word mapped before hspaces (by simpa using hfirst) (by omega), Access.run_bind, run_skip_end hword,
      Option.bind_none]

/-- A word that the terminator ends is found in place. -/
theorem run_strtok_ended (hspaces : Spaces spaces) (hword : Word word) (hne : word ≠ [])
    (hmapped : (spaces ++ word).length < mapped) (more : List UInt8) :
    (strtok_memory mapped before.length).run (before ++ spaces ++ word ++ 0 :: more) =
      some ((some (before ++ spaces).length, (before ++ spaces ++ word).length),
        before ++ spaces ++ word ++ 0 :: more) := by
  rw [run_strtok_scan mapped before hspaces hword (by simp [hne])]
  obtain ⟨first, word, rfl⟩ := List.exists_cons_of_ne_nil hne
  have hfirst := (List.forall_mem_cons.mp hword).1
  rw [List.length_append, List.length_cons] at hmapped
  have hscan := run_strtok_word mapped before hspaces (by simpa using hfirst) (by omega)
    (word ++ 0 :: more)
  rw [← List.cons_append, ← List.append_assoc] at hscan
  rw [hscan, Access.run_bind, run_skip hword (by decide) (by rw [List.length_cons]; omega), Option.bind_some,
    Access.run_bind, run_access8, Option.bind_some, if_pos rfl, Access.run_pure]

/-- A word that a space ends is found in place, and the space becomes its terminator. -/
theorem run_strtok_closed (hspaces : Spaces spaces) (hword : Word word) (hne : word ≠ [])
    (hmapped : (spaces ++ word).length < mapped) (more : List UInt8) :
    (strtok_memory mapped before.length).run (before ++ spaces ++ word ++ 32 :: more) =
      some ((some (before ++ spaces).length, (before ++ spaces ++ word ++ [0]).length),
        before ++ spaces ++ word ++ 0 :: more) := by
  rw [run_strtok_scan mapped before hspaces hword (by simp [hne])]
  obtain ⟨first, word, rfl⟩ := List.exists_cons_of_ne_nil hne
  have hfirst := (List.forall_mem_cons.mp hword).1
  rw [List.length_append, List.length_cons] at hmapped
  have hscan := run_strtok_word mapped before hspaces (by simpa using hfirst) (by omega)
    (word ++ 32 :: more)
  have hnext : (before ++ spaces ++ first :: word ++ [0]).length = (before ++ spaces ++ first :: word).length + 1 :=
    List.length_append
  rw [← List.cons_append, ← List.append_assoc] at hscan
  rw [hscan, Access.run_bind, run_skip hword (by decide) (by rw [List.length_cons]; omega), Option.bind_some,
    Access.run_bind, run_access8, Option.bind_some, if_neg (show (32 : UInt8) ≠ 0 by decide), Access.run_bind,
    run_store8, Option.bind_some, Access.run_pure, hnext]

/-- Spaces at the end of the string, without a word. -/
theorem run_strtok_blank (hspaces : Spaces spaces) (hmapped : spaces.length < mapped) (more : List UInt8) :
    (strtok_memory mapped before.length).run (before ++ spaces ++ 0 :: more) =
      some ((none, (before ++ spaces).length), before ++ spaces ++ 0 :: more) := by
  by_cases hne : spaces = []
  · rw [hne, List.append_nil, run_strtok_nul]
  have hempty : Word [] := fun _ hbyte => nomatch hbyte
  have hscan := run_strtok_scan mapped before hspaces hempty (by simpa using hne) (0 :: more)
  rw [List.append_nil] at hscan
  rw [hscan, strtok_scan, Access.run_bind, run_skip hspaces (by decide) hmapped, Option.bind_some, Access.run_bind,
    run_access8, Option.bind_some, if_pos rfl, Access.run_pure]

/-! The same calls on the string -/

theorem strtok_spaces (hspaces : Spaces spaces) : strtok spaces = none := by
  rw [strtok, List.dropWhile_eq_nil_iff.mpr hspaces]

/-- On strings, the last word is found with nothing behind it. -/
theorem strtok_word (hspaces : Spaces spaces) (hword : Word word) (hne : word ≠ []) :
    strtok (spaces ++ word) = some (word, []) := by
  obtain ⟨first, word, rfl⟩ := List.exists_cons_of_ne_nil hne
  have hfirst : first ≠ 32 := fun h => hword.not_mem.1 (h ▸ List.mem_cons_self)
  have hwhole : (first :: word).takeWhile (· != 32) = first :: word :=
    List.takeWhile_eq_self_iff.mpr fun byte hbyte => bne_iff_ne.mpr fun h => hword.not_mem.1 (h ▸ hbyte)
  rw [strtok, List.dropWhile_append_of_pos hspaces, List.dropWhile_cons_of_neg (by simpa using hfirst)]
  simp only [hwhole, List.drop_eq_nil_of_le (Nat.le_succ _)]

/-- And any other word with what follows its space. -/
theorem strtok_closed (hspaces : Spaces spaces) (hword : Word word) (hne : word ≠ []) (more : List UInt8) :
    strtok (spaces ++ word ++ 32 :: more) = some (word, more) := by
  obtain ⟨first, word, rfl⟩ := List.exists_cons_of_ne_nil hne
  have hfirst : first ≠ 32 := fun h => hword.not_mem.1 (h ▸ List.mem_cons_self)
  have hwhole : (first :: word ++ 32 :: more).takeWhile (· != 32) = first :: word := by
    have hbytes : ∀ byte ∈ first :: word, (byte != 32) = true := fun byte hbyte =>
      bne_iff_ne.mpr fun h => hword.not_mem.1 (h ▸ hbyte)
    rw [List.takeWhile_append_of_pos hbytes, List.takeWhile_cons_of_neg (by decide), List.append_nil]
  rw [List.cons_append] at hwhole
  rw [strtok, List.append_assoc, List.dropWhile_append_of_pos hspaces, List.cons_append,
    List.dropWhile_cons_of_neg (by simpa using hfirst)]
  simp only [hwhole]
  simp

theorem string_ended (hspaces : Spaces spaces) (hword : Word word) (more : List UInt8) :
    (spaces ++ word ++ 0 :: more).takeWhile (· != 0) = spaces ++ word := by
  have hbytes : ∀ byte ∈ spaces ++ word, (byte != 0) = true := fun byte hbyte => bne_iff_ne.mpr fun h =>
    (List.mem_append.mp (h ▸ hbyte)).elim hspaces.not_mem hword.not_mem.2
  rw [List.takeWhile_append_of_pos hbytes, List.takeWhile_cons_of_neg (by decide), List.append_nil]

theorem string_closed (hspaces : Spaces spaces) (hword : Word word) (more : List UInt8) :
    (spaces ++ word ++ 32 :: more).takeWhile (· != 0) = spaces ++ word ++ 32 :: more.takeWhile (· != 0) := by
  have hbytes : ∀ byte ∈ spaces ++ word, (byte != 0) = true := fun byte hbyte => bne_iff_ne.mpr fun h =>
    (List.mem_append.mp (h ▸ hbyte)).elim hspaces.not_mem hword.not_mem.2
  rw [List.takeWhile_append_of_pos hbytes, List.takeWhile_cons_of_pos (by decide)]

/-! The three calls of `tokenize`, the last one first -/

/-- From the second word on: the third call ends in the payload exactly if the string or a word
does. -/
theorem run_third_token (before : List UInt8) (hmapped : content.length ≤ mapped) (vec : List (Option Nat)) :
    (0 ∉ content ∧ closed_words content = [] ∧
        (tokenize_rest mapped 1 before.length vec).run (before ++ content) = none) ∨
      ((0 ∈ content ∨ closed_words content ≠ []) ∧ ∃ third rest,
        (tokenize_rest mapped 1 before.length vec).run (before ++ content) =
          some ((vec.length + 1, vec ++ [third]), before ++ rest)) := by
  obtain ⟨spaces, word, hspaces, hword, rfl | ⟨more, rfl⟩ | ⟨hne, more, rfl⟩⟩ := strtok_cases content
  · left
    refine ⟨fun h => (List.mem_append.mp h).elim hspaces.not_mem hword.not_mem.2, closed_words_open hspaces hword, ?_⟩
    rw [tokenize_rest, Access.run_bind, ← List.append_assoc, run_strtok_open hspaces hword hmapped, Option.bind_none]
  · right
    refine ⟨.inl (by simp), ?_⟩
    by_cases hne : word = []
    · subst hne
      refine ⟨none, spaces ++ 0 :: more, ?_⟩
      rw [tokenize_rest, Access.run_bind, List.nil_append, ← List.append_assoc,
        run_strtok_blank hspaces (by simp at hmapped; omega), Option.bind_some, Access.run_pure, List.append_assoc]
    · refine ⟨some (before ++ spaces).length, spaces ++ word ++ 0 :: more, ?_⟩
      rw [tokenize_rest, Access.run_bind, ← List.append_assoc, ← List.append_assoc,
        run_strtok_ended hspaces hword hne (by simp at hmapped ⊢; omega), Option.bind_some]
      simp only [tokenize_rest, Access.run_pure, List.length_append, List.length_singleton, List.append_assoc]
  · right
    refine ⟨.inr (by rw [closed_words_closed hspaces hword hne]; exact List.cons_ne_nil _ _),
      some (before ++ spaces).length, spaces ++ word ++ 0 :: more, ?_⟩
    rw [tokenize_rest, Access.run_bind, ← List.append_assoc, ← List.append_assoc,
      run_strtok_closed hspaces hword hne (by simp at hmapped ⊢; omega), Option.bind_some]
    simp only [tokenize_rest, Access.run_pure, List.length_append, List.length_singleton, List.append_assoc]

theorem run_tokens_end (more : List UInt8) {slots : Nat} (hslots : 0 < slots) (vec : List (Option Nat)) :
    (tokenize_rest mapped slots before.length vec).run (before ++ 0 :: more) =
      some ((vec.length + 1, vec ++ [none]), before ++ 0 :: more) := by
  obtain ⟨slots, rfl⟩ := Nat.exists_eq_add_of_le' hslots
  rw [tokenize_rest, Access.run_bind, run_strtok_nul, Option.bind_some, Access.run_pure]

/-- How the second and third call go on behind the first token. -/
inductive SecondToken (mapped : Nat) (before content : List UInt8) (method : Option Nat) : Prop
  | left_memory (hunclosed : 0 ∉ content ∧ (closed_words content).length < 2)
      (hrun : (tokenize_rest mapped 2 before.length [method]).run (before ++ content) = none)
  | missing (hclosed : 0 ∈ content ∨ 2 ≤ (closed_words content).length)
      (hnone : strtok (content.takeWhile (· != 0)) = none) (memory : List UInt8)
      (hrun : (tokenize_rest mapped 2 before.length [method]).run (before ++ content) =
        some ((2, [method, none]), memory))
  | found (hclosed : 0 ∈ content ∨ 2 ≤ (closed_words content).length) (spaces url : List UInt8)
      (hurl : Word url) (hlength : (spaces ++ url).length < content.length) (left : cstring)
      (hsome : strtok (content.takeWhile (· != 0)) = some (url, left)) (third : Option Nat) (rest : List UInt8)
      (hrun : (tokenize_rest mapped 2 before.length [method]).run (before ++ content) =
        some ((3, [method, some (before ++ spaces).length, third]), before ++ spaces ++ url ++ 0 :: rest))

/-- The second call, for each way the words may go on. -/
theorem run_second_token (before : List UInt8) (hmapped : content.length ≤ mapped) (method : Option Nat) :
    SecondToken mapped before content method := by
  obtain ⟨spaces, word, hspaces, hword, rfl | ⟨more, rfl⟩ | ⟨hne, more, rfl⟩⟩ := strtok_cases content
  · refine .left_memory ⟨fun h => (List.mem_append.mp h).elim hspaces.not_mem hword.not_mem.2, ?_⟩ ?_
    · rw [closed_words_open hspaces hword]
      exact Nat.zero_lt_two
    · rw [tokenize_rest, Access.run_bind, ← List.append_assoc, run_strtok_open hspaces hword hmapped, Option.bind_none]
  · have hzero : 0 ∈ spaces ++ (word ++ 0 :: more) := by simp
    by_cases hne : word = []
    · subst hne
      have hstring := string_ended hspaces hword more
      rw [List.append_nil] at hstring
      refine .missing (.inl hzero) ?_ (before ++ spaces ++ 0 :: more) ?_
      · rw [List.nil_append, hstring, strtok_spaces hspaces]
      · rw [tokenize_rest, Access.run_bind, List.nil_append, ← List.append_assoc,
          run_strtok_blank hspaces (by simp at hmapped; omega), Option.bind_some, Access.run_pure]
        rfl
    · refine .found (.inl hzero) spaces word hword (by simp) [] ?_ none more ?_
      · rw [← List.append_assoc, string_ended hspaces hword, strtok_word hspaces hword hne]
      · rw [tokenize_rest, Access.run_bind, ← List.append_assoc, ← List.append_assoc,
          run_strtok_ended hspaces hword hne (by simp at hmapped ⊢; omega), Option.bind_some]
        exact run_tokens_end more Nat.one_pos _
  · have hbehind : before ++ spaces ++ word ++ 0 :: more = before ++ spaces ++ word ++ [0] ++ more := by simp
    have hstrtok : (tokenize_rest mapped 2 before.length [method]).run (before ++ (spaces ++ (word ++ 32 :: more))) =
        (tokenize_rest mapped 1 (before ++ spaces ++ word ++ [0]).length
          [method, some (before ++ spaces).length]).run (before ++ spaces ++ word ++ [0] ++ more) := by
      rw [tokenize_rest, Access.run_bind, ← List.append_assoc, ← List.append_assoc,
        run_strtok_closed hspaces hword hne (by simp at hmapped ⊢; omega), Option.bind_some, hbehind]
      rfl
    have hstring : strtok ((spaces ++ (word ++ 32 :: more)).takeWhile (· != 0)) =
        some (word, more.takeWhile (· != 0)) := by
      rw [← List.append_assoc, string_closed hspaces hword, strtok_closed hspaces hword hne]
    have hwords := closed_words_closed hspaces hword hne more
    have hmore : more.length ≤ mapped := by
      rw [List.length_append, List.length_append, List.length_cons] at hmapped
      omega
    obtain ⟨hunclosed, hnil, hrun⟩ | ⟨hclosed, third, rest, hrun⟩ :=
      run_third_token (before ++ spaces ++ word ++ [0]) hmore [method, some (before ++ spaces).length]
    · refine .left_memory ⟨?_, ?_⟩ (hstrtok.trans hrun)
      · simp [hspaces.not_mem, hword.not_mem.2, hunclosed]
      · rw [hwords, hnil]
        exact Nat.one_lt_two
    · refine .found ?_ spaces word hword (by simp) _ hstring third rest ?_
      · refine hclosed.imp (fun hzero => by simp [hzero]) fun hne => ?_
        rw [hwords, List.length_cons]
        exact Nat.succ_le_succ (List.length_pos_of_ne_nil hne)
      · rw [hstrtok, hrun]
        simp

/-- How the three calls end. -/
inductive Tokens (mapped : Nat) (payload : List UInt8) : Prop
  | left_memory (hunclosed : ¬ EndsInside payload) (hrun : (tokenize_memory mapped 0 3).run payload = none)
  | missing (hclosed : EndsInside payload) (hnone : tokenize (payload.takeWhile (· != 0)) = none)
      (vec : List (Option Nat)) (memory : List UInt8)
      (hrun : (tokenize_memory mapped 0 3).run payload = some ((2, vec), memory))
  | found (hclosed : EndsInside payload) (before method between url : List UInt8)
      (hmethod : 0 ∉ method) (hurl : 0 ∉ url) (hlength : url.length < payload.length)
      (hsome : tokenize (payload.takeWhile (· != 0)) = some (method, url)) (third : Option Nat) (rest : List UInt8)
      (hrun : (tokenize_memory mapped 0 3).run payload =
        some ((3, [some before.length, some (before ++ method ++ [0] ++ between).length, third]),
          before ++ method ++ [0] ++ between ++ url ++ 0 :: rest))

/-- The three calls, for each way the payload's words may end. -/
theorem run_tokens {payload : List UInt8} (hmapped : payload.length ≤ mapped) : Tokens mapped payload := by
  have hfirst {result : (Option Nat × Nat) × List UInt8}
      (hstrtok : (strtok_memory mapped 0).run payload = some result) :
      (tokenize_memory mapped 0 3).run payload = (tokenize_rest mapped 2 result.1.2 [result.1.1]).run result.2 := by
    rw [tokenize_memory, Access.run_bind, hstrtok]
    rfl
  obtain ⟨spaces, word, hspaces, hword, rfl | ⟨more, rfl⟩ | ⟨hne, more, rfl⟩⟩ := strtok_cases payload
  · have hstrtok := @run_strtok_open mapped [] spaces word hspaces hword hmapped
    refine .left_memory ?_ ?_
    · rw [EndsInside, closed_words_open hspaces hword]
      simp [hspaces.not_mem, hword.not_mem.2]
    · rw [tokenize_memory, Access.run_bind]
      exact congrArg (Option.bind · _) hstrtok
  · have hinside : (spaces ++ word).length < mapped := by
      rw [← List.append_assoc, List.length_append, List.length_cons] at hmapped
      omega
    have hclosed : EndsInside (spaces ++ (word ++ 0 :: more)) := .inl (by simp)
    have hstring : (spaces ++ (word ++ 0 :: more)).takeWhile (· != 0) = spaces ++ word := by
      rw [← List.append_assoc, string_ended hspaces hword]
    by_cases hne : word = []
    · subst hne
      rw [List.append_nil] at hinside
      have hstrtok := @run_strtok_blank mapped [] spaces hspaces hinside more
      refine .missing hclosed ?_ [none, none] (spaces ++ 0 :: more) ((hfirst hstrtok).trans ?_)
      · rw [hstring, List.append_nil, tokenize, strtok_spaces hspaces]
        rfl
      · exact run_tokens_end more Nat.two_pos _
    · have hstrtok : (strtok_memory mapped 0).run (spaces ++ (word ++ 0 :: more)) =
          some ((some spaces.length, (spaces ++ word).length), spaces ++ word ++ 0 :: more) := by
        rw [← List.append_assoc]
        exact @run_strtok_ended mapped [] spaces word hspaces hword hne hinside more
      refine .missing hclosed ?_ [some spaces.length, none] (spaces ++ word ++ 0 :: more) ((hfirst hstrtok).trans ?_)
      · rw [hstring, tokenize, strtok_word hspaces hword hne]
        rfl
      · exact run_tokens_end more Nat.two_pos _
  · have hinside : (spaces ++ word).length < mapped := by
      rw [← List.append_assoc, List.length_append, List.length_cons] at hmapped
      omega
    have hmore : more.length ≤ mapped := by
      rw [List.length_append, List.length_append, List.length_cons] at hmapped
      omega
    have hstrtok : (strtok_memory mapped 0).run (spaces ++ (word ++ 32 :: more)) =
        some ((some spaces.length, (spaces ++ word ++ [0]).length), spaces ++ word ++ [0] ++ more) := by
      rw [← List.append_assoc, List.append_assoc (spaces ++ word) [0]]
      exact @run_strtok_closed mapped [] spaces word hspaces hword hne hinside more
    have hends : EndsInside (spaces ++ (word ++ 32 :: more)) ↔ 0 ∈ more ∨ 2 ≤ (closed_words more).length := by
      rw [EndsInside, closed_words_closed hspaces hword hne, List.length_cons]
      simp [hspaces.not_mem, hword.not_mem.2]
    have htokenize : tokenize ((spaces ++ (word ++ 32 :: more)).takeWhile (· != 0)) =
        (strtok (more.takeWhile (· != 0))).bind fun second => some (word, second.1) := by
      rw [← List.append_assoc, string_closed hspaces hword, tokenize, strtok_closed hspaces hword hne]
      rfl
    cases run_second_token (spaces ++ word ++ [0]) hmore (some spaces.length) with
    | left_memory hunclosed hrun =>
      refine .left_memory ?_ ((hfirst hstrtok).trans hrun)
      rw [hends, not_or, Nat.not_le]
      exact hunclosed
    | missing hclosed hnone memory hrun =>
      refine .missing (hends.mpr hclosed) ?_ _ memory ((hfirst hstrtok).trans hrun)
      rw [htokenize, hnone]
      rfl
    | found hclosed between url hurl hlength left hsome third rest hrun =>
      refine .found (hends.mpr hclosed) spaces word between url hword.not_mem.2 hurl.not_mem.2 ?_ ?_ third rest
        ((hfirst hstrtok).trans hrun)
      · rw [List.length_append] at hlength ⊢
        rw [List.length_append, List.length_cons]
        omega
      · rw [htokenize, hsome]
        rfl

/-! The rest of the parser, on memory in which the two tokens are strings -/

/-- Strings are compared in place as they are as lists. -/
theorem run_strcasecmp {constant : cstring} (hconstant : 0 ∉ constant) (hword : 0 ∉ word) (more : List UInt8) :
    (strcasecmp_memory before.length constant).run (before ++ word ++ 0 :: more) =
      some (strcasecmp_eq word constant, before ++ word ++ 0 :: more) := by
  induction constant generalizing before word with
  | nil =>
    cases word with
    | nil => simp [strcasecmp_memory, strcasecmp_eq]
    | cons byte word =>
      have hbyte : byte ≠ 0 := fun h => hword (h ▸ List.mem_cons_self)
      simp [strcasecmp_memory, strcasecmp_eq, hbyte]
  | cons expected constant ih =>
    cases word with
    | nil => simp [strcasecmp_memory, strcasecmp_eq]
    | cons byte word =>
      have hbyte : byte ≠ 0 := fun h => hword (h ▸ List.mem_cons_self)
      have hnext := @ih (before ++ [byte]) word (fun h => hconstant (List.mem_cons_of_mem _ h))
        (fun h => hword (List.mem_cons_of_mem _ h))
      rw [List.length_append, List.length_singleton, ← List.append_cons] at hnext
      have hload : (access8 before.length).run (before ++ byte :: word ++ 0 :: more) =
          some (byte, before ++ byte :: word ++ 0 :: more) := by simp
      rw [strcasecmp_memory, Access.run_bind, hload, Option.bind_some]
      by_cases hsame : tolower byte = tolower expected
      · rw [if_pos ⟨hbyte, hsame⟩, hnext]
        simp [strcasecmp_eq, hsame]
      · rw [if_neg fun h => hsame h.2]
        simp [strcasecmp_eq, hsame]

/-- The URL as it is added. -/
def added_url (url : cstring) : cstring := if MAX_URL < url.length then url.take (MAX_URL - 1) else url

/-- A long URL is cut in place. -/
theorem run_cut_url {url : List UInt8} (hurl : 0 ∉ url) (hmapped : url.length < mapped) (hint : url.length < 2 ^ 31)
    (rest : List UInt8) :
    ∃ rest', (cut_url mapped before.length).run (before ++ url ++ 0 :: rest) =
      some ((), before ++ added_url url ++ 0 :: rest') := by
  have hbytes : ∀ byte ∈ url, (byte != 0) = true := fun byte hbyte => bne_iff_ne.mpr fun h => hurl (h ▸ hbyte)
  have hlength : (before ++ url).length - before.length = url.length := by
    rw [List.length_append, Nat.add_sub_cancel_left]
  have hlong : Int32.ofNat MAX_URL < Int32.ofNat url.length ↔ MAX_URL < url.length := by
    rw [Int32.lt_iff_toInt_lt, Int32.toInt_ofNat_of_lt (by decide), Int32.toInt_ofNat_of_lt hint]
    exact Int.ofNat_lt
  rw [cut_url, Access.run_bind, run_skip hbytes (by decide) hmapped, Option.bind_some]
  simp only [hlength, hlong]
  by_cases hcut : MAX_URL < url.length
  · have hkept : (url.take (MAX_URL - 1)).length = MAX_URL - 1 := List.length_take_of_le (by omega)
    obtain ⟨byte, tail, hdrop⟩ : ∃ byte tail, url.drop (MAX_URL - 1) = byte :: tail :=
      List.exists_cons_of_ne_nil (by simp [MAX_URL] at hcut ⊢; omega)
    have hsplit : before ++ url ++ 0 :: rest = before ++ url.take (MAX_URL - 1) ++ byte :: (tail ++ 0 :: rest) := by
      conv_lhs => rw [← List.take_append_drop (MAX_URL - 1) url, hdrop]
      simp
    have haddress : before.length + MAX_URL - 1 = (before ++ url.take (MAX_URL - 1)).length := by
      rw [List.length_append, hkept]
      rfl
    refine ⟨tail ++ 0 :: rest, ?_⟩
    rw [if_pos hcut, hsplit, haddress, run_store8, added_url, if_pos hcut]
  · exact ⟨rest, by rw [if_neg hcut, Access.run_pure, added_url, if_neg hcut]⟩

theorem zero_not_mem_added_url {url : cstring} (hurl : 0 ∉ url) : 0 ∉ added_url url := by
  unfold added_url
  split
  · exact fun hmem => hurl (List.mem_of_mem_take hmem)
  · exact hurl

theorem added_url_length_le (url : cstring) : (added_url url).length ≤ url.length := by
  unfold added_url
  split
  · exact List.length_take_le' _ _
  · exact le_refl _

variable {payload : List UInt8} {len : Int32}

/-- The parser in memory that ends where its tokens are asked for does what the
parser of the string does, and leaves any shorter memory. -/
theorem run_process_http_packet (s : Session) (hpositive : 0 < len) (hint : payload.length < 2 ^ 31)
    (hmapped : payload.length ≤ mapped) (table : http_table_t) (flow_id : UInt16) :
    (¬ EndsInside payload ∧ (process_http_packet_memory s mapped len table flow_id).run payload = none) ∨
      EndsInside payload ∧ ∃ memory, (process_http_packet_memory s mapped len table flow_id).run payload =
        some (process_http_packet s payload len.toInt table flow_id, memory) := by
  have hnot : ¬ len ≤ 0 := Int32.not_le.mpr hpositive
  have hnot' : ¬ len.toInt ≤ 0 := not_le.mpr (Int32.lt_iff_toInt_lt.mp hpositive)
  rw [process_http_packet_memory, if_neg hnot, Access.run_bind, process_http_packet, if_neg hnot']
  cases run_tokens hmapped with
  | left_memory hunclosed hrun =>
    left
    rw [hrun]
    exact ⟨hunclosed, rfl⟩
  | missing hclosed hnone vec memory hrun =>
    right
    rw [hrun, hnone]
    exact ⟨hclosed, memory, rfl⟩
  | found hclosed before method between url hmethod hurl hlength hsome third rest hrun =>
    right
    refine ⟨hclosed, ?_⟩
    rw [hrun, hsome, Option.bind_some]
    simp only
    have hget : (strcasecmp_memory before.length [71, 69, 84]).run
        (before ++ method ++ [0] ++ between ++ url ++ 0 :: rest) =
          some (strcasecmp_eq method [71, 69, 84], before ++ method ++ [0] ++ between ++ url ++ 0 :: rest) := by
      have hget := @run_strcasecmp before method [71, 69, 84] (by decide) hmethod (between ++ url ++ 0 :: rest)
      simpa using hget
    rw [Access.run_bind, hget, Option.bind_some]
    by_cases hmatches : strcasecmp_eq method [71, 69, 84] = true
    · obtain ⟨rest', hcut⟩ :=
        @run_cut_url mapped (before ++ method ++ [0] ++ between) url hurl (by omega) (by omega) rest
      simp only [hmatches, Bool.not_true, Bool.false_eq_true, if_false, if_true, Access.run_bind, hcut,
        Option.bind_some]
      refine ⟨before ++ method ++ [0] ++ between ++ added_url url ++ 0 :: rest', ?_⟩
      split
      · rfl
      · have hbound := added_url_length_le url
        rw [Access.run_bind, run_access_string (zero_not_mem_added_url hurl) (by omega)]
        simp only [Option.bind_some, Access.run_pure, added_url]
        cases add_url s table flow_id (if MAX_URL < url.length then List.take (MAX_URL - 1) url else url) <;> rfl
    · exact ⟨before ++ method ++ [0] ++ between ++ url ++ 0 :: rest, by simp [hmatches]⟩

/-- The call gives the same result with any two contents of the memory behind
the payload, and loads and stores no byte there. -/
def UsesOnlyPayload (s : Session) (payload : List UInt8) (len : Int32) (table : http_table_t) (flow_id : UInt16) :
    Prop :=
  ∀ behind behind' : List UInt8,
    (process_http_packet_memory s (payload ++ behind).length len table flow_id).Within payload.length
        (payload ++ behind) ∧
      ((process_http_packet_memory s (payload ++ behind).length len table flow_id).run
          (payload ++ behind)).map Prod.fst =
        ((process_http_packet_memory s (payload ++ behind').length len table flow_id).run
          (payload ++ behind')).map Prod.fst

/-- Only the payload is used exactly if there is a zero byte in it or three of
its words are followed by a space. -/
theorem uses_only_payload_iff (s : Session) (hpositive : 0 < len) (hlen : len.toInt = payload.length)
    (table : http_table_t) (flow_id : UInt16) :
    UsesOnlyPayload s payload len table flow_id ↔ EndsInside payload := by
  have hint : payload.length < 2 ^ 31 := by
    have hbound := len.toInt_lt
    omega
  have hmapped (behind : List UInt8) : payload.length ≤ (payload ++ behind).length := by
    rw [List.length_append]
    exact Nat.le_add_right _ _
  constructor
  · intro honly
    obtain ⟨-, hrun⟩ | ⟨hends, -⟩ := run_process_http_packet s hpositive hint (hmapped []) table flow_id
    · have hsome := (Access.within_iff_run _ _ _).mp (honly [] []).1
      rw [hrun] at hsome
      cases hsome
    · exact hends
  · intro hends
    have hresult (behind : List UInt8) :
        (process_http_packet_memory s (payload ++ behind).length len table flow_id).Within payload.length
            (payload ++ behind) ∧
          ((process_http_packet_memory s (payload ++ behind).length len table flow_id).run
            (payload ++ behind)).map Prod.fst = some (process_http_packet s payload len.toInt table flow_id) := by
      obtain ⟨hnot, -⟩ | ⟨-, memory, hrun⟩ :=
        run_process_http_packet s hpositive hint (hmapped behind) table flow_id
      · exact absurd hends hnot
      · refine ⟨(Access.within_iff_run _ _ _).mpr (Option.isSome_iff_exists.mpr ⟨_, hrun⟩), ?_⟩
        rw [Access.run_append hrun]
        rfl
    exact fun behind behind' => ⟨(hresult behind).1, (hresult behind).2.trans (hresult behind').2.symm⟩

/-- `"GET /a H/1 "` -/
def finished_request : List UInt8 := [71, 69, 84, 32, 47, 97, 32, 72, 47, 49, 32]

theorem uses_only_payload_iff_finished :
    UsesOnlyPayload anonymizing_session finished_request 11 http_table_init 7 ↔ EndsInside finished_request :=
  uses_only_payload_iff anonymizing_session (by decide) (by decide) http_table_init 7

/-- `"GET /a"`, the start of a request line -/
def unfinished_request : List UInt8 := [71, 69, 84, 32, 47, 97]

/-- The digest of `"/a"` under a seed of zeros. -/
def short_url_digest : digest_t :=
  #v[217, 44, 81, 246, 48, 65, 112, 22, 255, 10, 20, 63, 43, 105, 77, 233, 126, 122, 186, 160]

/-- The digest of `"/ab"` under a seed of zeros. -/
def long_url_digest : digest_t :=
  #v[161, 123, 32, 37, 215, 251, 10, 200, 79, 61, 81, 229, 166, 210, 219, 37, 58, 118, 200, 39]

def two_urls_session : Session :=
  { anonymizing_session with
    externals :=
      { anonymizing_session.externals with
        sha1_hmac := fun _ url => if url = [47, 97] then short_url_digest else long_url_digest }
    anonymization :=
      { anonymizing_session.anonymization with seed := List.replicate ANONYMIZATION_SEED_LEN 0 } }

/-- What is behind the payload becomes part of the URL. -/
theorem unfinished_request_reads_on :
    ((process_http_packet_memory two_urls_session 7 6 http_table_init 7).run (unfinished_request ++ [0])).map
        (fun result => result.1.map fun added => added.2.entries.items) =
      some (some [⟨7, short_url_digest.toList⟩]) ∧
    ((process_http_packet_memory two_urls_session 8 6 http_table_init 7).run (unfinished_request ++ [98, 0])).map
        (fun result => result.1.map fun added => added.2.entries.items) =
      some (some [⟨7, long_url_digest.toList⟩]) ∧
    ¬ UsesOnlyPayload two_urls_session unfinished_request 6 http_table_init 7 := by
  refine ⟨by decide, by decide, fun honly => ?_⟩
  have hends : EndsInside unfinished_request := by
    obtain ⟨-, hrun⟩ | ⟨hends, -⟩ := @run_process_http_packet 6 unfinished_request 6 two_urls_session
      (by decide) (by decide) (by decide) http_table_init 7
    · have hsome := (Access.within_iff_run _ _ _).mp (honly [] []).1
      rw [List.append_nil] at hsome
      rw [show unfinished_request.length = 6 from rfl, hrun] at hsome
      cases hsome
    · exact hends
  exact absurd hends (by decide)

end bismark_passive.http
