import Mathlib.Data.Int.Order.Basic
import Mathlib.Data.List.TakeWhile

namespace text

/-! Conversions of formatted input, in the C locale -/

def isspace (byte : UInt8) : Bool := byte == 32 || (decide (9 ≤ byte) && decide (byte ≤ 13))

def isdigit (byte : UInt8) : Bool := decide (48 ≤ byte) && decide (byte ≤ 57)

/-- What `%d` converts: digits behind an optional sign. -/
structure integer where
  negative : Bool
  digits : List UInt8
  deriving DecidableEq

def integer.magnitude (literal : integer) : Nat :=
  literal.digits.foldl (fun value byte => 10 * value + (byte.toNat - 48)) 0

def integer.value (literal : integer) : Int :=
  if literal.negative then -literal.magnitude else literal.magnitude

/-- Whether there is a minus sign, and what is behind the sign. -/
def scan_sign : List UInt8 → Bool × List UInt8
  | 45 :: rest => (true, rest)
  | 43 :: rest => (false, rest)
  | body => (false, body)

/-- `%d` and what it leaves of the text. A sign without digits is consumed. -/
def scan_int (text : List UInt8) : Option integer × List UInt8 :=
  let (negative, unsigned) := scan_sign (text.dropWhile isspace)
  let digits := unsigned.takeWhile isdigit
  (if digits = [] then none else some ⟨negative, digits⟩, unsigned.dropWhile isdigit)

/-- `%s` with a width and what it leaves of the text. -/
def scan_string (width : Nat) (text : List UInt8) : Option (List UInt8) × List UInt8 :=
  let body := text.dropWhile isspace
  let token := (body.takeWhile (!isspace ·)).take width
  (if body = [] then none else some token, body.drop token.length)

/-! Tokens of a text, which whitespace separates -/

/-- A token can start behind this text. -/
def boundary (before : List UInt8) : Bool := before.getLast?.all isspace

/-- The integer directly behind the word that the text starts with. -/
def integer_at (word text : List UInt8) : Option Int :=
  let behind := text.drop word.length
  if word <+: text ∧ behind.head?.any isspace = true then (scan_int behind).1.map integer.value else none

/-- The integer directly behind the first token that is the word and has one.
The flag says whether a token can start where the text starts. -/
def integer_behind (word : List UInt8) : Bool → List UInt8 → Option Int
  | _, [] => none
  | starts, byte :: rest =>
    (if starts then integer_at word (byte :: rest) else none) <|> integer_behind word (isspace byte) rest

variable {word before skipped token rest : List UInt8}

@[simp] theorem boundary_snoc (before : List UInt8) (byte : UInt8) : boundary (before ++ [byte]) = isspace byte := by
  simp [boundary]

/-- The word does not start with anything that separates tokens or can belong
to an integer. -/
def Apart (word : List UInt8) : Prop :=
  ∀ byte ∈ word.head?, isspace byte = false ∧ isdigit byte = false ∧ byte ≠ 45 ∧ byte ≠ 43

theorem integer_at_none {byte : UInt8} (hbyte : byte ∉ word.head?) (hword : word ≠ []) :
    integer_at word (byte :: rest) = none := by
  obtain ⟨first, word, rfl⟩ := List.exists_cons_of_ne_nil hword
  rw [integer_at, if_neg]
  rintro ⟨hstarts, -⟩
  obtain ⟨heq, -⟩ := List.cons_prefix_cons.mp hstarts
  exact hbyte (heq ▸ rfl)

/-- Where the word cannot start nothing is found. -/
theorem integer_behind_skip (hword : word ≠ []) (hskipped : ∀ byte ∈ skipped, byte ∉ word.head?)
    (before rest : List UInt8) :
    integer_behind word (boundary before) (skipped ++ rest) =
      integer_behind word (boundary (before ++ skipped)) rest := by
  induction skipped generalizing before with
  | nil => rw [List.nil_append, List.append_nil]
  | cons byte skipped ih =>
    obtain ⟨hbyte, hmore⟩ := List.forall_mem_cons.mp hskipped
    rw [List.cons_append, integer_behind, integer_at_none hbyte hword, ite_self, List.append_cons, ← ih hmore,
      boundary_snoc]
    rfl

/-- Behind the start of a token no other token starts in it. -/
theorem integer_behind_token (htoken : ∀ byte ∈ token, isspace byte = false) (before rest : List UInt8)
    (hnone : integer_at word (token ++ rest) = none) (hne : token ≠ []) :
    integer_behind word (boundary before) (token ++ rest) = integer_behind word (boundary (before ++ token)) rest := by
  have hinside (skipped before : List UInt8) (hskipped : ∀ byte ∈ skipped, isspace byte = false)
      (hbefore : boundary before = false) :
      integer_behind word (boundary before) (skipped ++ rest) =
        integer_behind word (boundary (before ++ skipped)) rest := by
    induction skipped generalizing before with
    | nil => rw [List.nil_append, List.append_nil]
    | cons byte skipped ih =>
      obtain ⟨hbyte, hmore⟩ := List.forall_mem_cons.mp hskipped
      rw [List.cons_append, hbefore, integer_behind, if_neg Bool.false_ne_true, List.append_cons,
        ← ih (before ++ [byte]) hmore (by rw [boundary_snoc, hbyte]), boundary_snoc]
      rfl
  obtain ⟨first, token, rfl⟩ := List.exists_cons_of_ne_nil hne
  obtain ⟨hfirst, hmore⟩ := List.forall_mem_cons.mp htoken
  rw [List.cons_append] at hnone ⊢
  rw [integer_behind, hnone, ite_self, List.append_cons, ← hinside token _ hmore (by rw [boundary_snoc, hfirst]),
    boundary_snoc]
  rfl

/-! What the conversions consume -/

/-- The forms in which an integer is written. -/
inductive Written : List UInt8 → integer → Prop
  | unsigned (digits : List UInt8) : Written digits ⟨false, digits⟩
  | plus (digits : List UInt8) : Written (43 :: digits) ⟨false, digits⟩
  | minus (digits : List UInt8) : Written (45 :: digits) ⟨true, digits⟩

/-- The word is a token of the text, and directly behind it follows the integer. -/
def ContainsInteger (word text : List UInt8) (value : Int) : Prop :=
  ∃ before spaces written literal behind, text = before ++ word ++ spaces ++ written ++ behind ∧
    boundary before = true ∧ spaces ≠ [] ∧ (∀ byte ∈ spaces, isspace byte = true) ∧ Written written literal ∧
    literal.digits ≠ [] ∧ (∀ byte ∈ literal.digits, isdigit byte = true) ∧
    behind.head?.all (!isdigit ·) = true ∧ literal.value = value

theorem head_dropWhile_not (passes : UInt8 → Bool) (text : List UInt8) :
    (text.dropWhile passes).head?.all (!passes ·) = true := by
  have hhead := List.head?_dropWhile_not (p := passes) text
  cases hdrop : text.dropWhile passes with
  | nil => rfl
  | cons byte rest => simpa [hdrop] using hhead

theorem scan_sign_written (body : List UInt8) :
    ∃ sign, body = sign ++ (scan_sign body).2 ∧ ∀ digits, Written (sign ++ digits) ⟨(scan_sign body).1, digits⟩ := by
  unfold scan_sign
  split
  · exact ⟨[45], rfl, Written.minus⟩
  · exact ⟨[43], rfl, Written.plus⟩
  · exact ⟨[], rfl, Written.unsigned⟩

/-- Spaces, a sign and digits are all that `%d` consumes. -/
theorem scan_int_cases (text : List UInt8) :
    ∃ written literal, text = text.takeWhile isspace ++ written ++ (scan_int text).2 ∧ Written written literal ∧
      (∀ byte ∈ literal.digits, isdigit byte = true) ∧ (scan_int text).2.head?.all (!isdigit ·) = true ∧
      (scan_int text).1 = if literal.digits = [] then none else some literal := by
  obtain ⟨sign, hsign, hwritten⟩ := scan_sign_written (text.dropWhile isspace)
  refine ⟨sign ++ (scan_sign (text.dropWhile isspace)).2.takeWhile isdigit, _, ?_, hwritten _,
    fun _ => List.mem_takeWhile_imp, head_dropWhile_not _ _, rfl⟩
  have hdigits : (scan_sign (text.dropWhile isspace)).2.takeWhile isdigit ++ (scan_int text).2 =
      (scan_sign (text.dropWhile isspace)).2 := List.takeWhile_append_dropWhile
  rw [List.append_assoc, List.append_assoc, hdigits, ← hsign, List.takeWhile_append_dropWhile]

/-- An integer is written in digits and a sign. -/
theorem Written.mem {written : List UInt8} {literal : integer} (h : Written written literal)
    (hdigits : ∀ byte ∈ literal.digits, isdigit byte = true) :
    ∀ byte ∈ written, isdigit byte = true ∨ byte = 45 ∨ byte = 43 := by
  intro byte hbyte
  cases h with
  | unsigned digits => exact .inl (hdigits byte hbyte)
  | plus digits =>
    obtain rfl | hbyte := List.mem_cons.mp hbyte
    · exact .inr (.inr rfl)
    · exact .inl (hdigits byte hbyte)
  | minus digits =>
    obtain rfl | hbyte := List.mem_cons.mp hbyte
    · exact .inr (.inl rfl)
    · exact .inl (hdigits byte hbyte)

/-- No word starts in what `%d` consumes. -/
theorem scan_int_consumed (hapart : Apart word) (text : List UInt8) :
    ∃ consumed, text = consumed ++ (scan_int text).2 ∧ ∀ byte ∈ consumed, byte ∉ word.head? := by
  obtain ⟨written, literal, htext, hwritten, hdigits, -⟩ := scan_int_cases text
  refine ⟨text.takeWhile isspace ++ written, htext, fun byte hbyte hhead => ?_⟩
  obtain ⟨hspace, hdigit, hminus, hplus⟩ := hapart byte hhead
  obtain hbyte | hbyte := List.mem_append.mp hbyte
  · rw [List.mem_takeWhile_imp hbyte] at hspace
    cases hspace
  · obtain h | h | h := hwritten.mem hdigits byte hbyte
    · rw [h] at hdigit
      cases hdigit
    · exact hminus h
    · exact hplus h

/-- What `%s` finds: spaces and nothing else, or a token behind them that ends
before a space or at its width. -/
theorem scan_string_cases {width : Nat} (hwidth : 0 < width) (text : List UInt8) :
    ((∀ byte ∈ text, isspace byte = true) ∧ scan_string width text = (none, [])) ∨
      ∃ token rest, text = text.takeWhile isspace ++ (token ++ rest) ∧ token ≠ [] ∧
        (∀ byte ∈ token, isspace byte = false) ∧ (token.length = width ∨ rest.head?.all isspace = true) ∧
        scan_string width text = (some token, rest) := by
  have hsplit : text.takeWhile isspace ++ text.dropWhile isspace = text := List.takeWhile_append_dropWhile
  have hhead := head_dropWhile_not isspace text
  unfold scan_string
  cases hbody : text.dropWhile isspace with
  | nil => exact .inl ⟨List.dropWhile_eq_nil_iff.mp hbody, by simp⟩
  | cons byte body =>
    rw [hbody] at hsplit hhead
    have hbyte : isspace byte = false := by simpa using hhead
    have hword : ((byte :: body).takeWhile (!isspace ·)).take width <+: byte :: body :=
      (List.take_prefix _ _).trans (List.takeWhile_prefix _)
    refine .inr ⟨((byte :: body).takeWhile (!isspace ·)).take width,
      (byte :: body).drop (((byte :: body).takeWhile (!isspace ·)).take width).length, ?_, ?_, ?_, ?_, rfl⟩
    · conv_lhs => rw [← hsplit, ← List.take_append_drop (((byte :: body).takeWhile (!isspace ·)).take width).length
        (byte :: body)]
      rw [← List.prefix_iff_eq_take.mp hword]
    · obtain ⟨width, rfl⟩ := Nat.exists_eq_add_of_le' hwidth
      rw [List.takeWhile_cons_of_pos (by rw [hbyte]; rfl), List.take_succ_cons]
      exact List.cons_ne_nil _ _
    · intro other hother
      simpa using List.mem_takeWhile_imp (List.mem_of_mem_take hother)
    · by_cases hlong : width ≤ ((byte :: body).takeWhile (!isspace ·)).length
      · exact .inl (List.length_take_of_le hlong)
      · right
        rw [List.take_of_length_le (Nat.le_of_not_le hlong)]
        have hrest : (byte :: body).drop ((byte :: body).takeWhile (!isspace ·)).length =
            (byte :: body).dropWhile (!isspace ·) := by
          conv_lhs => rw [← List.takeWhile_append_dropWhile (p := (!isspace ·)) (l := byte :: body)]
          exact List.drop_left' (by rw [List.takeWhile_append_dropWhile])
        rw [hrest]
        simpa using head_dropWhile_not (!isspace ·) (byte :: body)

/-! What is behind a word -/

/-- An integer that is found behind a boundary is contained in the text. -/
theorem integer_at_contains {text : List UInt8} {value : Int} (hbefore : boundary before = true)
    (h : integer_at word text = some value) : ContainsInteger word (before ++ text) value := by
  rw [integer_at] at h
  split at h
  · rename_i hfound
    obtain ⟨hstarts, hspace⟩ := hfound
    obtain ⟨behind, rfl⟩ := hstarts
    rw [List.drop_left] at h hspace
    obtain ⟨written, literal, hbehind, hwritten, hdigits, hend, hscanned⟩ := scan_int_cases behind
    obtain ⟨scanned, hsome, hvalue⟩ := Option.map_eq_some_iff.mp h
    rw [hscanned] at hsome
    split at hsome
    · cases hsome
    · rename_i hne
      rw [Option.some.injEq] at hsome
      refine ⟨before, behind.takeWhile isspace, written, literal, (scan_int behind).2, ?_, hbefore, ?_,
        fun _ => List.mem_takeWhile_imp, hwritten, hne, hdigits, hend, hsome ▸ hvalue⟩
      · conv_lhs => rw [hbehind]
        simp only [List.append_assoc]
      · cases behind with
        | nil => simp at hspace
        | cons byte behind =>
          rw [List.takeWhile_cons_of_pos (by simpa using hspace)]
          exact List.cons_ne_nil _ _
  · cases h

/-- What is found is in the text. -/
theorem integer_behind_contains {text : List UInt8} {value : Int}
    (h : integer_behind word (boundary before) text = some value) : ContainsInteger word (before ++ text) value := by
  induction text generalizing before with
  | nil => cases h
  | cons byte text ih =>
    rw [integer_behind] at h
    cases hhere : (if boundary before = true then integer_at word (byte :: text) else none) with
    | some found =>
      rw [hhere] at h
      obtain rfl := Option.some.inj h
      split at hhere
      · exact integer_at_contains ‹_› hhere
      · cases hhere
    | none =>
      rw [hhere, ← boundary_snoc before byte] at h
      rw [List.append_cons]
      exact ih h

/-- The word at a place where a token can start. -/
theorem integer_behind_here {behind : List UInt8} {literal : integer} (hbefore : boundary before = true)
    (hword : word ≠ []) (hspace : behind.head?.any isspace = true) (hscanned : (scan_int behind).1 = some literal) :
    integer_behind word (boundary before) (word ++ behind) = some literal.value := by
  have hat : integer_at word (word ++ behind) = some literal.value := by
    rw [integer_at, List.drop_left, if_pos ⟨List.prefix_append _ _, hspace⟩, hscanned]
    rfl
  obtain ⟨first, word, rfl⟩ := List.exists_cons_of_ne_nil hword
  rw [List.cons_append] at hat ⊢
  rw [integer_behind, hbefore, if_pos rfl, hat]
  rfl

/-- A digit is neither white space nor a sign. -/
theorem not_space_of_digit {byte : UInt8} (h : isdigit byte = true) :
    isspace byte = false ∧ ∀ rest, scan_sign (byte :: rest) = (false, byte :: rest) := by
  rw [isdigit, Bool.and_eq_true, decide_eq_true_iff, decide_eq_true_iff, UInt8.le_iff_toNat_le,
    UInt8.le_iff_toNat_le] at h
  have hlow : 48 ≤ byte.toNat := h.1
  have hother (other : UInt8) (hlt : other.toNat < 48) : byte ≠ other := by
    rintro rfl
    omega
  refine ⟨?_, fun rest => ?_⟩
  · have hpast : ¬ byte ≤ 13 := by
      rw [UInt8.le_iff_toNat_le]
      exact fun hle => absurd (hlow.trans hle) (by decide)
    simp [isspace, hother 32 (by decide), hpast]
  · unfold scan_sign
    split
    · rename_i heq
      exact absurd (List.cons.inj heq).1 (hother 45 (by decide))
    · rename_i heq
      exact absurd (List.cons.inj heq).1 (hother 43 (by decide))
    · rfl

/-- What is written as an integer is read as it. -/
theorem scan_int_written {spaces written behind : List UInt8} {literal : integer}
    (hspaces : ∀ byte ∈ spaces, isspace byte = true) (hwritten : Written written literal) (hne : literal.digits ≠ [])
    (hdigits : ∀ byte ∈ literal.digits, isdigit byte = true) (hbehind : behind.head?.all (!isdigit ·) = true) :
    scan_int (spaces ++ (written ++ behind)) = (some literal, behind) := by
  obtain ⟨digit, digits, hcons⟩ := List.exists_cons_of_ne_nil hne
  have hdigit : isdigit digit = true := hdigits digit (hcons ▸ List.mem_cons_self)
  obtain ⟨hspace, hsign⟩ := not_space_of_digit hdigit
  have hbody : (spaces ++ (written ++ behind)).dropWhile isspace = written ++ behind ∧
      scan_sign (written ++ behind) = (literal.negative, literal.digits ++ behind) := by
    rw [List.dropWhile_append_of_pos hspaces]
    cases hwritten with
    | plus => exact ⟨List.dropWhile_cons_of_neg (by decide), rfl⟩
    | minus => exact ⟨List.dropWhile_cons_of_neg (by decide), rfl⟩
    | unsigned =>
      subst hcons
      exact ⟨List.dropWhile_cons_of_neg (by simp [hspace]), hsign _⟩
  have hread : (literal.digits ++ behind).takeWhile isdigit = literal.digits ∧
      (literal.digits ++ behind).dropWhile isdigit = behind := by
    rw [List.takeWhile_append_of_pos hdigits, List.dropWhile_append_of_pos hdigits]
    cases behind with
    | nil => exact ⟨List.append_nil _, rfl⟩
    | cons byte behind =>
      have hbyte : ¬ isdigit byte = true := by simpa using hbehind
      rw [List.takeWhile_cons_of_neg hbyte, List.dropWhile_cons_of_neg hbyte, List.append_nil]
      exact ⟨rfl, rfl⟩
  simp only [scan_int, hbody.1, hbody.2, hread, if_neg hne]

/-- A token that fits is read whole. -/
theorem scan_string_token {width : Nat} (hne : token ≠ []) (htoken : ∀ byte ∈ token, isspace byte = false)
    (hwidth : token.length ≤ width) (hrest : rest.head?.any isspace = true) :
    scan_string width (token ++ rest) = (some token, rest) := by
  obtain ⟨first, token, rfl⟩ := List.exists_cons_of_ne_nil hne
  obtain ⟨space, rest, rfl⟩ := List.exists_cons_of_ne_nil (l := rest) (by rintro rfl; cases hrest)
  have hfirst : ¬ isspace first = true := by simp [htoken first List.mem_cons_self]
  have hstop : (space :: rest).takeWhile (!isspace ·) = [] := List.takeWhile_cons_of_neg (by simpa using hrest)
  have hbody : (first :: token ++ space :: rest).dropWhile isspace = first :: token ++ space :: rest :=
    List.dropWhile_cons_of_neg hfirst
  have hread : (first :: token ++ space :: rest).takeWhile (!isspace ·) = first :: token := by
    rw [List.takeWhile_append_of_pos fun byte hbyte => by rw [htoken byte hbyte]; rfl, hstop, List.append_nil]
  simp only [scan_string, hbody, hread, List.take_of_length_le hwidth, List.drop_left]
  rfl

/-- An integer that is contained in the text is found. -/
theorem integer_behind_found {text : List UInt8} {value : Int} (hat : integer_at word text = some value)
    (hne : text ≠ []) (hbefore : boundary before = true) {starts : Bool} (hstarts : before = [] → starts = true) :
    ∃ found, integer_behind word starts (before ++ text) = some found := by
  induction before generalizing starts with
  | nil =>
    obtain ⟨byte, text, rfl⟩ := List.exists_cons_of_ne_nil hne
    exact ⟨value, by rw [List.nil_append, integer_behind, if_pos (hstarts rfl), hat]; rfl⟩
  | cons byte before ih =>
    rw [List.cons_append, integer_behind]
    cases hhere : (if starts = true then integer_at word (byte :: (before ++ text)) else none) with
    | some found => exact ⟨found, rfl⟩
    | none =>
      cases before with
      | nil => exact ih rfl fun _ => hbefore
      | cons next before => exact ih hbefore fun h => nomatch h

/-- In a text with such a token one is found. -/
theorem integer_behind_of_contains {text : List UInt8} {value : Int} (h : ContainsInteger word text value) :
    ∃ found, integer_behind word true text = some found := by
  obtain ⟨before, spaces, written, literal, behind, rfl, hbefore, hne, hspaces, hwritten, hdigits, hall, hend, -⟩ := h
  have hread := scan_int_written hspaces hwritten hdigits hall hend
  have hspace : (spaces ++ (written ++ behind)).head?.any isspace = true := by
    obtain ⟨byte, spaces, rfl⟩ := List.exists_cons_of_ne_nil hne
    exact hspaces byte List.mem_cons_self
  have hat : integer_at word (word ++ (spaces ++ (written ++ behind))) = some literal.value := by
    rw [integer_at, List.drop_left, if_pos ⟨List.prefix_append _ _, hspace⟩, hread]
    rfl
  obtain ⟨found, hfound⟩ := integer_behind_found hat (by simp [hne]) hbefore fun _ => rfl
  exact ⟨found, by simpa only [List.append_assoc] using hfound⟩

/-- A token that starts like the word, where the word ends before a space, is
the word. -/
theorem token_eq_of_starts {behind : List UInt8} (hword : ∀ byte ∈ word, isspace byte = false)
    (htoken : ∀ byte ∈ token, isspace byte = false)
    (hend : word.length < token.length ∨ behind.head?.all isspace = true) (hstarts : word <+: token ++ behind)
    (hspace : ((token ++ behind).drop word.length).head?.any isspace = true) : token = word := by
  obtain ⟨rest, hrest⟩ := hstarts
  rw [← hrest, List.drop_left] at hspace
  obtain ⟨inside, rfl, rfl⟩ | ⟨inside, rfl, rfl⟩ := List.append_eq_append_iff.mp hrest
  · cases inside with
    | nil => exact List.append_nil word
    | cons byte inside =>
      have hbyte := htoken byte (List.mem_append_right word List.mem_cons_self)
      simp [hbyte] at hspace
  · cases inside with
    | nil => exact (List.append_nil token).symm
    | cons byte inside =>
      have hbyte := hword byte (List.mem_append_right token List.mem_cons_self)
      obtain hlong | hbehind := hend
      · rw [List.length_append] at hlong
        omega
      · simp [hbyte] at hbehind

end text
