import BismarkPassive.Text.Numerals

namespace text

variable {α β : Type}

/-! Texts of lines with fields, and readers that recover the values behind them -/

/-- The bytes fit between the separators of a line. -/
def Unspaced (field : List UInt8) : Prop := space ∉ field ∧ newline ∉ field

theorem Plain.word {field : List UInt8} (h : Plain field) : Unspaced field :=
  ⟨h.not_mem (by decide), h.not_mem (by decide)⟩

/-- How values are written as one field of a line. -/
structure Column (α : Type) where
  write : α → List UInt8
  read : List UInt8 → Option α
  read_write : ∀ value, read (write value) = some value
  word : ∀ value, Unspaced (write value)

def numeral_field (base : Nat) (hone : 1 < base) (hbase : base ≤ 16) : Column Nat where
  write := numeral base
  read := number_of base
  read_write := number_of_numeral hone hbase
  word value := (plain_numeral hone hbase value).word

def decimal_field : Column Int where
  write := decimal
  read := integer_of
  read_write := integer_of_decimal
  word value := (plain_decimal value).word

/-- Bytes that are written as they are. -/
def word_field : Column { field : List UInt8 // Unspaced field } where
  write := Subtype.val
  read field := if h : space ∉ field ∧ newline ∉ field then some ⟨field, h⟩ else none
  read_write value := dif_pos value.property
  word value := value.property

/-- A field that always has these bytes. -/
def constant_field (bytes : List UInt8) (hword : Unspaced bytes) : Column Unit where
  write _ := bytes
  read field := if field = bytes then some () else none
  read_write _ := if_pos rfl
  word _ := hword

/-- Values that are written as others. -/
def Column.as (field : Column α) (encode : β → α) (decode : α → β) (h : ∀ value, decode (encode value) = value) :
    Column β where
  write value := field.write (encode value)
  read bytes := (field.read bytes).map decode
  read_write value := by rw [field.read_write, Option.map_some, h]
  word value := field.word (encode value)

/-- How values are written as the fields of a line. -/
structure Row (α : Type) where
  write : α → List (List UInt8)
  read : List (List UInt8) → Option α
  read_write : ∀ value, read (write value) = some value
  words : ∀ value, ∀ field ∈ write value, Unspaced field
  ne_nil : ∀ value, write value ≠ []

def Column.row (field : Column α) : Row α where
  write value := [field.write value]
  read
    | [bytes] => field.read bytes
    | _ => none
  read_write := field.read_write
  words value := List.forall_mem_singleton.mpr (field.word value)
  ne_nil _ := List.cons_ne_nil _ _

def Column.cons (field : Column α) (row : Row β) : Row (α × β) where
  write value := field.write value.1 :: row.write value.2
  read
    | bytes :: rest => do
      let first ← field.read bytes
      let second ← row.read rest
      pure (first, second)
    | [] => none
  read_write value := by
    simp only [field.read_write, row.read_write]
    rfl
  words value := List.forall_mem_cons.mpr ⟨field.word value.1, row.words value.2⟩
  ne_nil _ := List.cons_ne_nil _ _

/-- How values are written as lines. -/
structure Format (α : Type) where
  write : α → List UInt8
  read : List UInt8 → Option α
  read_write : ∀ value, read (write value) = some value
  newline_not_mem : ∀ value, newline ∉ write value

def Row.format (row : Row α) : Format α where
  write value := joined (row.write value)
  read line := row.read (line.splitOn space)
  read_write value := by
    rw [splitOn_joined (row.ne_nil value) fun field hfield => (row.words value field hfield).1, row.read_write]
  newline_not_mem value := by
    intro hmem
    obtain hspace | ⟨field, hfield, hbyte⟩ := mem_joined hmem
    · exact absurd hspace (by decide)
    · exact (row.words value field hfield).2 hbyte

/-- Lines that are written as they are. -/
def line_format : Format { line : List UInt8 // newline ∉ line } where
  write := Subtype.val
  read line := if h : newline ∉ line then some ⟨line, h⟩ else none
  read_write value := dif_pos value.property
  newline_not_mem value := value.property

/-- A line with several fields is not empty. -/
theorem Column.cons_write_ne_nil (field : Column α) (row : Row β) (value : α × β) :
    (field.cons row).format.write value ≠ [] := by
  obtain ⟨second, rest, hrow⟩ := List.exists_cons_of_ne_nil (row.ne_nil value.2)
  have hwrite : (field.cons row).format.write value = joined (field.write value.1 :: row.write value.2) := rfl
  rw [hwrite, hrow, joined_cons_cons]
  exact List.append_ne_nil_of_right_ne_nil _ (List.cons_ne_nil _ _)

/-! Reading line by line -/

/-- Takes some of the lines. -/
abbrev LineReader (α : Type) := StateT (List (List UInt8)) Option α

def Format.next (format : Format α) : LineReader α
  | [] => none
  | line :: rest => (format.read line).map (·, rest)

/-- Lines up to an empty one. -/
def Format.paragraph (format : Format α) : LineReader (List α)
  | [] => none
  | line :: rest =>
    if line = [] then some ([], rest)
    else do
      let value ← format.read line
      let (values, rest) ← format.paragraph rest
      some (value :: values, rest)

/-- The reader takes exactly these lines, whatever follows them. -/
def Reads (reader : LineReader α) (lines : List (List UInt8)) (value : α) : Prop :=
  ∀ rest, reader (lines ++ rest) = some (value, rest)

theorem reads_pure (value : α) : Reads (pure value) [] value := fun _ => rfl

theorem Reads.run_bind {reader : LineReader α} {continuation : α → LineReader β} {lines : List (List UInt8)}
    {value : α} (h : Reads reader lines value) (rest : List (List UInt8)) :
    (reader >>= continuation) (lines ++ rest) = continuation value rest := by
  have hfirst := h rest
  change (reader (lines ++ rest) >>= fun read => continuation read.1 read.2) = _
  rw [hfirst]
  rfl

theorem Reads.bind {reader : LineReader α} {continuation : α → LineReader β} {lines more : List (List UInt8)}
    {value : α} {result : β} (h : Reads reader lines value) (hmore : Reads (continuation value) more result) :
    Reads (reader >>= continuation) (lines ++ more) result := by
  intro rest
  rw [List.append_assoc, h.run_bind]
  exact hmore rest

theorem Reads.map {reader : LineReader α} {lines : List (List UInt8)} {value : α} (h : Reads reader lines value)
    (f : α → β) : Reads (reader >>= fun value => pure (f value)) lines (f value) := by
  rw [← List.append_nil lines]
  exact h.bind (reads_pure (f value))

theorem Format.next_reads (format : Format α) (value : α) : Reads format.next [format.write value] value := by
  intro rest
  have hnext : format.next (format.write value :: rest) = (format.read (format.write value)).map (·, rest) := rfl
  rw [List.singleton_append, hnext, format.read_write, Option.map_some]

/-- Rows are read up to the empty line behind them. -/
theorem Format.paragraph_reads (format : Format α) {values : List α}
    (hne : ∀ value ∈ values, format.write value ≠ []) :
    Reads format.paragraph (values.map format.write ++ [[]]) values := by
  intro rest
  induction values with
  | nil => rfl
  | cons value values ih =>
    obtain ⟨hvalue, hvalues⟩ := List.forall_mem_cons.mp hne
    rw [List.map_cons, List.cons_append, List.cons_append, Format.paragraph, if_neg hvalue, format.read_write,
      ih hvalues]
    rfl

/-- A text of printed lines splits into the lines of text that they consist of. -/
theorem splitOn_printed {print : α → List UInt8} {text_lines : α → List (List UInt8)}
    (hprint : ∀ line, print line = (text_lines line).flatMap fun text_line => text_line ++ [newline]) {lines : List α}
    (hunbroken : ∀ text_line ∈ lines.flatMap text_lines, newline ∉ text_line) :
    (lines.flatMap print).splitOn newline = lines.flatMap text_lines ++ [[]] := by
  rw [← splitOn_lines hunbroken, List.flatMap_assoc]
  exact congrArg (fun print => (lines.flatMap print).splitOn newline) (funext hprint)

end text
