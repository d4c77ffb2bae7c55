import BismarkPassive.Output

namespace bismark_passive

/-! Which calls of `gzprintf` a writer makes, and which of their failures it
notices -/

/-- The lines can be composed, and none of the calls that print them, the
first of which has this number, returns zero. -/
def Passes (gzprintf_returns : Nat → Int) (first : Nat) (lines : List (Option Line)) : Prop :=
  (∀ line ∈ lines, line.isSome) ∧ ∀ call < lines.length, gzprintf_returns (first + call) ≠ 0

variable {gzprintf_returns : Nat → Int} {first : Nat}

theorem passes_nil : Passes gzprintf_returns first [] :=
  ⟨fun _ h => absurd h List.not_mem_nil, fun _ h => absurd h (Nat.not_lt_zero _)⟩

/-- Lines pass if both parts do, each at its own calls. -/
theorem passes_append {lines more : List (Option Line)} :
    Passes gzprintf_returns first (lines ++ more) ↔
      Passes gzprintf_returns first lines ∧ Passes gzprintf_returns (first + lines.length) more := by
  unfold Passes
  rw [List.forall_mem_append, List.length_append]
  constructor
  · rintro ⟨⟨hlines, hmore⟩, hcalls⟩
    refine ⟨⟨hlines, fun call h => hcalls call (by omega)⟩, hmore, fun call h => ?_⟩
    rw [Nat.add_assoc]
    exact hcalls _ (by omega)
  · rintro ⟨⟨hlines, hcalls⟩, hmore, hcalls'⟩
    refine ⟨⟨hlines, hmore⟩, fun call h => ?_⟩
    by_cases hfirst : call < lines.length
    · exact hcalls call hfirst
    · have hrest := hcalls' (call - lines.length) (by omega)
      rwa [Nat.add_assoc, Nat.add_sub_cancel' (not_lt.mp hfirst)] at hrest

theorem passes_singleton {line : Line} :
    Passes gzprintf_returns first [some line] ↔ gzprintf_returns first ≠ 0 := by
  simp [Passes]

theorem passes_cons {line : Line} {lines : List (Option Line)} :
    Passes gzprintf_returns first (some line :: lines) ↔
      gzprintf_returns first ≠ 0 ∧ Passes gzprintf_returns (first + 1) lines := by
  rw [← List.singleton_append, passes_append, passes_singleton, List.length_singleton]

theorem not_passes_none {lines : List (Option Line)} : ¬ Passes gzprintf_returns first (none :: lines) :=
  fun h => absurd (h.1 none List.mem_cons_self) (by simp)

/-- The file once the calls up to this number have been made. -/
def gzFile.After (handle : gzFile) (calls : Nat) (handle' : gzFile) : Prop :=
  handle'.gzprintf_returns = handle.gzprintf_returns ∧ handle'.calls = handle.calls + calls

/-- The writer returns zero exactly if these calls pass, and then they are the
calls it has made. -/
def Prints (writer : gzFile → writer_result × gzFile) (lines : List (Option Line)) : Prop :=
  ∀ handle : gzFile, ((writer handle).1 = some 0 ↔ Passes handle.gzprintf_returns handle.calls lines) ∧
    (Passes handle.gzprintf_returns handle.calls lines → handle.After lines.length (writer handle).2)

theorem prints_done : Prints (fun handle => (some 0, handle)) [] :=
  fun _ => ⟨iff_of_true rfl passes_nil, fun _ => ⟨rfl, rfl⟩⟩

/-- A failure that `gzprintf` reports as zero ends the writer, every other one
goes unnoticed. -/
theorem prints_line {rest : gzFile → writer_result × gzFile} {lines : List (Option Line)} (hrest : Prints rest lines)
    (line : Line) : Prints (write_line line rest) (some line :: lines) := by
  intro handle
  rw [passes_cons]
  by_cases hreturned : handle.gzprintf_returns handle.calls = 0
  · have hfails : write_line line rest handle = (some (-1), (gzprintf handle line).2) := if_pos hreturned
    rw [hfails]
    exact ⟨iff_of_false (by simp) (fun h => h.1 hreturned), fun h => absurd hreturned h.1⟩
  · have hgoes : write_line line rest handle = rest (gzprintf handle line).2 := if_neg hreturned
    obtain ⟨hresult, hafter⟩ := hrest (gzprintf handle line).2
    rw [hgoes, hresult, and_iff_right hreturned]
    refine ⟨Iff.rfl, fun hpasses => ?_⟩
    obtain ⟨hreturns, hcalls⟩ := hafter hpasses
    refine ⟨hreturns, hcalls.trans ?_⟩
    rw [List.length_cons, Nat.add_comm lines.length, ← Nat.add_assoc]
    rfl

theorem prints_blank : Prints write_blank [some .blank] := prints_line prints_done .blank

/-- Printing lines before what follows takes a call for each. -/
theorem prints_lines {rest : gzFile → writer_result × gzFile} {more : List (Option Line)} (hrest : Prints rest more)
    (lines : List (Option Line)) : Prints (write_lines rest lines) (lines ++ more) := by
  induction lines with
  | nil => exact hrest
  | cons line lines ih =>
    cases line with
    | some line => exact prints_line ih line
    | none =>
      exact fun handle =>
        ⟨iff_of_false (by simp [write_lines]) not_passes_none, fun h => absurd h not_passes_none⟩

/-! What a writer leaves in a file that takes every line -/

/-- On such a file the writer returns zero and has printed these lines, if they
can be composed. -/
def Writes (writer : gzFile → writer_result × gzFile) (lines : List (Option Line)) : Prop :=
  ∀ handle, handle.Healthy → ∀ composed : List Line, lines = composed.map some →
    writer handle = (some 0, handle.append composed)

theorem writes_done : Writes (fun handle => (some 0, handle)) [] := by
  intro handle _ composed hcomposed
  obtain rfl := List.map_eq_nil_iff.mp hcomposed.symm
  rw [gzFile.append_nil]

theorem writes_line {rest : gzFile → writer_result × gzFile} {lines : List (Option Line)} (hrest : Writes rest lines)
    (line : Line) : Writes (write_line line rest) (some line :: lines) := by
  intro handle hhandle composed hcomposed
  obtain ⟨line', composed, rfl, hline, hlines⟩ := List.map_eq_cons_iff.mp hcomposed.symm
  obtain rfl := Option.some.inj hline
  rw [write_line_healthy hhandle, hrest _ (hhandle.append _) composed hlines.symm, gzFile.append_append,
    List.singleton_append]

theorem writes_blank : Writes write_blank [some .blank] := writes_line writes_done .blank

theorem writes_lines {rest : gzFile → writer_result × gzFile} {more : List (Option Line)} (hrest : Writes rest more)
    (lines : List (Option Line)) : Writes (write_lines rest lines) (lines ++ more) := by
  intro handle hhandle composed hcomposed
  obtain ⟨first, second, rfl, hfirst, hsecond⟩ := List.map_eq_append_iff.mp hcomposed.symm
  rw [← hfirst, write_lines_healthy hhandle, hrest _ (hhandle.append _) second hsecond.symm, gzFile.append_append]

end bismark_passive
