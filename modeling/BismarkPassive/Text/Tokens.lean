import BismarkPassive.Text.Numerals
import Mathlib.Data.List.TakeWhile

namespace text

/-- The non-empty pieces between the delimiters. -/
def pieces (delimiter : UInt8) (text : List UInt8) : List (List UInt8) := (text.splitOn delimiter).filter (· ≠ [])

/-- The first token and what follows the delimiter that ends it. -/
def next_token (delimiter : UInt8) (text : List UInt8) : Option (List UInt8 × List UInt8) :=
  match text.dropWhile (· == delimiter) with
  | [] => none
  | byte :: rest =>
    let token := (byte :: rest).takeWhile (· != delimiter)
    some (token, (byte :: rest).drop (token.length + 1))

variable {delimiter : UInt8} {text : List UInt8}

@[simp] theorem pieces_nil : pieces delimiter [] = [] := by
  simp [pieces]

theorem pieces_append_delimiter (first rest : List UInt8) :
    pieces delimiter (first ++ delimiter :: rest) = pieces delimiter first ++ pieces delimiter rest := by
  have hsplit := List.splitOnP_append_cons (p := fun byte => byte == delimiter) first rest (beq_self_eq_true delimiter)
  rw [pieces, List.splitOn_eq_splitOnP, hsplit, List.filter_append, pieces, pieces, List.splitOn_eq_splitOnP,
    List.splitOn_eq_splitOnP]

/-- A text without delimiters is one piece. -/
theorem pieces_of_not_mem (hne : text ≠ []) (h : delimiter ∉ text) : pieces delimiter text = [text] := by
  rw [pieces, splitOn_of_not_mem h]
  simp [hne]

/-- Delimiters in front do not matter. -/
theorem pieces_dropWhile (text : List UInt8) :
    pieces delimiter (text.dropWhile (· == delimiter)) = pieces delimiter text := by
  induction text with
  | nil => rfl
  | cons byte text ih =>
    by_cases hbyte : byte = delimiter
    · subst hbyte
      have hskip : pieces byte (byte :: text) = pieces byte text := pieces_append_delimiter [] text
      rw [List.dropWhile_cons, if_pos (beq_self_eq_true byte), ih, hskip]
    · rw [List.dropWhile_cons, if_neg (by simpa using hbyte)]

/-- The remaining text behind a token and the delimiter that ends it. -/
theorem takeWhile_append_drop (delimiter : UInt8) (bytes : List UInt8) :
    bytes = bytes.takeWhile (· != delimiter) ∧ delimiter ∉ bytes ∨
      bytes = bytes.takeWhile (· != delimiter) ++
        delimiter :: bytes.drop ((bytes.takeWhile (· != delimiter)).length + 1) := by
  induction bytes with
  | nil => exact .inl ⟨rfl, List.not_mem_nil⟩
  | cons byte bytes ih =>
    by_cases hbyte : byte = delimiter
    · subst hbyte
      right
      rw [List.takeWhile_cons_of_neg (by simp)]
      rfl
    · rw [List.takeWhile_cons_of_pos (by simpa using hbyte)]
      obtain ⟨hall, hnone⟩ | hsplit := ih
      · left
        refine ⟨congrArg (byte :: ·) hall, fun hmem => ?_⟩
        obtain heq | hmem := List.mem_cons.mp hmem
        · exact hbyte heq.symm
        · exact hnone hmem
      · right
        rw [List.length_cons, List.drop_succ_cons, List.cons_append, ← hsplit]

theorem not_mem_takeWhile (bytes : List UInt8) : delimiter ∉ bytes.takeWhile (· != delimiter) := by
  intro hmem
  simpa using List.mem_takeWhile_imp hmem

/-- No token is found exactly if there is none. -/
theorem next_token_eq_none (h : next_token delimiter text = none) : pieces delimiter text = [] := by
  rw [← pieces_dropWhile]
  unfold next_token at h
  split at h
  · rename_i hnil
    rw [hnil, pieces_nil]
  · cases h

/-- A token is the first piece, and the rest has the others. -/
theorem next_token_eq_some {token rest : List UInt8} (h : next_token delimiter text = some (token, rest)) :
    pieces delimiter text = token :: pieces delimiter rest ∧ rest.length < text.length := by
  rw [← pieces_dropWhile]
  unfold next_token at h
  split at h
  · cases h
  rename_i byte more hdrop
  obtain ⟨rfl, rfl⟩ := Prod.mk.inj (Option.some.inj h)
  have hlength : (byte :: more).length ≤ text.length := hdrop ▸ List.length_dropWhile_le _ text
  have hbyte : (byte != delimiter) = true := by
    have hhead := List.head?_dropWhile_not (p := fun byte : UInt8 => byte == delimiter) text
    rw [hdrop] at hhead
    simpa using hhead
  have hne : (byte :: more).takeWhile (· != delimiter) ≠ [] := by
    rw [List.takeWhile_cons, if_pos hbyte]
    exact List.cons_ne_nil _ _
  rw [hdrop]
  refine ⟨?_, ?_⟩
  · obtain ⟨hall, hnone⟩ | hsplit := takeWhile_append_drop delimiter (byte :: more)
    · rw [← hall, List.drop_eq_nil_of_le (Nat.le_succ _), pieces_nil]
      exact pieces_of_not_mem (List.cons_ne_nil _ _) hnone
    · conv_lhs => rw [hsplit]
      rw [pieces_append_delimiter, pieces_of_not_mem hne (not_mem_takeWhile _)]
      rfl
  · rw [List.length_drop]
    have hpositive := List.length_pos_of_ne_nil hne
    rw [List.length_cons] at hlength ⊢
    omega

end text
