import BismarkPassive.Sha1.Context
import BismarkPassive.Sha1.Standard

namespace bismark_passive.polarssl

open sha1_standard

variable {w : Nat}

/-! The 80 rounds compute with the lower 32 bits of an `unsigned long` of any
width what the standard computes with words -/

def low (x : BitVec w) : Word := x.setWidth 32

def sha1_words.low (v : sha1_words w) : words :=
  ⟨polarssl.low v.A, polarssl.low v.B, polarssl.low v.C, polarssl.low v.D, polarssl.low v.E⟩

theorem low_add (hw : 32 ≤ w) (x y : BitVec w) : low (x + y) = low x + low y := BitVec.setWidth_add x y hw

theorem low_xor (x y : BitVec w) : low (x ^^^ y) = low x ^^^ low y := BitVec.setWidth_xor

theorem low_ofNat (hw : 32 ≤ w) (value : Nat) : low (.ofNat w value) = .ofNat 32 value :=
  BitVec.setWidth_ofNat_of_le hw value

/-- The bits that a shift to the left moves beyond the lower 32 are masked out
before they come back on the right. -/
theorem low_S (hw : 32 ≤ w) (x : BitVec w) {n : Nat} (hn : n < 32) : low (S x n) = (low x).rotateLeft n := by
  have hmask (j : Nat) : (4294967295 : Nat).testBit j = decide (j < 32) := Nat.testBit_two_pow_sub_one 32 j
  apply BitVec.eq_of_getLsbD_eq
  intro i hi
  rw [BitVec.getLsbD_rotateLeft_of_le hn]
  simp only [low, S, BitVec.getLsbD_setWidth, BitVec.getLsbD_or, BitVec.getLsbD_shiftLeft, BitVec.getLsbD_ushiftRight,
    BitVec.getLsbD_and, BitVec.getLsbD_ofNat, hmask]
  grind

/-- The code's rewritten functions are the standard's. -/
theorem low_F (t : Nat) (x y z : BitVec w) : low (F t x y z) = f t (low x) (low y) (low z) := by
  unfold F f
  split
  · apply BitVec.eq_of_getLsbD_eq
    intro i hi
    simp only [low, BitVec.getLsbD_setWidth, BitVec.getLsbD_or, BitVec.getLsbD_and, BitVec.getLsbD_xor,
      BitVec.getLsbD_not]
    grind
  split
  · rw [low_xor, low_xor]
  split
  · apply BitVec.eq_of_getLsbD_eq
    intro i hi
    simp only [low, BitVec.getLsbD_setWidth, BitVec.getLsbD_or, BitVec.getLsbD_and]
    grind
  · rw [low_xor, low_xor]

/-- So are its constants. -/
theorem low_K (hw : 32 ≤ w) (t : Nat) : low (polarssl.K w t) = sha1_standard.K t := by
  rw [polarssl.K, low_ofNat hw, sha1_standard.K]
  split
  · rfl
  split
  · rfl
  split
  · rfl
  · rfl

/-- A word is loaded with the most significant byte first. -/
theorem low_GET_ULONG_BE (hw : 32 ≤ w) (data : List UInt8) (i : Nat) :
    low (GET_ULONG_BE (w := w) data i) = word_at data i := by
  have hbyte (byte : UInt8) (j : Nat) (hj : 8 ≤ j) : byte.toBitVec.getLsbD j = false := BitVec.getLsbD_of_ge _ j hj
  apply BitVec.eq_of_getLsbD_eq
  intro j hj
  simp only [low, GET_ULONG_BE, word_at, BitVec.getLsbD_append, BitVec.getLsbD_setWidth, BitVec.getLsbD_or,
    BitVec.getLsbD_shiftLeft]
  grind

/-- A word is stored in the order it is loaded. -/
theorem PUT_ULONG_BE_eq (n : BitVec w) : PUT_ULONG_BE n = word_bytes (low n) := by
  have hbyte (start : Nat) (hstart : start ≤ 24) : (n >>> start).setWidth 8 = (low n).extractLsb' start 8 := by
    apply BitVec.eq_of_getLsbD_eq
    intro j hj
    simp only [low, BitVec.getLsbD_setWidth, BitVec.getLsbD_ushiftRight, BitVec.getLsbD_extractLsb']
    grind
  have hlast := hbyte 0 (by decide)
  rw [BitVec.ushiftRight_zero] at hlast
  rw [PUT_ULONG_BE, word_bytes, hbyte 24 (le_refl 24), hbyte 16 (by decide), hbyte 8 (by decide), hlast]

/-! The schedule in 16 words -/

theorem W_at_set (W : Vector (BitVec w) 16) (x : BitVec w) (t j : Nat) :
    W_at (W.set (W_index t) x (W_index t).isLt) j = if t % 16 = j % 16 then x else W_at W j := by
  exact Vector.getElem_set (W_index t).isLt (W_index j).isLt

theorem W_at_congr (W : Vector (BitVec w) 16) {t j : Nat} (h : t % 16 = j % 16) : W_at W t = W_at W j := by
  have hslot : W_index t = W_index j := Fin.ext h
  rw [W_at, hslot, W_at]

/-- Before round `t` the array holds the last 16 words of the schedule. -/
def Scheduled (data : List UInt8) (t : Nat) (W : Vector (BitVec w) 16) : Prop :=
  ∀ j, j < max t 16 → max t 16 ≤ j + 16 → low (W_at W j) = schedule data j

theorem scheduled_load (hw : 32 ≤ w) (data : List UInt8) :
    Scheduled data 0 (Vector.ofFn fun i : Fin 16 => GET_ULONG_BE (w := w) data (4 * i)) := by
  intro j hj _
  have hlt : j < 16 := by omega
  have hloaded : W_at (Vector.ofFn fun i : Fin 16 => GET_ULONG_BE (w := w) data (4 * i)) j =
      GET_ULONG_BE data (4 * (j % 16)) := Vector.getElem_ofFn _
  rw [hloaded, Nat.mod_eq_of_lt hlt, low_GET_ULONG_BE hw, schedule_of_lt data hlt]

/-- The sixteen words kept move one round on. -/
theorem Scheduled.next (hw : 32 ≤ w) {data : List UInt8} {t : Nat} {W : Vector (BitVec w) 16}
    (h : Scheduled data t W) : Scheduled data (t + 1) (W_next t W) := by
  intro j hj hlast
  unfold W_next
  split
  · exact h j (by omega) (by omega)
  · rename_i hlate
    have hreused : W_at W t = W_at W (t - 16) := W_at_congr W (by omega)
    rw [W_at_set]
    split
    · rename_i hslot
      obtain rfl : j = t := by omega
      rw [R, low_S hw _ (by decide), low_xor, low_xor, low_xor, hreused, h (j - 3) (by omega) (by omega),
        h (j - 8) (by omega) (by omega), h (j - 14) (by omega) (by omega), h (j - 16) (by omega) (by omega),
        schedule_of_not_lt data hlate]
    · exact h j (by omega) (by omega)

theorem Scheduled.used {data : List UInt8} {t : Nat} {W : Vector (BitVec w) 16} (h : Scheduled data (t + 1) W) :
    low (W_at W t) = schedule data t := h t (by omega) (by omega)

/-! The variables, which take turns instead of being moved -/

/-- The variables in the order in which round `t` names them. -/
def sha1_words.named (v : sha1_words w) (t : Nat) : sha1_words w :=
  match t % 5 with
  | 0 => v
  | 1 => ⟨v.E, v.A, v.B, v.C, v.D⟩
  | 2 => ⟨v.D, v.E, v.A, v.B, v.C⟩
  | 3 => ⟨v.C, v.D, v.E, v.A, v.B⟩
  | _ => ⟨v.B, v.C, v.D, v.E, v.A⟩

/-- A round by the names the words have after it. -/
theorem sha1_round_named (v : sha1_words w) (W : Vector (BitVec w) 16) (t : Nat) :
    (sha1_round v W t).named (t + 1) =
      { A := (P t (v.named t).A (v.named t).B (v.named t).C (v.named t).D (v.named t).E (W_at W t)).1
        B := (v.named t).A
        C := (P t (v.named t).A (v.named t).B (v.named t).C (v.named t).D (v.named t).E (W_at W t)).2
        D := (v.named t).C
        E := (v.named t).D } := by
  have hturn : t % 5 = 0 ∨ t % 5 = 1 ∨ t % 5 = 2 ∨ t % 5 = 3 ∨ t % 5 = 4 := by omega
  unfold sha1_round sha1_words.named
  obtain h | h | h | h | h := hturn
  · rw [h, show (t + 1) % 5 = 1 by omega]
    rfl
  · rw [h, show (t + 1) % 5 = 2 by omega]
    rfl
  · rw [h, show (t + 1) % 5 = 3 by omega]
    rfl
  · rw [h, show (t + 1) % 5 = 4 by omega]
    rfl
  · rw [h, show (t + 1) % 5 = 0 by omega]
    rfl

/-- A round is the standard's in the low 32 bits. -/
theorem sha1_round_low (hw : 32 ≤ w) {data : List UInt8} {v : sha1_words w} {W : Vector (BitVec w) 16} {t : Nat}
    (hW : low (W_at W t) = schedule data t) :
    ((sha1_round v W t).named (t + 1)).low = sha1_standard.round data (v.named t).low t := by
  rw [sha1_round_named, sha1_standard.round]
  simp only [sha1_words.low, P, low_add hw, low_S hw _ (show 5 < 32 by decide), low_S hw _ (show 30 < 32 by decide),
    low_F, low_K hw, hW]
  congr 1
  ac_rfl

theorem sha1_rounds_succ (count : Nat) (v : sha1_words w) (W : Vector (BitVec w) 16) :
    sha1_rounds (count + 1) v W =
      (sha1_round (sha1_rounds count v W).1 (W_next count (sha1_rounds count v W).2) count,
        W_next count (sha1_rounds count v W).2) := by
  rw [sha1_rounds, List.range_succ, List.foldl_append, List.foldl_cons, List.foldl_nil]
  rfl

/-- Any number of rounds are the standard's. -/
theorem sha1_rounds_low (hw : 32 ≤ w) {data : List UInt8} (v : sha1_words w) {W : Vector (BitVec w) 16}
    (hW : Scheduled data 0 W) (count : Nat) :
    ((sha1_rounds count v W).1.named count).low = rounds data count v.low ∧
      Scheduled data count (sha1_rounds count v W).2 := by
  induction count with
  | zero => exact ⟨rfl, hW⟩
  | succ count ih =>
    obtain ⟨hv, hcount⟩ := ih
    have hnext := hcount.next hw
    rw [sha1_rounds_succ, rounds, List.range_succ, List.foldl_append, List.foldl_cons, List.foldl_nil, ← rounds]
    refine ⟨?_, hnext⟩
    rw [sha1_round_low hw hnext.used, hv]

theorem sha1_words.add_low (hw : 32 ≤ w) (state v : sha1_words w) : (state.add v).low = state.low.add v.low := by
  simp only [sha1_words.low, sha1_words.add, low_add hw]
  rfl

theorem sha1_words.named_80 (v : sha1_words w) : v.named 80 = v := rfl

/-- The upper bits of the words of a context never matter. -/
theorem sha1_process_low (hw : 32 ≤ w) (ctx : sha1_context w) (data : List UInt8) :
    (sha1_process ctx data).state.low = compress ctx.state.low data := by
  obtain ⟨hrounds, -⟩ := sha1_rounds_low hw ctx.state (scheduled_load hw data) 80
  rw [sha1_words.named_80] at hrounds
  rw [compress, ← hrounds, sha1_process, sha1_words.add_low hw]

end bismark_passive.polarssl
