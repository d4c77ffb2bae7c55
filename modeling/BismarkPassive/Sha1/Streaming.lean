import BismarkPassive.Sha1.Rounds
import Mathlib.Data.Nat.Bitwise

namespace bismark_passive.polarssl

open hashing sha1_standard

variable {w : Nat}

/-! A context stands for the bytes that it has been given since it was started -/

theorem block_pos : 0 < 64 := Nat.zero_lt_succ 63

theorem nothing_pending : ([] : List UInt8).length < 64 := Nat.zero_lt_succ 63

/-- The standard's hash function before it has seen any input. -/
def started : buffered words UInt8 64 := ⟨initial, [], nothing_pending⟩

/-- The same after these bytes. -/
def digesting (message : List UInt8) : buffered words UInt8 64 := started.feed compress block_pos message

theorem digesting_append (message input : List UInt8) :
    digesting (message ++ input) = (digesting message).feed compress block_pos input :=
  buffered.feed_append compress block_pos started message input

theorem digesting_pending_length (message : List UInt8) : (digesting message).pending.length = message.length % 64 :=
  leftover_length message

/-- The two counters make up a length modulo 2^64, the bytes of the incomplete
block are at the beginning of the buffer. -/
structure sha1_context.Holds (ctx : sha1_context w) (message : List UInt8) : Prop where
  total0 : ctx.total0.toNat = message.length % 2 ^ 32
  total1 : ctx.total1.toNat % 2 ^ 32 = message.length / 2 ^ 32 % 2 ^ 32
  state : ctx.state.low = (digesting message).state
  buffer : ctx.buffer.toList.take (message.length % 64) = (digesting message).pending

/-- `sha1_starts` begins with the empty message. -/
theorem sha1_starts_holds (hw : 32 ≤ w) (ctx : sha1_context w) : (sha1_starts ctx).Holds [] where
  total0 := BitVec.toNat_zero
  total1 := by
    have hzero : (sha1_starts ctx).total1.toNat = 0 := BitVec.toNat_zero
    rw [hzero]
    rfl
  state := by
    simp only [sha1_starts, sha1_words.low, low_ofNat hw]
    rfl
  buffer := List.take_zero

/-! The counters -/

theorem toNat_mask (hw : 32 ≤ w) (x : BitVec w) {bits : Nat} (hbits : bits ≤ 32) :
    (x &&& .ofNat w (2 ^ bits - 1)).toNat = x.toNat % 2 ^ bits := by
  have hfits : 2 ^ bits - 1 < 2 ^ w := by
    have hle : 2 ^ bits ≤ 2 ^ w := Nat.pow_le_pow_right (by decide) (hbits.trans hw)
    have hpos : 0 < 2 ^ bits := Nat.two_pow_pos bits
    omega
  rw [BitVec.toNat_and, BitVec.toNat_ofNat, Nat.mod_eq_of_lt hfits, Nat.and_two_pow_sub_one_eq_mod]

theorem sha1_context.Holds.left {ctx : sha1_context w} {message : List UInt8} (h : ctx.Holds message) (hw : 32 ≤ w) :
    (ctx.total0 &&& 0x3F).toNat = message.length % 64 := by
  have hmask := toNat_mask hw ctx.total0 (show 6 ≤ 32 by decide)
  rw [h.total0] at hmask
  refine hmask.trans ?_
  omega

/-- The two counters hold the length in 64 bits. -/
theorem add_total_spec {ctx : sha1_context w} {message input : List UInt8} (h : ctx.Holds message) (hw : 32 ≤ w)
    (hinput : input.length < 2 ^ 32) :
    (add_total ctx (.ofNat w input.length)).total0.toNat = (message ++ input).length % 2 ^ 32 ∧
      (add_total ctx (.ofNat w input.length)).total1.toNat % 2 ^ 32 = (message ++ input).length / 2 ^ 32 % 2 ^ 32 := by
  have hdvd : 2 ^ 32 ∣ 2 ^ w := Nat.pow_dvd_pow 2 hw
  have hilen : (BitVec.ofNat w input.length).toNat = input.length := by
    rw [BitVec.toNat_ofNat]
    exact Nat.mod_eq_of_lt (hinput.trans_le (Nat.pow_le_pow_right (by decide) hw))
  have htotal0 : (add_total ctx (.ofNat w input.length)).total0.toNat = (message ++ input).length % 2 ^ 32 := by
    have hmask := toNat_mask hw (ctx.total0 + .ofNat w input.length) (le_refl 32)
    rw [BitVec.toNat_add, hilen, h.total0, Nat.mod_mod_of_dvd _ hdvd] at hmask
    refine hmask.trans ?_
    rw [List.length_append, Nat.mod_add_mod]
  refine ⟨htotal0, ?_⟩
  have hcarry : (add_total ctx (.ofNat w input.length)).total1 =
      if (add_total ctx (.ofNat w input.length)).total0 < .ofNat w input.length then ctx.total1 + 1
      else ctx.total1 := rfl
  have htotal1 := h.total1
  rw [List.length_append] at htotal0
  rw [hcarry, List.length_append]
  split
  · rename_i hwrapped
    rw [BitVec.lt_def, htotal0, hilen] at hwrapped
    have hone : (1 : BitVec w).toNat = 1 := by
      have hlt : 1 < 2 ^ w := Nat.one_lt_two_pow (by omega)
      exact (BitVec.toNat_ofNat 1 w).trans (Nat.mod_eq_of_lt hlt)
    rw [BitVec.toNat_add, hone, Nat.mod_mod_of_dvd _ hdvd]
    omega
  · rename_i hsums
    rw [BitVec.lt_def, htotal0, hilen] at hsums
    omega

/-! The buffer -/

/-- An array of the right length keeps its elements. -/
theorem array_of_toList {n : Nat} {elements : List UInt8} (h : elements.length = n) :
    (array_of elements : Vector UInt8 n).toList = elements := by
  rw [array_of, Vector.toList_ofFn]
  apply List.ext_getElem
  · rw [List.length_ofFn, h]
  · intro i _ hi
    rw [List.getElem_ofFn]
    exact List.getD_eq_getElem elements 0 hi

/-- The buffer behind a copy that fits. -/
theorem memcpy_at_take {buffer : Vector UInt8 64} {position : Nat} {input : List UInt8}
    (h : position + input.length ≤ 64) :
    (memcpy_at buffer position input).toList.take (position + input.length) =
      buffer.toList.take position ++ input := by
  have hbefore : (buffer.toList.take position).length = position := by
    rw [List.length_take, Vector.length_toList]
    omega
  have hlength : (buffer.toList.take position ++ input).length = position + input.length := by
    rw [List.length_append, hbefore]
  rw [memcpy_at, array_of_toList]
  · exact List.take_left' hlength
  · rw [List.length_append, hlength, List.length_drop, Vector.length_toList]
    omega

/-- The loop absorbs the whole blocks and leaves the rest. -/
theorem process_blocks_spec (hw : 32 ≤ w) {count : Nat} (ctx : sha1_context w) {input : List UInt8}
    (hcount : input.length ≤ count) :
    ∃ state, process_blocks count ctx input = ({ ctx with state := state }, leftover 64 input) ∧
      state.low = absorb compress 64 ctx.state.low input := by
  induction count generalizing ctx input with
  | zero =>
    have hshort : input.length < 64 := by omega
    rw [leftover_of_lt hshort, absorb_of_lt hshort]
    exact ⟨ctx.state, rfl, rfl⟩
  | succ count ih =>
    rw [process_blocks]
    split
    · rename_i hlong
      have hblock : (input.take 64).length = 64 := List.length_take_of_le hlong
      have hrest : (input.drop 64).length ≤ count := by
        rw [List.length_drop]
        omega
      obtain ⟨state, hblocks, hlow⟩ := ih (sha1_process ctx (input.take 64)) hrest
      have hsplit : input.take 64 ++ input.drop 64 = input := List.take_append_drop 64 input
      refine ⟨state, ?_, ?_⟩
      · rw [hblocks, ← leftover_block block_pos hblock, hsplit]
        simp only [sha1_process_total0, sha1_process_total1, sha1_process_buffer, sha1_process_ipad, sha1_process_opad]
      · rw [hlow, sha1_process_low hw, ← absorb_block compress block_pos hblock, hsplit]
    · rename_i hshort
      rw [leftover_of_lt (not_le.mp hshort), absorb_of_lt (not_le.mp hshort)]
      exact ⟨ctx.state, rfl, rfl⟩

/-- Bytes wait in the buffer only where the input does not complete the block. -/
theorem waiting_blocks {waiting input : List UInt8} (h : waiting.length = 0 ∨ waiting.length + input.length < 64)
    (state : words) :
    absorb compress 64 state (waiting ++ input) = absorb compress 64 state input ∧
      leftover 64 (waiting ++ input) = waiting ++ leftover 64 input := by
  cases h with
  | inl hnone =>
    obtain rfl := List.length_eq_zero_iff.mp hnone
    exact ⟨rfl, rfl⟩
  | inr hfits =>
    have hshort : input.length < 64 := by omega
    have hboth : (waiting ++ input).length < 64 := by rwa [List.length_append]
    rw [absorb_of_lt hboth, absorb_of_lt hshort, leftover_of_lt hboth, leftover_of_lt hshort]
    exact ⟨rfl, rfl⟩

/-- Input is absorbed behind the bytes that were waiting. -/
theorem process_input_spec (hw : 32 ≤ w) (ctx : sha1_context w) {left : Nat} {waiting : List UInt8}
    (input : List UInt8) (hwaiting : ctx.buffer.toList.take left = waiting) (hlength : waiting.length = left)
    (hleft : left = 0 ∨ left + input.length < 64) :
    ∃ state buffer, process_input ctx left input = { ctx with state := state, buffer := buffer } ∧
      state.low = absorb compress 64 ctx.state.low (waiting ++ input) ∧
      buffer.toList.take ((left + input.length) % 64) = leftover 64 (waiting ++ input) := by
  obtain ⟨state, hblocks, hlow⟩ := process_blocks_spec hw ctx (le_refl input.length)
  obtain ⟨habsorb, hleftover⟩ := @waiting_blocks waiting input (by rwa [hlength]) ctx.state.low
  have hrest : (leftover 64 input).length = input.length % 64 := leftover_length input
  have htotal : (left + input.length) % 64 = left + (leftover 64 input).length := by omega
  have hroom : left + (leftover 64 input).length ≤ 64 := by omega
  rw [process_input, hblocks, habsorb, hleftover, htotal]
  dsimp only
  split
  · refine ⟨state, memcpy_at ctx.buffer left (leftover 64 input), rfl, hlow, ?_⟩
    rw [memcpy_at_take hroom, hwaiting]
  · rename_i hnone
    have hempty : leftover 64 input = [] := List.length_eq_zero_iff.mp (Nat.eq_zero_of_not_pos hnone)
    refine ⟨state, ctx.buffer, rfl, hlow, ?_⟩
    rw [hempty, List.length_nil, Nat.add_zero, List.append_nil, hwaiting]

/-- The bytes that complete the block in the buffer. -/
theorem memcpy_at_fill {buffer : Vector UInt8 64} {left : Nat} {input : List UInt8} (hleft : left ≤ 64)
    (hfill : 64 - left ≤ input.length) :
    (memcpy_at buffer left (input.take (64 - left))).toList = buffer.toList.take left ++ input.take (64 - left) := by
  have hlength : left + (input.take (64 - left)).length = 64 := by
    rw [List.length_take]
    omega
  rw [← memcpy_at_take (le_of_eq hlength), hlength]
  exact (List.take_of_length_le (le_of_eq Vector.length_toList)).symm

/-- One call of `sha1_update` appends its input to what the context stands for
and leaves the pads alone. -/
theorem sha1_update_holds (hw : 32 ≤ w) {ctx : sha1_context w} {message input : List UInt8} (h : ctx.Holds message)
    (hinput : input.length < 2 ^ 32) :
    (sha1_update ctx input).Holds (message ++ input) ∧ (sha1_update ctx input).ipad = ctx.ipad ∧
      (sha1_update ctx input).opad = ctx.opad := by
  have hleft := h.left hw
  have hlength := digesting_pending_length message
  have hlt : message.length % 64 < 64 := Nat.mod_lt _ block_pos
  have hmod : (message ++ input).length % 64 = (message.length % 64 + input.length) % 64 := by
    rw [List.length_append, Nat.mod_add_mod]
  obtain ⟨htotal0, htotal1⟩ := add_total_spec h hw hinput
  have hframe : (add_total ctx (.ofNat w input.length)).state = ctx.state ∧
      (add_total ctx (.ofNat w input.length)).buffer = ctx.buffer ∧
      (add_total ctx (.ofNat w input.length)).ipad = ctx.ipad ∧
      (add_total ctx (.ofNat w input.length)).opad = ctx.opad := ⟨rfl, rfl, rfl, rfl⟩
  rw [sha1_update]
  split
  · rename_i hnone
    obtain rfl := List.length_eq_zero_iff.mp hnone
    rw [List.append_nil]
    exact ⟨h, rfl, rfl⟩
  dsimp only
  rw [hleft]
  generalize add_total ctx (.ofNat w input.length) = counted at htotal0 htotal1 hframe
  obtain ⟨hstate, hbuffer, hipad, hopad⟩ := hframe
  have hwaiting := h.buffer
  rw [← hbuffer] at hwaiting
  split
  · rename_i hfill
    have hblock : ((digesting message).pending ++ input.take (64 - message.length % 64)).length = 64 := by
      rw [List.length_append, hlength, List.length_take]
      omega
    have hsplit : (digesting message).pending ++ input.take (64 - message.length % 64) ++
        input.drop (64 - message.length % 64) = (digesting message).pending ++ input := by
      rw [List.append_assoc, List.take_append_drop]
    have hrest : (0 + (input.drop (64 - message.length % 64)).length) % 64 = (message ++ input).length % 64 := by
      rw [hmod, List.length_drop]
      omega
    rw [memcpy_at_fill hlt.le hfill.2, hwaiting]
    obtain ⟨state, buffer, hprocessed, hlow, htake⟩ :=
      process_input_spec hw (sha1_process { counted with
        buffer := memcpy_at counted.buffer (message.length % 64) (input.take (64 - message.length % 64)) }
        ((digesting message).pending ++ input.take (64 - message.length % 64)))
        (input.drop (64 - message.length % 64)) List.take_zero List.length_nil (.inl rfl)
    rw [sha1_process_low hw, hstate, h.state, List.nil_append, ← absorb_block compress block_pos hblock,
      hsplit] at hlow
    rw [hrest, List.nil_append, ← leftover_block block_pos hblock, hsplit] at htake
    rw [hprocessed, sha1_process_total0, sha1_process_total1, sha1_process_ipad, sha1_process_opad]
    refine ⟨⟨htotal0, htotal1, ?_, ?_⟩, hipad, hopad⟩
    · rw [digesting_append]
      exact hlow
    · rw [digesting_append]
      exact htake
  · rename_i hfill
    obtain ⟨state, buffer, hprocessed, hlow, htake⟩ :=
      process_input_spec hw counted input hwaiting hlength (by omega)
    rw [hstate, h.state] at hlow
    rw [← hmod] at htake
    rw [hprocessed]
    refine ⟨⟨htotal0, htotal1, ?_, ?_⟩, hipad, hopad⟩
    · rw [digesting_append]
      exact hlow
    · rw [digesting_append]
      exact htake

/-! The end of a message -/

/-- The padding before the length is the standard's. -/
theorem sha1_padding_take {ctx : sha1_context w} {message : List UInt8} (h : ctx.Holds message) (hw : 32 ≤ w) :
    sha1_padding.take (padn ctx) = 0x80 :: List.replicate ((119 - message.length % 64) % 64) 0 := by
  have hpadn : padn ctx = (119 - message.length % 64) % 64 + 1 := by
    rw [padn, h.left hw]
    split
    · omega
    · omega
  have hroom : (119 - message.length % 64) % 64 ≤ 63 := by omega
  rw [hpadn, sha1_padding, List.take_succ_cons, List.take_replicate, Nat.min_eq_left hroom]

/-- The eight bytes of the length, the upper word first. -/
theorem msglen_eq {ctx : sha1_context w} {message : List UInt8} (h : ctx.Holds message) (hw : 32 ≤ w) :
    msglen ctx =
      word_bytes (.ofNat 32 (8 * message.length / 2 ^ 32)) ++ word_bytes (.ofNat 32 (8 * message.length)) := by
  have htotal0 := h.total0
  have htotal1 := h.total1
  have hdvd : 2 ^ 32 ∣ 2 ^ w := Nat.pow_dvd_pow 2 hw
  have hlow : low (ctx.total0 <<< 3) = .ofNat 32 (8 * message.length) := by
    apply BitVec.eq_of_toNat_eq
    rw [low, BitVec.toNat_setWidth, BitVec.toNat_shiftLeft, BitVec.toNat_ofNat, Nat.mod_mod_of_dvd _ hdvd, htotal0,
      Nat.shiftLeft_eq]
    omega
  have hhigh : low (ctx.total0 >>> 29 ||| ctx.total1 <<< 3) = .ofNat 32 (8 * message.length / 2 ^ 32) := by
    have hupper : (low (ctx.total1 <<< 3)).toNat = (message.length / 2 ^ 32 % 2 ^ 29) <<< 3 := by
      rw [low, BitVec.toNat_setWidth, BitVec.toNat_shiftLeft, Nat.mod_mod_of_dvd _ hdvd, Nat.shiftLeft_eq,
        Nat.shiftLeft_eq]
      omega
    have hlower : (low (ctx.total0 >>> 29)).toNat = message.length % 2 ^ 32 / 2 ^ 29 := by
      rw [low, BitVec.toNat_setWidth, BitVec.toNat_ushiftRight, htotal0, Nat.shiftRight_eq_div_pow]
      omega
    have hbits : message.length % 2 ^ 32 / 2 ^ 29 < 2 ^ 3 := by omega
    have hor : low (ctx.total0 >>> 29 ||| ctx.total1 <<< 3) = low (ctx.total0 >>> 29) ||| low (ctx.total1 <<< 3) :=
      BitVec.setWidth_or
    apply BitVec.eq_of_toNat_eq
    rw [hor, BitVec.toNat_or, hupper, hlower, Nat.or_comm, ← Nat.shiftLeft_add_eq_or_of_lt hbits, Nat.shiftLeft_eq,
      BitVec.toNat_ofNat]
    omega
  rw [msglen, PUT_ULONG_BE_eq, PUT_ULONG_BE_eq, hlow, hhigh]

/-- `sha1_finish` outputs the digest of the bytes that the context stands for.
The context is left with the padding appended to them. -/
theorem sha1_finish_holds (hw : 32 ≤ w) {ctx : sha1_context w} {message : List UInt8} (h : ctx.Holds message) :
    (sha1_finish ctx).1 = sha1_standard.sha1 message ∧
      (sha1_finish ctx).2.Holds (message ++ padding message.length) ∧ (sha1_finish ctx).2.ipad = ctx.ipad ∧
      (sha1_finish ctx).2.opad = ctx.opad := by
  have hpad : (sha1_padding.take (padn ctx)).length < 2 ^ 32 := by
    rw [sha1_padding_take h hw, List.length_cons, List.length_replicate]
    omega
  have hlen : (msglen ctx).length < 2 ^ 32 := by
    rw [msglen_eq h hw, List.length_append, word_bytes_length, word_bytes_length]
    decide
  obtain ⟨hpadded, hipad, hopad⟩ := sha1_update_holds hw h hpad
  obtain ⟨hfinished, hipad', hopad'⟩ := sha1_update_holds hw hpadded hlen
  have hmessage : message ++ sha1_padding.take (padn ctx) ++ msglen ctx = message ++ padding message.length := by
    rw [sha1_padding_take h hw, msglen_eq h hw, padding, List.append_assoc, List.append_assoc]
  rw [hmessage] at hfinished
  refine ⟨?_, hfinished, hipad'.trans hipad, hopad'.trans hopad⟩
  have hstate := hfinished.state
  have hdigest : (digesting (message ++ padding message.length)).state.bytes = sha1_standard.sha1 message := rfl
  rw [← hdigest, ← hstate, sha1_finish]
  simp only [PUT_ULONG_BE_eq]
  rfl

end bismark_passive.polarssl
