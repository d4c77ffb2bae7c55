import Mathlib.Algebra.Group.Nat.Defs
import Mathlib.Data.List.Basic
import Mathlib.Data.List.GetD

namespace bytes

/-- A computation that loads bytes from memory, one address at a time. -/
inductive Reader (α : Type) where
  | done (value : α)
  | load (address : Nat) (next : UInt8 → Reader α)

namespace Reader

variable {α β : Type}

def bind : Reader α → (α → Reader β) → Reader β
  | done value, next => next value
  | load address rest, next => load address fun byte => (rest byte).bind next

instance : Monad Reader where
  pure := done
  bind := bind

/-- The result of the computation in this memory. -/
def run (memory : Nat → UInt8) : Reader α → α
  | done value => value
  | load address next => (next (memory address)).run memory

variable {memory : Nat → UInt8}

@[simp] theorem run_pure (value : α) : (pure value : Reader α).run memory = value := rfl

@[simp] theorem run_bind (reader : Reader α) (next : α → Reader β) :
    (reader >>= next).run memory = (next (reader.run memory)).run memory := by
  induction reader with
  | done value => rfl
  | load address rest ih => exact ih (memory address)

@[simp] theorem run_ite (condition : Prop) [Decidable condition] (first second : Reader α) :
    (if condition then first else second).run memory =
      if condition then first.run memory else second.run memory := by
  split <;> rfl

end Reader

def load8 (address : Nat) : Reader UInt8 := .load address .done

/-- A 16-bit word in network byte order. -/
def load16 (address : Nat) : Reader UInt16 := do
  let high ← load8 address
  let low ← load8 (address + 1)
  pure (.ofNat (high.toNat * 2 ^ 8 + low.toNat))

/-- A 32-bit word in network byte order. -/
def load32 (address : Nat) : Reader UInt32 := do
  let high ← load16 address
  let low ← load16 (address + 2)
  pure (.ofNat (high.toNat * 2 ^ 16 + low.toNat))

def load_bytes : Nat → Nat → Reader (List UInt8)
  | _, 0 => pure []
  | address, length + 1 => do
    let byte ← load8 address
    let rest ← load_bytes (address + 1) length
    pure (byte :: rest)

variable {memory : Nat → UInt8}

@[simp] theorem run_load8 (address : Nat) : (load8 address).run memory = memory address := rfl

/-- The bytes of a word in network byte order. -/
def be16 (word : UInt16) : List UInt8 := [.ofNat (word.toNat / 2 ^ 8), .ofNat word.toNat]

def be32 (word : UInt32) : List UInt8 := be16 (.ofNat (word.toNat / 2 ^ 16)) ++ be16 (.ofNat word.toNat)

@[simp] theorem be16_length (word : UInt16) : (be16 word).length = 2 := rfl

@[simp] theorem be32_length (word : UInt32) : (be32 word).length = 4 := rfl

/-- These bytes are in memory from the address on. -/
def Holds (memory : Nat → UInt8) : Nat → List UInt8 → Prop
  | _, [] => True
  | address, byte :: content => memory address = byte ∧ Holds memory (address + 1) content

theorem holds_append {address : Nat} {first second : List UInt8} :
    Holds memory address (first ++ second) ↔
      Holds memory address first ∧ Holds memory (address + first.length) second := by
  induction first generalizing address with
  | nil => simp [Holds]
  | cons byte first ih =>
    rw [List.cons_append, Holds, Holds, ih, and_assoc, List.length_cons, Nat.add_assoc, Nat.add_comm 1]

/-- A list in memory is where its elements are. -/
theorem holds_of_getElem {address : Nat} {content : List UInt8}
    (h : ∀ i (hi : i < content.length), memory (address + i) = content[i]) : Holds memory address content := by
  induction content generalizing address with
  | nil => trivial
  | cons byte content ih =>
    refine ⟨h 0 (Nat.zero_lt_succ _), ih fun i hi => ?_⟩
    have hnext := h (i + 1) (Nat.succ_lt_succ hi)
    rwa [List.getElem_cons_succ, Nat.add_comm i, ← Nat.add_assoc] at hnext

theorem holds_getD (content : List UInt8) : Holds (fun address => content.getD address 0) 0 content := by
  refine holds_of_getElem fun i hi => ?_
  rw [Nat.zero_add]
  exact List.getD_eq_getElem content 0 hi

/-- Memory seen from a later address on. -/
theorem Holds.shift {offset address : Nat} {content : List UInt8} (h : Holds memory (offset + address) content) :
    Holds (fun address => memory (offset + address)) address content := by
  induction content generalizing address with
  | nil => trivial
  | cons byte content ih => exact ⟨h.1, ih h.2⟩

theorem Holds.of_prefix {address : Nat} {first whole : List UInt8} (h : Holds memory address whole)
    (hextended : first <+: whole) : Holds memory address first := by
  obtain ⟨rest, rfl⟩ := hextended
  exact (holds_append.mp h).1

theorem run_load16 {address : Nat} {word : UInt16} (h : Holds memory address (be16 word)) :
    (load16 address).run memory = word := by
  obtain ⟨hhigh, hlow, _⟩ := h
  have hword : word.toNat < 2 ^ 16 := word.toNat_lt
  simp only [load16, Reader.run_bind, Reader.run_pure, run_load8, hhigh, hlow]
  apply UInt16.toNat_inj.mp
  simp only [UInt8.toNat_ofNat', UInt16.toNat_ofNat']
  omega

theorem run_load32 {address : Nat} {word : UInt32} (h : Holds memory address (be32 word)) :
    (load32 address).run memory = word := by
  rw [be32, holds_append, be16_length] at h
  obtain ⟨hhigh, hlow⟩ := h
  have hword : word.toNat < 2 ^ 32 := word.toNat_lt
  simp only [load32, Reader.run_bind, Reader.run_pure, run_load16 hhigh, run_load16 hlow]
  apply UInt32.toNat_inj.mp
  simp only [UInt16.toNat_ofNat', UInt32.toNat_ofNat']
  omega

/-- The number that bytes in network byte order stand for. -/
def be_value (content : List UInt8) : Nat := content.foldl (fun value byte => value * 2 ^ 8 + byte.toNat) 0

/-- Four bytes in memory are loaded as the word they spell, highest byte first. -/
theorem run_load32_value {address : Nat} {content : List UInt8} (h : Holds memory address content)
    (hlength : content.length = 4) : (load32 address).run memory = .ofNat (be_value content) := by
  obtain ⟨first, second, third, fourth, rfl⟩ := List.length_eq_four.mp hlength
  obtain ⟨hfirst, hsecond, hthird, hfourth, _⟩ := h
  have hbound (byte : UInt8) : byte.toNat < 2 ^ 8 := byte.toNat_lt
  have hfirst_lt := hbound first
  have hsecond_lt := hbound second
  have hthird_lt := hbound third
  have hfourth_lt := hbound fourth
  simp only [load32, load16, Reader.run_bind, Reader.run_pure, run_load8, hfirst, hsecond, hthird, hfourth]
  apply UInt32.toNat_inj.mp
  simp only [UInt16.toNat_ofNat', UInt32.toNat_ofNat', be_value, List.foldl_cons, List.foldl_nil]
  omega

theorem run_load_bytes {address : Nat} {content : List UInt8} (h : Holds memory address content) :
    (load_bytes address content.length).run memory = content := by
  induction content generalizing address with
  | nil => rfl
  | cons byte content ih =>
    obtain ⟨hbyte, hcontent⟩ := h
    simp only [List.length_cons, load_bytes, Reader.run_bind, Reader.run_pure, run_load8, ih hcontent, hbyte]

end bytes
