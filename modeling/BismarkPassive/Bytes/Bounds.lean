import BismarkPassive.Bytes.Reader

namespace bytes

variable {α β : Type} {memory : Nat → UInt8} {limit : Nat}

namespace Reader

/-- In this memory the computation loads no byte at the limit or behind it. -/
def Within (memory : Nat → UInt8) (limit : Nat) : Reader α → Prop
  | done _ => True
  | load address next => address < limit ∧ (next (memory address)).Within memory limit

instance within_decidable (memory : Nat → UInt8) (limit : Nat) :
    (reader : Reader α) → Decidable (reader.Within memory limit)
  | done _ => inferInstanceAs (Decidable True)
  | load address next =>
    have := within_decidable memory limit (next (memory address))
    inferInstanceAs (Decidable (address < limit ∧ (next (memory address)).Within memory limit))

@[simp] theorem within_pure (value : α) : (pure value : Reader α).Within memory limit ↔ True := Iff.rfl

/-- The second computation is the one that follows in this memory. -/
@[simp] theorem within_bind (reader : Reader α) (next : α → Reader β) :
    (reader >>= next).Within memory limit ↔
      reader.Within memory limit ∧ (next (reader.run memory)).Within memory limit := by
  induction reader with
  | done value => exact (true_and _).to_iff.symm
  | load address rest ih => exact (and_congr_right fun _ => ih (memory address)).trans and_assoc.symm

@[simp] theorem within_ite (condition : Prop) [Decidable condition] (first second : Reader α) :
    (if condition then first else second).Within memory limit ↔
      if condition then first.Within memory limit else second.Within memory limit := by
  split <;> rfl

/-- What lies behind the limit has no influence. -/
theorem Within.run_congr {memory' : Nat → UInt8} {reader : Reader α} (h : reader.Within memory limit)
    (hagree : ∀ address < limit, memory' address = memory address) : reader.run memory' = reader.run memory := by
  induction reader with
  | done value => rfl
  | load address next ih =>
    obtain ⟨haddress, hnext⟩ := h
    rw [run, run, hagree address haddress]
    exact ih _ hnext

theorem Within.mono {limit' : Nat} {reader : Reader α} (h : reader.Within memory limit) (hle : limit ≤ limit') :
    reader.Within memory limit' := by
  induction reader with
  | done value => trivial
  | load address next ih => exact ⟨Nat.lt_of_lt_of_le h.1 hle, ih _ h.2⟩

end Reader

@[simp] theorem within_load8 (address : Nat) : (load8 address).Within memory limit ↔ address + 1 ≤ limit :=
  (and_true _).to_iff

@[simp] theorem within_load16 (address : Nat) : (load16 address).Within memory limit ↔ address + 2 ≤ limit := by
  simp only [load16, Reader.within_bind, within_load8, Reader.within_pure, and_true]
  omega

@[simp] theorem within_load32 (address : Nat) : (load32 address).Within memory limit ↔ address + 4 ≤ limit := by
  simp only [load32, Reader.within_bind, within_load16, Reader.within_pure, and_true]
  omega

theorem within_load_bytes {address length : Nat} (h : address + length ≤ limit) :
    (load_bytes address length).Within memory limit := by
  induction length generalizing address with
  | zero => trivial
  | succ length ih =>
    rw [load_bytes, Reader.within_bind, within_load8, Reader.within_bind]
    exact ⟨by omega, ih (by omega), trivial⟩

/-- Loading some bytes reads up to the last of them. -/
theorem within_load_bytes_iff {address length : Nat} (hlength : 0 < length) :
    (load_bytes address length).Within memory limit ↔ address + length ≤ limit := by
  refine ⟨fun h => ?_, within_load_bytes⟩
  induction length generalizing address with
  | zero => exact absurd hlength (Nat.lt_irrefl 0)
  | succ length ih =>
    rw [load_bytes, Reader.within_bind, within_load8, Reader.within_bind] at h
    obtain ⟨hfirst, hrest, -⟩ := h
    cases length with
    | zero => exact hfirst
    | succ length =>
      have hlast := ih (Nat.zero_lt_succ length) hrest
      omega

/-- A word is in memory where it is loaded from. -/
theorem holds_be16_iff {address : Nat} {word : UInt16} :
    Holds memory address (be16 word) ↔ (load16 address).run memory = word := by
  refine ⟨run_load16, ?_⟩
  rintro rfl
  have hhigh : (memory address).toNat < 2 ^ 8 := (memory address).toNat_lt
  have hlow : (memory (address + 1)).toNat < 2 ^ 8 := (memory (address + 1)).toNat_lt
  simp only [load16, Reader.run_bind, Reader.run_pure, run_load8]
  refine ⟨?_, ?_, trivial⟩
  · apply UInt8.toNat_inj.mp
    simp only [UInt8.toNat_ofNat', UInt16.toNat_ofNat']
    omega
  · apply UInt8.toNat_inj.mp
    simp only [UInt8.toNat_ofNat', UInt16.toNat_ofNat']
    omega

theorem holds_be32_iff {address : Nat} {word : UInt32} :
    Holds memory address (be32 word) ↔ (load32 address).run memory = word := by
  refine ⟨run_load32, ?_⟩
  rintro rfl
  have hhigh := ((load16 address).run memory).toNat_lt
  have hlow := ((load16 (address + 2)).run memory).toNat_lt
  rw [be32, holds_append, be16_length, holds_be16_iff, holds_be16_iff]
  simp only [load32, Reader.run_bind, Reader.run_pure]
  constructor
  · apply UInt16.toNat_inj.mp
    simp only [UInt16.toNat_ofNat', UInt32.toNat_ofNat']
    omega
  · apply UInt16.toNat_inj.mp
    simp only [UInt16.toNat_ofNat', UInt32.toNat_ofNat']
    omega

/-- What memory holds depends only on the cells it lies in. -/
theorem Holds.congr {memory' : Nat → UInt8} {address : Nat} {content : List UInt8}
    (h : Holds memory address content) (hinside : address + content.length ≤ limit)
    (hagree : ∀ address < limit, memory' address = memory address) : Holds memory' address content := by
  induction content generalizing address with
  | nil => trivial
  | cons byte content ih =>
    rw [List.length_cons] at hinside
    exact ⟨(hagree address (by omega)).trans h.1, ih h.2 (by omega)⟩

theorem load_bytes_length (address length : Nat) : ((load_bytes address length).run memory).length = length := by
  induction length generalizing address with
  | zero => rfl
  | succ length ih => simp only [load_bytes, Reader.run_bind, Reader.run_pure, List.length_cons, ih]

theorem holds_load_bytes (address length : Nat) : Holds memory address ((load_bytes address length).run memory) := by
  induction length generalizing address with
  | zero => trivial
  | succ length ih =>
    simp only [load_bytes, Reader.run_bind, Reader.run_pure, run_load8]
    exact ⟨rfl, ih (address + 1)⟩

/-- A loaded word is the number that its bytes stand for. -/
theorem run_load16_be_value (address : Nat) :
    ((load16 address).run memory).toNat = be_value ((load_bytes address 2).run memory) := by
  have hhigh : (memory address).toNat < 2 ^ 8 := (memory address).toNat_lt
  have hlow : (memory (address + 1)).toNat < 2 ^ 8 := (memory (address + 1)).toNat_lt
  simp only [load16, load_bytes, Reader.run_bind, Reader.run_pure, run_load8, be_value, List.foldl_cons,
    List.foldl_nil, UInt16.toNat_ofNat']
  omega

theorem run_load32_be_value (address : Nat) :
    ((load32 address).run memory).toNat = be_value ((load_bytes address 4).run memory) := by
  have hbound (location : Nat) : (memory location).toNat < 2 ^ 8 := (memory location).toNat_lt
  have hfirst := hbound address
  have hsecond := hbound (address + 1)
  have hthird := hbound (address + 2)
  have hfourth := hbound (address + 3)
  rw [run_load32_value (holds_load_bytes address 4) (load_bytes_length address 4), UInt32.toNat_ofNat']
  simp only [load_bytes, Reader.run_bind, Reader.run_pure, run_load8, be_value, List.foldl_cons, List.foldl_nil,
    Nat.add_assoc, Nat.reduceAdd]
  omega

/-- Loading more bytes only adds to the end. -/
theorem load_bytes_prefix {address first whole : Nat} (hle : first ≤ whole) :
    (load_bytes address first).run memory <+: (load_bytes address whole).run memory := by
  induction first generalizing address whole with
  | zero => exact List.nil_prefix
  | succ first ih =>
    obtain ⟨whole, rfl⟩ := Nat.exists_eq_add_of_le' (Nat.le_trans (Nat.succ_le_succ (Nat.zero_le first)) hle)
    simp only [load_bytes, Reader.run_bind, Reader.run_pure, run_load8]
    exact List.cons_prefix_cons.mpr ⟨rfl, ih (Nat.le_of_succ_le_succ hle)⟩

end bytes
