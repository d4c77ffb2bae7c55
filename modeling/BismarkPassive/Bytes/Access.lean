import Mathlib.Data.List.Basic
import Mathlib.Data.List.TakeWhile

namespace bytes

/-- A computation that loads bytes from memory and stores bytes into it, one
address at a time. A loop whose bound runs out is a `fault`. -/
inductive Access (α : Type) where
  | done (value : α)
  | fault
  | load (address : Nat) (next : UInt8 → Access α)
  | store (address : Nat) (byte : UInt8) (next : Access α)

namespace Access

variable {α β : Type}

def bind : Access α → (α → Access β) → Access β
  | done value, next => next value
  | fault, _ => fault
  | load address rest, next => load address fun byte => (rest byte).bind next
  | store address byte rest, next => store address byte (rest.bind next)

instance : Monad Access where
  pure := done
  bind := bind

/-- The result and what is then in memory, unless the computation leaves the memory. -/
def run : Access α → List UInt8 → Option (α × List UInt8)
  | done value, memory => some (value, memory)
  | fault, _ => none
  | load address next, memory => memory[address]?.bind fun byte => (next byte).run memory
  | store address byte next, memory =>
    if address < memory.length then next.run (memory.set address byte) else none

/-- From this memory on, the computation loads and stores no byte at the limit
or behind it. -/
def Within (limit : Nat) : Access α → List UInt8 → Prop
  | done _, _ => True
  | fault, _ => False
  | load address next, memory =>
    address < limit ∧ ∃ byte, memory[address]? = some byte ∧ (next byte).Within limit memory
  | store address byte next, memory => address < limit ∧ next.Within limit (memory.set address byte)

variable {memory memory' : List UInt8}

@[simp] theorem run_pure (value : α) : (pure value : Access α).run memory = some (value, memory) := rfl

@[simp] theorem run_fault : (fault : Access α).run memory = none := rfl

@[simp] theorem run_bind (access : Access α) (next : α → Access β) :
    (access >>= next).run memory = (access.run memory).bind fun result => (next result.1).run result.2 := by
  induction access generalizing memory with
  | done value => rfl
  | fault => rfl
  | load address rest ih =>
    have hload : (load address rest >>= next).run memory =
        memory[address]?.bind fun byte => (rest byte >>= next).run memory := rfl
    rw [hload, run, Option.bind_assoc]
    exact congrArg (memory[address]?.bind ·) (funext fun byte => ih byte)
  | store address byte rest ih =>
    have hstore : (store address byte rest >>= next).run memory =
        if address < memory.length then (rest >>= next).run (memory.set address byte) else none := rfl
    rw [hstore, run]
    split
    · exact ih
    · rfl

/-- Bytes behind the memory are not needed by a computation that runs without them. -/
theorem run_append {access : Access α} {value : α} (h : access.run memory = some (value, memory'))
    (behind : List UInt8) : access.run (memory ++ behind) = some (value, memory' ++ behind) := by
  induction access generalizing memory with
  | done result =>
    obtain ⟨rfl, rfl⟩ := Prod.mk.inj (Option.some.inj h)
    rfl
  | fault => cases h
  | load address next ih =>
    obtain ⟨byte, hbyte, hnext⟩ := Option.bind_eq_some_iff.mp h
    have hinside : address < memory.length := (List.getElem?_eq_some_iff.mp hbyte).1
    rw [run, List.getElem?_append_left hinside, hbyte]
    exact ih byte hnext
  | store address byte next ih =>
    rw [run] at h
    split at h
    · rename_i hinside
      rw [run, if_pos (by rw [List.length_append]; omega), List.set_append_left address byte hinside]
      exact ih h
    · cases h

/-- A computation stays within the first bytes of memory exactly if it runs in
these bytes alone. -/
theorem within_iff_run (access : Access α) (memory behind : List UInt8) :
    access.Within memory.length (memory ++ behind) ↔ (access.run memory).isSome := by
  induction access generalizing memory with
  | done value => simp [Within, run]
  | fault => simp [Within, run]
  | load address next ih =>
    by_cases hinside : address < memory.length
    · rw [Within, run, List.getElem?_append_left hinside, List.getElem?_eq_getElem hinside]
      simp only [hinside, true_and, Option.some.injEq, exists_eq_left', Option.bind_some]
      exact ih _ memory
    · rw [Within, run, List.getElem?_eq_none (Nat.not_lt.mp hinside)]
      simp [hinside]
  | store address byte next ih =>
    by_cases hinside : address < memory.length
    · have hlength : memory.length = (memory.set address byte).length := List.length_set.symm
      rw [Within, run, if_pos hinside, List.set_append_left address byte hinside, hlength, ih]
      simp only [← hlength, hinside, true_and]
    · rw [Within, run, if_neg hinside]
      simp [hinside]

end Access

def access8 (address : Nat) : Access UInt8 := .load address .done

def store8 (address : Nat) (byte : UInt8) : Access Unit := .store address byte (.done ())

def store_bytes : Nat → List UInt8 → Access Unit
  | _, [] => pure ()
  | address, byte :: content => do
    store8 address byte
    store_bytes (address + 1) content

/-- The first address from this one on where the byte does not pass the test. -/
def skip (passes : UInt8 → Bool) : Nat → Nat → Access Nat
  | 0, _ => .fault
  | bound + 1, address => do
    let byte ← access8 address
    if passes byte then skip passes bound (address + 1) else pure address

/-- The string from the address on. -/
def access_string : Nat → Nat → Access (List UInt8)
  | 0, _ => .fault
  | bound + 1, address => do
    let byte ← access8 address
    if byte = 0 then pure []
    else do
      let rest ← access_string bound (address + 1)
      pure (byte :: rest)

variable {before text : List UInt8} {byte : UInt8}

@[simp] theorem run_access8 :
    (access8 before.length).run (before ++ byte :: text) = some (byte, before ++ byte :: text) := by
  simp [access8, Access.run]

@[simp] theorem run_access8_end : (access8 before.length).run before = none := by
  simp [access8, Access.run]

@[simp] theorem run_store8 (stored : UInt8) :
    (store8 before.length stored).run (before ++ byte :: text) = some ((), before ++ stored :: text) := by
  simp [store8, Access.run]

@[simp] theorem run_store8_end (stored : UInt8) : (store8 before.length stored).run before = none := by
  simp [store8, Access.run]

/-- What is stored takes the place of as many bytes. -/
theorem run_store_bytes {content : List UInt8} (h : content.length ≤ text.length) :
    (store_bytes before.length content).run (before ++ text) =
      some ((), before ++ content ++ text.drop content.length) := by
  induction content generalizing before text with
  | nil => simp [store_bytes]
  | cons stored content ih =>
    cases text with
    | nil => exact absurd h (Nat.not_succ_le_zero _)
    | cons byte text =>
      have hrest := @ih (before ++ [stored]) text (Nat.le_of_succ_le_succ h)
      rw [List.length_append, List.length_singleton] at hrest
      rw [store_bytes, Access.run_bind, run_store8, Option.bind_some, List.append_cons, hrest, List.length_cons,
        List.drop_succ_cons, List.append_cons before stored content]

/-- Without room for all of it the stores leave the memory. -/
theorem run_store_bytes_end {content : List UInt8} (h : text.length < content.length) :
    (store_bytes before.length content).run (before ++ text) = none := by
  induction content generalizing before text with
  | nil => exact absurd h (Nat.not_lt_zero _)
  | cons stored content ih =>
    cases text with
    | nil => rw [store_bytes, Access.run_bind, List.append_nil, run_store8_end, Option.bind_none]
    | cons byte text =>
      have hrest := @ih (before ++ [stored]) text (Nat.lt_of_succ_lt_succ h)
      rw [List.length_append, List.length_singleton] at hrest
      rw [store_bytes, Access.run_bind, run_store8, Option.bind_some, List.append_cons, hrest]

/-- A byte that fails the test ends the loop. -/
theorem run_skip {passes : UInt8 → Bool} {skipped : List UInt8} (hskipped : ∀ byte ∈ skipped, passes byte = true)
    (hbyte : passes byte = false) {bound : Nat} (hbound : skipped.length < bound) :
    (skip passes bound before.length).run (before ++ skipped ++ byte :: text) =
      some ((before ++ skipped).length, before ++ skipped ++ byte :: text) := by
  induction skipped generalizing before bound with
  | nil =>
    obtain ⟨bound, rfl⟩ := Nat.exists_eq_add_of_le' hbound
    simp [skip, hbyte]
  | cons first skipped ih =>
    obtain ⟨bound, rfl⟩ := Nat.exists_eq_add_of_le' (Nat.le_trans (Nat.succ_le_succ (Nat.zero_le _)) hbound)
    obtain ⟨hfirst, hrest⟩ := List.forall_mem_cons.mp hskipped
    have hih := @ih (before ++ [first]) hrest bound (by simpa using hbound)
    have hbefore : before ++ first :: skipped = before ++ [first] ++ skipped := List.append_cons _ _ _
    have hload : (access8 before.length).run (before ++ [first] ++ skipped ++ byte :: text) =
        some (first, before ++ [first] ++ skipped ++ byte :: text) := by
      simp
    rw [hbefore, skip, Access.run_bind, hload, Option.bind_some, if_pos hfirst, ← hih, List.length_append,
      List.length_singleton]

/-- Without such a byte the loop leaves the memory. -/
theorem run_skip_end {passes : UInt8 → Bool} {skipped : List UInt8} (hskipped : ∀ byte ∈ skipped, passes byte = true)
    (bound : Nat) : (skip passes bound before.length).run (before ++ skipped) = none := by
  induction skipped generalizing before bound with
  | nil =>
    cases bound with
    | zero => rfl
    | succ bound => simp [skip]
  | cons first skipped ih =>
    cases bound with
    | zero => rfl
    | succ bound =>
      obtain ⟨hfirst, hrest⟩ := List.forall_mem_cons.mp hskipped
      have hih := @ih (before ++ [first]) hrest bound
      rw [List.length_append, List.length_singleton, List.append_assoc, List.singleton_append] at hih
      simp only [skip, Access.run_bind, run_access8, Option.bind_some, hfirst, if_true]
      exact hih

/-- A string that ends within the bound is read whole. -/
theorem run_access_string {string : List UInt8} (hstring : 0 ∉ string) {bound : Nat} (hbound : string.length < bound) :
    (access_string bound before.length).run (before ++ string ++ 0 :: text) =
      some (string, before ++ string ++ 0 :: text) := by
  induction string generalizing before bound with
  | nil =>
    obtain ⟨bound, rfl⟩ := Nat.exists_eq_add_of_le' hbound
    simp [access_string]
  | cons first string ih =>
    obtain ⟨bound, rfl⟩ := Nat.exists_eq_add_of_le' (Nat.le_trans (Nat.succ_le_succ (Nat.zero_le _)) hbound)
    obtain ⟨hfirst, hrest⟩ := not_or.mp (fun h => hstring (List.mem_cons.mpr h))
    have hih := @ih (before ++ [first]) hrest bound (by simpa using hbound)
    have hbefore : before ++ first :: string = before ++ [first] ++ string := List.append_cons _ _ _
    have hload : (access8 before.length).run (before ++ [first] ++ string ++ 0 :: text) =
        some (first, before ++ [first] ++ string ++ 0 :: text) := by
      simp
    rw [List.length_append, List.length_singleton] at hih
    rw [hbefore, access_string, Access.run_bind, hload, Option.bind_some, if_neg (Ne.symm hfirst), Access.run_bind,
      hih]
    rfl

end bytes
