import BismarkPassive.Output

namespace bismark_passive

/-! `whitelist.c` -/

/-- The field `size` is the length of `domains`. -/
structure domain_whitelist_t where
  domains : List cstring

def domain_whitelist_init : domain_whitelist_t := ⟨[]⟩

/-- The domain is the whitelisted one or a name below it. -/
def whitelisted_by (domain whitelisted : cstring) : Bool :=
  let domain_offset : Int := domain.length - whitelisted.length
  decide (0 ≤ domain_offset) && domain.drop domain_offset.toNat == whitelisted &&
    (domain_offset == 0 || domain[domain_offset.toNat - 1]? == some 46)

def domain_whitelist_lookup (whitelist : domain_whitelist_t) (domain : cstring) : Int :=
  if whitelist.domains.any (whitelisted_by domain) then 0 else -1

def domain_whitelist_write_update (whitelist : domain_whitelist_t) : gzFile → writer_result × gzFile :=
  write_lines write_blank (whitelist.domains.map fun domain => some (.domain domain))

/-! `bloom-whitelist.c` -/

def sax_hash (key : cstring) : UInt32 :=
  key.foldl (fun h byte => h ^^^ ((h <<< 5) + (h >>> 2) + byte.toUInt32)) 0

def sdbm_hash (key : cstring) : UInt32 :=
  key.foldl (fun h byte => byte.toUInt32 + (h <<< 6) + (h <<< 16) - h) 0

/-- The bit array and the hash functions are `none` where the pointer or the
array element is not set. -/
structure bloom_whitelist_t where
  asize : Nat
  a : Option (Nat → UInt8)
  nfuncs : Nat
  funcs : Nat → Option (cstring → UInt32)

def GETBIT (a : Nat → UInt8) (n : Nat) : Bool := (a (n / 8)).toNat.testBit (n % 8)

/-- The remaining iterations of the loop; `none` when the process crashes in it. -/
def bloom_lookup_from (bloom : bloom_whitelist_t) (domain : cstring) : List Nat → Option Int
  | [] => some 0
  | n :: rest => do
    let func ← bloom.funcs n
    let a ← bloom.a
    if GETBIT a ((func domain).toNat % bloom.asize) then bloom_lookup_from bloom domain rest else some (-1)

def bloom_whitelist_lookup (bloom : bloom_whitelist_t) (domain : cstring) : Option Int :=
  bloom_lookup_from bloom domain (List.range bloom.nfuncs)

/-- The static variable before its initialisation. -/
def bloom_whitelist_zero : bloom_whitelist_t where
  asize := 0
  a := none
  nfuncs := 0
  funcs _ := none

def bloom_whitelist_init (bloom : bloom_whitelist_t) : bloom_whitelist_t :=
  { bloom with
    asize := BLOOMSIZE
    nfuncs := NUMHASH }

/-- What loading gets from its surroundings: whether the two allocations
succeed, and the bytes of the filter file if it can be opened. -/
structure filter_io where
  calloc : Bool
  filter : Option (List UInt8)
  malloc : Bool

/-- The bit array after `fread`; what the file does not have stays zero. -/
def read_filter (bloom : bloom_whitelist_t) (filter : List UInt8) : Nat → UInt8 :=
  fun n => (filter.take ((bloom.asize + 8 - 1) / 8)).getD n 0

def bloom_whitelist_load (io : filter_io) (bloom : bloom_whitelist_t) : Int × bloom_whitelist_t :=
  if io.calloc then
    match io.filter with
    | none => (-1, { bloom with a := some fun _ => 0 })
    | some filter =>
      if io.malloc then
        (0, { bloom with
          a := some (read_filter bloom filter)
          funcs := fun n => if n = 0 then some sax_hash else if n = 1 then some sdbm_hash else none })
      else
        (-1, { bloom with
          a := some (read_filter bloom filter)
          funcs := fun _ => none })
  else (-1, { bloom with a := none })

/-- The return value, after which `main` goes on in any case, and the variable. -/
def initialize_bloom_whitelist (io : filter_io) : Int × bloom_whitelist_t :=
  bloom_whitelist_load io (bloom_whitelist_init bloom_whitelist_zero)

/-- However loading fails, the loop of a lookup is entered and finds no function. -/
theorem bloom_whitelist_lookup_unloaded {io : filter_io} (hfailed : (initialize_bloom_whitelist io).1 = -1)
    (domain : cstring) : bloom_whitelist_lookup (initialize_bloom_whitelist io).2 domain = none := by
  unfold initialize_bloom_whitelist bloom_whitelist_load at hfailed ⊢
  cases hcalloc : io.calloc with
  | false => rfl
  | true =>
    rw [hcalloc] at hfailed
    cases hfilter : io.filter with
    | none => rfl
    | some filter =>
      cases hmalloc : io.malloc with
      | false => rfl
      | true => simp [hfilter, hmalloc] at hfailed

end bismark_passive
