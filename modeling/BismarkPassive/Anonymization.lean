import BismarkPassive.Target

namespace bismark_passive

/-! `util.c` -/

def hex_digit (nibble : UInt8) : UInt8 :=
  if nibble < 10 then 48 + nibble else 87 + nibble

/-- `NULL` for inputs longer than the guard allows, lower-case digits otherwise. -/
def buffer_to_hex (buffer : List UInt8) : Option cstring :=
  if 1024 - 1 < buffer.length then none
  else some (buffer.flatMap fun byte : UInt8 => [hex_digit (byte >>> 4), hex_digit (byte &&& 0xf)])

theorem buffer_to_hex_isSome {buffer : List UInt8} (h : buffer.length ≤ 1023) : (buffer_to_hex buffer).isSome := by
  rw [buffer_to_hex, if_neg (by omega)]
  rfl

/-- The digits of the bytes. -/
def hex_digits (bytes : List UInt8) : cstring :=
  bytes.flatMap fun byte : UInt8 => [hex_digit (byte >>> 4), hex_digit (byte &&& 0xf)]

theorem buffer_to_hex_eq_some_iff {buffer : List UInt8} {hex : cstring} :
    buffer_to_hex buffer = some hex ↔ buffer.length ≤ 1023 ∧ hex = hex_digits buffer := by
  rw [buffer_to_hex, ← hex_digits]
  split
  · exact iff_of_false (by simp) (by omega)
  · rw [Option.some.injEq, eq_comm]
    exact (and_iff_right (by omega)).symm

/-- The digits that `%x` prints. -/
def LowerHex (digit : UInt8) : Prop := (48 ≤ digit ∧ digit ≤ 57) ∨ (97 ≤ digit ∧ digit ≤ 102)

instance (digit : UInt8) : Decidable (LowerHex digit) := inferInstanceAs (Decidable (_ ∨ _))

theorem LowerHex.ne_zero {digit : UInt8} (h : LowerHex digit) : digit ≠ 0 := by
  rintro rfl
  exact absurd h (by decide)

/-- The value of a digit. -/
def hex_value (digit : UInt8) : Option Nat :=
  if 48 ≤ digit ∧ digit ≤ 57 then some (digit.toNat - 48)
  else if 97 ≤ digit ∧ digit ≤ 102 then some (digit.toNat - 87)
  else none

/-- The bytes that a string of digits stands for, two digits a byte. -/
def hex_decode : cstring → Option (List UInt8)
  | [] => some []
  | [_] => none
  | high :: low :: rest => do
    let high ← hex_value high
    let low ← hex_value low
    let rest ← hex_decode rest
    pure (.ofNat (high * 16 + low) :: rest)

theorem high_nibble (byte : UInt8) : byte >>> 4 = .ofNat (byte.toNat / 16) := by
  have hlt := byte.toNat_lt
  have hshift : (byte >>> 4).toNat = byte.toNat / 16 :=
    UInt8.toNat_shiftRight byte 4 ▸ Nat.shiftRight_eq_div_pow byte.toNat 4
  apply UInt8.toNat_inj.mp
  rw [hshift, UInt8.toNat_ofNat']
  omega

theorem low_nibble (byte : UInt8) : byte &&& 0xf = .ofNat (byte.toNat % 16) := by
  have hmask : (byte &&& 0xf).toNat = byte.toNat % 16 :=
    UInt8.toNat_and byte 0xf ▸ Nat.and_two_pow_sub_one_eq_mod byte.toNat 4
  apply UInt8.toNat_inj.mp
  rw [hmask, UInt8.toNat_ofNat']
  omega

theorem lowerHex_hex_digit {nibble : Nat} (h : nibble < 16) : LowerHex (hex_digit (.ofNat nibble)) := by
  have hdigits : ∀ n < 16, LowerHex (hex_digit (.ofNat n)) := by decide
  exact hdigits nibble h

theorem hex_value_hex_digit {nibble : Nat} (h : nibble < 16) :
    hex_value (hex_digit (.ofNat nibble)) = some nibble := by
  have hdigits : ∀ n < 16, hex_value (hex_digit (.ofNat n)) = some n := by decide
  exact hdigits nibble h

@[simp] theorem hex_digits_nil : hex_digits [] = [] := rfl

theorem hex_digits_cons (byte : UInt8) (bytes : List UInt8) :
    hex_digits (byte :: bytes) = hex_digit (byte >>> 4) :: hex_digit (byte &&& 0xf) :: hex_digits bytes := rfl

theorem hex_digits_length (bytes : List UInt8) : (hex_digits bytes).length = bytes.length * 2 := by
  induction bytes with
  | nil => rfl
  | cons byte bytes ih =>
    rw [hex_digits_cons, List.length_cons, List.length_cons, ih, List.length_cons]
    omega

theorem lowerHex_hex_digits {bytes : List UInt8} : ∀ digit ∈ hex_digits bytes, LowerHex digit := by
  induction bytes with
  | nil => exact fun _ hdigit => absurd hdigit List.not_mem_nil
  | cons byte bytes ih =>
    have hlt := byte.toNat_lt
    rw [hex_digits_cons, high_nibble, low_nibble]
    refine List.forall_mem_cons.mpr ⟨?_, List.forall_mem_cons.mpr ⟨?_, ih⟩⟩
    · apply lowerHex_hex_digit
      omega
    · apply lowerHex_hex_digit
      omega

/-- The digits stand for the bytes that they were made from. -/
theorem hex_decode_hex_digits (bytes : List UInt8) : hex_decode (hex_digits bytes) = some bytes := by
  induction bytes with
  | nil => rfl
  | cons byte bytes ih =>
    have hlt := byte.toNat_lt
    have hbyte : byte.toNat / 16 * 16 + byte.toNat % 16 = byte.toNat := Nat.div_add_mod' byte.toNat 16
    rw [hex_digits_cons, hex_decode, high_nibble, low_nibble, hex_value_hex_digit (by omega),
      hex_value_hex_digit (by omega), ih]
    simp only [Option.bind_eq_bind, Option.bind_some, Option.pure_def, hbyte, UInt8.ofNat_toNat]

/-- Different buffers have different digits. -/
theorem buffer_to_hex_injective {first second : List UInt8} {hex : cstring}
    (hfirst : buffer_to_hex first = some hex) (hsecond : buffer_to_hex second = some hex) : first = second := by
  obtain ⟨-, rfl⟩ := buffer_to_hex_eq_some_iff.mp hfirst
  obtain ⟨-, hsame⟩ := buffer_to_hex_eq_some_iff.mp hsecond
  have hdecoded := hex_decode_hex_digits second
  rw [← hsame, hex_decode_hex_digits] at hdecoded
  exact Option.some.inj hdecoded

def is_address_private (address : UInt32) : Bool :=
  address &&& 0xff000000 == 0x0a000000
    || address &&& 0xfff00000 == 0xac100000
    || address &&& 0xffff0000 == 0xc0a80000

/-! `anonymization.c` -/

/-- `none` is the failure of `assert(initialized)`. -/
def anonymization_process (s : Session) (data : List UInt8) : Option digest_t :=
  if s.anonymization.initialized then some (s.externals.sha1_hmac s.anonymization.seed data) else none

/-- The data has the same digest in both sessions. -/
def SameDigest (s s' : Session) (data : List UInt8) : Prop :=
  anonymization_process s' data = anonymization_process s data

/-- The static variables before the initialisation. -/
def anonymization_zero : anonymization_t where
  seed := List.replicate ANONYMIZATION_SEED_LEN 0
  seed_hex_digest := []
  initialized := false

/-- `seed_file` is what can be read from the seed file, `none` if it cannot be
opened. The digest of the seed is made after `initialized` has been set. -/
def anonymization_init (externals : Externals) (seed_file : Option (List UInt8)) : Option anonymization_t := do
  let contents ← seed_file
  if contents.length < ANONYMIZATION_SEED_LEN then none
  else do
    let seed := contents.take ANONYMIZATION_SEED_LEN
    let hex_digest ← buffer_to_hex (externals.sha1_hmac seed seed).toList
    pure { seed := seed, seed_hex_digest := hex_digest, initialized := true }

/-- An initialisation that succeeds sets `initialized`. -/
theorem anonymization_init_initialized {externals : Externals} {seed_file : Option (List UInt8)}
    {anonymization : anonymization_t} (h : anonymization_init externals seed_file = some anonymization) :
    anonymization.initialized = true := by
  simp only [anonymization_init, Option.bind_eq_bind, Option.bind_eq_some_iff] at h
  obtain ⟨contents, -, h⟩ := h
  split at h
  · cases h
  · simp only [Option.bind_eq_some_iff, Option.pure_def, Option.some.injEq] at h
    obtain ⟨_, -, rfl⟩ := h
    rfl

def anonymize_ip (s : Session) (address : UInt32) : Option UInt64 := do
  let address_digest ← anonymization_process s (s.target.bytes32 address)
  pure (s.target.u64_of_bytes (address_digest.toList.take 8))

def anonymize_domain (s : Session) (domain : cstring) : Option digest_t :=
  anonymization_process s domain

def anonymize_url (s : Session) (url : cstring) : Option digest_t :=
  anonymization_process s url

theorem ETH_ALEN_le_digest_length : ETH_ALEN ≤ ANONYMIZATION_DIGEST_LENGTH := by decide

/-- The vendor half of the address stays, the other half is digest bytes. -/
def anonymize_mac (s : Session) (mac : mac_address_t) : Option mac_address_t := do
  let mac_digest ← anonymization_process s mac.toList
  pure (Vector.ofFn fun i => if i.val < ETH_ALEN / 2 then mac.get i
    else mac_digest.get (i.castLE ETH_ALEN_le_digest_length))

theorem anonymize_mac_same {s s' : Session} {mac : mac_address_t} (h : SameDigest s s' mac.toList) :
    anonymize_mac s' mac = anonymize_mac s mac := by
  rw [anonymize_mac, h, anonymize_mac]

/-- The anonymiser has been initialised wherever the build uses it, as `main`
sees to before it starts capturing. -/
def Session.Initialized (s : Session) : Prop :=
  s.target.disable_anonymization = false → s.anonymization.initialized = true

end bismark_passive
