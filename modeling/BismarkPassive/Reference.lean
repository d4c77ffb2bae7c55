import BismarkPassive.Output

namespace bismark_passive

/-- A little-endian 64-bit build without anonymisation, on which the closed
instances of the theorems run. Its processor truncates doubles modulo 2^32. -/
def reference_target : Target where
  disable_anonymization := true
  disable_flow_thresholding := false
  enable_frequent_updates := false
  enable_http_url := false
  big_endian := false
  sizeof_pointer := 8
  sizeof_pointer_cases := .inr rfl
  u32_of_double v := UInt32.ofNat v.floor.toNat
  u32_of_double_of_lt v hnonneg hlt := by
    have hfloor : v.floor < 2 ^ 32 := by exact_mod_cast Rat.floor_lt_iff.mpr (by exact_mod_cast hlt)
    have hpositive : 0 ≤ v.floor := Rat.le_floor_iff.mpr (by exact_mod_cast hnonneg)
    rw [UInt32.toNat_ofNat_of_lt']
    rw [UInt32.size]
    omega

/-- Its name expansion knows the root name only, its keyed hash is never called. -/
def reference_session : Session where
  target := reference_target
  externals :=
    { sha1_hmac := fun _ _ => Vector.replicate _ 0
      dn_expand := fun message offset => if message[offset]? = some 0 then some ([], 1) else none }
  build_id := []
  bismark_id := []
  start_timestamp_microseconds := 0
  anonymization := { seed := [], seed_hex_digest := [], initialized := false }

/-- The same with the anonymiser initialised. -/
def initialized_session : Session :=
  { reference_session with anonymization := { reference_session.anonymization with initialized := true } }

/-- The same with anonymisation. -/
def anonymizing_session : Session :=
  { initialized_session with target := { reference_target with disable_anonymization := false } }

/-- A file that takes every line. -/
def healthy_file : gzFile where
  gzprintf_returns _ := 1
  calls := 0
  written := []

theorem healthy_file_healthy : healthy_file.Healthy := fun _ _ => Int.one_pos

end bismark_passive
