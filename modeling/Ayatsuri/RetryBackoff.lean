import Mathlib

/-! The delay before a retry or a repetition (`internal/core/retry.go`). Durations are 64-bit integers of nanoseconds,
the factor is a finite `float64`, and `math.Pow` is a parameter. -/
namespace Ayatsuri.RetryBackoff

/-! ### Floating-point numbers -/

inductive Float64
  | nan
  | inf (negative : Bool)
  | finite (x : ℚ)

/-- The distance of the numbers with 53 significant bits around `x`, not below that of the subnormal ones. -/
def ulp (x : ℚ) : ℚ := 2 ^ max (Int.log 2 |x| - 52) (-1074)

/-- The nearest integer, and of two the even one. -/
def roundEven (x : ℚ) : ℤ :=
  if x - ⌊x⌋ < 1 / 2 ∨ x - ⌊x⌋ = 1 / 2 ∧ Even ⌊x⌋ then ⌊x⌋ else ⌊x⌋ + 1

def rounded (x : ℚ) : ℚ := roundEven (x / ulp x) * ulp x

def float64 (x : ℚ) : Float64 := if |rounded x| < 2 ^ 1024 then .finite (rounded x) else .inf (rounded x < 0)

def Float64.mul : Float64 → Float64 → Float64
  | .finite x, .finite y => float64 (x * y)
  | .inf negative, .finite x | .finite x, .inf negative => if x = 0 then .nan else .inf (negative ^^ decide (x < 0))
  | .inf negative, .inf negative' => .inf (negative ^^ negative')
  | .nan, _ | _, .nan => .nan

lemma roundEven_intCast (n : ℤ) : roundEven n = n := by
  simp [roundEven]

lemma rounded_zero : rounded 0 = 0 := by
  have hzero := roundEven_intCast 0
  simp only [Int.cast_zero] at hzero
  simp [rounded, hzero]

/-- A number of 53 significant bits is not rounded. -/
lemma rounded_exact {m : ℤ} {j : ℤ} (hm : |m| < 2 ^ 53) (hj : -1074 ≤ j) : rounded (m * 2 ^ j) = m * 2 ^ j := by
  by_cases hzero : m = 0
  · simp [hzero, rounded_zero]
  have hpositive : (0 : ℚ) < |(m : ℚ) * 2 ^ j| := by positivity
  have hlog : Int.log 2 |(m : ℚ) * 2 ^ j| < 53 + j := by
    rw [← Int.lt_zpow_iff_log_lt (by norm_num) hpositive, abs_mul, abs_of_pos (by positivity : (0 : ℚ) < 2 ^ j)]
    push_cast
    rw [zpow_add₀ (by norm_num)]
    exact mul_lt_mul_of_pos_right (by exact_mod_cast hm) (by positivity)
  obtain ⟨d, hd⟩ : ∃ d : ℕ, j = max (Int.log 2 |(m : ℚ) * 2 ^ j| - 52) (-1074) + d :=
    Int.le.dest (max_le (by omega) hj) |>.imp fun _ h => h.symm
  have hquotient : (m : ℚ) * 2 ^ j / ulp (m * 2 ^ j) = (m * 2 ^ d : ℤ) := by
    unfold ulp
    set e := max (Int.log 2 |(m : ℚ) * 2 ^ j| - 52) (-1074)
    rw [hd, zpow_add₀ (by norm_num), zpow_natCast, div_eq_iff (by positivity)]
    push_cast
    ring
  have hulp : ulp ((m : ℚ) * 2 ^ j) ≠ 0 := by
    unfold ulp
    positivity
  rw [rounded, hquotient, roundEven_intCast, ← hquotient, div_mul_cancel₀ _ hulp]

lemma float64_exact {m : ℤ} {j : ℕ} (hm : |m| < 2 ^ 53) (hj : j ≤ 971) : float64 (m * 2 ^ j) = .finite (m * 2 ^ j) := by
  have hexact := rounded_exact (j := j) hm (by omega)
  rw [zpow_natCast] at hexact
  rw [float64, hexact, if_pos]
  calc |(m : ℚ) * 2 ^ j| = |(m : ℚ)| * 2 ^ j := by rw [abs_mul, abs_of_pos (by positivity : (0 : ℚ) < 2 ^ j)]
    _ < 2 ^ 53 * 2 ^ j := mul_lt_mul_of_pos_right (by exact_mod_cast hm) (by positivity)
    _ ≤ 2 ^ 53 * 2 ^ 971 := by gcongr; norm_num
    _ = 2 ^ 1024 := (pow_add 2 53 971).symm

lemma float64_intCast {m : ℤ} (hm : |m| < 2 ^ 53) : float64 m = .finite m := by
  simpa using float64_exact (j := 0) hm (by omega)

/-! ### The delay -/

def minInt64 : ℤ := -2 ^ 63

def maxInt64 : ℤ := 2 ^ 63 - 1

/-- `time.Duration` of a float: truncation, and on amd64 the least integer for what is out of range. -/
def toDuration : Float64 → ℤ
  | .nan | .inf _ => minInt64
  | .finite x =>
    let n := if 0 ≤ x then ⌊x⌋ else ⌈x⌉
    if minInt64 ≤ n ∧ n ≤ maxInt64 then n else minInt64

section
variable (pow : ℚ → Float64 → Float64) (interval : ℤ) (backoff : ℚ)

def sleepTime (attemptCount : ℤ) : Float64 := (float64 interval).mul (pow backoff (float64 attemptCount))

def calculateBackoffInterval (maxInterval attemptCount : ℤ) : ℤ :=
  let attemptCount := if attemptCount < 0 then 0 else attemptCount
  if 0 < backoff then
    let sleepTime := sleepTime pow interval backoff attemptCount
    if 0 < maxInterval ∧ maxInterval < toDuration sleepTime then maxInterval else toDuration sleepTime
  else interval

/-- The floating-point product is truncated to the same number of nanoseconds as the exact one. -/
def Faithful (n : ℕ) : Prop := ∃ x, sleepTime pow interval backoff n = .finite x ∧ ⌊x⌋ = ⌊interval * backoff ^ n⌋

end

section
variable {pow : ℚ → Float64 → Float64} {interval maxInterval : ℤ} {backoff : ℚ} {n : ℕ}

lemma calculateBackoffInterval_eq (hbackoff : 0 < backoff) (hmax : 0 < maxInterval) :
    calculateBackoffInterval pow interval backoff maxInterval n =
      min (toDuration (sleepTime pow interval backoff n)) maxInterval := by
  simp only [calculateBackoffInterval, if_neg (not_lt.mpr (Int.natCast_nonneg n)), if_pos hbackoff, hmax, true_and]
  split_ifs with hlt
  · exact (min_eq_right hlt.le).symm
  · exact (min_eq_left (not_lt.mp hlt)).symm

lemma toDuration_sleepTime (hinterval : 0 ≤ interval) (hbackoff : 1 ≤ backoff) (hfaithful : Faithful pow interval backoff n) :
    toDuration (sleepTime pow interval backoff n) =
      if interval * backoff ^ n < 2 ^ 63 then ⌊interval * backoff ^ n⌋ else minInt64 := by
  obtain ⟨x, hsleep, hfloor⟩ := hfaithful
  have hproduct : 0 ≤ ⌊interval * backoff ^ n⌋ := Int.floor_nonneg.mpr (by positivity)
  have hx : 0 ≤ x := Int.floor_nonneg.mp (hfloor ▸ hproduct)
  have hiff : interval * backoff ^ n < 2 ^ 63 ↔ ⌊interval * backoff ^ n⌋ < 2 ^ 63 := by
    rw [Int.floor_lt]
    norm_num
  rw [hsleep]
  simp only [toDuration, if_pos hx, hfloor, hiff]
  refine if_congr ⟨fun h => Int.lt_of_le_sub_one h.2, fun h => ⟨?_, Int.le_sub_one_of_lt h⟩⟩ rfl rfl
  exact le_trans (by decide) hproduct

lemma delay_of_lt (hinterval : 0 ≤ interval) (hbackoff : 1 ≤ backoff) (hmax : 0 < maxInterval)
    (hfaithful : Faithful pow interval backoff n) (hlt : interval * backoff ^ n < 2 ^ 63) :
    calculateBackoffInterval pow interval backoff maxInterval n = min ⌊interval * backoff ^ n⌋ maxInterval := by
  rw [calculateBackoffInterval_eq (by positivity) hmax, toDuration_sleepTime hinterval hbackoff hfaithful, if_pos hlt]

lemma delay_of_least (hbackoff : 1 ≤ backoff) (hmax : 0 < maxInterval)
    (hleast : toDuration (sleepTime pow interval backoff n) = minInt64) :
    calculateBackoffInterval pow interval backoff maxInterval n = minInt64 := by
  rw [calculateBackoffInterval_eq (by positivity) hmax, hleast]
  exact min_eq_left (by unfold minInt64; omega)

lemma product_mono (hinterval : 0 ≤ interval) (hbackoff : 1 ≤ backoff) {m : ℕ} (hmn : m ≤ n) :
    (interval : ℚ) * backoff ^ m ≤ interval * backoff ^ n :=
  mul_le_mul_of_nonneg_left (pow_le_pow_right₀ hbackoff hmn) (by exact_mod_cast hinterval)

end

/-- The power that is rounded once, for a whole number. -/
def roundedPow (x : ℚ) : Float64 → Float64
  | .finite n => float64 (x ^ ⌊n⌋)
  | .nan | .inf _ => .nan

lemma sleepTime_doubled {interval : ℤ} {n : ℕ} (hinterval : |interval| < 2 ^ 53) (hn : n ≤ 971) :
    sleepTime roundedPow interval 2 n = .finite (interval * 2 ^ n) := by
  have hcount : float64 (n : ℤ) = .finite (n : ℤ) := float64_intCast (by rw [abs_of_nonneg (by positivity)]; omega)
  have hpow : float64 (2 ^ n) = .finite (2 ^ n) := by simpa using float64_exact (m := 1) (by norm_num) hn
  rw [sleepTime, float64_intCast hinterval, hcount, roundedPow, Int.floor_intCast, zpow_natCast, hpow]
  exact float64_exact hinterval hn

lemma float64_overflow : float64 (2 ^ 1024) = .inf false := by
  have hexact := rounded_exact (m := 1) (j := (1024 : ℕ)) (by norm_num) (by omega)
  rw [zpow_natCast, Int.cast_one, one_mul] at hexact
  have hpositive : (0 : ℚ) ≤ 2 ^ 1024 := by positivity
  rw [float64, hexact, abs_of_nonneg hpositive, if_neg (lt_irrefl _), decide_eq_false (not_lt.mpr hpositive)]

lemma float64_odd : float64 9007199254740993 = .finite (2 ^ 53) := by
  have hlog : Int.log 2 (9007199254740993 : ℚ) = 53 := by
    have hnat := Int.log_natCast (R := ℚ) 2 9007199254740993
    rw [Nat.cast_ofNat] at hnat
    rw [hnat, show Nat.log 2 9007199254740993 = 53 from (Nat.log_eq_iff (by norm_num)).mpr (by norm_num)]
    rfl
  have hrounded : rounded 9007199254740993 = 2 ^ 53 := by norm_num [rounded, ulp, roundEven, hlog]
  rw [float64, hrounded, if_pos]
  rw [abs_of_pos (by positivity)]
  exact pow_lt_pow_right₀ (by norm_num) (by norm_num)

end Ayatsuri.RetryBackoff
