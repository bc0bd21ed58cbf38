import CloutQuery.Proofs.Number.CorrectRounding

namespace CloutQuery.Decimal

open Double (overflowBound RoundsTo)

variable {d : Decimal}

def absValue (d : Decimal) : ℚ := d.digits * 10 ^ d.exponent

def value (d : Decimal) : ℚ := if d.negative then -d.absValue else d.absValue

theorem abs_value (d : Decimal) : |d.value| = d.absValue := by
  have hpos : 0 ≤ d.absValue := by
    unfold absValue
    positivity
  unfold value
  split_ifs
  · rw [abs_neg, abs_of_nonneg hpos]
  · exact abs_of_nonneg hpos

theorem scaled_eq_absValue (d : Decimal) :
    ((d.digits * powerOf 10 d.exponent : ℕ) : ℚ) / (powerOf 10 (-d.exponent) : ℕ) = d.absValue := by
  have hpow := powerOf_div (show 0 < 10 by decide) d.exponent
  rw [Nat.cast_mul, mul_div_assoc, hpow]
  rfl

theorem digits_bounds (h : 0 < d.digits) :
    10 ^ ((natText d.digits).length - 1) ≤ d.digits ∧ d.digits < 10 ^ (natText d.digits).length := by
  have hpos : 0 < (natText d.digits).length := Nat.length_toDigits_pos
  refine ⟨?_, (Nat.length_toDigits_le_iff (by decide) hpos).1 le_rfl⟩
  rcases Nat.eq_zero_or_pos ((natText d.digits).length - 1) with hone | hmore
  · rw [hone]
    exact h
  · refine not_lt.1 fun hlt ↦ ?_
    have hle : (natText d.digits).length ≤ (natText d.digits).length - 1 :=
      (Nat.length_toDigits_le_iff (by decide) hmore).2 hlt
    omega

/-- The magnitude of a literal lies in the decade that is told without computing it. -/
theorem absValue_bounds (h : 0 < d.digits) :
    (10 : ℚ) ^ (d.magnitude - 1) ≤ d.absValue ∧ d.absValue < 10 ^ d.magnitude := by
  obtain ⟨hlow, hhigh⟩ := digits_bounds h
  have hpos : 0 < (natText d.digits).length := Nat.length_toDigits_pos
  have hu : (0 : ℚ) < 10 ^ d.exponent := zpow_pos (by norm_num) _
  unfold absValue magnitude
  constructor
  · have hlow' : (10 : ℚ) ^ ((natText d.digits).length - 1) ≤ d.digits := by exact_mod_cast hlow
    rw [show ((natText d.digits).length : ℤ) + d.exponent - 1 =
      ((natText d.digits).length - 1 : ℕ) + d.exponent by omega, zpow_add₀ (by norm_num), zpow_natCast]
    exact mul_le_mul_of_nonneg_right hlow' hu.le
  · have hhigh' : (d.digits : ℚ) < 10 ^ (natText d.digits).length := by exact_mod_cast hhigh
    rw [zpow_add₀ (by norm_num), zpow_natCast]
    exact mul_lt_mul_of_pos_right hhigh' hu

theorem overflowBound_le_of_magnitude (h : 0 < d.digits) (hm : 310 < d.magnitude) :
    overflowBound ≤ d.absValue := by
  have hten : (2 : ℚ) ^ 1024 ≤ 10 ^ (310 : ℤ) := by
    have hnat : 2 ^ 1024 ≤ 10 ^ 310 := by decide +kernel
    rw [show (310 : ℤ) = (310 : ℕ) from rfl, zpow_natCast]
    exact_mod_cast hnat
  calc overflowBound ≤ 2 ^ 1024 := Double.overflowBound_lt.le
    _ ≤ 10 ^ (310 : ℤ) := hten
    _ ≤ 10 ^ (d.magnitude - 1) := zpow_le_zpow_right₀ (by norm_num) (by omega)
    _ ≤ d.absValue := (absValue_bounds h).1

theorem absValue_lt_of_magnitude (h : 0 < d.digits) (hm : d.magnitude < -330) :
    d.absValue < 2 ^ (-1075 : ℤ) := by
  have hten : (10 : ℚ) ^ (-330 : ℤ) ≤ 2 ^ (-1075 : ℤ) := by
    have hnat : 2 ^ 1075 ≤ 10 ^ 330 := by decide +kernel
    rw [zpow_neg, zpow_neg, show (330 : ℤ) = (330 : ℕ) from rfl, show (1075 : ℤ) = (1075 : ℕ) from rfl,
      zpow_natCast, zpow_natCast]
    exact inv_anti₀ (pow_pos two_pos _) (by exact_mod_cast hnat)
  calc d.absValue < 10 ^ d.magnitude := (absValue_bounds h).2
    _ ≤ 10 ^ (-330 : ℤ) := zpow_le_zpow_right₀ (by norm_num) (by omega)
    _ ≤ 2 ^ (-1075 : ℤ) := hten

theorem toDouble?_eq_nearest? (d : Decimal) :
    d.toDouble? =
      Double.nearest? d.negative (d.digits * powerOf 10 d.exponent) (powerOf 10 (-d.exponent)) := by
  have hpow (e : ℤ) : 0 < powerOf 10 e := powerOf_pos (by decide) e
  rcases Nat.eq_zero_or_pos d.digits with hzero | hpos
  · simp [toDouble?, Double.nearest?, hzero]
  unfold toDouble?
  split_ifs with hlow hhigh
  · refine (Double.nearest?_of_tiny (Nat.mul_pos hpos (hpow _)) (hpow _) ?_).symm
    rw [scaled_eq_absValue]
    exact absValue_lt_of_magnitude hpos (hlow.resolve_left hpos.ne')
  · refine (Option.not_isSome_iff_eq_none.1 fun hsome ↦ ?_).symm
    rw [Double.nearest?_isSome_iff (hpow _), scaled_eq_absValue] at hsome
    exact absurd (overflowBound_le_of_magnitude hpos hhigh) (not_le.2 hsome)
  · rfl

theorem toDouble?_isSome_iff : d.toDouble?.isSome ↔ |d.value| < overflowBound := by
  rw [toDouble?_eq_nearest?, Double.nearest?_isSome_iff (powerOf_pos (by decide) _),
    scaled_eq_absValue, abs_value]

theorem toDouble?_roundsTo {x : Double} (h : d.toDouble? = some x) : RoundsTo d.value x := by
  rw [toDouble?_eq_nearest?] at h
  have hrounds := Double.nearest?_roundsTo (powerOf_pos (by decide) _) h
  rwa [scaled_eq_absValue] at hrounds

/-- The float has the sign of the literal, also where it is zero. -/
theorem toDouble?_negative {x : Double} (h : d.toDouble? = some x) : x.negative = d.negative := by
  rw [toDouble?_eq_nearest?] at h
  rcases Nat.eq_zero_or_pos (d.digits * powerOf 10 d.exponent) with hzero | hpos
  · have hx : x = Double.zero d.negative := by simpa [Double.nearest?, hzero, eq_comm] using h
    rw [hx]
    rfl
  · exact (Double.nearest?_eq_some hpos (powerOf_pos (by decide) _) h).1

end CloutQuery.Decimal
