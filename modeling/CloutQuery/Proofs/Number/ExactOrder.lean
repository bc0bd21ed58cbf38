import CloutQuery.Proofs.Number.Rounding

namespace CloutQuery

namespace Double

variable {n : ℤ} {d : Double}

theorem signed_natAbs (n : ℤ) :
    (if decide (n < 0) then -((n.natAbs : ℚ) / (1 : ℕ)) else (n.natAbs : ℚ) / (1 : ℕ)) = n := by
  rw [Nat.cast_one, div_one, Nat.cast_natAbs]
  by_cases hneg : n < 0
  · rw [if_pos (by simpa using hneg), abs_of_neg hneg]
    push_cast
    ring
  · rw [if_neg (by simpa using hneg), abs_of_nonneg (by omega)]

theorem ofInt?_nearest (h : ofInt? n = some d) (other : Double) :
    |(n : ℚ) - d.value| ≤ |(n : ℚ) - other.value| := by
  have hnear := nearest?_nearest Nat.one_pos h other
  rwa [signed_natAbs] at hnear

theorem ofInt?_isSome (hn : n.natAbs < 0x20000000000000000) : (ofInt? n).isSome := by
  rcases Nat.eq_zero_or_pos n.natAbs with h | h
  · simp [ofInt?, nearest?, h]
  · refine nearest?_isSome _ h Nat.one_pos ?_
    have hlog : n.natAbs.log2 < 65 := (Nat.log2_lt h.ne').2 hn
    unfold exponentBound
    omega

theorem lt_of_ofInt?_lt (other : Double) (h : ofInt? n = some d) (hlt : d.value < other.value) :
    (n : ℚ) < other.value := by
  by_contra hge
  have hnear := ofInt?_nearest h other
  rw [abs_of_nonneg (by linarith), abs_of_nonneg (by linarith)] at hnear
  linarith

theorem lt_of_lt_ofInt? (other : Double) (h : ofInt? n = some d) (hlt : other.value < d.value) :
    other.value < (n : ℚ) := by
  by_contra hge
  have hnear := ofInt?_nearest h other
  rw [abs_of_nonpos (by linarith), abs_of_nonpos (by linarith)] at hnear
  linarith

/-- A whole number lies on every grid finer than one, so it is changed only by rounding to whole
numbers. -/
theorem ofInt?_integral (h : ofInt? n = some d) : ∃ z : ℤ, d.value = z := by
  rcases Nat.eq_zero_or_pos n.natAbs with h₀ | hpos
  · have hd : d = zero (decide (n < 0)) := by simpa [ofInt?, nearest?, h₀, eq_comm] using h
    exact ⟨0, by simp [hd, value, zero]⟩
  · obtain ⟨hneg, hm, -⟩ := nearest?_eq_some hpos Nat.one_pos h
    have hmagnitude : ∃ k : ℤ, (d.significand : ℚ) * 2 ^ d.exponent = k := by
      rcases le_total 0 d.exponent with he | he
      · obtain ⟨e, he⟩ := Int.eq_ofNat_of_zero_le he
        refine ⟨d.significand * 2 ^ e, ?_⟩
        rw [he]
        push_cast
        rfl
      · obtain ⟨e, he⟩ := Int.eq_ofNat_of_zero_le (show 0 ≤ -d.exponent by omega)
        obtain he : d.exponent = -e := by omega
        have hnear := significandAt_nearest n.natAbs Nat.one_pos d.exponent
          (n.natAbs * 2 ^ e)
        have hgrid : ((n.natAbs * 2 ^ e : ℤ) : ℚ) * 2 ^ d.exponent = n.natAbs := by
          rw [he]
          rw [Int.cast_mul, Int.cast_natCast, Int.cast_pow, Int.cast_ofNat, zpow_neg, zpow_natCast,
            mul_assoc, mul_inv_cancel₀ (by positivity), mul_one]
        rw [hgrid, Nat.cast_one, div_one, sub_self, abs_zero, ← hm] at hnear
        have hexact := sub_eq_zero.1 (abs_nonpos_iff.1 hnear)
        exact ⟨n.natAbs, by rw [← hexact, Int.cast_natCast]⟩
    obtain ⟨k, hk⟩ := hmagnitude
    unfold value
    split_ifs
    · exact ⟨-k, by rw [neg_mul, hk, Int.cast_neg]⟩
    · exact ⟨k, hk⟩

theorem truncate_eq {z : ℤ} (h : d.value = z) : d.truncate = z := by
  have hp : (0 : ℚ) < powerOf 2 (-d.exponent) := by exact_mod_cast powerOf_pos two_pos _
  have hfraction : (d.significand : ℚ) * 2 ^ d.exponent =
      (d.significand * powerOf 2 d.exponent : ℕ) / powerOf 2 (-d.exponent) := by
    have hpow := powerOf_div two_pos d.exponent
    rw [Nat.cast_ofNat] at hpow
    rw [← hpow, Nat.cast_mul, mul_div_assoc]
  have hmagnitude : (d.significand : ℚ) * 2 ^ d.exponent = z.natAbs := by
    have hpos : (0 : ℚ) ≤ (d.significand : ℚ) * 2 ^ d.exponent := by positivity
    rw [Nat.cast_natAbs, Int.cast_abs, ← h, value, ← abs_of_nonneg hpos]
    split_ifs <;> simp [abs_mul]
  have hdiv : d.significand * powerOf 2 d.exponent / powerOf 2 (-d.exponent) = z.natAbs := by
    refine Nat.div_eq_of_eq_mul_left (powerOf_pos two_pos _) ?_
    rw [hfraction, div_eq_iff hp.ne'] at hmagnitude
    exact_mod_cast hmagnitude
  unfold truncate
  dsimp only
  rw [hdiv]
  unfold value at h
  split_ifs at h ⊢
  · rw [neg_mul, hmagnitude, ← Int.cast_natCast, ← Int.cast_neg] at h
    exact Int.cast_injective h
  · rw [hmagnitude, ← Int.cast_natCast] at h
    exact Int.cast_injective h

theorem ofInt?_bounds (hn : -0x8000000000000000 ≤ n ∧ n < 0x10000000000000000)
    (h : ofInt? n = some d) : -2 ^ 64 ≤ d.value ∧ d.value ≤ 2 ^ 64 := by
  have hend (negative : Bool) : ∃ e : Double, e.value = if negative then -2 ^ 64 else 2 ^ 64 :=
    ⟨⟨negative, 0x10000000000000, 12, by decide⟩, by cases negative <;> norm_num [value]⟩
  obtain ⟨low, hlow⟩ := hend true
  obtain ⟨high, hhigh⟩ := hend false
  simp only [if_true, Bool.false_eq_true, if_false] at hlow hhigh
  constructor
  · by_contra hlt
    have hpast := lt_of_ofInt?_lt low h (by linarith)
    rw [hlow] at hpast
    have : n < -2 ^ 64 := by exact_mod_cast hpast
    omega
  · by_contra hgt
    have hpast := lt_of_lt_ofInt? high h (by linarith)
    rw [hhigh] at hpast
    have : 2 ^ 64 < n := by exact_mod_cast hpast
    omega

theorem value_zero (negative : Bool) : (zero negative).value = 0 := by
  cases negative <;> simp [value, zero]

/-- Rounding a whole number keeps its sign: it does not pass one and minus one, which are floats. -/
theorem ofInt?_sign (h : ofInt? n = some d) : cmp d.value 0 = cmp (n : ℚ) 0 := by
  have hunit (negative : Bool) : ∃ e : Double, e.value = if negative then -1 else 1 :=
    ⟨⟨negative, 0x10000000000000, -52, by decide⟩, by cases negative <;> norm_num [value]⟩
  rcases lt_trichotomy n 0 with hn | rfl | hn
  · obtain ⟨e, he⟩ := hunit true
    have hd : d.value ≤ -1 := by
      by_contra hgt
      have hpast := lt_of_lt_ofInt? e h (by rw [he]; simpa using hgt)
      rw [he, if_pos rfl] at hpast
      have : -1 < n := by exact_mod_cast hpast
      omega
    rw [(cmp_eq_lt_iff _ _).2 (by linarith : d.value < 0),
      (cmp_eq_lt_iff _ _).2 (by exact_mod_cast hn : (n : ℚ) < 0)]
  · cases h
    rw [value_zero, Int.cast_zero]
  · obtain ⟨e, he⟩ := hunit false
    have hd : 1 ≤ d.value := by
      by_contra hlt
      have hpast := lt_of_ofInt?_lt e h (by rw [he]; simpa using hlt)
      rw [he, if_neg Bool.false_ne_true] at hpast
      have : n < 1 := by exact_mod_cast hpast
      omega
    rw [(cmp_eq_gt_iff _ _).2 (by linarith : 0 < d.value),
      (cmp_eq_gt_iff _ _).2 (by exact_mod_cast hn : (0 : ℚ) < n)]

end Double

namespace Number

def value : Number → ℚ
  | .integer n _ => n
  | .double d => d.value

theorem toDouble?_sign (n : Number) :
    ∃ d, n.toDouble? = some d ∧ d.compare (Double.zero false) = cmp n.value 0 := by
  cases n with
  | integer n hn =>
    obtain ⟨d, hd⟩ := Option.isSome_iff_exists.1 (Double.ofInt?_isSome (n := n) (by omega))
    refine ⟨d, hd, ?_⟩
    rw [Double.compare_eq_cmp, Double.value_zero]
    exact Double.ofInt?_sign hd
  | double d =>
    refine ⟨d, rfl, ?_⟩
    rw [Double.compare_eq_cmp, Double.value_zero]
    rfl

theorem compareInteger_eq_cmp {n : ℤ} (hn : -0x8000000000000000 ≤ n ∧ n < 0x10000000000000000)
    (d : Double) : compareInteger n d = cmp (n : ℚ) d.value := by
  obtain ⟨r, hr⟩ := Option.isSome_iff_exists.1 (Double.ofInt?_isSome (n := n) (by omega))
  unfold compareInteger
  rw [hr]
  dsimp only
  rw [Double.compare_eq_cmp]
  rcases lt_trichotomy r.value d.value with h | h | h
  · have hlt := Double.lt_of_ofInt?_lt _ hr h
    rw [(cmp_eq_lt_iff _ _).2 h, (cmp_eq_lt_iff _ _).2 hlt]
    rfl
  · obtain ⟨z, hz⟩ := Double.ofInt?_integral hr
    have hbounds := Double.ofInt?_bounds hn hr
    rw [hz] at hbounds
    have hlow : -2 ^ 64 ≤ z := by exact_mod_cast hbounds.1
    have hhigh : z ≤ 2 ^ 64 := by exact_mod_cast hbounds.2
    have hcut : d.toInt128 = z := by
      unfold Double.toInt128
      rw [Double.truncate_eq (h ▸ hz)]
      omega
    rw [(cmp_eq_eq_iff _ _).2 h, hcut, ← h, hz]
    exact compareOfLessAndEq_eq_cmp Int.cast_lt.symm Int.cast_inj.symm
  · have hgt := Double.lt_of_lt_ofInt? _ hr h
    rw [(cmp_eq_gt_iff _ _).2 h, (cmp_eq_gt_iff _ _).2 hgt]
    rfl

theorem compare_eq_cmp (a b : Number) : a.compare b = cmp a.value b.value := by
  cases a with
  | integer m hm =>
    cases b with
    | integer n hn => exact compareOfLessAndEq_eq_cmp Int.cast_lt.symm Int.cast_inj.symm
    | double e => exact compareInteger_eq_cmp hm e
  | double d =>
    cases b with
    | integer n hn =>
      rw [← cmp_swap]
      exact congrArg Ordering.swap (compareInteger_eq_cmp hn d)
    | double e => exact Double.compare_eq_cmp d e

end Number

end CloutQuery
