import CloutQuery.Number.Basic
import Mathlib.Algebra.Order.Field.Rat
import Mathlib.Tactic

namespace CloutQuery

theorem powerOf_pos {base : ℕ} (h : 0 < base) (e : ℤ) : 0 < powerOf base e := Nat.pow_pos h

/-- The two powers of opposite exponents make up the power as a fraction. -/
theorem powerOf_div {base : ℕ} (h : 0 < base) (e : ℤ) :
    (powerOf base e : ℚ) / powerOf base (-e) = (base : ℚ) ^ e := by
  have hb : (base : ℚ) ≠ 0 := by exact_mod_cast h.ne'
  unfold powerOf
  simp only [Nat.pow_eq, Nat.cast_pow]
  rcases le_total 0 e with he | he
  · obtain ⟨n, rfl⟩ := Int.eq_ofNat_of_zero_le he
    simp
  · obtain ⟨n, hn⟩ := Int.eq_ofNat_of_zero_le (show 0 ≤ -e by omega)
    obtain rfl : e = -n := by omega
    simp

theorem compareOfLessAndEq_eq_cmp {α : Type} [LT α] [DecidableLT α] [DecidableEq α] {x y : α}
    {u v : ℚ} (hlt : x < y ↔ u < v) (heq : x = y ↔ u = v) :
    compareOfLessAndEq x y = cmp u v := by
  unfold compareOfLessAndEq cmp cmpUsing
  simp only [hlt, heq]
  rcases lt_trichotomy u v with h | h | h
  · simp [h]
  · simp [h]
  · simp [h, h.not_gt, h.ne']

namespace Double

variable {num den : ℕ}

theorem roundHalfEven_error (num : ℕ) (hden : 0 < den) :
    |(num : ℚ) / den - roundHalfEven num den| ≤ 1 / 2 := by
  have hd : (0 : ℚ) < den := by exact_mod_cast hden
  have hsplit : (num : ℚ) / den = (num / den : ℕ) + (num % den : ℕ) / (den : ℚ) := by
    have h := Nat.div_add_mod num den
    rw [div_eq_iff hd.ne', add_mul, div_mul_cancel₀ _ hd.ne', mul_comm _ (den : ℚ)]
    exact_mod_cast h.symm
  have hlt : (num % den : ℕ) < (den : ℚ) := by exact_mod_cast Nat.mod_lt num hden
  have hrest : 0 ≤ (num % den : ℕ) / (den : ℚ) ∧ (num % den : ℕ) / (den : ℚ) < 1 :=
    ⟨by positivity, (div_lt_one hd).2 hlt⟩
  unfold roundHalfEven
  dsimp only
  split_ifs with h
  · have hhalf : (num % den : ℕ) / (den : ℚ) ≤ 1 / 2 := by
      rw [div_le_iff₀ hd]
      have : 2 * (num % den) ≤ den := by omega
      have : 2 * ((num % den : ℕ) : ℚ) ≤ den := by exact_mod_cast this
      linarith
    rw [hsplit, add_sub_cancel_left, abs_of_nonneg hrest.1]
    exact hhalf
  · have hhalf : 1 / 2 ≤ (num % den : ℕ) / (den : ℚ) := by
      rw [le_div_iff₀ hd]
      have : den ≤ 2 * (num % den) := by omega
      have : (den : ℚ) ≤ 2 * ((num % den : ℕ) : ℚ) := by exact_mod_cast this
      linarith
    rw [hsplit, Nat.cast_add, Nat.cast_one, abs_le]
    constructor <;> linarith [hrest.2]

theorem roundHalfEven_nearest (num : ℕ) (hden : 0 < den) (k : ℤ) :
    |(num : ℚ) / den - roundHalfEven num den| ≤ |(num : ℚ) / den - k| := by
  have herr := roundHalfEven_error num hden
  by_cases hk : (roundHalfEven num den : ℤ) = k
  · rw [← hk, Int.cast_natCast]
  · have hgap : (1 : ℤ) ≤ |(roundHalfEven num den : ℤ) - k| :=
      Int.one_le_abs (sub_ne_zero.2 hk)
    have hgap' : (1 : ℚ) ≤ |(roundHalfEven num den : ℚ) - k| := by exact_mod_cast hgap
    have htri := abs_sub_le (roundHalfEven num den : ℚ) ((num : ℚ) / den) k
    rw [abs_sub_comm _ ((num : ℚ) / den)] at htri
    linarith

def value (d : Double) : ℚ :=
  (if d.negative then -(d.significand : ℚ) else d.significand) * 2 ^ d.exponent

/-- The count of units is the number on a scale that does not depend on it. -/
theorem units_eq_value (d : Double) : (d.units : ℚ) = d.value * (2 : ℚ) ^ (1074 : ℤ) := by
  have hc := d.canonical
  have hpow : (powerOf 2 (d.exponent + 1074) : ℚ) = 2 ^ d.exponent * 2 ^ (1074 : ℤ) := by
    rw [← zpow_add₀ two_ne_zero]
    obtain ⟨n, hn⟩ := Int.eq_ofNat_of_zero_le (show 0 ≤ d.exponent + 1074 by
      have := hc.2.1
      omega)
    rw [hn]
    simp [powerOf]
  unfold units value
  dsimp only
  split_ifs
  · rw [Int.cast_neg, Int.cast_natCast, Nat.cast_mul, hpow]
    ring
  · rw [Int.cast_natCast, Nat.cast_mul, hpow]
    ring

theorem compare_eq_cmp (d e : Double) : d.compare e = cmp d.value e.value := by
  have hscale : (0 : ℚ) < 2 ^ (1074 : ℤ) := zpow_pos two_pos _
  refine compareOfLessAndEq_eq_cmp ?_ ?_
  · rw [← Int.cast_lt (R := ℚ), units_eq_value, units_eq_value, mul_lt_mul_iff_left₀ hscale]
  · rw [← Int.cast_inj (α := ℚ), units_eq_value, units_eq_value, mul_left_inj' hscale.ne']

theorem scaled_quotient (num den : ℕ) (e : ℤ) :
    ((num * powerOf 2 (-e) : ℕ) : ℚ) / (den * powerOf 2 e : ℕ) = (num : ℚ) / den / 2 ^ e := by
  have h := powerOf_div two_pos (-e)
  rw [neg_neg, zpow_neg, Nat.cast_ofNat] at h
  rw [Nat.cast_mul, Nat.cast_mul, mul_div_mul_comm, h, div_eq_mul_inv _ ((2 : ℚ) ^ e)]

theorem significandAt_error (num : ℕ) (hden : 0 < den) (e : ℤ) :
    |(num : ℚ) / den / 2 ^ e - significandAt num den e| ≤ 1 / 2 := by
  rw [← scaled_quotient]
  exact roundHalfEven_error _ (Nat.mul_pos hden (powerOf_pos two_pos e))

theorem abs_sub_mul_zpow (x y : ℚ) (e : ℤ) : |x - y * 2 ^ e| = |x / 2 ^ e - y| * 2 ^ e := by
  have hu : (0 : ℚ) < 2 ^ e := zpow_pos two_pos e
  rw [← abs_of_pos hu, ← abs_mul, abs_of_pos hu, sub_mul, div_mul_cancel₀ _ hu.ne']

theorem significandAt_nearest (num : ℕ) (hden : 0 < den) (e k : ℤ) :
    |(num : ℚ) / den - significandAt num den e * 2 ^ e| ≤ |(num : ℚ) / den - k * 2 ^ e| := by
  have h := roundHalfEven_nearest (num * powerOf 2 (-e))
    (Nat.mul_pos hden (powerOf_pos two_pos e)) k
  rw [scaled_quotient] at h
  rw [abs_sub_mul_zpow, abs_sub_mul_zpow]
  exact mul_le_mul_of_nonneg_right h (zpow_pos two_pos e).le

theorem exists_mul_zpow_eq {e e' : ℤ} (hle : e ≤ e') (k : ℤ) :
    ∃ j : ℤ, (k : ℚ) * 2 ^ e' = j * 2 ^ e := by
  obtain ⟨n, hn⟩ := Int.eq_ofNat_of_zero_le (show 0 ≤ e' - e by omega)
  refine ⟨k * 2 ^ n, ?_⟩
  rw [show e' = n + e by omega, zpow_add₀ two_ne_zero, zpow_natCast]
  push_cast
  ring

theorem zpow_eq_two_mul (e : ℤ) : (2 : ℚ) ^ e = 2 * 2 ^ (e - 1) := by
  rw [← zpow_one_add₀ two_ne_zero]
  congr 1
  omega

/-- Of what has a lesser exponent, 53 binary digits stay below the power of two with 53 places. -/
theorem mul_zpow_le_of_lt {e e' k : ℤ} (hk : k < 2 ^ 53) (hlt : e' < e) :
    (k : ℚ) * 2 ^ e' ≤ (2 ^ 53 - 1) * 2 ^ (e - 1) := by
  have hk' : (k : ℚ) ≤ 2 ^ 53 - 1 := by exact_mod_cast Int.le_sub_one_of_lt hk
  calc (k : ℚ) * 2 ^ e' ≤ (2 ^ 53 - 1) * 2 ^ e' :=
        mul_le_mul_of_nonneg_right hk' (zpow_pos two_pos _).le
    _ ≤ (2 ^ 53 - 1) * 2 ^ (e - 1) := by
        refine mul_le_mul_of_nonneg_left ?_ (by norm_num)
        exact zpow_le_zpow_right₀ one_le_two (by omega)

/-- The grid of an exponent has the power of two with 53 places at the exponent below. -/
theorem significandAt_nearest_power (num : ℕ) (hden : 0 < den) (e : ℤ) :
    |(num : ℚ) / den - significandAt num den e * 2 ^ e| ≤
      |(num : ℚ) / den - 2 ^ 53 * 2 ^ (e - 1)| := by
  have hgrid := significandAt_nearest num hden e (2 ^ 52)
  have hpoint : (((2 : ℤ) ^ 52 : ℤ) : ℚ) * 2 ^ e = 2 ^ 53 * 2 ^ (e - 1) := by
    rw [zpow_eq_two_mul]
    push_cast
    ring
  rwa [hpoint] at hgrid

/-- With a lesser exponent the number would round to more than 53 binary digits. -/
def LeastExponent (x : ℚ) (e : ℤ) : Prop := e = -1074 ∨ 2 ^ 53 - 1 / 2 ≤ x / 2 ^ (e - 1)

theorem LeastExponent.le_of_lt {x : ℚ} {e e' : ℤ} (he : LeastExponent x e) (hlt : e' < e)
    (he' : -1074 ≤ e') : (2 ^ 53 - 1 / 2) * 2 ^ (e - 1) ≤ x :=
  (le_div_iff₀ (zpow_pos two_pos _)).1 (he.resolve_left (by omega))

/-- Rounded at the least exponent with room for it, a number is as near as any 53 binary digits
come. What has a greater exponent lies on the same grid; what has a lesser one lies below a point of
the grid that is below the number. -/
theorem LeastExponent.nearest {e e' k : ℤ} (hden : 0 < den)
    (he : LeastExponent ((num : ℚ) / den) e) (hk : k < 2 ^ 53) (he' : -1074 ≤ e') :
    |(num : ℚ) / den - significandAt num den e * 2 ^ e| ≤ |(num : ℚ) / den - k * 2 ^ e'| := by
  rcases le_or_gt e e' with hle | hlt
  · obtain ⟨j, hgrid⟩ := exists_mul_zpow_eq hle k
    rw [hgrid]
    exact significandAt_nearest num hden e _
  · have hlow := he.le_of_lt hlt he'
    have hother := mul_zpow_le_of_lt hk hlt
    have hu : (0 : ℚ) < 2 ^ (e - 1) := zpow_pos two_pos _
    refine (significandAt_nearest_power num hden e).trans ?_
    rw [abs_of_nonneg (show 0 ≤ (num : ℚ) / den - k * 2 ^ e' by linarith), abs_le]
    constructor <;> linarith

theorem quotient_bounds (hnum : 0 < num) (hden : 0 < den) :
    (2 : ℚ) ^ ((num.log2 : ℤ) - den.log2 - 1) < num / den ∧
      (num : ℚ) / den < 2 ^ ((num.log2 : ℤ) - den.log2 + 1) := by
  have hd : (0 : ℚ) < den := by exact_mod_cast hden
  have hnumLow : (2 : ℚ) ^ (num.log2 : ℤ) ≤ num := by
    rw [zpow_natCast]
    exact_mod_cast Nat.log2_self_le hnum.ne'
  have hnumHigh : (num : ℚ) < 2 ^ ((num.log2 : ℤ) + 1) := by
    rw [← Nat.cast_succ, zpow_natCast]
    exact_mod_cast Nat.lt_log2_self
  have hdenLow : (2 : ℚ) ^ (den.log2 : ℤ) ≤ den := by
    rw [zpow_natCast]
    exact_mod_cast Nat.log2_self_le hden.ne'
  have hdenHigh : (den : ℚ) < 2 ^ ((den.log2 : ℤ) + 1) := by
    rw [← Nat.cast_succ, zpow_natCast]
    exact_mod_cast Nat.lt_log2_self
  constructor
  · rw [lt_div_iff₀ hd]
    calc (2 : ℚ) ^ ((num.log2 : ℤ) - den.log2 - 1) * den
        < 2 ^ ((num.log2 : ℤ) - den.log2 - 1) * 2 ^ ((den.log2 : ℤ) + 1) :=
          mul_lt_mul_of_pos_left hdenHigh (zpow_pos two_pos _)
      _ = 2 ^ (num.log2 : ℤ) := by rw [← zpow_add₀ two_ne_zero]; congr 1; omega
      _ ≤ num := hnumLow
  · rw [div_lt_iff₀ hd]
    calc (num : ℚ) < 2 ^ ((num.log2 : ℤ) + 1) := hnumHigh
      _ = 2 ^ ((num.log2 : ℤ) - den.log2 + 1) * 2 ^ (den.log2 : ℤ) := by
          rw [← zpow_add₀ two_ne_zero]; congr 1; omega
      _ ≤ 2 ^ ((num.log2 : ℤ) - den.log2 + 1) * den :=
          mul_le_mul_of_nonneg_left hdenLow (zpow_pos two_pos _).le

theorem leastExponent_exponentBound (hnum : 0 < num) (hden : 0 < den) :
    LeastExponent ((num : ℚ) / den) (exponentBound num den) := by
  have hlow := (quotient_bounds hnum hden).1
  unfold LeastExponent exponentBound
  rcases le_total ((num.log2 : ℤ) - den.log2 - 53) (-1074) with h | h
  · exact .inl (max_eq_left h)
  · right
    rw [max_eq_right h, le_div_iff₀ (zpow_pos two_pos _)]
    have hpow : (2 : ℚ) ^ ((num.log2 : ℤ) - den.log2 - 1) =
        2 ^ 53 * 2 ^ ((num.log2 : ℤ) - den.log2 - 53 - 1) := by
      rw [← zpow_natCast, ← zpow_add₀ two_ne_zero]
      congr 1
      push_cast
      omega
    rw [hpow] at hlow
    have hu : (0 : ℚ) < 2 ^ ((num.log2 : ℤ) - den.log2 - 53 - 1) := zpow_pos two_pos _
    linarith

theorem LeastExponent.significandAt_ge {e : ℤ} (hden : 0 < den)
    (he : LeastExponent ((num : ℚ) / den) e) :
    e = -1074 ∨ 0x10000000000000 ≤ significandAt num den e := by
  refine he.imp_right fun hlow ↦ ?_
  have herr := (abs_le.1 (significandAt_error num hden e)).2
  have hhalf : (num : ℚ) / den / 2 ^ e = num / den / 2 ^ (e - 1) / 2 := by
    rw [zpow_sub_one₀ two_ne_zero]
    field_simp
  rw [hhalf] at herr
  have hm : (2 : ℚ) ^ 52 - 1 < significandAt num den e := by linarith
  have hm' : (0x10000000000000 : ℚ) < significandAt num den e + 1 := by linarith
  have : 0x10000000000000 < significandAt num den e + 1 := by exact_mod_cast hm'
  omega

/-- Where the significand finds no room, the next exponent is still not too great. -/
theorem LeastExponent.succ {e : ℤ} (hden : 0 < den) (he : LeastExponent ((num : ℚ) / den) e)
    (hmin : -1074 ≤ e) (hmax : e ≤ 971) (hfull : ¬ CanonicalDouble (significandAt num den e) e) :
    LeastExponent ((num : ℚ) / den) (e + 1) := by
  have hge := he.significandAt_ge hden
  have hbig : 0x20000000000000 ≤ significandAt num den e := by
    by_contra hsmall
    exact hfull ⟨by omega, hmin, hmax, hge.symm⟩
  have herr := (abs_le.1 (significandAt_error num hden e)).1
  have hbig' : (0x20000000000000 : ℚ) ≤ significandAt num den e := by exact_mod_cast hbig
  right
  rw [add_sub_cancel_right]
  linarith

theorem ofSignificand?_eq_some {negative : Bool} {m : ℕ} {e : ℤ} {d : Double}
    (h : ofSignificand? negative m e = some d) :
    d.negative = negative ∧ d.significand = m ∧ d.exponent = e := by
  unfold ofSignificand? at h
  split_ifs at h
  cases h
  exact ⟨rfl, rfl, rfl⟩

theorem ofSignificand?_eq_none {negative : Bool} {m : ℕ} {e : ℤ} :
    ofSignificand? negative m e = none ↔ ¬ CanonicalDouble m e := by
  unfold ofSignificand?
  split_ifs with h <;> simp [h]

theorem nearest?_eq_some {negative : Bool} {d : Double} (hnum : 0 < num) (hden : 0 < den)
    (h : nearest? negative num den = some d) :
    d.negative = negative ∧ d.significand = significandAt num den d.exponent ∧
      LeastExponent ((num : ℚ) / den) d.exponent := by
  have hfirst := leastExponent_exponentBound hnum hden
  have hmin : -1074 ≤ exponentBound num den := le_max_left _ _
  generalize hq : exponentBound num den = q at hfirst hmin
  simp only [nearest?, hnum.ne', if_false, hq, List.findSome?_cons, List.findSome?_nil] at h
  have hmax := d.canonical.2.2.1
  split at h
  · cases h
    rename_i h₀
    obtain ⟨hn, hm, he⟩ := ofSignificand?_eq_some h₀
    exact ⟨hn, he ▸ hm, he ▸ hfirst⟩
  · rename_i h₀
    have hsecond (hle : q ≤ 971) := hfirst.succ hden hmin hle (ofSignificand?_eq_none.1 h₀)
    split at h
    · cases h
      rename_i h₁
      obtain ⟨hn, hm, he⟩ := ofSignificand?_eq_some h₁
      exact ⟨hn, he ▸ hm, he ▸ hsecond (by omega)⟩
    · rename_i h₁
      split at h
      · cases h
        rename_i h₂
        obtain ⟨hn, hm, he⟩ := ofSignificand?_eq_some h₂
        have hthird := (hsecond (by omega)).succ hden (by omega) (by omega)
          (ofSignificand?_eq_none.1 h₁)
        exact ⟨hn, he ▸ hm, he ▸ (by rwa [add_assoc] at hthird)⟩
      · cases h

theorem abs_signed_sub (negative : Bool) (x y : ℚ) :
    |(if negative then -x else x) - y| = |x - if negative then -y else y| := by
  cases negative
  · rfl
  · rw [if_pos rfl, if_pos rfl, ← abs_neg]
    congr 1
    ring

theorem exists_signed_value (negative : Bool) (d : Double) :
    ∃ k : ℤ, k < 2 ^ 53 ∧ (if negative then -d.value else d.value) = k * 2 ^ d.exponent := by
  have hsmall : (d.significand : ℤ) < 2 ^ 53 := by
    have := d.canonical.1
    omega
  unfold value
  cases negative <;> cases d.negative
  · exact ⟨d.significand, hsmall, by simp⟩
  · exact ⟨-d.significand, by omega, by simp⟩
  · exact ⟨-d.significand, by omega, by simp⟩
  · exact ⟨d.significand, hsmall, by simp⟩

theorem nearest?_signed_value {negative : Bool} {d : Double} (hnum : 0 < num) (hden : 0 < den)
    (h : nearest? negative num den = some d) :
    (if negative then -d.value else d.value) = significandAt num den d.exponent * 2 ^ d.exponent := by
  obtain ⟨hn, hm, -⟩ := nearest?_eq_some hnum hden h
  unfold value
  rw [hn, hm]
  cases negative <;> simp

theorem nearest?_nearest {negative : Bool} {d : Double} (hden : 0 < den)
    (h : nearest? negative num den = some d) (other : Double) :
    |(if negative then -((num : ℚ) / den) else num / den) - d.value| ≤
      |(if negative then -((num : ℚ) / den) else num / den) - other.value| := by
  rcases Nat.eq_zero_or_pos num with rfl | hnum
  · have hd : d = zero negative := by simpa [nearest?, eq_comm] using h
    simp [hd, value, zero]
  · obtain ⟨-, -, he⟩ := nearest?_eq_some hnum hden h
    obtain ⟨k, hk, hother⟩ := exists_signed_value negative other
    rw [abs_signed_sub, abs_signed_sub, nearest?_signed_value hnum hden h, hother]
    exact he.nearest hden hk other.canonical.2.1

theorem nearest?_isSome (negative : Bool) (hnum : 0 < num) (hden : 0 < den)
    (hbound : exponentBound num den ≤ 969) : (nearest? negative num den).isSome := by
  have hfirst := leastExponent_exponentBound hnum hden
  have hmin : -1074 ≤ exponentBound num den := le_max_left _ _
  have hhigh : (num : ℚ) / den < 2 ^ 52 * 2 ^ (exponentBound num den + 2) := by
    refine (quotient_bounds hnum hden).2.trans_le ?_
    rw [← zpow_natCast, ← zpow_add₀ two_ne_zero]
    refine zpow_le_zpow_right₀ one_le_two ?_
    have : (num.log2 : ℤ) - den.log2 - 53 ≤ exponentBound num den := le_max_right _ _
    push_cast
    omega
  generalize hq : exponentBound num den = q at *
  by_contra hnone
  simp only [nearest?, hnum.ne', if_false, hq, List.findSome?_cons, List.findSome?_nil,
    Bool.not_eq_true, Option.isSome_eq_false_iff, Option.isNone_iff_eq_none] at hnone
  split at hnone
  · cases hnone
  · split at hnone
    · cases hnone
    · rename_i h₀ _ h₁
      split at hnone
      · cases hnone
      · rename_i h₂
        have hsecond := hfirst.succ hden hmin (by omega) (ofSignificand?_eq_none.1 h₀)
        have hthird := hsecond.succ hden (by omega) (by omega) (ofSignificand?_eq_none.1 h₁)
        rw [add_assoc] at hthird
        have hge := hthird.significandAt_ge hden
        have herr := (abs_le.1 (significandAt_error num hden (q + 2))).1
        rw [← div_lt_iff₀ (zpow_pos two_pos _)] at hhigh
        have hlt : (significandAt num den (q + 2) : ℚ) < 0x20000000000000 := by linarith
        have hlt' : significandAt num den (q + 2) < 0x20000000000000 := by exact_mod_cast hlt
        exact ofSignificand?_eq_none.1 h₂ ⟨hlt', by omega, by omega, hge.symm⟩

end Double

end CloutQuery
