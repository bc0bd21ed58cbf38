import CloutQuery.Proofs.Number.Rounding

namespace CloutQuery.Double

variable {num den : ℕ} {negative : Bool} {d : Double}

/-- `d` is the float nearest to a number: none lies nearer, and if another lies as near, the
significand of `d` is even. -/
structure RoundsTo (x : ℚ) (d : Double) : Prop where
  nearest (other : Double) : |x - d.value| ≤ |x - other.value|
  even_of_tie (other : Double) (ne : other.value ≠ d.value)
    (tie : |x - other.value| = |x - d.value|) : d.significand % 2 = 0

/-- Half way between the greatest float, which has an odd significand, and what would come next,
2^1024. A magnitude is rounded to a float if it is less. -/
def overflowBound : ℚ := 2 ^ 1024 - 2 ^ 970

theorem overflowBound_eq : overflowBound = (2 ^ 53 - 1 / 2) * 2 ^ (971 : ℤ) := by
  have hhigh : (2 : ℚ) ^ 1024 = 2 ^ 53 * 2 ^ 971 := pow_add 2 53 971
  have hlow : (2 : ℚ) ^ 971 = 2 * 2 ^ 970 := pow_succ' 2 970
  rw [overflowBound, show (971 : ℤ) = (971 : ℕ) from rfl, zpow_natCast, hhigh, hlow]
  generalize (2 : ℚ) ^ 970 = u
  ring

theorem overflowBound_pos : 0 < overflowBound := by
  rw [overflowBound_eq]
  exact mul_pos (by norm_num) (zpow_pos two_pos _)

theorem overflowBound_lt : overflowBound < 2 ^ 1024 := sub_lt_self _ (pow_pos two_pos _)

theorem roundHalfEven_even_of_tie (hden : 0 < den)
    (htie : |(num : ℚ) / den - roundHalfEven num den| = 1 / 2) : roundHalfEven num den % 2 = 0 := by
  have hd : (0 : ℚ) < den := by exact_mod_cast hden
  have hsplit : (num : ℚ) / den = (num / den : ℕ) + (num % den : ℕ) / (den : ℚ) := by
    have h := Nat.div_add_mod num den
    rw [div_eq_iff hd.ne', add_mul, div_mul_cancel₀ _ hd.ne', mul_comm _ (den : ℚ)]
    exact_mod_cast h.symm
  have hhalf (h : (num % den : ℕ) / (den : ℚ) = 1 / 2) : 2 * (num % den) = den := by
    rw [div_eq_iff hd.ne'] at h
    have : 2 * ((num % den : ℕ) : ℚ) = den := by linarith
    exact_mod_cast this
  have hlt : (num % den : ℕ) / (den : ℚ) < 1 := by
    rw [div_lt_one hd]
    exact_mod_cast Nat.mod_lt num hden
  have hpos : 0 ≤ (num % den : ℕ) / (den : ℚ) := by positivity
  unfold roundHalfEven at htie ⊢
  dsimp only at htie ⊢
  split_ifs at htie ⊢ with h
  · rw [hsplit, add_sub_cancel_left, abs_of_nonneg hpos] at htie
    have := hhalf htie
    omega
  · rw [hsplit, Nat.cast_add, Nat.cast_one, add_sub_add_left_eq_sub, abs_sub_comm,
      abs_of_nonneg (by linarith)] at htie
    have := hhalf (by linarith)
    omega

theorem significandAt_even_of_tie (hden : 0 < den) {e : ℤ}
    (htie : |(num : ℚ) / den / 2 ^ e - significandAt num den e| = 1 / 2) :
    significandAt num den e % 2 = 0 := by
  rw [← scaled_quotient] at htie
  exact roundHalfEven_even_of_tie (Nat.mul_pos hden (powerOf_pos two_pos e)) htie

/-- Since the first number without room is even, what is half way to it has no room either. -/
theorem significandAt_lt_iff (hden : 0 < den) (e : ℤ) :
    significandAt num den e < 0x20000000000000 ↔ (num : ℚ) / den / 2 ^ e < 2 ^ 53 - 1 / 2 := by
  have herr := abs_le.1 (significandAt_error num hden e)
  constructor
  · intro h
    have hle : (significandAt num den e : ℚ) ≤ 0x1fffffffffffff := by
      exact_mod_cast Nat.le_of_lt_succ h
    refine lt_of_le_of_ne (by linarith) fun heq ↦ ?_
    have hodd : significandAt num den e = 0x1fffffffffffff := by
      have hge : (0x1fffffffffffff : ℚ) ≤ significandAt num den e := by linarith
      exact le_antisymm (by exact_mod_cast hle) (by exact_mod_cast hge)
    have htie : |(num : ℚ) / den / 2 ^ e - significandAt num den e| = 1 / 2 := by
      rw [heq, hodd]
      norm_num
    have heven := significandAt_even_of_tie hden htie
    omega
  · intro h
    have hlt : (significandAt num den e : ℚ) < 0x20000000000000 := by linarith
    exact_mod_cast hlt

theorem nearest?_isSome_of_canonical {e : ℤ} (hnum : 0 < num)
    (he : e ∈ [exponentBound num den, exponentBound num den + 1, exponentBound num den + 2])
    (h : CanonicalDouble (significandAt num den e) e) : (nearest? negative num den).isSome := by
  unfold nearest?
  dsimp only
  rw [if_neg hnum.ne', List.findSome?_isSome_iff]
  exact ⟨e, he, by rw [ofSignificand?, dif_pos h]; rfl⟩

theorem exponentBound_le (hnum : 0 < num) (hden : 0 < den) (h : (num : ℚ) / den < 2 ^ 1024) :
    exponentBound num den ≤ 971 := by
  have hlow := (quotient_bounds hnum hden).1.trans h
  rw [← zpow_natCast, zpow_lt_zpow_iff_right₀ one_lt_two] at hlow
  unfold exponentBound
  omega

theorem nearest?_isSome_iff (hden : 0 < den) :
    (nearest? negative num den).isSome ↔ (num : ℚ) / den < overflowBound := by
  rcases Nat.eq_zero_or_pos num with rfl | hnum
  · simp [nearest?, overflowBound_pos]
  constructor
  · intro h
    obtain ⟨d, hd⟩ := Option.isSome_iff_exists.1 h
    obtain ⟨-, hm, -⟩ := nearest?_eq_some hnum hden hd
    have hsmall := d.canonical.1
    rw [hm, significandAt_lt_iff hden, div_lt_iff₀ (zpow_pos two_pos _)] at hsmall
    rw [overflowBound_eq]
    refine hsmall.trans_le (mul_le_mul_of_nonneg_left ?_ (by norm_num))
    exact zpow_le_zpow_right₀ one_le_two d.canonical.2.2.1
  · intro h
    have hroom : significandAt num den 971 < 0x20000000000000 := by
      rwa [significandAt_lt_iff hden, div_lt_iff₀ (zpow_pos two_pos _), ← overflowBound_eq]
    have hle := exponentBound_le hnum hden (h.trans overflowBound_lt)
    have hfirst := leastExponent_exponentBound hnum hden
    have hmin : -1074 ≤ exponentBound num den := le_max_left _ _
    -- the last exponent has room; the last but one has, or else the last is not too great
    rcases hle.lt_or_eq with hlt | heq
    · rcases (show exponentBound num den ≤ 970 by omega).lt_or_eq with hlt' | heq
      · exact nearest?_isSome _ hnum hden (by omega)
      · by_cases hfit : CanonicalDouble (significandAt num den 970) 970
        · exact nearest?_isSome_of_canonical hnum (by simp [heq]) hfit
        · rw [heq] at hfirst
          have hge := (hfirst.succ hden (by omega) (by omega) hfit).significandAt_ge hden
          exact nearest?_isSome_of_canonical (e := 971) hnum (by simp [heq])
            ⟨hroom, by omega, le_rfl, hge.symm⟩
    · rw [heq] at hfirst
      exact nearest?_isSome_of_canonical (e := 971) hnum (by simp [heq])
        ⟨hroom, by omega, le_rfl, (hfirst.significandAt_ge hden).symm⟩

/-- Another float as near as the rounded quotient leaves it an even significand: on the same grid it
is the other neighbour, and below it, on a finer one, the quotient lies just under the power of two
at which the grids meet. -/
theorem LeastExponent.even_of_tie {e e' k : ℤ} (hden : 0 < den)
    (he : LeastExponent ((num : ℚ) / den) e) (hk : k < 2 ^ 53) (he' : -1074 ≤ e')
    (hne : (k : ℚ) * 2 ^ e' ≠ significandAt num den e * 2 ^ e)
    (htie : |(num : ℚ) / den - k * 2 ^ e'| = |(num : ℚ) / den - significandAt num den e * 2 ^ e|) :
    significandAt num den e % 2 = 0 := by
  have herr := significandAt_error num hden e
  rcases le_or_gt e e' with hle | hlt
  · obtain ⟨j, hgrid⟩ := exists_mul_zpow_eq hle k
    rw [hgrid] at hne htie
    rw [abs_sub_mul_zpow, abs_sub_mul_zpow, mul_left_inj' (zpow_ne_zero e two_ne_zero)] at htie
    have hgap : (1 : ℤ) ≤ |(significandAt num den e : ℤ) - j| := by
      refine Int.one_le_abs (sub_ne_zero.2 fun heq ↦ hne ?_)
      rw [← heq, Int.cast_natCast]
    have hgap' : (1 : ℚ) ≤ |(significandAt num den e : ℚ) - j| := by exact_mod_cast hgap
    have htri := abs_sub_le (significandAt num den e : ℚ) ((num : ℚ) / den / 2 ^ e) j
    rw [abs_sub_comm _ ((num : ℚ) / den / 2 ^ e), htie] at htri
    exact significandAt_even_of_tie hden (by linarith)
  · have hlow := he.le_of_lt hlt he'
    have hother := mul_zpow_le_of_lt hk hlt
    have hu : (0 : ℚ) < 2 ^ (e - 1) := zpow_pos two_pos _
    have hpower := significandAt_nearest_power num hden e
    rw [← htie, abs_of_nonneg (show 0 ≤ (num : ℚ) / den - k * 2 ^ e' by linarith)] at hpower
    have hhigh : (num : ℚ) / den ≤ (2 ^ 53 - 1 / 2) * 2 ^ (e - 1) := by
      by_contra hgt
      rcases le_abs.1 hpower with h | h <;> linarith
    have hpoint : significandAt num den e = 0x10000000000000 := by
      refine le_antisymm ?_ ((he.significandAt_ge hden).resolve_left (by omega))
      have hquotient : (num : ℚ) / den / 2 ^ e ≤ 2 ^ 52 - 1 / 4 := by
        rw [div_le_iff₀ (zpow_pos two_pos e), zpow_eq_two_mul]
        linarith
      have hlt : (significandAt num den e : ℚ) < 0x10000000000001 := by linarith [(abs_le.1 herr).1]
      exact Nat.le_of_lt_succ (by exact_mod_cast hlt)
    rw [hpoint]

theorem nearest?_roundsTo (hden : 0 < den) (h : nearest? negative num den = some d) :
    RoundsTo (if negative then -((num : ℚ) / den) else num / den) d where
  nearest := nearest?_nearest hden h
  even_of_tie other hne htie := by
    rcases Nat.eq_zero_or_pos num with rfl | hnum
    · have hd : d = zero negative := by simpa [nearest?, eq_comm] using h
      rw [hd]
      rfl
    · obtain ⟨-, hm, he⟩ := nearest?_eq_some hnum hden h
      obtain ⟨k, hk, hother⟩ := exists_signed_value negative other
      have hvalue := nearest?_signed_value hnum hden h
      rw [abs_signed_sub, abs_signed_sub, hvalue, hother] at htie
      rw [hm]
      refine he.even_of_tie hden hk other.canonical.2.1 (fun heq ↦ hne ?_) htie
      rw [← hother, ← hvalue] at heq
      cases negative
      · exact heq
      · exact neg_injective heq

theorem nearest?_of_tiny (hnum : 0 < num) (hden : 0 < den) (h : (num : ℚ) / den < 2 ^ (-1075 : ℤ)) :
    nearest? negative num den = some (zero negative) := by
  have hbound : (num : ℚ) / den < overflowBound := by
    rw [overflowBound_eq]
    calc (num : ℚ) / den < 2 ^ (-1075 : ℤ) := h
      _ ≤ 2 ^ (971 : ℤ) := zpow_le_zpow_right₀ one_le_two (by decide)
      _ ≤ (2 ^ 53 - 1 / 2) * 2 ^ (971 : ℤ) :=
        le_mul_of_one_le_left (zpow_pos two_pos _).le (by norm_num)
  have hsome : (nearest? negative num den).isSome := (nearest?_isSome_iff hden).2 hbound
  obtain ⟨d, hd⟩ := Option.isSome_iff_exists.1 hsome
  obtain ⟨hn, hm, he⟩ := nearest?_eq_some hnum hden hd
  have hexp : d.exponent = -1074 := by
    refine he.resolve_right fun hlow ↦ ?_
    rw [le_div_iff₀ (zpow_pos two_pos _)] at hlow
    have hle : (2 : ℚ) ^ (-1075 : ℤ) ≤ 2 ^ (d.exponent - 1) :=
      zpow_le_zpow_right₀ one_le_two (by have := d.canonical.2.1; omega)
    linarith [zpow_pos (two_pos (α := ℚ)) (-1075)]
  have hsig : d.significand = 0 := by
    have herr := (abs_le.1 (significandAt_error num hden (-1074))).1
    have hhalf : (num : ℚ) / den / 2 ^ (-1074 : ℤ) < 1 / 2 := by
      rw [div_lt_iff₀ (zpow_pos two_pos _), zpow_eq_two_mul (-1074),
        show (-1074 - 1 : ℤ) = -1075 by decide]
      linarith
    have hlt : (significandAt num den (-1074) : ℚ) < 1 := by linarith
    rw [hm, hexp]
    exact Nat.lt_one_iff.1 (by exact_mod_cast hlt)
  rw [hd]
  obtain ⟨_, _, _, _⟩ := d
  subst hn hsig hexp
  rfl

end CloutQuery.Double
