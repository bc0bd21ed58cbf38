import CloutQuery.Proofs.Number.CorrectRounding
import CloutQuery.Proofs.Number.ExactOrder

namespace CloutQuery

namespace Double

variable {n : ℤ} {d : Double}

theorem ofInt?_roundsTo (h : ofInt? n = some d) : RoundsTo n d := by
  have hrounds := nearest?_roundsTo Nat.one_pos h
  rwa [signed_natAbs] at hrounds

end Double

namespace Number

theorem compare_exact :
    (∀ a b : Number, a.compare b = cmp a.value b.value) ∧
    ∀ (n : ℤ) (hn : -0x8000000000000000 ≤ n ∧ n < 0x10000000000000000),
      ∃ rounded, Double.ofInt? n = some rounded ∧ Double.RoundsTo n rounded ∧ ∀ d : Double,
        (rounded.value < d.value → (integer n hn).compare (.double d) = .lt) ∧
        (d.value < rounded.value → (integer n hn).compare (.double d) = .gt) ∧
        (rounded.value = d.value →
          ∃ z : ℤ, d.value = z ∧ (integer n hn).compare (.double d) = cmp n z) := by
  refine ⟨compare_eq_cmp, fun n hn ↦ ?_⟩
  have hsome : (Double.ofInt? n).isSome := Double.ofInt?_isSome (by omega)
  obtain ⟨rounded, hrounded⟩ := Option.isSome_iff_exists.1 hsome
  refine ⟨rounded, hrounded, Double.ofInt?_roundsTo hrounded, fun d ↦ ?_⟩
  have hcompare : (integer n hn).compare (.double d) = cmp (n : ℚ) d.value := compare_eq_cmp _ _
  rw [hcompare]
  refine ⟨fun hlt ↦ ?_, fun hgt ↦ ?_, fun heq ↦ ?_⟩
  · rw [cmp_eq_lt_iff]
    exact Double.lt_of_ofInt?_lt d hrounded hlt
  · rw [cmp_eq_gt_iff]
    exact Double.lt_of_lt_ofInt? d hrounded hgt
  · obtain ⟨z, hz⟩ := Double.ofInt?_integral hrounded
    refine ⟨z, heq.symm.trans hz, ?_⟩
    rw [← heq, hz]
    exact Int.cast_strictMono.cmp_map_eq n z

/-- An integer rounded down onto a float, one rounded up onto a float at the end of the integers, one
next to a fraction, and the two zeros. -/
theorem compare_exact_neighbours :
    let low : Double := ⟨false, 0x10000000000000, 1, by decide⟩
    let high : Double := ⟨false, 0x10000000000000, 12, by decide⟩
    let half : Double := ⟨false, 0x18000000000000, -52, by decide⟩
    Double.ofInt? 0x20000000000001 = some low ∧
      (integer 0x20000000000001 (by decide)).compare (.double low) = .gt ∧
    Double.ofInt? 0xffffffffffffffff = some high ∧
      (integer 0xffffffffffffffff (by decide)).compare (.double high) = .lt ∧
    (Number.double half).compare (integer 1 (by decide)) = .gt ∧
    (Number.double (Double.zero true)).compare zero = .eq := by
  intro low high half
  have hlow : low.value = (0x20000000000000 : ℤ) := by norm_num [low, Double.value]
  have hhigh : high.value = (0x10000000000000000 : ℤ) := by norm_num [high, Double.value]
  have hround : Double.ofInt? 0x20000000000001 = some low := by decide +kernel
  have hround' : Double.ofInt? 0xffffffffffffffff = some high := by decide +kernel
  have htie {n z : ℤ} {d : Double} (hn : -0x8000000000000000 ≤ n ∧ n < 0x10000000000000000)
      (hd : Double.ofInt? n = some d) (hz : d.value = z) : (integer n hn).compare (.double d) = cmp n z := by
    obtain ⟨rounded, hrounded, -, hcases⟩ := compare_exact.2 n hn
    rw [hd, Option.some.injEq] at hrounded
    subst hrounded
    obtain ⟨z', hz', hcompare⟩ := (hcases d).2.2 rfl
    rw [hz, Int.cast_inj] at hz'
    rwa [hz']
  refine ⟨hround, (htie _ hround hlow).trans (by decide), hround', (htie _ hround' hhigh).trans (by decide),
    (compare_exact.1 _ _).trans ?_, (compare_exact.1 _ _).trans ?_⟩
  · rw [cmp_eq_gt_iff]
    norm_num [value, half, Double.value]
  · rw [cmp_eq_eq_iff]
    norm_num [value, zero, Double.value_zero]

end Number

end CloutQuery
