import CloutQuery.Proofs.Graph.DecimalText

namespace CloutQuery

open Text OutputType
open Double (overflowBound RoundsTo)

/-- What is found is a literal of the first characters, and none of more characters is one. -/
theorem longestDecimal?_eq_some_iff {cs : List Char} {n : ℕ} {d : Decimal} :
    longestDecimal? cs n = some d ↔
      ∃ k ≤ n, decimal? (cs.take k) = some d ∧ ∀ j ≤ n, k < j → decimal? (cs.take j) = none := by
  induction n with
  | zero =>
    refine iff_of_false nofun ?_
    rintro ⟨k, hk, hread, -⟩
    obtain rfl := Nat.le_zero.1 hk
    cases hread
  | succ n ih =>
    rw [longestDecimal?]
    cases hlast : decimal? (cs.take (n + 1)) with
    | some e =>
      constructor
      · intro h
        refine ⟨n + 1, le_rfl, hlast.trans h, fun j hj hlt ↦ ?_⟩
        omega
      · rintro ⟨k, hk, hread, hlonger⟩
        obtain rfl : k = n + 1 := by
          by_contra hne
          have hnone := hlonger (n + 1) le_rfl (by omega)
          rw [hlast] at hnone
          cases hnone
        exact hlast.symm.trans hread
    | none =>
      refine ih.trans ⟨?_, ?_⟩
      · rintro ⟨k, hk, hread, hlonger⟩
        refine ⟨k, by omega, hread, fun j hj hlt ↦ ?_⟩
        rcases (show j ≤ n ∨ j = n + 1 by omega) with hj | rfl
        · exact hlonger j hj hlt
        · exact hlast
      · rintro ⟨k, hk, hread, hlonger⟩
        have hne : k ≠ n + 1 := by
          rintro rfl
          rw [hlast] at hread
          cases hread
        exact ⟨k, by omega, hread, fun j hj ↦ hlonger j (by omega)⟩

theorem longestDecimal?_eq_none_iff {cs : List Char} {n : ℕ} :
    longestDecimal? cs n = none ↔ ∀ k ≤ n, decimal? (cs.take k) = none := by
  constructor
  · intro h
    induction n with
    | zero =>
      intro k hk
      obtain rfl := Nat.le_zero.1 hk
      rfl
    | succ n ih =>
      rw [longestDecimal?] at h
      split at h
      · cases h
      · rename_i hlast
        intro k hk
        rcases (show k ≤ n ∨ k = n + 1 by omega) with hk | rfl
        · exact ih h k hk
        · exact hlast
  · intro h
    cases hread : longestDecimal? cs n with
    | none => rfl
    | some d =>
      obtain ⟨k, hk, hfound, -⟩ := longestDecimal?_eq_some_iff.1 hread
      rw [h k hk] at hfound
      cases hfound

namespace DecimalText

variable {t : DecimalText} {cs : List Char}

def IsLongest (t : DecimalText) (cs : List Char) : Prop :=
  t.chars <+: cs ∧ ∀ t' : DecimalText, t'.chars <+: cs → t'.chars.length ≤ t.chars.length

theorem isDecimalChar_of_mem (t : DecimalText) : ∀ c ∈ t.chars, isDecimalChar c = true := by
  have hsign {sign : List Char} (h : OptionalSign sign) : ∀ c ∈ sign, isDecimalChar c = true := by
    rcases h with rfl | rfl | rfl <;> exact List.all_eq_true.1 rfl
  have hdigits {ds : List Char} (h : ∀ c ∈ ds, c.isDigit = true) :
      ∀ c ∈ ds, isDecimalChar c = true := fun c hc ↦ by simp [isDecimalChar, h c hc]
  have hfraction : ∀ c ∈ t.fractionChars, isDecimalChar c = true := by
    unfold fractionChars
    cases hf : t.fraction with
    | none => exact nofun
    | some ds => exact List.forall_mem_cons.2 ⟨rfl, hdigits (t.fraction_isDigit ds hf)⟩
  have hexponent : ∀ c ∈ t.exponentChars, isDecimalChar c = true := by
    unfold exponentChars
    cases t.exponent with
    | none => exact nofun
    | some x =>
      have hmark : isDecimalChar x.mark = true := by rcases x.mark_eq with h | h <;> rw [h] <;> rfl
      exact List.forall_mem_cons.2 ⟨hmark, List.forall_mem_append.2
        ⟨hsign x.sign_optional, hdigits x.digits_isDigit⟩⟩
  simp only [chars, List.forall_mem_append]
  exact ⟨hsign t.sign_optional, hdigits t.whole_isDigit, hfraction, hexponent⟩

/-- A literal at the beginning of a text lies within the characters that literals are made of. -/
theorem prefix_run_iff : t.chars <+: cs.takeWhile isDecimalChar ↔ t.chars <+: cs := by
  constructor
  · intro h
    exact h.trans (List.takeWhile_prefix _)
  · rintro ⟨rest, rfl⟩
    rw [List.takeWhile_append_of_pos t.isDecimalChar_of_mem]
    exact List.prefix_append _ _

theorem decimal?_take_of_prefix (h : t.chars <+: cs) :
    decimal? (cs.take t.chars.length) = some t.decimal := by
  rw [← List.prefix_iff_eq_take.1 h, decimal?_chars]

theorem isLongest_run_iff : t.IsLongest (cs.takeWhile isDecimalChar) ↔ t.IsLongest cs := by
  simp only [IsLongest, prefix_run_iff]

end DecimalText

theorem longestDecimal?_length_eq_some_iff {cs : List Char} {d : Decimal} :
    longestDecimal? cs cs.length = some d ↔ ∃ t : DecimalText, t.IsLongest cs ∧ t.decimal = d := by
  rw [longestDecimal?_eq_some_iff]
  constructor
  · rintro ⟨k, hk, hread, hlonger⟩
    obtain ⟨t, ht, rfl⟩ := decimal?_eq_some_iff.1 hread
    refine ⟨t, ⟨ht ▸ List.take_prefix k cs, fun t' ht' ↦ ?_⟩, rfl⟩
    rw [ht, List.length_take_of_le hk]
    by_contra hlt
    have hnone := hlonger t'.chars.length ht'.length_le (by omega)
    rw [DecimalText.decimal?_take_of_prefix ht'] at hnone
    cases hnone
  · rintro ⟨t, ⟨hstart, hmost⟩, rfl⟩
    refine ⟨t.chars.length, hstart.length_le, DecimalText.decimal?_take_of_prefix hstart,
      fun j hj hlt ↦ ?_⟩
    cases hread : decimal? (cs.take j) with
    | none => rfl
    | some d =>
      obtain ⟨t', ht', -⟩ := decimal?_eq_some_iff.1 hread
      have hle := hmost t' (ht' ▸ List.take_prefix j cs)
      rw [ht', List.length_take_of_le hj] at hle
      omega

theorem leadingDecimal?_eq_some_iff {cs : List Char} {d : Decimal} :
    leadingDecimal? cs = some d ↔ ∃ t : DecimalText, t.IsLongest (trim cs) ∧ t.decimal = d := by
  unfold leadingDecimal?
  dsimp only
  rw [longestDecimal?_length_eq_some_iff]
  simp only [DecimalText.isLongest_run_iff]

theorem leadingDecimal?_eq_none_iff {cs : List Char} :
    leadingDecimal? cs = none ↔ ¬ ∃ t : DecimalText, t.chars <+: trim cs := by
  unfold leadingDecimal?
  dsimp only
  rw [longestDecimal?_eq_none_iff]
  constructor
  · rintro h ⟨t, ht⟩
    have hrun := DecimalText.prefix_run_iff.2 ht
    have hnone := h t.chars.length hrun.length_le
    rw [DecimalText.decimal?_take_of_prefix hrun] at hnone
    cases hnone
  · intro h k _
    cases hread : decimal? (((trim cs).takeWhile isDecimalChar).take k) with
    | none => rfl
    | some d =>
      obtain ⟨t, ht, -⟩ := decimal?_eq_some_iff.1 hread
      exact absurd ⟨t, DecimalText.prefix_run_iff.1 (ht ▸ List.take_prefix k _)⟩ h

def stripped (text : String) : String := String.ofList (trim text.toList)

def decimalRun (text : String) : List Char := (trim text.toList).takeWhile isDecimalChar

theorem toNat_lt_of_isDecimalChar {c : Char} (h : isDecimalChar c = true) : c.toNat < 0x80 := by
  simp only [isDecimalChar, Bool.or_eq_true, decide_eq_true_eq] at h
  rcases h with ((((h | rfl) | rfl) | rfl) | rfl) | rfl
  · have hc := toNat_of_isDigit h
    omega
  all_goals decide

/-- Every place that is tried as the end of a literal is a position in the text, and cut off there
are the characters that are tried. -/
theorem exists_pos_of_le_run (text : String) {n : ℕ} (hn : n ≤ (decimalRun text).length) :
    ∃ p : (stripped text).Pos, p.offset.byteIdx = n ∧
      ((stripped text).sliceTo p).copy = String.ofList ((decimalRun text).take n) := by
  have hsplit : trim text.toList =
      (decimalRun text).take n ++ ((decimalRun text).drop n ++ (trim text.toList).dropWhile isDecimalChar) := by
    rw [← List.append_assoc, List.take_append_drop]
    exact List.takeWhile_append_dropWhile.symm
  have hascii : ∀ c ∈ (decimalRun text).take n, c.toNat < 0x80 := fun c hc ↦
    toNat_lt_of_isDecimalChar (List.all_eq_true.1 List.all_takeWhile c (List.mem_of_mem_take hc))
  obtain ⟨p, hp, hcopy⟩ := exists_pos_of_append ((decimalRun text).take n)
    ((decimalRun text).drop n ++ (trim text.toList).dropWhile isDecimalChar)
  rw [length_flatMap_encodeChar hascii, List.length_take_of_le hn] at hp
  rw [stripped, hsplit]
  exact ⟨p, hp, hcopy⟩

theorem coerce_float_of_isLongest {text : String} {t : DecimalText}
    (h : t.IsLongest (trim text.toList)) :
    float.coerce text = t.decimal.toDouble?.map fun d ↦ .number (.double d) := by
  rw [coerce, leadingDecimal?_eq_some_iff.2 ⟨t, h, rfl⟩, Option.bind_some]

theorem coerce_float_eq_none_iff {text : String} :
    float.coerce text = none ↔
      (¬ ∃ t : DecimalText, t.chars <+: trim text.toList) ∨
        ∃ t : DecimalText, t.IsLongest (trim text.toList) ∧ overflowBound ≤ |t.value| := by
  have hgreat (t : DecimalText) : t.decimal.toDouble? = none ↔ overflowBound ≤ |t.value| := by
    rw [← Option.not_isSome_iff_eq_none, Decimal.toDouble?_isSome_iff, t.decimal_value, not_lt]
  constructor
  · intro h
    cases hread : leadingDecimal? text.toList with
    | none => exact .inl (leadingDecimal?_eq_none_iff.1 hread)
    | some d =>
      obtain ⟨t, ht, -⟩ := leadingDecimal?_eq_some_iff.1 hread
      rw [coerce_float_of_isLongest ht, Option.map_eq_none_iff, hgreat] at h
      exact .inr ⟨t, ht, h⟩
  · rintro (h | ⟨t, ht, h⟩)
    · rw [coerce, leadingDecimal?_eq_none_iff.2 h]
      rfl
    · rw [coerce_float_of_isLongest ht, (hgreat t).2 h]
      rfl

/-- A text is none as a float if it begins with no literal or if the longest one is too great for a
float; a shorter one is not taken instead. Otherwise it is the float that this literal is rounded to,
and so never an integer. The places that are tried as the end of the literal all lie between two
characters. -/
theorem OutputType.coerce_float_exact (text : String) :
    (float.coerce text = none ↔
      (¬ ∃ t : DecimalText, t.chars <+: trim text.toList) ∨
        ∃ t : DecimalText, t.IsLongest (trim text.toList) ∧ overflowBound ≤ |t.value|) ∧
    (∀ t : DecimalText, t.IsLongest (trim text.toList) → |t.value| < overflowBound →
      ∃ d, float.coerce text = some (.number (.double d)) ∧ RoundsTo t.value d ∧
        d.negative = t.negative) ∧
    (∀ v, float.coerce text = some v → ∃ d, v = .number (.double d)) ∧
    ∀ n ≤ (decimalRun text).length, ∃ p : (stripped text).Pos, p.offset.byteIdx = n ∧
      ((stripped text).sliceTo p).copy = String.ofList ((decimalRun text).take n) := by
  refine ⟨coerce_float_eq_none_iff, fun t ht hlt ↦ ?_, fun v hv ↦ ?_,
    fun n ↦ exists_pos_of_le_run text⟩
  · rw [← t.decimal_value, ← Decimal.toDouble?_isSome_iff] at hlt
    obtain ⟨d, hd⟩ := Option.isSome_iff_exists.1 hlt
    refine ⟨d, ?_, ?_, Decimal.toDouble?_negative hd⟩
    · rw [coerce_float_of_isLongest ht, hd]
      rfl
    · rw [← t.decimal_value]
      exact Decimal.toDouble?_roundsTo hd
  · obtain ⟨d, -, rfl⟩ := Option.map_eq_some_iff.1 hv
    exact ⟨d, rfl⟩

/-- A literal in front of what might have gone on as one, a literal beyond the floats that begins with
others, and a place behind the point of the first. -/
theorem OutputType.coerce_float_exact_runs :
    (∃ d, float.coerce "\u3000-.5e1e+é" = some (.number (.double d)) ∧ RoundsTo (-5) d ∧
      d.negative = true) ∧
    float.coerce "1e999 " = none ∧
    ∃ p : (stripped "\u3000-.5e1e+é").Pos, p.offset.byteIdx = 2 ∧
      ((stripped "\u3000-.5e1e+é").sliceTo p).copy = "-." := by
  obtain ⟨-, hfloat, -, hplaces⟩ := coerce_float_exact "\u3000-.5e1e+é"
  refine ⟨?_, ?_, ?_⟩
  · have hread : leadingDecimal? "\u3000-.5e1e+é".toList = some ⟨true, 5, 0⟩ := by decide +kernel
    obtain ⟨t, ht, hdecimal⟩ := leadingDecimal?_eq_some_iff.1 hread
    have hvalue : t.value = (-5 : ℤ) := by
      rw [← t.decimal_value, hdecimal]
      norm_num [Decimal.value, Decimal.absValue]
    have hnegative : t.negative = true := congrArg Decimal.negative hdecimal
    have h := hfloat t ht (by rw [hvalue]; exact abs_lt_overflowBound (by norm_num))
    rw [hvalue, hnegative] at h
    exact_mod_cast h
  · have hread : leadingDecimal? "1e999 ".toList = some ⟨false, 1, 999⟩ := by decide +kernel
    obtain ⟨t, ht, hdecimal⟩ := leadingDecimal?_eq_some_iff.1 hread
    refine (coerce_float_exact "1e999 ").1.2 (.inr ⟨t, ht, ?_⟩)
    have hnone : ¬ t.decimal.toDouble?.isSome := by rw [hdecimal]; decide +kernel
    rwa [Decimal.toDouble?_isSome_iff, t.decimal_value, not_lt] at hnone
  · have hrun : decimalRun "\u3000-.5e1e+é" = "-.5e1e+".toList := by decide +kernel
    obtain ⟨p, hp, hcopy⟩ := hplaces 2 (by rw [hrun]; decide +kernel)
    refine ⟨p, hp, hcopy.trans ?_⟩
    rw [hrun]
    decide +kernel

end CloutQuery
