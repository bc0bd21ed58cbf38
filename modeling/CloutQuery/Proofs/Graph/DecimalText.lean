import CloutQuery.Proofs.Graph.IntegerText

namespace CloutQuery

open OutputType

structure ExponentText where
  mark : Char
  sign : List Char
  digits : List Char
  mark_eq : mark = 'e' ∨ mark = 'E'
  sign_optional : OptionalSign sign
  digits_ne_nil : digits ≠ []
  digits_isDigit : ∀ c ∈ digits, c.isDigit = true

namespace ExponentText

def chars (x : ExponentText) : List Char := x.mark :: (x.sign ++ x.digits)

def value (x : ExponentText) : ℤ :=
  if x.sign = ['-'] then -(digitsValue x.digits : ℤ) else digitsValue x.digits

end ExponentText

/-- A decimal literal: perhaps a sign, digits, perhaps a point with digits behind it, and perhaps an
exponent. There is a digit before the point or behind it. -/
structure DecimalText where
  sign : List Char
  whole : List Char
  fraction : Option (List Char)
  exponent : Option ExponentText
  sign_optional : OptionalSign sign
  whole_isDigit : ∀ c ∈ whole, c.isDigit = true
  fraction_isDigit : ∀ ds ∈ fraction, ∀ c ∈ ds, c.isDigit = true
  some_digit : whole ≠ [] ∨ ∃ ds ∈ fraction, ds ≠ []

namespace DecimalText

variable (t : DecimalText)

def fractionChars : List Char := t.fraction.elim [] ('.' :: ·)

def exponentChars : List Char := t.exponent.elim [] ExponentText.chars

def chars : List Char := t.sign ++ (t.whole ++ (t.fractionChars ++ t.exponentChars))

def negative : Bool := t.sign = ['-']

def fractionDigits : List Char := t.fraction.getD []

def exponentValue : ℤ := t.exponent.elim 0 ExponentText.value

def absValue : ℚ :=
  (digitsValue t.whole + digitsValue t.fractionDigits / 10 ^ t.fractionDigits.length) *
    10 ^ t.exponentValue

def value : ℚ := if t.negative then -t.absValue else t.absValue

def decimal : Decimal :=
  .ofParts t.negative t.whole t.fractionDigits t.exponentValue

theorem decimal_absValue : t.decimal.absValue = t.absValue := by
  have hten : (10 : ℚ) ≠ 0 := by norm_num
  unfold Decimal.absValue absValue decimal Decimal.ofParts
  dsimp only
  rw [digitsValue_append_eq, zpow_sub₀ hten, zpow_natCast]
  push_cast
  field_simp

theorem decimal_value : t.decimal.value = t.value := by
  unfold Decimal.value value
  rw [decimal_absValue]
  rfl

theorem exponentChars_head : ∀ c ∈ t.exponentChars.head?, c = 'e' ∨ c = 'E' := by
  intro c hc
  unfold exponentChars at hc
  cases hx : t.exponent with
  | none =>
    rw [hx] at hc
    cases hc
  | some x =>
    rw [hx] at hc
    cases hc
    exact x.mark_eq

/-- No digit stands behind the digits before the point. -/
theorem rest_head : ∀ c ∈ (t.fractionChars ++ t.exponentChars).head?, c.isDigit = false := by
  intro c hc
  unfold fractionChars at hc
  cases hf : t.fraction with
  | none =>
    rw [hf] at hc
    rcases t.exponentChars_head c hc with rfl | rfl <;> rfl
  | some ds =>
    rw [hf] at hc
    cases hc
    rfl

theorem unsigned_head :
    ∀ c ∈ (t.whole ++ (t.fractionChars ++ t.exponentChars)).head?, c ≠ '+' ∧ c ≠ '-' := by
  intro c hc
  cases hw : t.whole with
  | cons d ds =>
    rw [hw] at hc
    cases hc
    exact ne_sign_of_isDigit (t.whole_isDigit c (by rw [hw]; exact List.mem_cons_self))
  | nil =>
    obtain ⟨ds, hds, -⟩ := t.some_digit.resolve_left (not_not.2 hw)
    rw [hw, fractionChars, hds] at hc
    cases hc
    decide

end DecimalText

theorem exponent?_chars (x : ExponentText) : exponent? x.chars = some x.value := by
  obtain ⟨d, ds, hd⟩ := List.exists_cons_of_ne_nil x.digits_ne_nil
  have hhead : ∀ c ∈ x.digits.head?, c ≠ '+' ∧ c ≠ '-' := by
    intro c hc
    rw [hd] at hc
    cases hc
    exact ne_sign_of_isDigit (x.digits_isDigit d (by rw [hd]; exact List.mem_cons_self))
  rw [ExponentText.chars, exponent?, leadingSign_of_sign x.sign_optional hhead]
  dsimp only
  rw [if_pos ⟨x.mark_eq, x.digits_ne_nil, List.all_eq_true.2 x.digits_isDigit⟩, ExponentText.value]
  simp only [decide_eq_true_eq]

theorem exists_of_exponent? {cs : List Char} {e : ℤ} (h : exponent? cs = some e) :
    ∃ x : Option ExponentText, x.elim [] ExponentText.chars = cs := by
  cases cs with
  | nil => exact ⟨none, rfl⟩
  | cons c rest =>
    obtain ⟨sign, hsign, hrest, -⟩ := leadingSign_append rest
    unfold exponent? at h
    dsimp only at h
    split at h
    · rename_i hparts
      obtain ⟨hmark, hne, hdigits⟩ := hparts
      refine ⟨some ⟨c, sign, _, hmark, hsign, hne, List.all_eq_true.1 hdigits⟩, ?_⟩
      exact congrArg (c :: ·) hrest
    · cases h

theorem leadingFraction_chars (t : DecimalText) :
    leadingFraction (t.fractionChars ++ t.exponentChars) = (t.fractionDigits, t.exponentChars) := by
  unfold DecimalText.fractionChars DecimalText.fractionDigits
  have hexponent := t.exponentChars_head
  cases hf : t.fraction with
  | none =>
    generalize t.exponentChars = rest at hexponent
    dsimp only [Option.elim, Option.getD]
    rw [List.nil_append]
    unfold leadingFraction
    split
    · exact absurd (hexponent '.' rfl) (by decide)
    · rfl
  | some ds =>
    have hdigits := t.fraction_isDigit ds hf
    have hstop : ∀ c ∈ t.exponentChars.head?, c.isDigit = false := by
      intro c hc
      rcases hexponent c hc with rfl | rfl <;> rfl
    dsimp only [Option.elim, Option.getD]
    rw [List.cons_append, leadingFraction, takeWhile_isDigit_append hdigits hstop,
      dropWhile_isDigit_append hdigits hstop]

theorem exists_of_leadingFraction (cs : List Char) :
    ∃ fraction : Option (List Char), (∀ ds ∈ fraction, ∀ c ∈ ds, c.isDigit = true) ∧
      fraction.getD [] = (leadingFraction cs).1 ∧
      fraction.elim [] ('.' :: ·) ++ (leadingFraction cs).2 = cs := by
  unfold leadingFraction
  split
  · rename_i rest
    refine ⟨some (rest.takeWhile Char.isDigit), ?_, rfl, ?_⟩
    · rintro ds ⟨⟩ c hc
      exact List.all_eq_true.1 List.all_takeWhile c hc
    · exact congrArg ('.' :: ·) List.takeWhile_append_dropWhile
  · exact ⟨none, nofun, rfl, rfl⟩

theorem decimal?_chars (t : DecimalText) : decimal? t.chars = some t.decimal := by
  have hdigit : ¬ (t.whole = [] ∧ t.fractionDigits = []) := by
    rintro ⟨hwhole, hfraction⟩
    obtain ⟨ds, hds, hne⟩ := t.some_digit.resolve_left (not_not.2 hwhole)
    rw [DecimalText.fractionDigits, hds] at hfraction
    exact hne hfraction
  have hexponent : exponent? t.exponentChars = some t.exponentValue := by
    unfold DecimalText.exponentChars DecimalText.exponentValue
    cases t.exponent with
    | none => rfl
    | some x => exact exponent?_chars x
  rw [decimal?, DecimalText.chars, leadingSign_of_sign t.sign_optional t.unsigned_head]
  dsimp only
  rw [takeWhile_isDigit_append t.whole_isDigit t.rest_head,
    dropWhile_isDigit_append t.whole_isDigit t.rest_head, leadingFraction_chars]
  dsimp only
  rw [if_neg hdigit, hexponent]
  rfl

theorem exists_of_decimal? {cs : List Char} {d : Decimal} (h : decimal? cs = some d) :
    ∃ t : DecimalText, t.chars = cs ∧ t.decimal = d := by
  obtain ⟨sign, hsign, hcs, -⟩ := leadingSign_append cs
  have hread := h
  unfold decimal? at h
  dsimp only at h
  generalize (leadingSign cs).2 = tail at hcs h
  obtain ⟨fraction, hdigits, hfraction, hrest⟩ :=
    exists_of_leadingFraction (tail.dropWhile Char.isDigit)
  split_ifs at h with hnone
  obtain ⟨e, he, -⟩ := Option.map_eq_some_iff.1 h
  obtain ⟨x, hx⟩ := exists_of_exponent? he
  have hsome : tail.takeWhile Char.isDigit ≠ [] ∨ ∃ ds ∈ fraction, ds ≠ [] := by
    rw [← hfraction] at hnone
    cases fraction with
    | none => exact .inl fun hwhole ↦ hnone ⟨hwhole, rfl⟩
    | some ds => exact (not_and_or.1 hnone).imp_right fun hne ↦ ⟨ds, rfl, hne⟩
  let t : DecimalText :=
    { sign := sign, whole := tail.takeWhile Char.isDigit, fraction := fraction, exponent := x,
      sign_optional := hsign, whole_isDigit := List.all_eq_true.1 List.all_takeWhile,
      fraction_isDigit := hdigits, some_digit := hsome }
  have ht : t.chars = cs := by
    have hchars : t.chars = sign ++ (tail.takeWhile Char.isDigit ++
        (fraction.elim [] ('.' :: ·) ++ x.elim [] ExponentText.chars)) := rfl
    rw [hchars, hx, hrest, List.takeWhile_append_dropWhile, hcs]
  refine ⟨t, ht, ?_⟩
  rw [← ht, decimal?_chars] at hread
  exact Option.some.inj hread

theorem decimal?_eq_some_iff {cs : List Char} {d : Decimal} :
    decimal? cs = some d ↔ ∃ t : DecimalText, t.chars = cs ∧ t.decimal = d := by
  constructor
  · exact exists_of_decimal?
  · rintro ⟨t, rfl, rfl⟩
    exact decimal?_chars t

end CloutQuery
