import CloutQuery.Graph.Output
import CloutQuery.Proofs.Number.Digits
import CloutQuery.Proofs.Number.Literal
import CloutQuery.Proofs.Text.AsciiBytes
import Mathlib.Data.List.DropRight

namespace CloutQuery

open Text OutputType
open Double (overflowBound RoundsTo)

def OptionalSign (cs : List Char) : Prop := cs = [] ∨ cs = ['+'] ∨ cs = ['-']

/-- A text that begins, behind blanks, with an integer: perhaps a sign, and as many digits as there
are, at least one. -/
structure IntegerText where
  blanks : List Char
  sign : List Char
  digits : List Char
  rest : List Char
  blanks_isBlank : ∀ c ∈ blanks, isBlank c = true
  sign_optional : OptionalSign sign
  digits_ne_nil : digits ≠ []
  digits_isDigit : ∀ c ∈ digits, c.isDigit = true
  rest_stop : ∀ c ∈ rest.head?, c.isDigit = false

theorem ne_sign_of_isDigit {c : Char} (h : c.isDigit = true) : c ≠ '+' ∧ c ≠ '-' := by
  constructor <;> rintro rfl <;> exact absurd h (by decide)

theorem leadingSign_of_sign {sign tail : List Char} (hsign : OptionalSign sign)
    (htail : ∀ c ∈ tail.head?, c ≠ '+' ∧ c ≠ '-') :
    leadingSign (sign ++ tail) = (decide (sign = ['-']), tail) := by
  rcases hsign with rfl | rfl | rfl
  · rw [List.nil_append]
    unfold leadingSign
    split
    · exact absurd rfl (htail '-' rfl).2
    · exact absurd rfl (htail '+' rfl).1
    · rfl
  · rfl
  · rfl

theorem isBlank_of_isDigit {c : Char} (h : c.isDigit = true) : isBlank c = false := by
  have hc := toNat_of_isDigit h
  simp only [isBlank, Ranges.contains, blankRanges, List.any_cons, List.any_nil, Bool.or_eq_false_iff,
    Bool.and_eq_false_iff, decide_eq_false_iff_not, and_true]
  omega

namespace IntegerText

variable (t : IntegerText) {t' : IntegerText}

def chars : List Char := t.blanks ++ (t.sign ++ (t.digits ++ t.rest))

def text : String := String.ofList t.chars

def negative : Bool := t.sign = ['-']

def value : ℤ := if t.negative then -(digitsValue t.digits : ℤ) else digitsValue t.digits

def decimal : Decimal := ⟨t.negative, digitsValue t.digits, 0⟩

theorem decimal_value : t.decimal.value = t.value := by
  unfold Decimal.value Decimal.absValue decimal value
  dsimp only
  rw [zpow_zero, mul_one]
  split_ifs
  · rw [Int.cast_neg, Int.cast_natCast]
  · rw [Int.cast_natCast]

theorem trimStart_chars : trimStart t.chars = t.sign ++ (t.digits ++ t.rest) := by
  obtain ⟨d, ds, hd⟩ := List.exists_cons_of_ne_nil t.digits_ne_nil
  have hdigit := isBlank_of_isDigit (t.digits_isDigit d (by simp [hd]))
  rw [trimStart, chars, List.dropWhile_append_of_pos t.blanks_isBlank, hd]
  rcases t.sign_optional with h | h | h <;> rw [h]
  · exact List.dropWhile_cons_of_neg (by simp [hdigit])
  · rfl
  · rfl

theorem leadingSign_eq :
    leadingSign (t.sign ++ (t.digits ++ t.rest)) = (t.negative, t.digits ++ t.rest) := by
  obtain ⟨d, ds, hd⟩ := List.exists_cons_of_ne_nil t.digits_ne_nil
  refine leadingSign_of_sign t.sign_optional fun c hc ↦ ne_sign_of_isDigit (t.digits_isDigit c ?_)
  rw [hd] at hc ⊢
  cases hc
  exact List.mem_cons_self

theorem takeWhile_digits : (t.digits ++ t.rest).takeWhile Char.isDigit = t.digits :=
  takeWhile_isDigit_append t.digits_isDigit t.rest_stop

theorem leadingInteger?_chars :
    leadingInteger? t.chars = (Number.ofInt? t.value).or (t.decimal.toDouble?.map .double) := by
  unfold leadingInteger?
  rw [t.trimStart_chars, t.leadingSign_eq]
  dsimp only
  rw [t.takeWhile_digits]
  split
  · rename_i h
    exact absurd h t.digits_ne_nil
  · rfl

/-- Of the text only the sign and the number that the digits write count. -/
theorem leadingInteger?_congr {t : IntegerText} (hsign : t.sign = t'.sign)
    (hdigits : digitsValue t.digits = digitsValue t'.digits) :
    leadingInteger? t.chars = leadingInteger? t'.chars := by
  rw [leadingInteger?_chars, leadingInteger?_chars]
  unfold value decimal negative
  rw [hsign, hdigits]

def alone : IntegerText :=
  { t with blanks := [], rest := [], blanks_isBlank := by simp, rest_stop := by simp }

def ofTail (blanks sign tail : List Char) (hblanks : ∀ c ∈ blanks, isBlank c = true)
    (hsign : OptionalSign sign) (hne : tail.takeWhile Char.isDigit ≠ []) : IntegerText where
  blanks := blanks
  sign := sign
  digits := tail.takeWhile Char.isDigit
  rest := tail.dropWhile Char.isDigit
  blanks_isBlank := hblanks
  sign_optional := hsign
  digits_ne_nil := hne
  digits_isDigit := fun c hc ↦ List.all_eq_true.1 List.all_takeWhile c hc
  rest_stop := by
    have hstop := List.head?_dropWhile_not Char.isDigit tail
    intro c hc
    rw [Option.mem_def.1 hc] at hstop
    exact hstop

theorem ofTail_chars {blanks sign tail : List Char} (hblanks : ∀ c ∈ blanks, isBlank c = true)
    (hsign : OptionalSign sign) (hne : tail.takeWhile Char.isDigit ≠ []) :
    (ofTail blanks sign tail hblanks hsign hne).chars = blanks ++ (sign ++ tail) := by
  simp only [chars, ofTail, List.takeWhile_append_dropWhile]

end IntegerText

def isSignByte (b : UInt8) : Bool := b = '+'.toUInt8 || b = '-'.toUInt8

def isDigitByte (b : UInt8) : Bool := '0'.toUInt8 ≤ b && b ≤ '9'.toUInt8

/-- Where a scan of the bytes for an integer ends: behind a sign, if there is one, and digits. -/
def integerEnd (bs : List UInt8) : ℕ :=
  let start := if bs.head?.any isSignByte then 1 else 0
  start + ((bs.drop start).takeWhile isDigitByte).length

theorem isByteOf_isDigitByte (c : Char) : isByteOf isDigitByte c = c.isDigit := by
  rw [Bool.eq_iff_iff, Char.isDigit_iff_toNat]
  simp only [isByteOf, isDigitByte, Bool.and_eq_true, decide_eq_true_eq, UInt8.le_iff_toNat_le,
    UInt8.toNat_ofNat', show '0'.toUInt8.toNat = 48 from rfl, show '9'.toUInt8.toNat = 57 from rfl,
    show '0'.toNat = 48 from rfl, show '9'.toNat = 57 from rfl]
  omega

theorem isByteOf_isSignByte (c : Char) : isByteOf isSignByte c = decide (c = '+' ∨ c = '-') := by
  have hnat (d : Char) : c = d ↔ c.toNat = d.toNat := Char.toNat_inj.symm
  rw [Bool.eq_iff_iff]
  simp only [isByteOf, isSignByte, Bool.and_eq_true, Bool.or_eq_true, decide_eq_true_eq, hnat,
    ← UInt8.toNat_inj, UInt8.toNat_ofNat', show '+'.toUInt8.toNat = 43 from rfl,
    show '-'.toUInt8.toNat = 45 from rfl, show '+'.toNat = 43 from rfl, show '-'.toNat = 45 from rfl]
  omega

theorem lt_of_isDigitByte (b : UInt8) (h : isDigitByte b = true) : b < 0x80 := by
  simp only [isDigitByte, Bool.and_eq_true, decide_eq_true_eq] at h
  exact UInt8.lt_of_le_of_lt h.2 (by decide)

theorem lt_of_isSignByte (b : UInt8) (h : isSignByte b = true) : b < 0x80 := by
  simp only [isSignByte, Bool.or_eq_true, decide_eq_true_eq] at h
  rcases h with rfl | rfl <;> decide

theorem leadingSign_append (cs : List Char) :
    ∃ sign, OptionalSign sign ∧ sign ++ (leadingSign cs).2 = cs ∧
      (leadingSign cs).1 = decide (sign = ['-']) ∧
      cs.head?.any (isByteOf isSignByte) = decide (sign ≠ []) := by
  unfold leadingSign
  split
  · exact ⟨['-'], .inr (.inr rfl), rfl, rfl, rfl⟩
  · exact ⟨['+'], .inr (.inl rfl), rfl, rfl, rfl⟩
  · rename_i hminus hplus
    refine ⟨[], .inl rfl, rfl, rfl, ?_⟩
    cases cs with
    | nil => rfl
    | cons c rest =>
      have hne : ¬ (c = '+' ∨ c = '-') := by
        rintro (rfl | rfl)
        · exact hplus _ rfl
        · exact hminus _ rfl
      simp [isByteOf_isSignByte, hne]

theorem leadingInteger?_eq_none {cs : List Char}
    (h : (leadingSign (trimStart cs)).2.takeWhile Char.isDigit = []) : leadingInteger? cs = none := by
  unfold leadingInteger?
  dsimp only
  rw [h]

theorem exists_integerText {cs : List Char} (h : leadingInteger? cs ≠ none) :
    ∃ t : IntegerText, t.chars = cs := by
  obtain ⟨sign, hsign, hcs, -, -⟩ := leadingSign_append (trimStart cs)
  have hblanks : ∀ c ∈ cs.takeWhile isBlank, isBlank c = true :=
    fun c hc ↦ List.all_eq_true.1 List.all_takeWhile c hc
  refine ⟨.ofTail _ sign _ hblanks hsign fun hnil ↦ h (leadingInteger?_eq_none hnil), ?_⟩
  rw [IntegerText.ofTail_chars, hcs]
  exact List.takeWhile_append_dropWhile

theorem exists_integerEnd {cs : List Char} (htrim : trimStart cs = cs) :
    ∃ front rest, cs = front ++ rest ∧
      integerEnd (cs.flatMap String.utf8EncodeChar) = (front.flatMap String.utf8EncodeChar).length ∧
      leadingInteger? front = leadingInteger? cs ∧
      ∀ t : IntegerText, trimStart t.chars = cs → front = t.sign ++ t.digits := by
  obtain ⟨sign, hsign, hcs, -, hany⟩ := leadingSign_append cs
  have hnone (hnil : (leadingSign cs).2.takeWhile Char.isDigit = []) : leadingInteger? cs = none :=
    leadingInteger?_eq_none (by rwa [htrim])
  have hwritten (t : IntegerText) (ht : trimStart t.chars = cs) :
      sign = t.sign ∧ (leadingSign cs).2.takeWhile Char.isDigit = t.digits := by
    rw [← ht, t.trimStart_chars, t.leadingSign_eq] at hcs ⊢
    exact ⟨List.append_cancel_right hcs, t.takeWhile_digits⟩
  -- from here on nothing counts but that the tail stands behind the sign
  generalize (leadingSign cs).2 = tail at hcs hnone hwritten
  have hdigits : (tail.flatMap String.utf8EncodeChar).takeWhile isDigitByte =
      (tail.takeWhile Char.isDigit).flatMap String.utf8EncodeChar := by
    rw [takeWhile_flatMap_encodeChar lt_of_isDigitByte, funext isByteOf_isDigitByte]
  refine ⟨sign ++ tail.takeWhile Char.isDigit, tail.dropWhile Char.isDigit, ?_, ?_, ?_, ?_⟩
  · rw [List.append_assoc, List.takeWhile_append_dropWhile, hcs]
  · unfold integerEnd
    rw [any_head?_flatMap_encodeChar lt_of_isSignByte, hany, ← hcs, List.flatMap_append,
      List.flatMap_append, List.length_append, ← hdigits]
    rcases hsign with rfl | rfl | rfl <;> rfl
  · by_cases hne : tail.takeWhile Char.isDigit = []
    · rw [hnone hne, hne]
      rcases hsign with rfl | rfl | rfl <;> rfl
    · let t : IntegerText := .ofTail [] sign tail (by simp) hsign hne
      have ht : t.chars = cs := (IntegerText.ofTail_chars _ _ _).trans hcs
      have halone : t.alone.chars = sign ++ tail.takeWhile Char.isDigit := by
        simp [t, IntegerText.alone, IntegerText.ofTail, IntegerText.chars]
      rw [← ht, ← halone]
      exact IntegerText.leadingInteger?_congr rfl rfl
  · intro t ht
    obtain ⟨hs, hd⟩ := hwritten t ht
    rw [hs, hd]

def InRange (z : ℤ) : Prop := -2 ^ 63 ≤ z ∧ z ≤ 2 ^ 64 - 1

theorem ofInt?_isSome_iff {z : ℤ} : (Number.ofInt? z).isSome ↔ InRange z := by
  unfold Number.ofInt? InRange
  split_ifs with h
  · exact iff_of_true rfl (by omega)
  · exact iff_of_false (by simp) (by omega)

theorem ofInt?_eq_some {z : ℤ} {n : Number} (h : Number.ofInt? z = some n) :
    ∃ bounds, n = .integer z bounds := by
  unfold Number.ofInt? at h
  split_ifs at h with hz
  exact ⟨hz, (Option.some.inj h).symm⟩

theorem abs_lt_overflowBound {z : ℤ} (h : |z| ≤ 2 ^ 64) : |(z : ℚ)| < overflowBound := by
  have hq : |(z : ℚ)| ≤ 2 ^ 64 := by exact_mod_cast h
  have hpow : (2 : ℚ) ^ 64 < 2 ^ (971 : ℤ) := by
    rw [← zpow_natCast]
    exact zpow_lt_zpow_right₀ one_lt_two (by decide)
  rw [Double.overflowBound_eq]
  calc |(z : ℚ)| ≤ 2 ^ 64 := hq
    _ < 2 ^ (971 : ℤ) := hpow
    _ ≤ (2 ^ 53 - 1 / 2) * 2 ^ (971 : ℤ) := le_mul_of_one_le_left (zpow_pos two_pos _).le (by norm_num)

theorem InRange.abs_lt {z : ℤ} (h : InRange z) : |(z : ℚ)| < overflowBound := by
  unfold InRange at h
  exact abs_lt_overflowBound (abs_le.2 ⟨by omega, by omega⟩)

namespace IntegerText

variable {t : IntegerText}

theorem coerce_text (t : IntegerText) :
    OutputType.integer.coerce t.text =
      ((Number.ofInt? t.value).or (t.decimal.toDouble?.map .double)).map .number := by
  rw [← leadingInteger?_chars, coerce, text, String.toList_ofList]

theorem coerce_text_isSome_iff :
    (OutputType.integer.coerce t.text).isSome ↔ |(t.value : ℚ)| < overflowBound := by
  rw [coerce_text, Option.isSome_map, Option.isSome_or, Option.isSome_map, Bool.or_eq_true,
    ofInt?_isSome_iff, Decimal.toDouble?_isSome_iff, decimal_value]
  exact or_iff_right_of_imp InRange.abs_lt

theorem coerce_text_integer_iff :
    (∃ bounds, OutputType.integer.coerce t.text = some (.number (.integer t.value bounds))) ↔
      InRange t.value := by
  rw [coerce_text, ← ofInt?_isSome_iff]
  constructor
  · rintro ⟨bounds, h⟩
    cases hz : Number.ofInt? t.value with
    | some => rfl
    | none =>
      rw [hz, Option.none_or, Option.map_map, Option.map_eq_some_iff] at h
      obtain ⟨d, -, hd⟩ := h
      cases hd
  · intro h
    obtain ⟨n, hn⟩ := Option.isSome_iff_exists.1 h
    obtain ⟨bounds, rfl⟩ := ofInt?_eq_some hn
    exact ⟨bounds, by rw [hn]; rfl⟩

theorem coerce_text_double (hrange : ¬ InRange t.value) (hlt : |(t.value : ℚ)| < overflowBound) :
    ∃ d, OutputType.integer.coerce t.text = some (.number (.double d)) ∧ RoundsTo t.value d := by
  rw [← decimal_value, ← Decimal.toDouble?_isSome_iff] at hlt
  obtain ⟨d, hd⟩ := Option.isSome_iff_exists.1 hlt
  rw [← ofInt?_isSome_iff, Option.not_isSome_iff_eq_none] at hrange
  refine ⟨d, by rw [coerce_text, hrange, hd]; rfl, ?_⟩
  rw [← decimal_value]
  exact Decimal.toDouble?_roundsTo hd

theorem coerce_text_congr {t' : IntegerText} (hsign : t.sign = t'.sign)
    (hdigits : withoutZeros t.digits = withoutZeros t'.digits) :
    OutputType.integer.coerce t.text = OutputType.integer.coerce t'.text := by
  have hvalue : digitsValue t.digits = digitsValue t'.digits := by
    rw [← digitsValue_withoutZeros, hdigits, digitsValue_withoutZeros]
  simp only [coerce, text, String.toList_ofList, leadingInteger?_congr hsign hvalue]

end IntegerText

theorem coerce_integer_eq_none_iff {text : String} :
    OutputType.integer.coerce text = none ↔
      (¬ ∃ t : IntegerText, t.text = text) ∨
        ∃ t : IntegerText, t.text = text ∧ overflowBound ≤ |(t.value : ℚ)| := by
  constructor
  · intro h
    by_contra hnot
    push Not at hnot
    obtain ⟨⟨t, rfl⟩, hlt⟩ := hnot
    have hsome := IntegerText.coerce_text_isSome_iff.2 (hlt t rfl)
    rw [h] at hsome
    cases hsome
  · rintro (hnot | ⟨t, rfl, hle⟩)
    · by_contra h
      have hread : leadingInteger? text.toList ≠ none := fun hnone ↦ h (by rw [coerce, hnone]; rfl)
      obtain ⟨t, ht⟩ := exists_integerText hread
      exact hnot ⟨t, by rw [IntegerText.text, ht, String.ofList_toList]⟩
    · rw [← Option.not_isSome_iff_eq_none, IntegerText.coerce_text_isSome_iff]
      exact not_lt.2 hle

def trimmed (text : String) : String := String.ofList (trimStart text.toList)

theorem trimStart_trimStart (cs : List Char) : trimStart (trimStart cs) = trimStart cs := by
  unfold trimStart
  exact List.dropWhile_idempotent isBlank cs

/-- The bytes of a text without the blanks before it are scanned up to a position in it. What is cut
off there is the integer, and it is coerced as the text is. -/
theorem coerce_integer_slice (text : String) :
    ∃ p : (trimmed text).Pos,
      p.offset.byteIdx = integerEnd (bytes (trimmed text)) ∧
      OutputType.integer.coerce text = OutputType.integer.coerce ((trimmed text).sliceTo p).copy ∧
      ∀ t : IntegerText, t.text = text →
        ((trimmed text).sliceTo p).copy = String.ofList (t.sign ++ t.digits) := by
  have hread : leadingInteger? (trimStart text.toList) = leadingInteger? text.toList := by
    unfold leadingInteger?
    rw [trimStart_trimStart]
  obtain ⟨front, rest, hsplit, hend, hfront, hwritten⟩ :=
    exists_integerEnd (trimStart_trimStart text.toList)
  have hslice (t : IntegerText) (ht : t.text = text) : front = t.sign ++ t.digits :=
    hwritten t (by rw [← ht, IntegerText.text, String.toList_ofList])
  rw [trimmed, hsplit]
  rw [hsplit] at hread hend hfront
  obtain ⟨p, hp, hcopy⟩ := exists_pos_of_append front rest
  refine ⟨p, by rw [bytes_ofList, hend, hp], ?_, fun t ht ↦ by rw [hcopy, hslice t ht]⟩
  rw [hcopy, coerce, coerce, String.toList_ofList, hfront, hread]

/-- A text is none as an integer if it begins with no integer or with one that is beyond the floats.
It is that integer if a JSON text can hold it, and otherwise the float it is rounded to. Nothing else
in the text counts, and no character is cut in two when the integer is cut off. -/
theorem OutputType.coerce_integer_exact (text : String) :
    (integer.coerce text = none ↔
      (¬ ∃ t : IntegerText, t.text = text) ∨
        ∃ t : IntegerText, t.text = text ∧ overflowBound ≤ |(t.value : ℚ)|) ∧
    (∀ t : IntegerText, t.text = text →
      ((∃ bounds, integer.coerce text = some (.number (.integer t.value bounds))) ↔ InRange t.value) ∧
      (¬ InRange t.value → |(t.value : ℚ)| < overflowBound →
        ∃ d, integer.coerce text = some (.number (.double d)) ∧ RoundsTo t.value d) ∧
      ∀ t' : IntegerText, t.sign = t'.sign → withoutZeros t.digits = withoutZeros t'.digits →
        integer.coerce text = integer.coerce t'.text) ∧
    ∃ p : (trimmed text).Pos,
      p.offset.byteIdx = integerEnd (bytes (trimmed text)) ∧
      integer.coerce text = integer.coerce ((trimmed text).sliceTo p).copy ∧
      ∀ t : IntegerText, t.text = text →
        ((trimmed text).sliceTo p).copy = String.ofList (t.sign ++ t.digits) := by
  refine ⟨coerce_integer_eq_none_iff, ?_, coerce_integer_slice text⟩
  rintro t rfl
  exact ⟨IntegerText.coerce_text_integer_iff, IntegerText.coerce_text_double,
    fun t' ↦ IntegerText.coerce_text_congr⟩

theorem OutputType.coerce_integer_exact_boundaries :
    (∃ bounds, integer.coerce "\u3000+018446744073709551615é" =
      some (.number (.integer 18446744073709551615 bounds))) ∧
    integer.coerce "\u3000+018446744073709551615é" = integer.coerce "+18446744073709551615" ∧
    ∃ d, integer.coerce "-9223372036854775809.5" = some (.number (.double d)) ∧
      RoundsTo (-9223372036854775809 : ℤ) d := by
  let padded : IntegerText :=
    { blanks := ['\u3000'], sign := ['+'], digits := "018446744073709551615".toList, rest := ['é'],
      blanks_isBlank := List.all_eq_true.1 (by decide), sign_optional := .inr (.inl rfl),
      digits_ne_nil := by decide +kernel, digits_isDigit := List.all_eq_true.1 (by decide +kernel),
      rest_stop := by simp }
  let greatest : IntegerText :=
    { blanks := [], sign := ['+'], digits := "18446744073709551615".toList, rest := [],
      blanks_isBlank := by simp, sign_optional := .inr (.inl rfl),
      digits_ne_nil := by decide +kernel, digits_isDigit := List.all_eq_true.1 (by decide +kernel),
      rest_stop := by simp }
  let below : IntegerText :=
    { blanks := [], sign := ['-'], digits := "9223372036854775809".toList, rest := ['.', '5'],
      blanks_isBlank := by simp, sign_optional := .inr (.inr rfl),
      digits_ne_nil := by decide +kernel, digits_isDigit := List.all_eq_true.1 (by decide +kernel),
      rest_stop := by simp }
  have hpadded := (coerce_integer_exact "\u3000+018446744073709551615é").2.1 padded (by decide +kernel)
  have hbelow := (coerce_integer_exact "-9223372036854775809.5").2.1 below (by decide +kernel)
  refine ⟨?_, ?_, ?_⟩
  · have hvalue : padded.value = 18446744073709551615 := by decide +kernel
    have h := hpadded.1.2 (by rw [hvalue]; constructor <;> norm_num)
    rw [hvalue] at h
    exact h
  · have hgreatest : greatest.text = "+18446744073709551615" := by decide +kernel
    rw [← hgreatest]
    exact hpadded.2.2 greatest rfl (by decide +kernel)
  · have hvalue : below.value = -9223372036854775809 := by decide +kernel
    have hrange : ¬ InRange below.value := by
      rw [hvalue]
      rintro ⟨h, -⟩
      norm_num at h
    have h := hbelow.2.1 hrange (abs_lt_overflowBound (by rw [hvalue]; norm_num))
    rw [hvalue] at h
    exact h

end CloutQuery
