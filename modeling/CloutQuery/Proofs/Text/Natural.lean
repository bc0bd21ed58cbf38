import CloutQuery.Text.Natural
import CloutQuery.Proofs.Number.Digits

namespace CloutQuery.Text

variable {cs : List Char} {n : ℕ}

theorem digitsBelow64?_eq_some_iff :
    digitsBelow64? cs = some n ↔
      (cs ≠ [] ∧ (∀ c ∈ cs, c.isDigit = true) ∧ digitsValue cs < 0x10000000000000000) ∧
        digitsValue cs = n := by
  simp only [digitsBelow64?, List.all_eq_true]
  split_ifs with h
  · rw [Option.some.injEq, and_iff_right h]
  · simp [h]

/-- A natural number of at most 64 bits as it may be written: perhaps a plus sign, and digits. -/
@[ext]
structure NaturalText where
  plus : Bool
  digits : List Char
  digits_ne_nil : digits ≠ []
  digits_isDigit : ∀ c ∈ digits, c.isDigit = true
  value_lt : digitsValue digits < 2 ^ 64

namespace NaturalText

variable {t t' : NaturalText}

def chars (t : NaturalText) : List Char := if t.plus then '+' :: t.digits else t.digits

def value (t : NaturalText) : ℕ := digitsValue t.digits

theorem digits_ne_plus (t : NaturalText) (rest : List Char) : t.digits ≠ '+' :: rest := by
  intro h
  have hplus := t.digits_isDigit '+' (by rw [h]; exact List.mem_cons_self)
  exact absurd hplus (by decide)

theorem digitsBelow64?_digits (t : NaturalText) : digitsBelow64? t.digits = some t.value :=
  digitsBelow64?_eq_some_iff.2 ⟨⟨t.digits_ne_nil, t.digits_isDigit, t.value_lt⟩, rfl⟩

theorem natural64?_chars (t : NaturalText) : natural64? t.chars = some t.value := by
  cases hplus : t.plus with
  | true =>
    rw [chars, hplus, if_pos rfl]
    exact t.digitsBelow64?_digits
  | false =>
    rw [chars, hplus, if_neg Bool.false_ne_true, ← t.digitsBelow64?_digits, natural64?]
    exact t.digits_ne_plus

theorem chars_injective (h : t.chars = t'.chars) : t = t' := by
  have hparts : t.plus = t'.plus ∧ t.digits = t'.digits := by
    unfold chars at h
    cases hplus : t.plus <;> cases hplus' : t'.plus <;>
      simp only [hplus, hplus', Bool.false_eq_true, if_true, if_false] at h
    · exact ⟨rfl, h⟩
    · exact absurd h (t.digits_ne_plus _)
    · exact absurd h.symm (t'.digits_ne_plus _)
    · exact ⟨rfl, (List.cons.inj h).2⟩
  exact NaturalText.ext hparts.1 hparts.2

theorem notMem_chars {c : Char} (hplus : c ≠ '+') (hdigit : c.isDigit = false) : c ∉ t.chars := by
  intro hc
  have hmem : c ∈ t.digits := by
    unfold chars at hc
    split at hc
    · exact (List.mem_cons.1 hc).resolve_left hplus
    · exact hc
  rw [t.digits_isDigit c hmem] at hdigit
  cases hdigit

def ofNat (n : ℕ) (h : n < 2 ^ 64) : NaturalText where
  plus := false
  digits := natText n
  digits_ne_nil := natText_ne_nil n
  digits_isDigit _ := isDigit_of_mem_natText
  value_lt := by rwa [digitsValue_natText]

@[simp] theorem ofNat_chars {n : ℕ} (h : n < 2 ^ 64) : (ofNat n h).chars = natText n := rfl

@[simp] theorem ofNat_value {n : ℕ} (h : n < 2 ^ 64) : (ofNat n h).value = n := digitsValue_natText n

end NaturalText

theorem natural64?_eq_some_iff :
    natural64? cs = some n ↔ ∃ t : NaturalText, t.chars = cs ∧ t.value = n := by
  constructor
  · intro h
    unfold natural64? at h
    split at h
    · obtain ⟨⟨hne, hdigits, hlt⟩, hvalue⟩ := digitsBelow64?_eq_some_iff.1 h
      exact ⟨⟨true, _, hne, hdigits, hlt⟩, rfl, hvalue⟩
    · obtain ⟨⟨hne, hdigits, hlt⟩, hvalue⟩ := digitsBelow64?_eq_some_iff.1 h
      exact ⟨⟨false, _, hne, hdigits, hlt⟩, rfl, hvalue⟩
  · rintro ⟨t, rfl, rfl⟩
    exact t.natural64?_chars

theorem cutAt_eq_iff {c : Char} {front : List Char} {rest : Option (List Char)} :
    cutAt c cs = (front, rest) ↔ c ∉ front ∧ cs = front ++ rest.elim [] (c :: ·) := by
  induction cs generalizing front rest with
  | nil =>
    constructor
    · rintro ⟨⟩
      exact ⟨List.not_mem_nil, rfl⟩
    · rintro ⟨-, hnil⟩
      obtain ⟨rfl, hrest⟩ := List.append_eq_nil_iff.1 hnil.symm
      cases rest with
      | none => rfl
      | some _ => cases hrest
  | cons x xs ih =>
    rw [cutAt]
    by_cases hx : x = c
    · rw [if_pos hx]
      subst hx
      constructor
      · rintro ⟨⟩
        exact ⟨List.not_mem_nil, rfl⟩
      · rintro ⟨hfront, hsplit⟩
        cases front with
        | nil =>
          cases rest with
          | none => cases hsplit
          | some rest =>
            cases hsplit
            rfl
        | cons y front =>
          cases hsplit
          exact absurd List.mem_cons_self hfront
    · rw [if_neg hx]
      constructor
      · rintro ⟨⟩
        obtain ⟨hfront, hsplit⟩ := ih.1 rfl
        refine ⟨fun hmem ↦ ?_, congrArg (x :: ·) hsplit⟩
        rcases List.mem_cons.1 hmem with rfl | hmem
        · exact hx rfl
        · exact hfront hmem
      · rintro ⟨hfront, hsplit⟩
        cases front with
        | nil =>
          cases rest with
          | none => cases hsplit
          | some rest =>
            cases hsplit
            exact absurd rfl hx
        | cons y front =>
          obtain ⟨rfl, htail⟩ := List.cons.inj hsplit
          rw [ih.2 ⟨fun hmem ↦ hfront (List.mem_cons_of_mem _ hmem), htail⟩]

/-- Parts that may be missing are found again behind the character that comes before them. -/
theorem cutAt_append_elim {α : Type} {c : Char} {front : List Char} (h : c ∉ front) (x : Option α)
    (chars : α → List Char) :
    cutAt c (front ++ x.elim [] fun a ↦ c :: chars a) = (front, x.map chars) := by
  refine cutAt_eq_iff.2 ⟨h, ?_⟩
  cases x <;> rfl

theorem splitAt_eq_splitOn (c : Char) (cs : List Char) : splitAt c cs = cs.splitOn c := by
  induction cs with
  | nil => rfl
  | cons x xs ih =>
    rw [splitAt, ih, List.splitOn_cons_eq_if_modifyHead]
    by_cases hx : x = c
    · rw [if_pos hx, if_pos (beq_iff_eq.2 hx)]
    · rw [if_neg hx, if_neg (by simpa using hx)]
      obtain ⟨part, parts, hsplit⟩ := List.exists_cons_of_ne_nil (List.splitOn_ne_nil c xs)
      rw [hsplit]
      rfl

theorem joinWith_eq_intercalate (c : Char) (parts : List (List Char)) :
    joinWith c parts = [c].intercalate parts := by
  induction parts with
  | nil => rfl
  | cons part rest ih =>
    cases rest with
    | nil => rw [joinWith, List.intercalate_singleton]
    | cons next rest =>
      rw [joinWith, ih, List.intercalate_cons_cons, List.append_assoc, List.singleton_append]
      exact List.cons_ne_nil _ _

theorem splitAt_ne_nil (c : Char) (cs : List Char) : splitAt c cs ≠ [] := by
  rw [splitAt_eq_splitOn]
  exact List.splitOn_ne_nil c cs

theorem splitAt_of_notMem {c : Char} (h : c ∉ cs) : splitAt c cs = [cs] := by
  rw [splitAt_eq_splitOn, List.splitOn_eq_singleton h]

theorem splitAt_append_cons {c : Char} {front : List Char} (h : c ∉ front) (rest : List Char) :
    splitAt c (front ++ c :: rest) = front :: splitAt c rest := by
  rw [splitAt_eq_splitOn, splitAt_eq_splitOn, List.splitOn_append_cons_self_of_not_mem h]

theorem splitAt_joinWith {c : Char} {parts : List (List Char)} (hne : parts ≠ [])
    (h : ∀ part ∈ parts, c ∉ part) : splitAt c (joinWith c parts) = parts := by
  rw [splitAt_eq_splitOn, joinWith_eq_intercalate, List.splitOn_intercalate c h hne]

theorem notMem_of_mem_splitAt {c : Char} {part : List Char} (h : part ∈ splitAt c cs) : c ∉ part := by
  induction cs generalizing part with
  | nil =>
    rw [List.mem_singleton.1 h]
    exact List.not_mem_nil
  | cons x xs ih =>
    rw [splitAt] at h
    split_ifs at h with hx
    · rcases List.mem_cons.1 h with rfl | h
      · exact List.not_mem_nil
      · exact ih h
    · obtain ⟨first, parts, hsplit⟩ := List.exists_cons_of_ne_nil (splitAt_ne_nil c xs)
      rw [hsplit] at h ih
      rcases List.mem_cons.1 h with rfl | h
      · exact List.not_mem_cons_of_ne_of_not_mem (Ne.symm hx) (ih List.mem_cons_self)
      · exact ih (List.mem_cons_of_mem _ h)

end CloutQuery.Text
