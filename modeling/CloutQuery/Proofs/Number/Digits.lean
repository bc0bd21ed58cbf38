import CloutQuery.Number.Double
import Mathlib.Tactic

namespace CloutQuery

variable {cs : List Char}

section Run

variable {front rest : List Char}

theorem takeWhile_isDigit_append (hfront : ∀ c ∈ front, c.isDigit = true)
    (hrest : ∀ c ∈ rest.head?, c.isDigit = false) :
    (front ++ rest).takeWhile Char.isDigit = front := by
  have hstop : rest.takeWhile Char.isDigit = [] := by
    cases rest with
    | nil => rfl
    | cons c rest => exact List.takeWhile_cons_of_neg (by simp [hrest c rfl])
  rw [List.takeWhile_append_of_pos hfront, hstop, List.append_nil]

theorem dropWhile_isDigit_append (hfront : ∀ c ∈ front, c.isDigit = true)
    (hrest : ∀ c ∈ rest.head?, c.isDigit = false) :
    (front ++ rest).dropWhile Char.isDigit = rest := by
  rw [List.dropWhile_append_of_pos hfront]
  cases rest with
  | nil => rfl
  | cons c rest => exact List.dropWhile_cons_of_neg (by simp [hrest c rfl])

end Run

/-- The digits without the zeros in front; of zeros alone one is left. -/
def withoutZeros (cs : List Char) : List Char :=
  match cs.dropWhile (· = '0') with
  | [] => ['0']
  | ds => ds

theorem withoutZeros_eq_self_iff (hne : cs ≠ []) :
    withoutZeros cs = cs ↔ ¬ ∃ c rest, cs = '0' :: c :: rest := by
  obtain ⟨d, rest, rfl⟩ := List.exists_cons_of_ne_nil hne
  by_cases hd : d = '0'
  · subst hd
    cases rest with
    | nil => simp [withoutZeros]
    | cons c rest =>
      refine iff_of_false (fun h ↦ ?_) (not_not.2 ⟨c, rest, rfl⟩)
      have hstop := List.head?_dropWhile_not (· = '0') ('0' :: c :: rest)
      unfold withoutZeros at h
      split at h
      · cases h
      · simp [h] at hstop
  · refine iff_of_true (by simp [withoutZeros, hd]) ?_
    rintro ⟨c, rest', h⟩
    exact hd (List.cons.inj h).1

theorem digitsValue_append (cs ds : List Char) :
    digitsValue (cs ++ ds) = ds.foldl (fun n c ↦ 10 * n + digitValue c) (digitsValue cs) :=
  List.foldl_append

theorem digitsValue_append_digit (cs : List Char) (c : Char) :
    digitsValue (cs ++ [c]) = 10 * digitsValue cs + digitValue c :=
  digitsValue_append cs [c]

theorem digitsValue_append_eq (cs ds : List Char) :
    digitsValue (cs ++ ds) = digitsValue cs * 10 ^ ds.length + digitsValue ds := by
  induction ds using List.reverseRecOn with
  | nil =>
    have hvalue : digitsValue [] = 0 := rfl
    rw [List.append_nil, List.length_nil, pow_zero, mul_one, hvalue, add_zero]
  | append_singleton ds d ih =>
    rw [← List.append_assoc, digitsValue_append_digit, digitsValue_append_digit, ih,
      List.length_append, List.length_singleton, pow_succ]
    ring

theorem digitsValue_zeros_append (hcs : ∀ c ∈ cs, c = '0') (ds : List Char) :
    digitsValue (cs ++ ds) = digitsValue ds := by
  have hzero : digitsValue cs = 0 := by
    induction cs with
    | nil => rfl
    | cons c rest ih =>
      obtain ⟨rfl, hrest⟩ := List.forall_mem_cons.1 hcs
      exact ih hrest
  rw [digitsValue_append, hzero]
  rfl

theorem digitsValue_withoutZeros (cs : List Char) : digitsValue (withoutZeros cs) = digitsValue cs := by
  have hsplit := List.takeWhile_append_dropWhile (p := (· = '0')) (l := cs)
  have hzeros : ∀ c ∈ cs.takeWhile (· = '0'), c = '0' := fun c hc ↦
    of_decide_eq_true (List.all_eq_true.1 List.all_takeWhile c hc)
  unfold withoutZeros
  split
  · rename_i hnone
    rw [← hsplit, hnone, digitsValue_zeros_append hzeros]
    rfl
  · rw [← hsplit, digitsValue_zeros_append hzeros, hsplit]

theorem toNat_of_isDigit {c : Char} (h : c.isDigit = true) : 48 ≤ c.toNat ∧ c.toNat ≤ 57 :=
  Char.isDigit_iff_toNat.1 h

theorem digitValue_lt {c : Char} (h : c.isDigit = true) : digitValue c < 10 := by
  have hc := toNat_of_isDigit h
  change c.toNat - 48 < 10
  omega

theorem natText_digitValue {c : Char} (h : c.isDigit = true) : natText (digitValue c) = [c] := by
  rw [natText, Nat.toDigits_of_lt_base (digitValue_lt h)]
  have hc := toNat_of_isDigit h
  have hall : ∀ n < 58, 48 ≤ n → (n - 48).digitChar = Char.ofNat n := by decide
  rw [digitValue, show '0'.toNat = 48 from rfl, hall _ (by omega) hc.1, Char.ofNat_toNat]

/-- What begins with another digit than zero is the text of the number it writes. The numbers of the
beginnings are not zero, so each digit is added behind those before it. -/
theorem natText_digitsValue_of_head (hdigits : ∀ c ∈ cs, c.isDigit = true) {d : Char}
    (hhead : cs.head? = some d) (hd : d ≠ '0') :
    0 < digitsValue cs ∧ natText (digitsValue cs) = cs := by
  induction cs using List.reverseRecOn with
  | nil => cases hhead
  | append_singleton cs c ih =>
    have hc := hdigits c (by simp)
    rw [digitsValue_append_digit]
    rcases cs with _ | ⟨e, cs⟩
    · obtain rfl : c = d := Option.some.inj hhead
      have hvalue : digitsValue [] = 0 := rfl
      rw [hvalue, mul_zero, zero_add, natText_digitValue hc]
      refine ⟨Nat.pos_of_ne_zero fun hzero ↦ hd ?_, rfl⟩
      have htext := natText_digitValue hc
      rw [hzero] at htext
      exact (List.cons.inj htext).1.symm
    · obtain ⟨hpos, htext⟩ := ih (fun x hx ↦ hdigits x (List.mem_append_left _ hx)) hhead
      refine ⟨by omega, ?_⟩
      rw [natText, ← Nat.toDigits_append_toDigits (by decide) hpos (digitValue_lt hc)]
      exact congrArg₂ (· ++ ·) htext (natText_digitValue hc)

theorem digitsValue_natText (n : ℕ) : digitsValue (natText n) = n :=
  Nat.ofDigitChars_toDigits (by decide) (by decide)

theorem natText_ne_nil (n : ℕ) : natText n ≠ [] := List.length_pos_iff.1 Nat.length_toDigits_pos

theorem isDigit_of_mem_natText {n : ℕ} {c : Char} (h : c ∈ natText n) : c.isDigit = true :=
  Nat.isDigit_of_mem_toDigits (by decide) (by decide) h

theorem natText_digitsValue (hdigits : ∀ c ∈ cs, c.isDigit = true) :
    natText (digitsValue cs) = withoutZeros cs := by
  rw [← digitsValue_withoutZeros]
  unfold withoutZeros
  split
  · rfl
  · rename_i ds hne
    cases hds : cs.dropWhile (· = '0') with
    | nil => exact absurd hds hne
    | cons d rest =>
      have hd : d ≠ '0' := by
        have hstop := List.head?_dropWhile_not (· = '0') cs
        rw [hds] at hstop
        simpa using hstop
      refine (natText_digitsValue_of_head (fun c hc ↦ hdigits c ?_) rfl hd).2
      rw [← hds] at hc
      exact (List.dropWhile_suffix _).subset hc

end CloutQuery
