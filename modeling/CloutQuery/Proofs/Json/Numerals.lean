import CloutQuery.Proofs.Json.Blanks
import CloutQuery.Proofs.Json.Outcome
import CloutQuery.Proofs.Number.Digits

namespace CloutQuery.Json

variable {α β : Type}

/-- `x` may stand behind a number literal as `r` may: it begins as `r`, or with punctuation, or is
empty. -/
def Continues (r x : List Char) : Prop := x.head? = r.head? ∨ ∀ c ∈ x.head?, IsPunctuation c

/-- A piece of plain characters is read, and no less or more of it in front of another rest. -/
structure Local (p : List Char → Option (α × List Char)) : Prop where
  piece {cs : List Char} {a : α} {r : List Char} : p cs = some (a, r) →
    ∃ l, cs = l ++ r ∧ (∀ c ∈ l, Plain c) ∧ ∀ x, Continues r x → p (l ++ x) = some (a, x)

def branch (c : Char) (p q : List Char → Option (α × List Char)) :
    List Char → Option (α × List Char)
  | [] => q []
  | d :: rest => if d = c then p rest else q (d :: rest)

theorem IsPunctuation.not_isDigit {c : Char} (h : IsPunctuation c) : c.isDigit = false := by
  rcases h.cases with rfl | rfl | rfl | rfl | rfl | rfl <;> rfl

theorem plain_of_isDigit {c : Char} (h : c.isDigit = true) : Plain c := by
  refine ⟨?_, ?_⟩
  · unfold Token.isBlank
    simp only [Bool.or_eq_false_iff, decide_eq_false_iff_not]
    refine ⟨⟨⟨?_, ?_⟩, ?_⟩, ?_⟩ <;> rintro rfl <;> exact absurd h (by decide)
  · rintro rfl
    exact absurd h (by decide)

namespace Continues

variable {r x : List Char}

theorem append (h : Continues r x) (l : List Char) : Continues (l ++ r) (l ++ x) := by
  cases l with
  | nil => exact h
  | cons => exact .inl rfl

theorem forall_head? {P : Char → Prop} (h : Continues r x) (hr : ∀ c ∈ r.head?, P c)
    (hpunctuation : ∀ c, IsPunctuation c → P c) : ∀ c ∈ x.head?, P c := by
  rcases h with h | h
  · rwa [h]
  · exact fun c hc ↦ hpunctuation c (h c hc)

end Continues

theorem branch_of_eq (c : Char) (p q : List Char → Option (α × List Char)) (rest : List Char) :
    branch c p q (c :: rest) = p rest := if_pos rfl

theorem branch_of_ne {c : Char} {cs : List Char} (h : ∀ rest, cs ≠ c :: rest)
    (p q : List Char → Option (α × List Char)) : branch c p q cs = q cs := by
  cases cs with
  | nil => rfl
  | cons d rest =>
    rw [branch, if_neg]
    rintro rfl
    exact h rest rfl

namespace Local

variable {p q : List Char → Option (α × List Char)}

theorem pure (a : α) : Local fun cs ↦ some (a, cs) where
  piece {cs b r} h := by
    cases h
    exact ⟨[], rfl, by simp, fun x _ ↦ rfl⟩

theorem bind {f : α → List Char → Option (β × List Char)} (hp : Local p) (hf : ∀ a, Local (f a)) :
    Local fun cs ↦ (p cs).bind fun y ↦ f y.1 y.2 where
  piece {cs b r} h := by
    obtain ⟨⟨a, s⟩, hfirst, hnext⟩ := Option.bind_eq_some_iff.1 h
    obtain ⟨l, rfl, hl, hlx⟩ := hp.piece hfirst
    obtain ⟨m, rfl, hm, hmx⟩ := (hf a).piece hnext
    refine ⟨l ++ m, (List.append_assoc _ _ _).symm, List.forall_mem_append.2 ⟨hl, hm⟩, fun x hx ↦ ?_⟩
    rw [List.append_assoc, hlx (m ++ x) (hx.append m)]
    exact hmx x hx

theorem map (hp : Local p) (f : α → β) : Local fun cs ↦ (p cs).map fun y ↦ (f y.1, y.2) := by
  simp only [Option.map_eq_bind]
  exact hp.bind fun a ↦ Local.pure (f a)

theorem branch {c : Char} (hplain : Plain c) (hc : ¬ IsPunctuation c) (hp : Local p) (hq : Local q) :
    Local (branch c p q) where
  piece {cs a r} h := by
    by_cases hhead : ∃ rest, cs = c :: rest
    · obtain ⟨rest, rfl⟩ := hhead
      rw [branch_of_eq] at h
      obtain ⟨l, rfl, hl, hlx⟩ := hp.piece h
      refine ⟨c :: l, rfl, List.forall_mem_cons.2 ⟨hplain, hl⟩, fun x hx ↦ ?_⟩
      rw [List.cons_append, branch_of_eq]
      exact hlx x hx
    · rw [not_exists] at hhead
      rw [branch_of_ne hhead] at h
      obtain ⟨l, rfl, hl, hlx⟩ := hq.piece h
      refine ⟨l, rfl, hl, fun x hx ↦ ?_⟩
      have hne : ∀ d ∈ (l ++ x).head?, d ≠ c := by
        refine (hx.append l).forall_head? (fun d hd ↦ ?_) fun d hd ↦ ?_
        · rintro rfl
          obtain ⟨rest, hrest⟩ := List.head?_eq_some_iff.1 hd
          exact hhead rest hrest
        · rintro rfl
          exact hc hd
      rw [branch_of_ne fun rest hrest ↦ hne c (by rw [hrest]; rfl) rfl]
      exact hlx x hx

end Local

namespace Numeral

theorem outcome_digits_iff {cs ds r : List Char} : outcome (digits cs) = some (ds, r) ↔
    cs = ds ++ r ∧ ds ≠ [] ∧ (∀ c ∈ ds, c.isDigit = true) ∧ ∀ c ∈ r.head?, c.isDigit = false := by
  constructor
  · intro h
    cases cs with
    | nil => cases h
    | cons c rest =>
      rw [digits] at h
      split_ifs at h with hc
      · cases h
        refine ⟨by simp, by simp, ?_, fun d hd ↦ ?_⟩
        · exact List.forall_mem_cons.2 ⟨hc, fun d hd ↦ List.all_eq_true.1 List.all_takeWhile d hd⟩
        · have hstop := List.head?_dropWhile_not Char.isDigit rest
          rwa [Option.mem_def.1 hd] at hstop
      · cases h
  · rintro ⟨rfl, hne, hds, hr⟩
    cases ds with
    | nil => exact absurd rfl hne
    | cons d ds =>
      obtain ⟨hd, hds⟩ := List.forall_mem_cons.1 hds
      rw [List.cons_append, digits, if_pos hd, outcome_ok, takeWhile_isDigit_append hds hr]
      exact congrArg (fun rest ↦ some (d :: ds, rest)) (dropWhile_isDigit_append hds hr)

theorem local_digits : Local fun cs ↦ outcome (digits cs) where
  piece {cs ds r} h := by
    obtain ⟨rfl, hne, hds, hr⟩ := outcome_digits_iff.1 h
    refine ⟨ds, rfl, fun c hc ↦ plain_of_isDigit (hds c hc), fun x hx ↦ ?_⟩
    exact outcome_digits_iff.2 ⟨rfl, hne, hds, hx.forall_head? hr fun c hc ↦ hc.not_isDigit⟩

/-- A literal may be zero but not begin with it. -/
theorem outcome_whole (cs : List Char) : outcome (whole cs) = (outcome (digits cs)).bind fun y ↦
    if y.1.head? = some '0' ∧ y.1 ≠ ['0'] then none else some (y.1, y.2) := by
  rcases cs with _ | ⟨c, _ | ⟨d, rest⟩⟩
  · rfl
  · by_cases hc : c.isDigit = true <;> simp [whole, digits, hc]
  · by_cases hzero : c = '0'
    · subst hzero
      by_cases hd : d.isDigit = true <;> simp [whole, digits, hd, Rest.tail]
    · have hwhole : whole (c :: d :: rest) = digits (c :: d :: rest) := by
        rw [whole]
        rintro _ _ h
        exact hzero (List.cons.inj h).1
      by_cases hc : c.isDigit = true <;> simp [hwhole, digits, hc, hzero]

theorem local_whole : Local fun cs ↦ outcome (whole cs) := by
  simp only [outcome_whole]
  refine local_digits.bind (f := fun ds cs ↦
    if ds.head? = some '0' ∧ ds ≠ ['0'] then none else some (ds, cs)) fun ds ↦ ?_
  split_ifs
  · exact ⟨fun h ↦ by cases h⟩
  · exact Local.pure ds

theorem outcome_fraction (cs : List Char) : outcome (fraction cs) =
    branch '.' (fun cs ↦ outcome (digits cs)) (fun cs ↦ some ([], cs)) cs := by
  unfold fraction
  split
  · rename_i rest
    rw [branch_of_eq]
    cases digits rest <;> rfl
  · rename_i hne
    rw [branch_of_ne hne]
    rfl

theorem local_fraction : Local fun cs ↦ outcome (fraction cs) := by
  simp only [outcome_fraction]
  exact Local.branch (by decide) (by decide) local_digits (Local.pure [])

theorem outcome_signedDigits (cs : List Char) : outcome (signedDigits cs) =
    branch '-' (fun cs ↦ (outcome (digits cs)).map fun y ↦ (-(digitsValue y.1 : ℤ), y.2))
      (branch '+' (fun cs ↦ (outcome (digits cs)).map fun y ↦ ((digitsValue y.1 : ℤ), y.2))
        fun cs ↦ (outcome (digits cs)).map fun y ↦ ((digitsValue y.1 : ℤ), y.2)) cs := by
  by_cases hminus : ∃ rest, cs = '-' :: rest
  · obtain ⟨rest, rfl⟩ := hminus
    rw [branch_of_eq, signedDigits, sign]
    dsimp only [Rest.tail, Rest.weaken]
    cases digits rest <;> rfl
  · by_cases hplus : ∃ rest, cs = '+' :: rest
    · obtain ⟨rest, rfl⟩ := hplus
      rw [branch_of_ne (by simp), branch_of_eq, signedDigits, sign]
      dsimp only [Rest.tail, Rest.weaken]
      cases digits rest <;> rfl
    · rw [not_exists] at hminus hplus
      have hsign : sign cs = (false, Remainder.all cs) := by
        rw [sign]
        · exact hminus
        · exact hplus
      rw [branch_of_ne hminus, branch_of_ne hplus, signedDigits, hsign]
      dsimp only [Remainder.all]
      cases digits cs <;> rfl

theorem local_signedDigits : Local fun cs ↦ outcome (signedDigits cs) := by
  simp only [outcome_signedDigits]
  have hplain := local_digits.map fun ds ↦ (digitsValue ds : ℤ)
  exact Local.branch (by decide) (by decide) (local_digits.map fun ds ↦ -(digitsValue ds : ℤ))
    (Local.branch (by decide) (by decide) hplain hplain)

theorem outcome_exponent (cs : List Char) : outcome (exponent cs) =
    branch 'e' (fun cs ↦ (outcome (signedDigits cs)).map fun y ↦ (some y.1, y.2))
      (branch 'E' (fun cs ↦ (outcome (signedDigits cs)).map fun y ↦ (some y.1, y.2))
        fun cs ↦ some (none, cs)) cs := by
  unfold exponent
  split
  · rename_i rest
    rw [branch_of_eq]
    cases signedDigits rest <;> rfl
  · rename_i rest
    rw [branch_of_ne (by simp), branch_of_eq]
    cases signedDigits rest <;> rfl
  · rename_i hlower hupper
    rw [branch_of_ne hlower, branch_of_ne hupper]
    rfl

theorem local_exponent : Local fun cs ↦ outcome (exponent cs) := by
  simp only [outcome_exponent]
  exact Local.branch (by decide) (by decide) (local_signedDigits.map some)
    (Local.branch (by decide) (by decide) (local_signedDigits.map some) (Local.pure none))

def ofParts (negative : Bool) (ws fs : List Char) (e : Option ℤ) : Numeral :=
  ⟨Decimal.ofParts negative ws fs (e.getD 0), fs.isEmpty && e.isNone⟩

theorem outcome_unsigned (negative : Bool) (cs : List Char) : outcome (unsigned negative cs) =
    (outcome (whole cs)).bind fun y ↦ (outcome (fraction y.2)).bind fun z ↦
      (outcome (exponent z.2)).map fun e ↦ (ofParts negative y.1 z.1 e.1, e.2) := by
  rw [unsigned]
  rcases whole cs with _ | ⟨ws, r⟩
  · rfl
  · dsimp only [bind, Except.bind, outcome_ok, Option.bind_some]
    rcases fraction r.1 with _ | ⟨fs, r'⟩
    · rfl
    · dsimp only [outcome_ok, Option.bind_some]
      cases exponent r'.1 <;> rfl

theorem local_unsigned (negative : Bool) : Local fun cs ↦ outcome (unsigned negative cs) := by
  simp only [outcome_unsigned]
  have hexponent (ws fs : List Char) := local_exponent.map (ofParts negative ws fs)
  have hfraction (ws : List Char) := local_fraction.bind (hexponent ws)
  exact local_whole.bind hfraction

theorem outcome_read (cs : List Char) : outcome (read cs) =
    branch '-' (fun cs ↦ outcome (unsigned true cs)) (fun cs ↦ outcome (unsigned false cs)) cs := by
  unfold read
  split
  · rename_i rest
    rw [branch_of_eq]
    cases unsigned true rest <;> rfl
  · rename_i hne
    rw [branch_of_ne hne]

theorem local_read : Local fun cs ↦ outcome (read cs) := by
  simp only [outcome_read]
  exact Local.branch (by decide) (by decide) (local_unsigned true) (local_unsigned false)

end Numeral

end CloutQuery.Json
