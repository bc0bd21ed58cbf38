import CloutQuery.Proofs.Except
import CloutQuery.Proofs.Json.Blanks
import CloutQuery.Proofs.Json.Outcome

namespace CloutQuery.Json.StringLiteral

def passed (cs : List Char) : Option (List Char) :=
  match skip cs with
  | .ok r => some r.1
  | .error _ => none

theorem passed_quote (rest : List Char) : passed ('"' :: rest) = some rest := by
  rw [passed, skip]
  rfl

theorem passed_escape {rest : List Char} {r : Rest rest} (h : skipEscape rest = .ok r) :
    passed ('\\' :: rest) = passed r.1 := by
  rw [passed, passed, skip, h]
  dsimp only
  cases skip r.1 <;> rfl

theorem passed_other {c : Char} (hquote : c ≠ '"') (hescape : c ≠ '\\') (hcontrol : isControl c = false)
    (rest : List Char) : passed (c :: rest) = passed rest := by
  rw [passed, passed, skip, if_neg (by simp [hcontrol])]
  · cases skip rest <;> rfl
  · exact hquote
  · exact hescape

theorem passed_hexQuad {rest x : List Char} {n : ℕ} (h : outcome (hexQuad rest) = some (n, x)) :
    passed ('\\' :: 'u' :: rest) = passed x := by
  obtain ⟨hlt, hquad⟩ := outcome_eq_some_iff.1 h
  have hskip : skipEscape ('u' :: rest) = .ok (Rest.cons ⟨x, hlt⟩ 'u') := by
    rw [skipEscape, hquad]
    rfl
  exact passed_escape hskip

theorem hexDigit_ne {c : Char} (h : (hexDigit? c).isSome = true) : c ≠ '"' ∧ c ≠ '\\' := by
  constructor <;> rintro rfl <;> exact absurd h (by decide)

theorem squeeze_hexDigit {c : Char} {n : ℕ} (h : hexDigit? c = some n) (rest : List Char) :
    squeeze true (c :: rest) = c :: squeeze true rest :=
  have hne := hexDigit_ne (Option.isSome_of_mem h)
  squeeze_inside hne.2 hne.1 rest

/-- The piece is read as four hexadecimal digits in front of any rest. -/
structure IsQuad (l : List Char) (n : ℕ) : Prop where
  read (x : List Char) : outcome (hexQuad (l ++ x)) = some (n, x)
  squeeze (x : List Char) : squeeze true (l ++ x) = l ++ squeeze true x

/-- The piece is read as an escape, from behind its backslash, in front of any rest, and passed over
there, if not by one escape then by two. -/
structure IsEscape (l : List Char) (c : Char) : Prop where
  read (x : List Char) : outcome (readEscape (l ++ x)) = some (c, x)
  passed (x : List Char) : passed ('\\' :: (l ++ x)) = passed x
  squeeze (x : List Char) : squeeze true ('\\' :: (l ++ x)) = '\\' :: (l ++ squeeze true x)

structure IsLiteral (l s : List Char) : Prop where
  read (x : List Char) : read (l ++ x) = .ok s
  passed (x : List Char) : passed (l ++ x) = some x
  squeeze (x : List Char) : squeeze true (l ++ x) = l ++ squeeze false x

theorem exists_isQuad {cs : List Char} {n : ℕ} {r : Rest cs} (h : hexQuad cs = .ok (n, r)) :
    ∃ l, cs = l ++ r.1 ∧ IsQuad l n := by
  unfold hexQuad at h
  split at h
  · rename_i a b c d rest
    split at h
    · rename_i ha hb hc hd
      cases h
      refine ⟨[a, b, c, d], rfl, fun x ↦ ?_, fun x ↦ ?_⟩
      · simp [hexQuad, ha, hb, hc, hd]
      · simp only [List.cons_append, List.nil_append]
        rw [squeeze_hexDigit ha, squeeze_hexDigit hb, squeeze_hexDigit hc, squeeze_hexDigit hd]
    · cases h
  · cases h

namespace IsQuad

variable {l m : List Char} {n k : ℕ}

theorem isEscape (h : IsQuad l n) (htrail : ¬ isTrailSurrogate n = true)
    (hlead : ¬ isLeadSurrogate n = true) : IsEscape ('u' :: l) (Char.ofNat n) where
  read x := by
    obtain ⟨_, hquad⟩ := outcome_eq_some_iff.1 (h.read x)
    rw [List.cons_append, readEscape, hquad]
    dsimp only
    rw [if_neg htrail, if_neg hlead]
    rfl
  passed x := passed_hexQuad (h.read x)
  squeeze x := by rw [List.cons_append, squeeze_escape, h.squeeze, List.cons_append]

theorem trailSurrogate (h : IsQuad m k) (htrail : isTrailSurrogate k = true) (x : List Char) :
    outcome (trailSurrogate n ('\\' :: 'u' :: (m ++ x))) =
      some (Char.ofNat (0x10000 + (n - 0xd800) * 0x400 + (k - 0xdc00)), x) := by
  obtain ⟨_, hquad⟩ := outcome_eq_some_iff.1 (h.read x)
  rw [StringLiteral.trailSurrogate, hquad]
  dsimp only
  rw [if_pos htrail]
  rfl

/-- A pair of surrogates is read as one escape but passed over as two. -/
theorem isEscape_pair (h : IsQuad l n) (h' : IsQuad m k) (htrail : ¬ isTrailSurrogate n = true)
    (hlead : isLeadSurrogate n = true) (htrail' : isTrailSurrogate k = true) :
    IsEscape ('u' :: (l ++ '\\' :: 'u' :: m))
      (Char.ofNat (0x10000 + (n - 0xd800) * 0x400 + (k - 0xdc00))) := by
  have happend (x : List Char) :
      'u' :: (l ++ '\\' :: 'u' :: m) ++ x = 'u' :: (l ++ '\\' :: 'u' :: (m ++ x)) := by simp
  refine ⟨fun x ↦ ?_, fun x ↦ ?_, fun x ↦ ?_⟩
  · obtain ⟨_, hquad⟩ := outcome_eq_some_iff.1 (h.read ('\\' :: 'u' :: (m ++ x)))
    obtain ⟨_, hpair⟩ := outcome_eq_some_iff.1 (h'.trailSurrogate (n := n) htrail' x)
    rw [happend, readEscape, hquad]
    dsimp only
    rw [if_neg htrail, if_pos hlead, hpair]
    rfl
  · rw [happend, passed_hexQuad (h.read _), passed_hexQuad (h'.read x)]
  · rw [happend, happend, squeeze_escape, h.squeeze, squeeze_escape, h'.squeeze]

end IsQuad

theorem isEscape_simple {c d : Char} (h : simpleEscape? c = some d) : IsEscape [c] d := by
  have hc : c ≠ 'u' := by
    rintro rfl
    simp [simpleEscape?] at h
  refine ⟨fun x ↦ ?_, fun x ↦ ?_, squeeze_escape c⟩
  · rw [List.singleton_append, readEscape, h]
    · rfl
    · exact hc
  · have hskip : skipEscape (c :: x) = .ok (Rest.tail c x) := by
      rw [skipEscape, h]
      · rfl
      · exact hc
    exact passed_escape hskip

theorem exists_of_trailSurrogate {lead : ℕ} {cs : List Char} {c : Char} {r : Rest cs}
    (h : trailSurrogate lead cs = .ok (c, r)) : ∃ l k, cs = '\\' :: 'u' :: l ++ r.1 ∧ IsQuad l k ∧
      isTrailSurrogate k = true ∧
      c = Char.ofNat (0x10000 + (lead - 0xd800) * 0x400 + (k - 0xdc00)) := by
  unfold trailSurrogate at h
  split at h
  · cases h
  · cases h
  · split at h
    · cases h
    · rename_i k r' hquad
      split_ifs at h with htrail
      obtain ⟨rfl, rfl⟩ := Prod.mk.inj (Except.ok.inj h)
      obtain ⟨l, hl, hl'⟩ := exists_isQuad hquad
      exact ⟨l, k, congrArg (fun rest ↦ '\\' :: 'u' :: rest) hl, hl', htrail, rfl⟩
  · cases h

theorem exists_isEscape {cs : List Char} {c : Char} {r : Rest cs}
    (h : readEscape cs = .ok (c, r)) : ∃ l, cs = l ++ r.1 ∧ IsEscape l c := by
  unfold readEscape at h
  split at h
  · cases h
  · split at h
    · cases h
    · rename_i n r' hquad
      obtain ⟨l, hl, hl'⟩ := exists_isQuad hquad
      split_ifs at h with htrail hlead
      · split at h
        · cases h
        · rename_i d r'' hpair
          cases h
          obtain ⟨m, k, hm, hm', htrail', hd⟩ := exists_of_trailSurrogate hpair
          rw [hd]
          refine ⟨'u' :: (l ++ '\\' :: 'u' :: m), ?_, hl'.isEscape_pair hm' htrail hlead htrail'⟩
          have hrest := hl.trans (congrArg (l ++ ·) hm)
          simpa [Rest.cons, Rest.widen, Rest.after, Rest.weaken] using hrest
      · cases h
        exact ⟨'u' :: l, congrArg ('u' :: ·) hl, hl'.isEscape htrail hlead⟩
  · rename_i d rest _
    split at h
    · rename_i hsimple
      cases h
      exact ⟨[d], rfl, isEscape_simple hsimple⟩
    · cases h

namespace IsLiteral

variable {l m s : List Char} {c : Char}

theorem quote : IsLiteral ['"'] [] where
  read x := by rw [List.singleton_append, StringLiteral.read]
  passed := passed_quote
  squeeze _ := rfl

theorem escape (h : IsEscape l c) (hm : IsLiteral m s) : IsLiteral ('\\' :: (l ++ m)) (c :: s) := by
  have happend (x : List Char) : '\\' :: (l ++ m) ++ x = '\\' :: (l ++ (m ++ x)) := by simp
  refine ⟨fun x ↦ ?_, fun x ↦ ?_, fun x ↦ ?_⟩
  · obtain ⟨_, hread⟩ := outcome_eq_some_iff.1 (h.read (m ++ x))
    rw [happend, StringLiteral.read, hread]
    dsimp only
    rw [hm.read]
    rfl
  · rw [happend, h.passed, hm.passed]
  · rw [happend, happend, h.squeeze, hm.squeeze]

theorem other (hquote : c ≠ '"') (hescape : c ≠ '\\') (hcontrol : isControl c = false)
    (hm : IsLiteral m s) : IsLiteral (c :: m) (c :: s) where
  read x := by
    rw [List.cons_append, StringLiteral.read, if_neg (by simp [hcontrol]), hm.read]
    · rfl
    · exact hquote
    · exact hescape
  passed x := (passed_other hquote hescape hcontrol _).trans (hm.passed x)
  squeeze x := by rw [List.cons_append, squeeze_inside hescape hquote, hm.squeeze, List.cons_append]

end IsLiteral

theorem exists_isLiteral {cs s : List Char} (h : read cs = .ok s) :
    ∃ l r, cs = l ++ r ∧ IsLiteral l s := by
  fun_induction read cs generalizing s
  case case2 rest =>
    cases h
    exact ⟨['"'], rest, rfl, .quote⟩
  case case4 rest c r hescape ih =>
    obtain ⟨s', hread, rfl⟩ := map_eq_ok_iff.1 h
    obtain ⟨l, hl, hl'⟩ := exists_isEscape hescape
    obtain ⟨m, r', hm, hm'⟩ := ih hread
    exact ⟨'\\' :: (l ++ m), r', by rw [hl, hm]; simp, .escape hl' hm'⟩
  case case6 c rest hquote hescape hcontrol ih =>
    obtain ⟨s', hread, rfl⟩ := map_eq_ok_iff.1 h
    obtain ⟨m, r', rfl, hm⟩ := ih hread
    exact ⟨c :: m, r', rfl, .other hquote hescape (by simpa using hcontrol) hm⟩
  all_goals cases h

end CloutQuery.Json.StringLiteral
