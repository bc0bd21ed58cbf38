import CloutQuery.Proofs.Json.Completeness
import CloutQuery.Proofs.Json.Numerals
import CloutQuery.Proofs.Json.Strings

namespace CloutQuery.Json

namespace Token

def IsPunctuation : Token → Prop
  | .openArray | .closeArray | .openObject | .closeObject | .comma | .colon => True
  | _ => False

def Unreadable : Token → Prop
  | .number l => ∃ f, l.value = .error f
  | .string l => ∃ f, l.value = .error f
  | .broken _ => True
  | _ => False

/-- Each of the tokens can be read, and punctuation stands behind every number, if anything does. -/
def Legible : List Token → Prop
  | [] => True
  | .number l :: rest =>
    (∃ n, l.value = .ok n) ∧ (∀ t ∈ rest.head?, t.IsPunctuation) ∧ Legible rest
  | .string l :: rest => (∃ s, l.value = .ok s) ∧ Legible rest
  | .broken _ :: _ => False
  | _ :: rest => Legible rest

theorem Legible.readable {t : Token} {ts : List Token} (h : Legible (t :: ts)) : ¬ t.Unreadable := by
  cases t with
  | number l =>
    obtain ⟨⟨n, hn⟩, -⟩ := h
    rintro ⟨f, hf⟩
    exact absurd (hn.symm.trans hf) (by simp)
  | string l =>
    obtain ⟨⟨s, hs⟩, -⟩ := h
    rintro ⟨f, hf⟩
    exact absurd (hs.symm.trans hf) (by simp)
  | broken => exact h.elim
  | _ => exact id

theorem Legible.tail {t : Token} {ts : List Token} (h : Legible (t :: ts)) : Legible ts := by
  cases t with
  | number => exact h.2.2
  | string => exact h.2
  | broken => exact h.elim
  | _ => exact h

def front (c : Char) (rest : List Char) : Token × Option (List Char) :=
  ((next c rest).1, (next c rest).2.map Subtype.val)

theorem scan_blank {c : Char} (h : isBlank c = true) (rest : List Char) :
    scan (c :: rest) = scan rest := by
  rw [scan, if_pos h]

theorem scan_cons {c : Char} (h : isBlank c = false) (rest : List Char) :
    scan (c :: rest) = (front c rest).1 :: ((front c rest).2.map scan).getD [] := by
  rw [scan, if_neg (by simp [h]), front]
  rcases next c rest with ⟨t, _ | r⟩ <;> rfl

theorem front_punctuation {c : Char} {t : Token} (h : punctuation? c = some t) (rest : List Char) :
    front c rest = (t, some rest) := by
  rw [front, next, h]
  rfl

theorem word_append (expected x : List Char) :
    ∃ r : Remainder (expected ++ x), word expected (expected ++ x) = .ok r ∧ r.1 = x := by
  induction expected with
  | nil => exact ⟨Remainder.all x, by unfold word; rfl, rfl⟩
  | cons e expected ih =>
    obtain ⟨r, hword, hr⟩ := ih
    refine ⟨r.widen (by simp), ?_, hr⟩
    change word (e :: expected) (e :: (expected ++ x)) = _
    rw [word, if_pos rfl, hword]
    rfl

theorem eq_append_of_word {expected cs : List Char} {r : Remainder cs} (h : word expected cs = .ok r) :
    cs = expected ++ r.1 := by
  induction expected generalizing cs with
  | nil =>
    rw [word] at h
    cases h
    rfl
  | cons e expected ih =>
    cases cs with
    | nil => cases h
    | cons c cs =>
      rw [word] at h
      split_ifs at h with hc
      obtain ⟨r', hword, rfl⟩ := map_eq_ok_iff.1 h
      rw [hc]
      exact congrArg (c :: ·) (ih hword)

theorem front_word {c : Char} {t : Token} {expected : List Char} (hc : punctuation? c = none)
    (h : word? c = some (t, expected)) (x : List Char) : front c (expected ++ x) = (t, some x) := by
  obtain ⟨r, hword, hr⟩ := word_append expected x
  rw [front, next, hc, h]
  dsimp only
  rw [hword]
  exact congrArg (fun rest ↦ (t, some rest)) hr

theorem front_quote {rest s : List Char} (h : StringLiteral.read rest = .ok s) {r : List Char}
    (hr : StringLiteral.passed rest = some r) : front '"' rest = (.ofText (String.ofList s), some r) := by
  rw [StringLiteral.passed] at hr
  rw [front, next]
  dsimp only [punctuation?, word?]
  rw [if_pos rfl, h]
  split at hr
  · rename_i hskip
    rw [hskip]
    exact congrArg (fun x ↦ (ofText (String.ofList s), x)) hr
  · cases hr

theorem front_number {c : Char} {rest : List Char} (hpunctuation : punctuation? c = none)
    (hword : word? c = none) (hquote : c ≠ '"') (hc : c = '-' ∨ c.isDigit = true) {n : Numeral}
    {r : List Char} (h : outcome (Numeral.read (c :: rest)) = some (n, r)) :
    front c rest = (ofNumeral n, some r) := by
  obtain ⟨_, hread⟩ := outcome_eq_some_iff.1 h
  rw [front, next, hpunctuation, hword]
  dsimp only
  rw [if_neg hquote, if_pos hc, hread]
  rfl

/-- The kinds of tokens that a text can begin with, each with the piece of the text that it takes. -/
inductive Front (c : Char) (rest : List Char) : Token → Option (List Char) → Prop where
  | punctuation {t : Token} : punctuation? c = some t → Front c rest t (some rest)
  | word {t : Token} {expected x : List Char} : punctuation? c = none →
    word? c = some (t, expected) → rest = expected ++ x → Front c rest t (some x)
  | string {l s r : List Char} : c = '"' → rest = l ++ r → StringLiteral.IsLiteral l s →
    Front c rest (.ofText (String.ofList s)) (some r)
  | number {n : Numeral} {r : List Char} : punctuation? c = none → word? c = none → c ≠ '"' →
    (c = '-' ∨ c.isDigit = true) → outcome (Numeral.read (c :: rest)) = some (n, r) →
    Front c rest (ofNumeral n) (some r)
  | unreadable {t : Token} {r : Option (List Char)} : t.Unreadable → Front c rest t r

theorem front_cases_word {c : Char} {t : Token} {expected : List Char} (hpunctuation : punctuation? c = none)
    (hword : word? c = some (t, expected)) (rest : List Char) :
    Front c rest (front c rest).1 (front c rest).2 := by
  cases hexpected : word expected rest with
  | error f =>
    have hfront : front c rest = (.broken f, none) := by
      rw [front, next, hpunctuation, hword]
      dsimp only
      rw [hexpected]
      rfl
    rw [hfront]
    exact .unreadable trivial
  | ok r =>
    have hrest := eq_append_of_word hexpected
    have hfront := front_word hpunctuation hword r.1
    rw [← hrest] at hfront
    rw [hfront]
    exact .word hpunctuation hword hrest

theorem front_cases_quote (rest : List Char) : Front '"' rest (front '"' rest).1 (front '"' rest).2 := by
  cases hread : StringLiteral.read rest with
  | ok s =>
    obtain ⟨l, r, rfl, hl⟩ := StringLiteral.exists_isLiteral hread
    rw [front_quote hread (hl.passed r)]
    exact .string rfl rfl hl
  | error f =>
    refine .unreadable ?_
    rw [front, next]
    dsimp only [punctuation?, word?]
    rw [if_pos rfl, hread]
    cases StringLiteral.skip rest <;> exact ⟨f, rfl⟩

theorem front_cases_numeral {c : Char} (hpunctuation : punctuation? c = none) (hword : word? c = none)
    (hquote : c ≠ '"') (hc : c = '-' ∨ c.isDigit = true) (rest : List Char) :
    Front c rest (front c rest).1 (front c rest).2 := by
  cases hread : Numeral.read (c :: rest) with
  | ok y =>
    have h : outcome (Numeral.read (c :: rest)) = some (y.1, y.2.1) := by rw [hread]; rfl
    rw [front_number hpunctuation hword hquote hc h]
    exact .number hpunctuation hword hquote hc h
  | error f =>
    refine .unreadable ?_
    rw [front, next, hpunctuation, hword]
    dsimp only
    rw [if_neg hquote, if_pos hc, hread]
    exact ⟨f, rfl⟩

theorem front_cases (c : Char) (rest : List Char) : Front c rest (front c rest).1 (front c rest).2 := by
  cases hpunctuation : punctuation? c with
  | some t =>
    rw [front_punctuation hpunctuation]
    exact .punctuation hpunctuation
  | none =>
    cases hword : word? c with
    | some w => exact front_cases_word hpunctuation hword rest
    | none =>
      by_cases hquote : c = '"'
      · rw [hquote]
        exact front_cases_quote rest
      · by_cases hc : c = '-' ∨ c.isDigit = true
        · exact front_cases_numeral hpunctuation hword hquote hc rest
        · refine .unreadable ?_
          rw [front, next, hpunctuation, hword]
          dsimp only
          rw [if_neg hquote, if_neg hc]
          trivial

theorem punctuation?_isPunctuation {c : Char} {t : Token} (h : punctuation? c = some t) :
    t.IsPunctuation := by
  unfold punctuation? at h
  split at h <;> cases h <;> trivial

theorem word?_cases {c : Char} {t : Token} {expected : List Char} (h : word? c = some (t, expected)) :
    Plain c ∧ (∀ e ∈ expected, Plain e) ∧ t.Sound ∧ ¬ t.IsPunctuation := by
  unfold word? at h
  split at h <;> cases h <;> exact ⟨by decide, by simp [Plain, isBlank], trivial, id⟩

theorem IsPunctuation.sound {t : Token} (h : t.IsPunctuation) : t.Sound := by
  cases t with
  | number | string => exact h.elim
  | _ => trivial

theorem Unreadable.sound {t : Token} (h : t.Unreadable) : t.Sound := by
  cases t with
  | number l =>
    obtain ⟨f, hf⟩ := h
    exact fun n hn ↦ absurd (hf.symm.trans hn) (by simp)
  | string l =>
    obtain ⟨f, hf⟩ := h
    exact fun s hs ↦ absurd (hf.symm.trans hs) (by simp)
  | _ => trivial

theorem Unreadable.not_isPunctuation {t : Token} (h : t.Unreadable) : ¬ t.IsPunctuation := by
  cases t with
  | number | string | broken => exact id
  | _ => exact h.elim

theorem exists_ofNumeral (n : Numeral) : ∃ v, ofNumeral n = .number ⟨v, .ok ()⟩ := by
  unfold ofNumeral
  cases n.toNumber? <;> exact ⟨_, rfl⟩

namespace Front

variable {c : Char} {rest : List Char} {t : Token} {r : Option (List Char)}

theorem sound (h : Front c rest t r) : t.Sound := by
  cases h with
  | punctuation h => exact (punctuation?_isPunctuation h).sound
  | word _ h => exact (word?_cases h).2.2.1
  | string => exact fun _ _ ↦ rfl
  | @number n =>
    obtain ⟨v, hv⟩ := exists_ofNumeral n
    rw [hv]
    exact fun _ _ ↦ rfl
  | unreadable h => exact h.sound

theorem isPunctuation (h : Front c rest t r) (ht : t.IsPunctuation) : Json.IsPunctuation c := by
  cases h with
  | punctuation h => exact Option.isSome_of_mem h
  | word _ h => exact absurd ht (word?_cases h).2.2.2
  | string => exact ht.elim
  | @number n =>
    obtain ⟨v, hv⟩ := exists_ofNumeral n
    rw [hv] at ht
    exact ht.elim
  | unreadable h => exact absurd ht h.not_isPunctuation

end Front

theorem front_of_next {c : Char} {rest : List Char} {t : Token} {r : Option (Rest (c :: rest))}
    (h : next c rest = (t, r)) : Front c rest t (r.map Subtype.val) := by
  have hfront := front_cases c rest
  rwa [front, h] at hfront

theorem sound_scan (cs : List Char) : ∀ t ∈ scan cs, t.Sound := by
  fun_induction scan cs with
  | case1 => simp
  | case2 c rest _ ih => exact ih
  | case3 c rest _ t h =>
    rw [List.forall_mem_singleton]
    exact (front_of_next h).sound
  | case4 c rest _ t r h ih =>
    rw [List.forall_mem_cons]
    exact ⟨(front_of_next h).sound, ih⟩

/-- If the next token is punctuation, it is the next character that is left of blanks. -/
theorem isPunctuation_squeeze {cs : List Char} (h : ∀ t ∈ (scan cs).head?, t.IsPunctuation) :
    ∀ c ∈ (squeeze false cs).head?, Json.IsPunctuation c := by
  induction cs with
  | nil => simp [squeeze]
  | cons c rest ih =>
    cases hblank : isBlank c with
    | true =>
      rw [scan_blank hblank] at h
      rw [squeeze_blank hblank]
      exact ih h
    | false =>
      rw [scan_cons hblank, List.head?_cons] at h
      have hc := (front_cases c rest).isPunctuation (h _ rfl)
      rw [squeeze_plain hc.plain]
      rintro _ ⟨⟩
      exact hc

theorem Front.squeeze {c : Char} {rest : List Char} {t : Token} {r : List Char}
    (h : Front c rest t (some r)) (hlegible : Legible (t :: scan r)) :
    ∃ rest', squeeze false (c :: rest) = c :: rest' ∧ front c rest' = (t, some (squeeze false r)) := by
  generalize hafter : some r = after at h
  cases h with
  | punctuation h =>
    cases hafter
    exact ⟨Json.squeeze false rest, squeeze_plain (IsPunctuation.plain (Option.isSome_of_mem h)) rest,
      front_punctuation h _⟩
  | @word _ expected _ hc h hrest =>
    cases hafter
    obtain ⟨hplain, hexpected, -⟩ := word?_cases h
    refine ⟨expected ++ Json.squeeze false r, ?_, front_word hc h _⟩
    rw [squeeze_plain hplain, hrest, squeeze_append hexpected]
  | @string l s _ hc hrest hl =>
    cases hafter
    subst hc hrest
    refine ⟨l ++ Json.squeeze false r, ?_, front_quote (hl.read _) (hl.passed _)⟩
    rw [squeeze_quote, hl.squeeze]
  | @number n _ hpunctuation hword hquote hc hread =>
    cases hafter
    obtain ⟨v, hv⟩ := exists_ofNumeral n
    rw [hv] at hlegible
    obtain ⟨l, hl, hplain, hread'⟩ := Numeral.local_read.piece hread
    -- the literal is not empty, so it begins with the character that has been looked at
    obtain ⟨l, rfl⟩ : ∃ l', l = c :: l' := by
      obtain ⟨hlt, -⟩ := outcome_eq_some_iff.1 hread
      cases l with
      | nil => exact absurd (congrArg List.length hl) hlt.ne'
      | cons d l => exact ⟨l, by rw [(List.cons.inj hl).1]⟩
    have hcontinues : Continues r (Json.squeeze false r) := .inr (isPunctuation_squeeze hlegible.2.1)
    refine ⟨l ++ Json.squeeze false r, ?_, ?_⟩
    · rw [hl, squeeze_append hplain, List.cons_append]
    · exact front_number hpunctuation hword hquote hc (hread' _ hcontinues)
  | unreadable h => exact absurd h hlegible.readable

/-- Scanning does not see the blanks between tokens that can be read. -/
theorem scan_squeeze {cs : List Char} (h : Legible (scan cs)) : scan (squeeze false cs) = scan cs := by
  fun_induction scan cs with
  | case1 => rw [squeeze, scan]
  | case2 c rest hblank ih =>
    rw [squeeze_blank hblank]
    exact ih h
  | case3 c rest _ t hnext =>
    have hfront := front_of_next hnext
    cases hfront with
    | unreadable hunreadable => exact absurd hunreadable h.readable
  | case4 c rest hblank t r hnext ih =>
    obtain ⟨rest', hsqueeze, hfront⟩ := (front_of_next hnext).squeeze h
    rw [hsqueeze, scan_cons (by simpa using hblank), hfront]
    exact congrArg (t :: ·) (ih h.tail)

end Token

def withoutBlanks (text : String) : String := String.ofList (squeeze false text.toList)

open Token in
theorem legible_separated (close : Token) (hclose : close.IsPunctuation) {parts : List (List Token)}
    (h : ∀ part ∈ parts, ∀ rest, (∀ t ∈ rest.head?, t.IsPunctuation) → Legible rest →
      Legible (part ++ rest)) {rest : List Token} (hrest : Legible rest) :
    Legible (separated close parts ++ rest) := by
  have hbehind : Legible (close :: rest) := by
    cases close with
    | openArray | closeArray | openObject | closeObject | comma | colon => exact hrest
    | _ => exact hclose.elim
  induction parts with
  | nil => exact hbehind
  | cons part parts ih =>
    have hpart := h part List.mem_cons_self
    cases parts with
    | nil =>
      rw [separated, List.append_assoc]
      refine hpart _ ?_ hbehind
      rintro _ ⟨⟩
      exact hclose
    | cons next parts =>
      rw [separated_cons (List.cons_ne_nil _ _), List.append_assoc]
      refine hpart _ ?_ (ih fun p hp ↦ h p (List.mem_cons_of_mem part hp))
      rintro _ ⟨⟩
      trivial

theorem Tree.legible (w : Tree) {rest : List Token} (hpunctuation : ∀ t ∈ rest.head?, t.IsPunctuation)
    (hrest : Token.Legible rest) : Token.Legible (w.tokens ++ rest) := by
  induction w generalizing rest with
  | null | boolean =>
    rw [tokens]
    exact hrest
  | number n =>
    rw [tokens]
    exact ⟨⟨n, rfl⟩, hpunctuation, hrest⟩
  | text s =>
    rw [tokens]
    exact ⟨⟨s, rfl⟩, hrest⟩
  | array items ih =>
    rw [tokens]
    refine legible_separated .closeArray trivial (fun part hpart rest hp hrest ↦ ?_) hrest
    obtain ⟨t, ht, rfl⟩ := List.mem_map.1 hpart
    exact ih t ht hp hrest
  | object members ih =>
    rw [tokens]
    refine legible_separated .closeObject trivial (fun part hpart rest hp hrest ↦ ?_) hrest
    obtain ⟨m, hm, rfl⟩ := List.mem_map.1 hpart
    exact ⟨⟨m.1, rfl⟩, ih m hm hp hrest⟩

end CloutQuery.Json
