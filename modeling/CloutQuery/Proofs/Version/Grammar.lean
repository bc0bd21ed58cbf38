import CloutQuery.Version
import CloutQuery.Proofs.Text.Natural

namespace CloutQuery

open Text

@[ext]
structure QualifiedText where
  qualifier : List Char
  build : Option NaturalText
  isQualifierChar_of_mem : ∀ c ∈ qualifier, Version.isQualifierChar c = true

@[ext]
structure FixedText where
  fix : NaturalText
  qualified : Option QualifiedText

/-- The text of a version: a major and a minor number, and perhaps a dot and a fix number behind
them. -/
@[ext]
structure VersionText where
  major : NaturalText
  minor : NaturalText
  fixed : Option FixedText

namespace QualifiedText

variable {q q' : QualifiedText}

def chars (q : QualifiedText) : List Char :=
  q.qualifier ++ q.build.elim [] fun b ↦ '-' :: b.chars

def buildValue (q : QualifiedText) : ℕ := q.build.elim 0 NaturalText.value

theorem notMem_qualifier {c : Char} (hc : Version.isQualifierChar c = false) : c ∉ q.qualifier := by
  intro hmem
  rw [q.isQualifierChar_of_mem c hmem] at hc
  cases hc

theorem cutAt_chars (q : QualifiedText) :
    cutAt '-' q.chars = (q.qualifier, q.build.map NaturalText.chars) :=
  cutAt_append_elim (notMem_qualifier (by decide)) q.build NaturalText.chars

theorem chars_injective (h : q.chars = q'.chars) : q = q' := by
  have hcut := q.cutAt_chars
  rw [h, q'.cutAt_chars, Prod.mk.injEq] at hcut
  exact QualifiedText.ext hcut.1.symm
    (Option.map_injective (fun _ _ ↦ NaturalText.chars_injective) hcut.2.symm)

theorem notMem_chars (q : QualifiedText) : '.' ∉ q.chars := by
  rw [chars, List.mem_append, not_or]
  refine ⟨notMem_qualifier (by decide), ?_⟩
  cases q.build with
  | none => exact List.not_mem_nil
  | some b =>
    intro h
    obtain hdot | h := List.mem_cons.1 h
    · cases hdot
    · exact NaturalText.notMem_chars (by decide) rfl h

end QualifiedText

namespace FixedText

variable {f f' : FixedText}

def chars (f : FixedText) : List Char :=
  f.fix.chars ++ f.qualified.elim [] fun q ↦ '.' :: q.chars

theorem cutAt_chars (f : FixedText) :
    cutAt '.' f.chars = (f.fix.chars, f.qualified.map QualifiedText.chars) :=
  cutAt_append_elim (NaturalText.notMem_chars (by decide) rfl) f.qualified QualifiedText.chars

theorem chars_injective (h : f.chars = f'.chars) : f = f' := by
  have hcut := f.cutAt_chars
  rw [h, f'.cutAt_chars, Prod.mk.injEq] at hcut
  exact FixedText.ext (NaturalText.chars_injective hcut.1.symm)
    (Option.map_injective (fun _ _ ↦ QualifiedText.chars_injective) hcut.2.symm)

end FixedText

namespace VersionText

variable {t t' : VersionText}

def minorChars (t : VersionText) : List Char :=
  t.minor.chars ++ t.fixed.elim [] fun f ↦ '.' :: f.chars

def chars (t : VersionText) : List Char := t.major.chars ++ '.' :: t.minorChars

def text (t : VersionText) : String := String.ofList t.chars

def qualified (t : VersionText) : Option QualifiedText := t.fixed.bind FixedText.qualified

def numbers (t : VersionText) : List NaturalText :=
  t.major :: t.minor ::
    t.fixed.elim [] fun f ↦ f.fix :: (f.qualified.bind QualifiedText.build).toList

/-- The version that the text stands for. A part that is not written is zero or empty. -/
def version (t : VersionText) : Version where
  major := t.major.value
  minor := t.minor.value
  fix := t.fixed.elim 0 fun f ↦ f.fix.value
  qualifier := t.qualified.elim "" fun q ↦ String.ofList q.qualifier
  build := t.qualified.elim 0 QualifiedText.buildValue

theorem cutAt_chars (t : VersionText) : cutAt '.' t.chars = (t.major.chars, some t.minorChars) :=
  cutAt_eq_iff.2 ⟨NaturalText.notMem_chars (by decide) rfl, rfl⟩

theorem cutAt_minorChars (t : VersionText) :
    cutAt '.' t.minorChars = (t.minor.chars, t.fixed.map FixedText.chars) :=
  cutAt_append_elim (NaturalText.notMem_chars (by decide) rfl) t.fixed FixedText.chars

theorem chars_injective (h : t.chars = t'.chars) : t = t' := by
  have hcut := t.cutAt_chars
  rw [h, t'.cutAt_chars, Prod.mk.injEq, Option.some.injEq] at hcut
  have hminor := t.cutAt_minorChars
  rw [← hcut.2, t'.cutAt_minorChars, Prod.mk.injEq] at hminor
  exact VersionText.ext (NaturalText.chars_injective hcut.1.symm)
    (NaturalText.chars_injective hminor.1.symm)
    (Option.map_injective (fun _ _ ↦ FixedText.chars_injective) hminor.2.symm)

theorem text_injective (h : t.text = t'.text) : t = t' := chars_injective (String.ofList_injective h)

theorem count_dot_chars_le (t : VersionText) : t.chars.count '.' ≤ 3 := by
  have hnumber (n : NaturalText) : n.chars.count '.' = 0 :=
    List.count_eq_zero.2 (NaturalText.notMem_chars (by decide) rfl)
  have hqualified (q : QualifiedText) : q.chars.count '.' = 0 := List.count_eq_zero.2 q.notMem_chars
  obtain ⟨major, minor, _ | ⟨fix, _ | q⟩⟩ := t <;>
    simp [chars, minorChars, FixedText.chars, hnumber, hqualified]

theorem count_dash_chars_le (t : VersionText) : t.chars.count '-' ≤ 1 := by
  have hnumber (n : NaturalText) : n.chars.count '-' = 0 :=
    List.count_eq_zero.2 (NaturalText.notMem_chars (by decide) rfl)
  have hqualifier (q : QualifiedText) : q.qualifier.count '-' = 0 :=
    List.count_eq_zero.2 (QualifiedText.notMem_qualifier (by decide))
  have hqualified (q : QualifiedText) : q.chars.count '-' ≤ 1 := by
    rw [QualifiedText.chars, List.count_append, hqualifier]
    cases q.build <;> simp [hnumber]
  obtain ⟨major, minor, _ | ⟨fix, _ | q⟩⟩ := t <;>
    simp [chars, minorChars, FixedText.chars, hnumber, hqualified]

theorem splitAt_chars (t : VersionText) :
    splitAt '.' t.chars =
      t.major.chars :: t.minor.chars ::
        t.fixed.elim [] fun f ↦ f.fix.chars :: (f.qualified.map QualifiedText.chars).toList := by
  have hnumber (n : NaturalText) : '.' ∉ n.chars := NaturalText.notMem_chars (by decide) rfl
  rw [chars, splitAt_append_cons (hnumber _), minorChars]
  cases t.fixed with
  | none => rw [Option.elim_none, List.append_nil, splitAt_of_notMem (hnumber _), Option.elim_none]
  | some f =>
    rw [Option.elim_some, splitAt_append_cons (hnumber _), FixedText.chars, Option.elim_some]
    cases f.qualified with
    | none =>
      rw [Option.elim_none, List.append_nil, splitAt_of_notMem (hnumber _)]
      rfl
    | some q =>
      rw [Option.elim_some, splitAt_append_cons (hnumber _), splitAt_of_notMem q.notMem_chars]
      rfl

end VersionText

namespace Version

theorem qualified?_chars (q : QualifiedText) :
    qualified? q.chars = some (String.ofList q.qualifier, q.buildValue) := by
  have hbuild : (q.build.map NaturalText.chars).elim (some 0) natural64? = some q.buildValue := by
    unfold QualifiedText.buildValue
    cases q.build with
    | none => rfl
    | some b => exact b.natural64?_chars
  unfold qualified?
  rw [q.cutAt_chars]
  dsimp only
  rw [hbuild]
  exact if_pos (List.all_eq_true.2 q.isQualifierChar_of_mem)

theorem exists_of_qualified? {cs : List Char} {x : String × ℕ} (h : qualified? cs = some x) :
    ∃ q : QualifiedText, q.chars = cs := by
  unfold qualified? at h
  cases hcut : cutAt '-' cs with
  | mk qualifier rest =>
    rw [hcut] at h
    obtain ⟨build, hbuild, h⟩ := Option.bind_eq_some_iff.1 h
    split at h
    · rename_i hall
      obtain ⟨-, rfl⟩ := cutAt_eq_iff.1 hcut
      cases rest with
      | none => exact ⟨⟨qualifier, none, List.all_eq_true.1 hall⟩, rfl⟩
      | some rest =>
        obtain ⟨b, rfl, -⟩ := natural64?_eq_some_iff.1 hbuild
        exact ⟨⟨qualifier, some b, List.all_eq_true.1 hall⟩, rfl⟩
    · cases h

theorem ofChars?_chars (t : VersionText) : ofChars? t.chars = some t.version := by
  unfold ofChars?
  rw [t.cutAt_chars]
  dsimp only
  rw [t.major.natural64?_chars]
  dsimp only [Option.bind_eq_bind, Option.bind_some]
  rw [t.cutAt_minorChars]
  dsimp only
  rw [t.minor.natural64?_chars]
  unfold VersionText.version VersionText.qualified
  cases t.fixed with
  | none => rfl
  | some f =>
    dsimp only [Option.map_some, Option.bind_some]
    rw [f.cutAt_chars]
    dsimp only
    rw [f.fix.natural64?_chars]
    cases f.qualified with
    | none => rfl
    | some q =>
      dsimp only [Option.map_some, Option.elim, Option.bind_some]
      rw [qualified?_chars]
      rfl

theorem exists_of_ofChars? {cs : List Char} {v : Version} (h : ofChars? cs = some v) :
    ∃ t : VersionText, t.chars = cs := by
  unfold ofChars? at h
  dsimp only [Option.bind_eq_bind] at h
  obtain ⟨_, hmajor, h⟩ := Option.bind_eq_some_iff.1 h
  obtain ⟨minorRest, hminorRest, h⟩ := Option.bind_eq_some_iff.1 h
  obtain ⟨_, hminor, h⟩ := Option.bind_eq_some_iff.1 h
  obtain ⟨major, hmajor, -⟩ := natural64?_eq_some_iff.1 hmajor
  obtain ⟨minor, hminor, -⟩ := natural64?_eq_some_iff.1 hminor
  have hcs := (cutAt_eq_iff.1 (Prod.ext hmajor.symm hminorRest)).2
  cases hfixRest : (cutAt '.' minorRest).2 with
  | none =>
    obtain ⟨-, rfl⟩ := cutAt_eq_iff.1 (Prod.ext hminor.symm hfixRest)
    exact ⟨⟨major, minor, none⟩, hcs.symm⟩
  | some fixRest =>
    rw [hfixRest] at h
    obtain ⟨_, hfix, h⟩ := Option.bind_eq_some_iff.1 h
    obtain ⟨_, hqualified, -⟩ := Option.bind_eq_some_iff.1 h
    obtain ⟨fix, hfix, -⟩ := natural64?_eq_some_iff.1 hfix
    obtain ⟨-, rfl⟩ := cutAt_eq_iff.1 (Prod.ext hminor.symm hfixRest)
    cases hrest : (cutAt '.' fixRest).2 with
    | none =>
      obtain ⟨-, rfl⟩ := cutAt_eq_iff.1 (Prod.ext hfix.symm hrest)
      exact ⟨⟨major, minor, some ⟨fix, none⟩⟩, hcs.symm⟩
    | some rest =>
      rw [hrest] at hqualified
      obtain ⟨q, rfl⟩ := exists_of_qualified? hqualified
      obtain ⟨-, rfl⟩ := cutAt_eq_iff.1 (Prod.ext hfix.symm hrest)
      exact ⟨⟨major, minor, some ⟨fix, some q⟩⟩, hcs.symm⟩

/-- The parts of a text that are read as numbers: the first three between the dots, and behind a third
dot what follows a dash. -/
def numericParts (cs : List Char) : List (List Char) :=
  match splitAt '.' cs with
  | major :: minor :: fix :: qualified :: _ => major :: minor :: fix :: (cutAt '-' qualified).2.toList
  | parts => parts

theorem numericParts_chars (t : VersionText) :
    numericParts t.chars = t.numbers.map NaturalText.chars := by
  rw [numericParts, t.splitAt_chars, VersionText.numbers]
  obtain ⟨major, minor, _ | ⟨fix, _ | q⟩⟩ := t
  · rfl
  · rfl
  · simp [q.cutAt_chars, Option.toList_map]

theorem parse_eq_some_iff {text : String} {v : Version} :
    parse text = some v ↔ ∃ t : VersionText, t.text = text ∧ t.version = v := by
  constructor
  · intro h
    obtain ⟨t, ht⟩ := exists_of_ofChars? h
    rw [parse, ← ht, ofChars?_chars] at h
    exact ⟨t, by rw [VersionText.text, ht, String.ofList_toList], Option.some.inj h⟩
  · rintro ⟨t, rfl, rfl⟩
    rw [parse, VersionText.text, String.toList_ofList]
    exact ofChars?_chars t

theorem parse_eq_none_iff {text : String} :
    parse text = none ↔ ∀ t : VersionText, t.text ≠ text := by
  rw [Option.eq_none_iff_forall_ne_some]
  constructor
  · exact fun h t ht ↦ h t.version (parse_eq_some_iff.2 ⟨t, ht, rfl⟩)
  · intro h v hv
    obtain ⟨t, ht, -⟩ := parse_eq_some_iff.1 hv
    exact h t ht

/-- A text is a version exactly when it is written as one, which then says all of its components, and no
text is written in two ways. So one with a fourth dot, with a second dash or with a number that is empty,
not in digits or too large is no version. -/
theorem parse_grammar (text : String) :
    (∀ v, parse text = some v ↔ ∃ t : VersionText, t.text = text ∧ t.version = v) ∧
      (∀ t t' : VersionText, t.text = text → t'.text = text → t = t') ∧
      (3 < text.toList.count '.' ∨ 1 < text.toList.count '-' ∨
        (∃ part ∈ numericParts text.toList, ∀ n : NaturalText, n.chars ≠ part) →
          parse text = none) := by
  refine ⟨fun v ↦ parse_eq_some_iff, fun t t' ht ht' ↦ VersionText.text_injective (ht.trans ht'.symm),
    fun hbad ↦ parse_eq_none_iff.2 ?_⟩
  rintro t rfl
  rw [VersionText.text, String.toList_ofList] at hbad
  obtain hdots | hdashes | ⟨part, hpart, hnumber⟩ := hbad
  · exact Nat.not_lt.2 t.count_dot_chars_le hdots
  · exact Nat.not_lt.2 t.count_dash_chars_le hdashes
  · rw [numericParts_chars, List.mem_map] at hpart
    obtain ⟨n, -, hn⟩ := hpart
    exact hnumber n hn

/-- A text with a plus sign, leading zeros, a letter beyond ASCII and a build number; and texts with a
fourth dot, a second dash, an empty number and a number of 65 bits. -/
theorem parse_grammar_runs :
    parse "+1.02.3.é_-4" = some ⟨1, 2, 3, "é_", 4⟩ ∧
      (∀ t t' : VersionText, t.text = "+1.02.3.é_-4" → t'.text = "+1.02.3.é_-4" → t = t') ∧
      parse "1.2.3.a.b" = none ∧ parse "1.2.3.a-4-5" = none ∧ parse "1..3" = none ∧
      parse "1.2.18446744073709551616" = none := by
  have hempty (n : NaturalText) : n.chars ≠ [] := by
    intro h
    have hread := n.natural64?_chars
    rw [h] at hread
    cases hread
  have hlarge (n : NaturalText) : n.chars ≠ "18446744073709551616".toList := by
    intro h
    have hread := n.natural64?_chars
    rw [h] at hread
    cases hread
  have hdigits (ds : List Char) (h : ds.all Char.isDigit = true) : ∀ c ∈ ds, c.isDigit = true :=
    List.all_eq_true.1 h
  have hqualifier : ['é', '_'].all isQualifierChar = true := by decide
  let one : NaturalText := ⟨true, ['1'], by decide, hdigits _ rfl, by decide⟩
  let two : NaturalText := ⟨false, ['0', '2'], by decide, hdigits _ rfl, by decide⟩
  let three : NaturalText := ⟨false, ['3'], by decide, hdigits _ rfl, by decide⟩
  let four : NaturalText := ⟨false, ['4'], by decide, hdigits _ rfl, by decide⟩
  let t : VersionText :=
    ⟨one, two, some ⟨three, some ⟨['é', '_'], some four, List.all_eq_true.1 hqualifier⟩⟩⟩
  exact ⟨((parse_grammar _).1 _).2 ⟨t, rfl, rfl⟩, (parse_grammar _).2.1,
    (parse_grammar _).2.2 (.inl (by decide)), (parse_grammar _).2.2 (.inr (.inl (by decide))),
    (parse_grammar _).2.2 (.inr (.inr ⟨[], by decide, hempty⟩)),
    (parse_grammar _).2.2 (.inr (.inr ⟨_, by decide, hlarge⟩))⟩

end Version

end CloutQuery
