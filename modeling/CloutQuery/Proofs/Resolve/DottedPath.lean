import CloutQuery.Proofs.Text.Natural
import CloutQuery.Resolve.Path

namespace CloutQuery

open Text

namespace Segment

variable {s : Segment} {cs : List Char}

def IsPlace (cs : List Char) : Prop :=
  cs ≠ [] ∧ (∀ c ∈ cs, c.isDigit = true) ∧ digitsValue cs < 2 ^ 64

/-- A segment that its text stands for among others between dots. -/
inductive Plain : Segment → Prop
  | key {name : String} (undotted : '.' ∉ name.toList) (no_place : ¬ IsPlace name.toList) :
      Plain (.key name)
  | index {place : ℕ} (small : place < 2 ^ 64) : Plain (.index place)

theorem digitsBelow64?_eq_none_iff : digitsBelow64? cs = none ↔ ¬ IsPlace cs := by
  constructor
  · intro hnone hplace
    rw [digitsBelow64?_eq_some_iff.2 ⟨hplace, rfl⟩] at hnone
    cases hnone
  · intro hplace
    cases hread : digitsBelow64? cs with
    | none => rfl
    | some n => exact absurd (digitsBelow64?_eq_some_iff.1 hread).1 hplace

theorem plain_ofChars (h : '.' ∉ cs) : (ofChars cs).Plain := by
  unfold ofChars
  split
  · rename_i hread
    obtain ⟨⟨-, -, hsmall⟩, rfl⟩ := digitsBelow64?_eq_some_iff.1 hread
    exact .index hsmall
  · rename_i hread
    apply Plain.key
    · simpa using h
    · simpa using digitsBelow64?_eq_none_iff.1 hread

theorem Plain.notMem_chars (h : s.Plain) : '.' ∉ s.chars := by
  cases h with
  | key undotted => exact undotted
  | index =>
    intro hdot
    exact absurd (isDigit_of_mem_natText hdot) (by decide)

theorem Plain.ofChars_chars (h : s.Plain) : ofChars s.chars = s := by
  cases h with
  | @key name _ no_place =>
    have hread : digitsBelow64? name.toList = none := digitsBelow64?_eq_none_iff.2 no_place
    simp [ofChars, chars, hread]
  | @index place small =>
    have hread : digitsBelow64? (natText place) = some place := by
      rw [digitsBelow64?_eq_some_iff, digitsValue_natText]
      exact ⟨⟨natText_ne_nil place, fun _ ↦ isDigit_of_mem_natText, small⟩, rfl⟩
    simp [ofChars, chars, hread]

theorem dotted_eq_intercalate (segments : List Segment) :
    dotted segments = ".".intercalate (segments.map text) := by
  rw [← String.toList_inj, dotted, joinWith_eq_intercalate]
  simp [String.toList_intercalate, text, Function.comp_def]

theorem parseDotted_dotted {segments : List Segment} (hne : segments ≠ [])
    (h : ∀ s ∈ segments, s.Plain) : parseDotted (dotted segments) = segments := by
  have hsplit : splitAt '.' (joinWith '.' (segments.map chars)) = segments.map chars := by
    apply splitAt_joinWith
    · simpa using hne
    · simpa using fun s hs ↦ (h s hs).notMem_chars
  have hread : segments.map (fun s ↦ ofChars s.chars) = segments := by
    rw [List.map_congr_left fun s hs ↦ (h s hs).ofChars_chars, List.map_id']
  simp [parseDotted, dotted, hsplit, Function.comp_def, hread]

theorem parseDotted_ne_nil (path : String) : parseDotted path ≠ [] := by
  simpa [parseDotted] using splitAt_ne_nil '.' path.toList

theorem plain_of_mem_parseDotted {path : String} (h : s ∈ parseDotted path) : s.Plain := by
  obtain ⟨part, hpart, rfl⟩ := List.mem_map.1 h
  exact plain_ofChars (notMem_of_mem_splitAt hpart)

theorem parseDotted_dotted_iff (segments : List Segment) :
    dotted segments = ".".intercalate (segments.map text) ∧
    (parseDotted (dotted segments) = segments ↔ segments ≠ [] ∧ ∀ s ∈ segments, s.Plain) := by
  refine ⟨dotted_eq_intercalate segments, ?_, fun ⟨hne, h⟩ ↦ parseDotted_dotted hne h⟩
  intro hback
  rw [← hback]
  exact ⟨parseDotted_ne_nil _, fun s hs ↦ plain_of_mem_parseDotted hs⟩

/-- Empty keys are kept at both ends, and 2^64 is a key while the number before it is a place. -/
example :
    let path := [key "", key "18446744073709551616", index 18446744073709551615, key ""]
    dotted path = ".18446744073709551616.18446744073709551615." ∧ parseDotted (dotted path) = path := by
  decide +kernel

end Segment

end CloutQuery
