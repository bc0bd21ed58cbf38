import CloutQuery.Resolve.Path
import CloutQuery.Proofs.Text.Natural
import CloutQuery.Proofs.Table

namespace CloutQuery.Segment

variable {s : Segment} {v w : Value} {text : String}

/-- A step into a value: to the member of an object under the key, or under the number in decimal; or to
the item of an array at the place, or at the number that the key writes. -/
inductive Step : Segment → Value → Value → Prop
  | member {name : String} {members : Table Value} {w : Value} (held : members.get? name = some w) :
      Step (.key name) (.object members) w
  | numbered {place : ℕ} {members : Table Value} {w : Value}
      (held : members.get? (toString place) = some w) : Step (.index place) (.object members) w
  | item {place : ℕ} {items : List Value} {w : Value} (held : items[place]? = some w) :
      Step (.index place) (.array items) w
  | written {name : String} {t : Text.NaturalText} {items : List Value} {w : Value}
      (chars_eq : t.chars = name.toList) (held : items[t.value]? = some w) :
      Step (.key name) (.array items) w

inductive Leads : Value → List Segment → Value → Prop
  | here (v : Value) : Leads v [] v
  | step {s : Segment} {v w u : Value} {path : List Segment} (first : s.Step v w)
      (rest : Leads w path u) : Leads v (s :: path) u

@[simp] theorem text_key (name : String) : (key name).text = name := String.ofList_toList

@[simp] theorem text_index (place : ℕ) : (index place).text = toString place := rfl

theorem step_object_iff {members : Table Value} :
    s.Step (.object members) w ↔ members.get? s.text = some w := by
  cases s with
  | key name =>
    rw [text_key]
    constructor
    · intro h
      cases h with
      | member held => exact held
    · exact .member
  | index place =>
    rw [text_index]
    constructor
    · intro h
      cases h with
      | numbered held => exact held
    · exact .numbered

theorem step_array_iff {items : List Value} :
    s.Step (.array items) w ↔ ∃ place, s.place? = some place ∧ items[place]? = some w := by
  cases s with
  | key name =>
    simp only [place?, Text.natural64?_eq_some_iff]
    constructor
    · intro h
      cases h with
      | written chars_eq held => exact ⟨_, ⟨_, chars_eq, rfl⟩, held⟩
    · intro h
      obtain ⟨_, ⟨t, chars_eq, rfl⟩, held⟩ := h
      exact .written chars_eq held
  | index place =>
    constructor
    · intro h
      cases h with
      | item held => exact ⟨place, rfl, held⟩
    · intro h
      obtain ⟨_, hplace, held⟩ := h
      cases hplace
      exact .item held

theorem descend?_eq_some_iff : s.descend? v = some w ↔ s.Step v w := by
  cases v with
  | object members => exact step_object_iff.symm
  | array items => rw [step_array_iff, descend?, Option.bind_eq_some_iff]
  | null | boolean | number | text => exact iff_of_false nofun nofun

theorem descend?_eq_none_iff : s.descend? v = none ↔ ∀ w, ¬ s.Step v w := by
  simp only [← descend?_eq_some_iff, Option.eq_none_iff_forall_ne_some, ne_eq]

/-- A text for a place in an array, with a zero in front of its other digits. -/
def Padded (text : String) : Prop :=
  (∃ c rest, text.toList = '0' :: c :: rest) ∧ (∀ c ∈ text.toList, c.isDigit = true) ∧
    digitsValue text.toList < 0x10000000000000000

theorem parse_of_digits {n : ℕ} (h : Text.digitsBelow64? text.toList = some n) :
    parse text = .index n := by
  unfold parse ofChars
  rw [h]

theorem parse_of_not_digits (h : Text.digitsBelow64? text.toList = none) : parse text = .key text := by
  unfold parse ofChars
  rw [h]
  exact congrArg key String.ofList_toList

theorem text_parse_of_digits {n : ℕ} (h : Text.digitsBelow64? text.toList = some n) :
    (parse text).text = String.ofList (withoutZeros text.toList) := by
  obtain ⟨⟨-, hdigits, -⟩, rfl⟩ := Text.digitsBelow64?_eq_some_iff.1 h
  rw [parse_of_digits h]
  exact congrArg String.ofList (natText_digitsValue hdigits)

theorem text_parse_eq_iff : (parse text).text = text ↔ ¬ Padded text := by
  cases h : Text.digitsBelow64? text.toList with
  | none =>
    rw [parse_of_not_digits h]
    refine iff_of_true String.ofList_toList ?_
    rintro ⟨⟨c, rest, hcons⟩, hdigits, hsmall⟩
    rw [Text.digitsBelow64?_eq_some_iff.2 ⟨⟨by simp [hcons], hdigits, hsmall⟩, rfl⟩] at h
    cases h
  | some n =>
    obtain ⟨⟨hne, hdigits, hsmall⟩, -⟩ := Text.digitsBelow64?_eq_some_iff.1 h
    rw [text_parse_of_digits h, ← String.toList_inj, String.toList_ofList,
      withoutZeros_eq_self_iff hne, Padded, and_iff_left ⟨hdigits, hsmall⟩]

theorem place?_parse (text : String) : (parse text).place? = (key text).place? := by
  cases h : Text.digitsBelow64? text.toList with
  | none => rw [parse_of_not_digits h]
  | some n =>
    obtain ⟨⟨-, hdigits, -⟩, -⟩ := Text.digitsBelow64?_eq_some_iff.1 h
    rw [parse_of_digits h, place?, place?, ← h, Text.natural64?]
    rintro rest hplus
    rw [hplus] at hdigits
    exact absurd (hdigits '+' List.mem_cons_self) (by decide)

theorem parse_descend?_object_iff (text : String) :
    (∀ members w, (parse text).descend? (.object members) = some w ↔ members.get? text = some w) ↔
      ¬ Padded text := by
  simp only [descend?, ← text_parse_eq_iff]
  constructor
  · intro h
    have hmember := (h (Table.empty.insert text .null) .null).2 (by rw [Table.get?_insert, if_pos rfl])
    rw [Table.get?_insert] at hmember
    by_contra hne
    rw [if_neg hne] at hmember
    cases hmember
  · intro htext members w
    rw [htext]

theorem parse_descend?_iff (text : String) :
    (∀ v, (parse text).descend? v = (key text).descend? v) ↔ ¬ Padded text := by
  rw [← parse_descend?_object_iff]
  constructor
  · intro h members w
    rw [h, descend?, text_key]
  · intro h v
    cases v with
    | object members =>
      ext w
      rw [h, descend?, text_key]
    | array items => rw [descend?, descend?, place?_parse]
    | null | boolean | number | text => rfl

theorem parse_reads_key_iff (text : String) :
    ((∀ members w, (parse text).descend? (.object members) = some w ↔ members.get? text = some w) ↔
      ¬ Padded text) ∧
    ((∀ v, (parse text).descend? v = (key text).descend? v) ↔ ¬ Padded text) ∧
    (Padded text → ∀ members, (parse text).descend? (.object members) =
      members.get? (String.ofList (withoutZeros text.toList))) := by
  refine ⟨parse_descend?_object_iff text, parse_descend?_iff text, fun hpadded members ↦ ?_⟩
  obtain ⟨⟨c, rest, hcons⟩, hdigits, hsmall⟩ := hpadded
  rw [descend?, text_parse_of_digits
    (Text.digitsBelow64?_eq_some_iff.2 ⟨⟨by simp [hcons], hdigits, hsmall⟩, rfl⟩)]

/-- A padded number reads the member under the number itself. -/
theorem parse_reads_key_iff_codes :
    Padded "007" ∧ (parse "007").descend?
      (.object ⟨[("007", .text "agent"), ("7", .text "seven")]⟩) = some (.text "seven") := by
  have hpadded : Padded "007" := ⟨⟨'0', ['7'], rfl⟩, List.all_eq_true.1 (by decide), by decide⟩
  exact ⟨hpadded, ((parse_reads_key_iff "007").2.2 hpadded _).trans rfl⟩

theorem parse_passes_padded_key :
    let codes : Table Value := ⟨[("007", .text "agent"), ("7", .text "seven")]⟩
    let code : Table Value := ⟨[("007", .text "agent")]⟩
    '.' ∉ "007".toList ∧ codes.get? "007" = some (.text "agent") ∧
      (parse "007").descend? (.object codes) = some (.text "seven") ∧
      code.get? "007" = some (.text "agent") ∧ (parse "007").descend? (.object code) = none := by
  refine ⟨by decide, rfl, rfl, rfl, rfl⟩

end CloutQuery.Segment
