import CloutQuery.Json.Token
import Mathlib.Tactic

namespace CloutQuery.Json

/-- Leaves out the blanks outside of string literals. The flag says whether the characters begin
inside of one. -/
def squeeze : Bool → List Char → List Char
  | _, [] => []
  | true, '\\' :: c :: rest => '\\' :: c :: squeeze true rest
  | true, c :: rest => c :: squeeze (c ≠ '"') rest
  | false, c :: rest => if Token.isBlank c then squeeze false rest else c :: squeeze (c = '"') rest

def Plain (c : Char) : Prop := Token.isBlank c = false ∧ c ≠ '"'

def IsPunctuation (c : Char) : Prop := (Token.punctuation? c).isSome = true

instance (c : Char) : Decidable (Plain c) := inferInstanceAs (Decidable (_ ∧ _))

instance (c : Char) : Decidable (IsPunctuation c) := inferInstanceAs (Decidable (_ = true))

theorem IsPunctuation.cases {c : Char} (h : IsPunctuation c) :
    c = '[' ∨ c = ']' ∨ c = '\x7b' ∨ c = '\x7d' ∨ c = ',' ∨ c = ':' := by
  unfold IsPunctuation Token.punctuation? at h
  split at h <;> simp_all

theorem IsPunctuation.plain {c : Char} (h : IsPunctuation c) : Plain c := by
  rcases h.cases with rfl | rfl | rfl | rfl | rfl | rfl <;> decide

theorem squeeze_blank {c : Char} (h : Token.isBlank c = true) (rest : List Char) :
    squeeze false (c :: rest) = squeeze false rest := by
  rw [squeeze, if_pos h]

theorem squeeze_plain {c : Char} (h : Plain c) (rest : List Char) :
    squeeze false (c :: rest) = c :: squeeze false rest := by
  rw [squeeze, if_neg (by simp [h.1]), decide_eq_false h.2]

theorem squeeze_append {l : List Char} (h : ∀ c ∈ l, Plain c) (rest : List Char) :
    squeeze false (l ++ rest) = l ++ squeeze false rest := by
  induction l with
  | nil => rfl
  | cons c l ih =>
    obtain ⟨hc, hl⟩ := List.forall_mem_cons.1 h
    rw [List.cons_append, squeeze_plain hc, ih hl, List.cons_append]

theorem squeeze_quote (rest : List Char) : squeeze false ('"' :: rest) = '"' :: squeeze true rest := rfl

theorem squeeze_inside {c : Char} (hescape : c ≠ '\\') (hquote : c ≠ '"') (rest : List Char) :
    squeeze true (c :: rest) = c :: squeeze true rest := by
  rw [squeeze]
  · rw [decide_eq_true hquote]
  · rintro _ _ rfl
    exact absurd rfl hescape

theorem squeeze_escape (c : Char) (rest : List Char) :
    squeeze true ('\\' :: c :: rest) = '\\' :: c :: squeeze true rest := rfl

end CloutQuery.Json
