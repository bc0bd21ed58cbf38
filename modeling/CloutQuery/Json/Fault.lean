namespace CloutQuery.Json

inductive Fault where
  /-- The text ends too early. -/
  | truncated
  /-- The text is not JSON, or holds a number or a depth beyond the limits. -/
  | malformed
  /-- JSON so far, but not of the wanted shape. -/
  | mismatched
deriving DecidableEq, Repr

/-- What is left of an input of which something has been read. -/
abbrev Rest {α : Type} (input : List α) := { rest : List α // rest.length < input.length }

namespace Rest

variable {α : Type} {xs ys : List α}

def tail (x : α) (xs : List α) : Rest (x :: xs) := ⟨xs, by simp⟩

def widen (rest : Rest ys) (h : ys.length ≤ xs.length) : Rest xs := ⟨rest.1, by have := rest.2; omega⟩

def cons (rest : Rest xs) (x : α) : Rest (x :: xs) := rest.widen (by simp)

def behind {x : α} (h : (x :: xs).length < ys.length) : Rest ys := ⟨xs, Nat.lt_of_succ_lt h⟩

def past {x : α} (rest : Rest xs) (h : (x :: xs).length < ys.length) : Rest ys :=
  rest.widen (Nat.le_of_lt (Nat.lt_of_succ_lt h))

end Rest

/-- What is left of an input of which perhaps nothing has been read. -/
abbrev Remainder {α : Type} (input : List α) := { rest : List α // rest.length ≤ input.length }

namespace Remainder

variable {α : Type} {xs ys : List α}

def all (xs : List α) : Remainder xs := ⟨xs, by simp⟩

def widen (rest : Remainder ys) (h : ys.length ≤ xs.length) : Remainder xs :=
  ⟨rest.1, Nat.le_trans rest.2 h⟩

end Remainder

def Rest.weaken {α : Type} {xs : List α} (rest : Rest xs) : Remainder xs := ⟨rest.1, Nat.le_of_lt rest.2⟩

def Rest.after {α : Type} {xs : List α} (first : Rest xs) (second : Remainder first.1) : Rest xs :=
  ⟨second.1, Nat.lt_of_le_of_lt second.2 first.2⟩

end CloutQuery.Json
