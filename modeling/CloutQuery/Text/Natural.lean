import CloutQuery.Number.Double

namespace CloutQuery.Text

/-- One digit or more, and nothing else, with a value below 2^64. -/
def digitsBelow64? (cs : List Char) : Option Nat :=
  if cs ≠ [] ∧ cs.all Char.isDigit ∧ digitsValue cs < 0x10000000000000000 then some (digitsValue cs) else none

/-- As `digitsBelow64?`, with a plus sign allowed in front. -/
def natural64? : List Char → Option Nat
  | '+' :: cs => digitsBelow64? cs
  | cs => digitsBelow64? cs

/-- What stands before the first `c` and, if there is one, what stands behind it. -/
def cutAt (c : Char) : List Char → List Char × Option (List Char)
  | [] => ([], none)
  | x :: xs =>
    if x = c then ([], some xs)
    else ((x :: (cutAt c xs).1), (cutAt c xs).2)

def splitAt (c : Char) : List Char → List (List Char)
  | [] => [[]]
  | x :: xs =>
    if x = c then [] :: splitAt c xs
    else
      match splitAt c xs with
      | [] => [[x]]
      | part :: parts => (x :: part) :: parts

def joinWith (c : Char) : List (List Char) → List Char
  | [] => []
  | [part] => part
  | part :: parts => part ++ c :: joinWith c parts

end CloutQuery.Text
