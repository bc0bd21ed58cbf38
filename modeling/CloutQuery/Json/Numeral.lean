import CloutQuery.Json.Fault
import CloutQuery.Number.Basic

namespace CloutQuery.Json

structure Numeral where
  decimal : Decimal
  isInteger : Bool

namespace Numeral

/-- None when the value is beyond the finite floats. -/
def toNumber? (n : Numeral) : Option Number := Number.ofDecimal? n.decimal n.isInteger

/-- One digit or more. -/
def digits (cs : List Char) : Except Fault (List Char × Rest cs) :=
  match cs with
  | [] => .error .truncated
  | c :: rest =>
    if c.isDigit then
      .ok (c :: rest.takeWhile Char.isDigit, ⟨rest.dropWhile Char.isDigit,
        Nat.lt_succ_of_le (List.dropWhile_suffix _).length_le⟩)
    else .error .malformed

def whole (cs : List Char) : Except Fault (List Char × Rest cs) :=
  match cs with
  | '0' :: c :: rest => if c.isDigit then .error .malformed else .ok (['0'], Rest.tail '0' (c :: rest))
  | cs => digits cs

def fraction (cs : List Char) : Except Fault (List Char × Remainder cs) :=
  match cs with
  | '.' :: rest => (digits rest).map fun (ds, r) ↦ (ds, (r.cons '.').weaken)
  | cs => .ok ([], Remainder.all cs)

def sign (cs : List Char) : Bool × Remainder cs :=
  match cs with
  | '-' :: rest => (true, (Rest.tail '-' rest).weaken)
  | '+' :: rest => (false, (Rest.tail '+' rest).weaken)
  | cs => (false, Remainder.all cs)

def signedDigits (cs : List Char) : Except Fault (Int × Rest cs) :=
  let (negative, ⟨unsigned, h⟩) := sign cs
  (digits unsigned).map fun (ds, r) ↦
    (if negative then -(digitsValue ds : Int) else digitsValue ds, r.widen h)

def exponent (cs : List Char) : Except Fault (Option Int × Remainder cs) :=
  match cs with
  | 'e' :: rest => (signedDigits rest).map fun (e, r) ↦ (some e, (r.cons 'e').weaken)
  | 'E' :: rest => (signedDigits rest).map fun (e, r) ↦ (some e, (r.cons 'E').weaken)
  | cs => .ok (none, Remainder.all cs)

def unsigned (negative : Bool) (cs : List Char) : Except Fault (Numeral × Rest cs) := do
  let (ws, afterWhole) ← whole cs
  let (fs, afterFraction) ← fraction afterWhole.1
  let (e, rest) ← exponent afterFraction.1
  pure (⟨Decimal.ofParts negative ws fs (e.getD 0), fs.isEmpty && e.isNone⟩,
    (afterWhole.after afterFraction).after rest)

def read (cs : List Char) : Except Fault (Numeral × Rest cs) :=
  match cs with
  | '-' :: rest => (unsigned true rest).map fun (n, r) ↦ (n, r.cons '-')
  | cs => unsigned false cs

end Numeral

end CloutQuery.Json
