import CloutQuery.Number.Shortest

namespace CloutQuery

/-- A number of a JSON text: an integer from -2^63 to 2^64 - 1, and a finite 64-bit float for all else. -/
inductive Number where
  | integer (value : Int) (bounds : -0x8000000000000000 ≤ value ∧ value < 0x10000000000000000)
  | double (value : Double)
deriving DecidableEq

namespace Number

def ofInt? (n : Int) : Option Number :=
  if h : -0x8000000000000000 ≤ n ∧ n < 0x10000000000000000 then some (.integer n h) else none

def zero : Number := .integer 0 (by decide)

instance : Inhabited Number := ⟨zero⟩

def ofOrdering : Ordering → Number
  | .lt => .integer (-1) (by decide)
  | .eq => zero
  | .gt => .integer 1 (by decide)

def toDouble? : Number → Option Double
  | .integer n _ => Double.ofInt? n
  | .double d => some d

/-- An integer is compared with a float through the float nearest to it. Where these are equal the
float is a whole number, and the integers decide. -/
def compareInteger (n : Int) (d : Double) : Ordering :=
  match Double.ofInt? n with
  | some rounded => (rounded.compare d).then (compareOfLessAndEq n d.toInt128)
  | none => compareOfLessAndEq n 0

def compare : Number → Number → Ordering
  | .integer a _, .integer b _ => compareOfLessAndEq a b
  | .integer a _, .double b => compareInteger a b
  | .double a, .integer b _ => (compareInteger b a).swap
  | .double a, .double b => a.compare b

/-- Same kind and same value: `1` is not `1.0`, but `-0.0` is `0.0`. -/
def same : Number → Number → Bool
  | .integer a _, .integer b _ => a = b
  | .double a, .double b => a.units = b.units
  | _, _ => false

/-- The value of an integer that is not below zero. A float has none, even a whole one. -/
def toNat? : Number → Option Nat
  | .integer n _ => if 0 ≤ n then some n.toNat else none
  | .double _ => none

/-- An integer literal in range stays one, except that `-0` is the float. -/
def ofDecimal? (d : Decimal) (isInteger : Bool) : Option Number :=
  let float := d.toDouble?.map .double
  if isInteger then
    if d.negative then
      if d.digits = 0 then float else (ofInt? (-d.digits)).or float
    else (ofInt? d.digits).or float
  else float

def intText (n : Int) : String :=
  String.ofList (if n < 0 then '-' :: natText n.natAbs else natText n.natAbs)

def render : Number → String
  | .integer n _ => intText n
  | .double d => d.render

end Number

end CloutQuery
