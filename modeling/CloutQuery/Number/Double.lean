namespace CloutQuery

/-- The power, or one when the exponent is below zero: `base ^ e` is the fraction
`powerOf base e / powerOf base (-e)`. -/
def powerOf (base : Nat) (e : Int) : Nat := Nat.pow base e.toNat

/-- The one form in which a finite 64-bit float writes a magnitude as `significand * 2 ^ exponent`:
with 53 binary digits, or with fewer if the exponent is the least. -/
def CanonicalDouble (significand : Nat) (exponent : Int) : Prop :=
  significand < 0x20000000000000 ∧ -1074 ≤ exponent ∧ exponent ≤ 971 ∧
    (0x10000000000000 ≤ significand ∨ exponent = -1074)

instance (m : Nat) (q : Int) : Decidable (CanonicalDouble m q) :=
  inferInstanceAs (Decidable (_ ∧ _ ∧ _ ∧ (_ ∨ _)))

/-- A finite 64-bit float, held exactly. It is a whole count of units of 2^-1074, and that count carries
order and equality. -/
structure Double where
  negative : Bool
  significand : Nat
  exponent : Int
  canonical : CanonicalDouble significand exponent
deriving DecidableEq

namespace Double

def zero (negative : Bool) : Double := ⟨negative, 0, -1074, by decide⟩

instance : Inhabited Double := ⟨zero false⟩

/-- How many units of 2^-1074 the number is; both zeros are none. -/
def units (d : Double) : Int :=
  let magnitude : Nat := d.significand * powerOf 2 (d.exponent + 1074)
  if d.negative then -magnitude else magnitude

def compare (d e : Double) : Ordering := compareOfLessAndEq d.units e.units

def truncate (d : Double) : Int :=
  let magnitude : Nat := d.significand * powerOf 2 d.exponent / powerOf 2 (-d.exponent)
  if d.negative then -magnitude else magnitude

/-- Cut off to a whole number of 128 bits, the last of them for one that lies beyond. -/
def toInt128 (d : Double) : Int :=
  max (-0x80000000000000000000000000000000) (min d.truncate 0x7fffffffffffffffffffffffffffffff)

/-- The whole number nearest to `num / den`, the even one of two. -/
def roundHalfEven (num den : Nat) : Nat :=
  let below := num / den
  let rest := num % den
  if 2 * rest < den ∨ (2 * rest = den ∧ below % 2 = 0) then below else below + 1

/-- `num / den` as a rounded count of units of `2 ^ exponent`. -/
def significandAt (num den : Nat) (exponent : Int) : Nat :=
  roundHalfEven (num * powerOf 2 (-exponent)) (den * powerOf 2 exponent)

/-- A lower bound, short by at most two, for the exponent at which `num / den` has 53 binary digits. -/
def exponentBound (num den : Nat) : Int :=
  max (-1074) ((num.log2 : Int) - den.log2 - 53)

def ofSignificand? (negative : Bool) (significand : Nat) (exponent : Int) : Option Double :=
  if h : CanonicalDouble significand exponent then some ⟨negative, significand, exponent, h⟩
  else none

/-- The float nearest to `num / den`, the one with the even significand of two; none when the
nearest would lie beyond the greatest finite float. The least exponent that leaves room for the
rounded significand is the right one, since a smaller one would need more than 53 digits. -/
def nearest? (negative : Bool) (num den : Nat) : Option Double :=
  if num = 0 then some (zero negative)
  else
    let q := exponentBound num den
    [q, q + 1, q + 2].findSome? fun e ↦ ofSignificand? negative (significandAt num den e) e

def ofInt? (n : Int) : Option Double := nearest? (n < 0) n.natAbs 1

end Double

def digitValue (c : Char) : Nat := c.toNat - '0'.toNat

def digitsValue (cs : List Char) : Nat := cs.foldl (fun n c ↦ 10 * n + digitValue c) 0

def natText (n : Nat) : List Char := Nat.toDigits 10 n

/-- Stands for `digits * 10 ^ exponent`, below zero if `negative`. -/
structure Decimal where
  negative : Bool
  digits : Nat
  exponent : Int
deriving DecidableEq

namespace Decimal

def ofParts (negative : Bool) (whole fraction : List Char) (exponent : Int) : Decimal :=
  ⟨negative, digitsValue (whole ++ fraction), exponent - fraction.length⟩

/-- One more than the power of ten of the first digit. -/
def magnitude (d : Decimal) : Int := (natText d.digits).length + d.exponent

/-- The float nearest to the literal; none when that would be beyond the finite floats. From 10^310
upward no literal is finite, and below 10^-330 each is nearer to zero than to any other float. -/
def toDouble? (d : Decimal) : Option Double :=
  if d.digits = 0 ∨ d.magnitude < -330 then some (Double.zero d.negative)
  else if 310 < d.magnitude then none
  else Double.nearest? d.negative (d.digits * powerOf 10 d.exponent) (powerOf 10 (-d.exponent))

end Decimal

end CloutQuery
