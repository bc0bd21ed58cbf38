import CloutQuery.Number.Double

namespace CloutQuery.Double

/-- The magnitude of a float between the ends of the interval of reals that round to it, all four
times over and as counts of `2 ^ exponent`. The ends count when the significand is even. -/
structure Interval where
  lower : Nat
  centre : Nat
  upper : Nat
  closed : Bool
  exponent : Int

def interval (d : Double) : Interval :=
  let m := d.significand
  let gap := if m = 0x10000000000000 ∧ -1074 < d.exponent then 1 else 2
  ⟨4 * m - gap, 4 * m, 4 * m + 2, m % 2 = 0, d.exponent - 2⟩

/-- The factors by which a count of `2 ^ exponent` becomes a fraction whose unit is `10 ^ grid`. -/
def gridScale (exponent grid : Int) : Nat × Nat :=
  (powerOf 2 exponent * powerOf 10 (-grid), powerOf 2 (-exponent) * powerOf 10 grid)

def Interval.contains (i : Interval) (num den point : Nat) : Bool :=
  let lower := i.lower * num
  let upper := i.upper * num
  let x := point * den
  if i.closed then lower ≤ x && x ≤ upper else lower < x && x < upper

/-- The point of the grid of multiples of `10 ^ grid` that lies in the interval nearest to the
centre, the even one of two equally near. -/
def Interval.nearestPoint? (i : Interval) (grid : Int) : Option Nat :=
  let (num, den) := gridScale i.exponent grid
  let below := i.centre * num / den
  match i.contains num den below, i.contains num den (below + 1) with
  | true, true => some (roundHalfEven (i.centre * num) den)
  | true, false => some below
  | false, true => some (below + 1)
  | false, false => none

/-- The least `k` with the centre below `10 ^ k`. -/
def Interval.decimalPower (i : Interval) : Int :=
  let num := i.centre * powerOf 2 i.exponent
  let den := powerOf 2 (-i.exponent)
  let k : Int := (natText num).length - (natText den).length
  if num * powerOf 10 (-k) < den * powerOf 10 k then k else k + 1

def stripZeros (digits : List Char) (exponent : Int) : List Char × Int :=
  let kept := (digits.reverse.dropWhile (· = '0')).reverse
  (kept, exponent + (digits.length - kept.length : Nat))

/-- The digits of a nonzero magnitude and the power of ten of their last place. Seventeen digits
always suffice. -/
def shortest (d : Double) : List Char × Int :=
  let i := d.interval
  let k := i.decimalPower
  let found := (List.range 17).findSome? fun (n : Nat) ↦
    let grid := k - (n + 1)
    (i.nearestPoint? grid).map fun point ↦ stripZeros (natText point) grid
  found.getD (['0'], 0)

def positional (digits : List Char) (before : Int) : List Char :=
  if before ≤ 0 then '0' :: '.' :: List.replicate (-before).toNat '0' ++ digits
  else
    let n := before.toNat
    if digits.length ≤ n then digits ++ List.replicate (n - digits.length) '0' ++ ['.', '0']
    else digits.take n ++ '.' :: digits.drop n

def scientific (digits : List Char) (power : Int) : List Char :=
  let mantissa := match digits with
    | first :: second :: rest => first :: '.' :: second :: rest
    | short => short
  let sign := if power < 0 then '-' else '+'
  mantissa ++ 'e' :: sign :: natText power.natAbs

/-- Positional from 10^-5 up to 10^16 and scientific outside. -/
def magnitudeText (d : Double) : List Char :=
  if d.significand = 0 then ['0', '.', '0']
  else
    let (digits, exponent) := d.shortest
    let power := digits.length + exponent - 1
    if -5 ≤ power ∧ power < 16 then positional digits (power + 1) else scientific digits power

def render (d : Double) : String :=
  String.ofList (if d.negative then '-' :: d.magnitudeText else d.magnitudeText)

end CloutQuery.Double
