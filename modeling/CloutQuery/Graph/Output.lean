import CloutQuery.Graph.Basic

namespace CloutQuery

open Text

inductive OutputType where
  | boolean
  | integer
  | float
deriving DecidableEq

namespace OutputType

def ofName? : String → Option OutputType
  | "boolean" => some .boolean
  | "integer" => some .integer
  | "float" => some .float
  | _ => none

def leadingSign : List Char → Bool × List Char
  | '-' :: cs => (true, cs)
  | '+' :: cs => (false, cs)
  | cs => (false, cs)

/-- The whole number that a text starts with, as an integer if one can hold it and as the nearest
float otherwise. -/
def leadingInteger? (cs : List Char) : Option Number :=
  let (negative, cs) := leadingSign (trimStart cs)
  match cs.takeWhile Char.isDigit with
  | [] => none
  | digits =>
    let n := digitsValue digits
    let decimal : Decimal := ⟨negative, n, 0⟩
    (Number.ofInt? (if negative then -(n : Int) else n)).or (decimal.toDouble?.map .double)

def exponent? : List Char → Option Int
  | [] => some 0
  | c :: rest =>
    let (negative, digits) := leadingSign rest
    let n := digitsValue digits
    if (c = 'e' ∨ c = 'E') ∧ digits ≠ [] ∧ digits.all Char.isDigit then
      some (if negative then -(n : Int) else n)
    else none

def leadingFraction : List Char → List Char × List Char
  | '.' :: rest => (rest.takeWhile Char.isDigit, rest.dropWhile Char.isDigit)
  | rest => ([], rest)

/-- The decimal literal that a text is: perhaps a sign, digits with a point among, before or behind
them, and perhaps an exponent. -/
def decimal? (cs : List Char) : Option Decimal :=
  let (negative, cs) := leadingSign cs
  let whole := cs.takeWhile Char.isDigit
  let (fraction, rest) := leadingFraction (cs.dropWhile Char.isDigit)
  if whole = [] ∧ fraction = [] then none
  else (exponent? rest).map (Decimal.ofParts negative whole fraction)

def isDecimalChar (c : Char) : Bool :=
  c.isDigit || c = '+' || c = '-' || c = '.' || c = 'e' || c = 'E'

def longestDecimal? (cs : List Char) : Nat → Option Decimal
  | 0 => none
  | n + 1 =>
    match decimal? (cs.take (n + 1)) with
    | some d => some d
    | none => longestDecimal? cs n

/-- The longest decimal literal that a text starts with. No literal reaches beyond the first character
that none has. -/
def leadingDecimal? (cs : List Char) : Option Decimal :=
  let run := (trim cs).takeWhile isDecimalChar
  longestDecimal? run run.length

/-- Only the text `true` is true. Numbers are read from the start of the text. -/
def coerce (t : OutputType) (text : String) : Option Value :=
  match t with
  | .boolean => some (.boolean (text = "true"))
  | .integer => (leadingInteger? text.toList).map .number
  | .float => ((leadingDecimal? text.toList).bind Decimal.toDouble?).map fun d ↦ .number (.double d)

def declared? (output : Payload) : Option OutputType := do
  let name ← (← (← output.get? "$type").get? "type").get? "name"
  ofName? (← name.text?)

/-- The value to assign to an output; an output of no known type keeps the text. -/
def assigned? (output : Payload) (text : String) : Option Value :=
  match declared? output with
  | some t => t.coerce text
  | none => some (.text text)

end OutputType

namespace Graph

def output? (g : Graph) (name : String) : Option Payload := do
  let outputs ← (← g.properties.get? "tosca").get? "outputs"
  (← outputs.get? name).object?

def setOutput? (g : Graph) (name text : String) : Option Graph := do
  let tosca ← (← g.properties.get? "tosca").object?
  let outputs ← (← tosca.get? "outputs").object?
  let output ← (← outputs.get? name).object?
  let value ← OutputType.assigned? output text
  let outputs := outputs.insert name (.object (output.insert "$value" value))
  let tosca := tosca.insert "outputs" (.object outputs)
  some { g with properties := g.properties.insert "tosca" (.object tosca) }

end Graph

end CloutQuery
