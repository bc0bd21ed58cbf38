import CloutQuery.Value.Basic

namespace CloutQuery

/-- What a value counts as when it is compared. An object with a `$number` or a `$string` is a coerced
value; it may name the `$comparer` that orders it. -/
inductive Scalar where
  | boolean (flag : Bool)
  | number (n : Number)
  | text (s : String)
  | sequence (items : List Value)
  | structured (members : Payload)

inductive Tagged where
  /-- Names a comparer, which orders the whole value. -/
  | delegated (comparer : String) (value : Value)
  | plain (scalar : Option Scalar)

namespace Value

def comparer? (v : Value) : Option String := (v.get? "$comparer").bind text?

/-- The `$number` of an object, else its `$string`, else the value itself; `null` has no scalar. -/
def comparable : Value → Option Scalar
  | .object members =>
    match members.get? "$number", members.get? "$string" with
    | some (.number n), _ => some (.number n)
    | _, some (.text s) => some (.text s)
    | _, _ => some (.structured members)
  | .number n => some (.number n)
  | .text s => some (.text s)
  | .array items => some (.sequence items)
  | .boolean flag => some (.boolean flag)
  | .null => none

def tagged (v : Value) : Tagged :=
  match v.comparer? with
  | some comparer => .delegated comparer v
  | none => .plain v.comparable

/-- The characters of a text or of the `$string` of an object, the items of an array, the members
of any other object. -/
def length : Value → Nat
  | .object members =>
    match members.get? "$string" with
    | some (.text s) => s.length
    | _ => members.size
  | .text s => s.length
  | .array items => items.length
  | _ => 0

end Value

end CloutQuery
