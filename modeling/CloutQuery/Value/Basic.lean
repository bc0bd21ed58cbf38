import CloutQuery.Table
import CloutQuery.Number.Basic

namespace CloutQuery

inductive Value where
  | null
  | boolean (flag : Bool)
  | number (n : Number)
  | text (s : String)
  | array (items : List Value)
  | object (members : Table Value)

/-- The members of a vertex, an edge or a graph's own data. -/
abbrev Payload := Table Value

namespace Value

instance : Inhabited Value := ⟨.null⟩

def number? : Value → Option Number
  | .number n => some n
  | _ => none

def text? : Value → Option String
  | .text s => some s
  | _ => none

def object? : Value → Option Payload
  | .object members => some members
  | _ => none

def get? (v : Value) (key : String) : Option Value := v.object?.bind (·.get? key)

mutual

/-- Same kind and contents. Integers and floats are of different kinds, and the two zeros of the
floats are one. -/
def same : Value → Value → Bool
  | .null, .null => true
  | .boolean a, .boolean b => a = b
  | .number a, .number b => a.same b
  | .text a, .text b => a = b
  | .array a, .array b => sameItems a b
  | .object ⟨a⟩, .object ⟨b⟩ => sameEntries a b
  | _, _ => false
termination_by structural v => v

def sameItems : List Value → List Value → Bool
  | [], [] => true
  | v :: vs, w :: ws => v.same w && sameItems vs ws
  | _, _ => false
termination_by structural vs => vs

def sameEntries : List (String × Value) → List (String × Value) → Bool
  | [], [] => true
  | (j, v) :: vs, (k, w) :: ws => j = k && v.same w && sameEntries vs ws
  | _, _ => false
termination_by structural vs => vs

end

mutual

def Sorted : Value → Prop
  | .array items => SortedItems items
  | .object ⟨entries⟩ => (Table.mk entries).Sorted ∧ SortedEntries entries
  | _ => True
termination_by structural v => v

def SortedItems : List Value → Prop
  | [] => True
  | v :: vs => v.Sorted ∧ SortedItems vs
termination_by structural vs => vs

def SortedEntries : List (String × Value) → Prop
  | [] => True
  | (_, v) :: vs => v.Sorted ∧ SortedEntries vs
termination_by structural vs => vs

end

end Value

end CloutQuery
