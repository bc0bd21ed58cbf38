import CloutQuery.Value.Tagged

namespace CloutQuery

namespace Value

def rank : Value → Nat
  | .null => 0
  | .boolean _ => 1
  | .number _ => 2
  | .text _ => 3
  | .array _ => 4
  | .object _ => 5

mutual

def compareStructure : Value → Value → Ordering
  | .boolean a, .boolean b => compareOfLessAndEq a b
  | .number a, .number b => a.compare b
  | .text a, .text b => compareOfLessAndEq a b
  | .array a, .array b => compareItems a b
  | .object ⟨a⟩, .object ⟨b⟩ => compareEntries a b
  | a, b => compareOfLessAndEq a.rank b.rank
termination_by structural v => v

/-- Item by item; a list comes before its extensions. -/
def compareItems : List Value → List Value → Ordering
  | [], [] => .eq
  | [], _ :: _ => .lt
  | _ :: _, [] => .gt
  | v :: vs, w :: ws => (v.compareStructure w).then (compareItems vs ws)
termination_by structural vs => vs

def compareEntries : List (String × Value) → List (String × Value) → Ordering
  | [], [] => .eq
  | [], _ :: _ => .lt
  | _ :: _, [] => .gt
  | (j, v) :: vs, (k, w) :: ws =>
    ((compareOfLessAndEq j k).then (v.compareStructure w)).then (compareEntries vs ws)
termination_by structural vs => vs

end

mutual

/-- Numbers are equal by value. Objects need as many members, and an equal one under every key. -/
def deepEqual : Value → Value → Bool
  | .null, .null => true
  | .boolean a, .boolean b => a = b
  | .number a, .number b => a.compare b = .eq
  | .text a, .text b => a = b
  | .array a, .array b => a.length = b.length && deepEqualItems a b
  | .object ⟨a⟩, .object b => a.length = b.size && deepEqualMembers a b
  | _, _ => false
termination_by structural v => v

def deepEqualItems : List Value → List Value → Bool
  | v :: vs, w :: ws => v.deepEqual w && deepEqualItems vs ws
  | _, _ => true
termination_by structural vs => vs

def deepEqualMembers : List (String × Value) → Table Value → Bool
  | [], _ => true
  | (k, v) :: vs, t => (t.get? k).any (v.deepEqual ·) && deepEqualMembers vs t
termination_by structural vs => vs

end

end Value

namespace Scalar

def rank : Scalar → Nat
  | .boolean _ => 0
  | .number _ => 1
  | .text _ => 2
  | .sequence _ => 3
  | .structured _ => 4

def compare : Scalar → Scalar → Ordering
  | .boolean a, .boolean b => compareOfLessAndEq a b
  | .number a, .number b => a.compare b
  | .text a, .text b => compareOfLessAndEq a b
  | .sequence a, .sequence b => Value.compareItems a b
  | .structured a, .structured b => Value.compareEntries a.entries b.entries
  | a, b => compareOfLessAndEq a.rank b.rank

end Scalar

/-- The order of what two values count as; the scalar of `null` comes before all others. -/
def comparePlain : Option Scalar → Option Scalar → Ordering
  | none, none => .eq
  | none, some _ => .lt
  | some _, none => .gt
  | some a, some b => a.compare b

end CloutQuery
