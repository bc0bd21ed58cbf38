import CloutQuery.Host.Basic
import CloutQuery.Value.Tagged
import CloutQuery.Version

namespace CloutQuery

open Text (quoted)

abbrev Comparer := Value → Value → Except HostError Ordering

namespace Comparer

def versionName : String := "tosca.comparer.version"

def readVersion (v : Value) : Except HostError Version :=
  match Version.ofValue? v with
  | some version => .ok version
  | none => .error (.callFailed versionName Host.compareMethod ("not a version: " ++ v.render))

def version : Comparer := fun left right ↦ do
  let l ← readVersion left
  let r ← readVersion right
  pure (l.compare r)

end Comparer

structure Registry where
  comparers : Table Comparer

namespace Registry

def empty : Registry := ⟨∅⟩

/-- A later comparer of the same name takes the place of an earlier one. -/
def register (r : Registry) (name : String) (comparer : Comparer) : Registry :=
  ⟨r.comparers.insert name comparer⟩

def withBuiltins : Registry := empty.register Comparer.versionName Comparer.version

def contains (r : Registry) (name : String) : Bool := r.comparers.contains name

def describe (r : Registry) : String :=
  "ComparerRegistry \x7b comparers: [" ++ String.intercalate ", " (r.comparers.keys.map quoted) ++
    "] \x7d"

def call (r : Registry) (target method : String) (args : List Value) : Except HostError Value :=
  if method = Host.compareMethod then
    match r.comparers.get? target, args with
    | none, _ => .error (.unknownMethod target method)
    | some comparer, [left, right] =>
      (comparer left right).map fun ordering ↦ .number (Number.ofOrdering ordering)
    | some _, args =>
      .error (.callFailed target method ("expected 2 arguments, got " ++ toString args.length))
  else .error (.unknownMethod target method)

def toHost (r : Registry) : Host := ⟨r.call, .ok⟩

end Registry

end CloutQuery
