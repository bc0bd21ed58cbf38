import CloutQuery.Value.Order
import CloutQuery.Value.Render

namespace CloutQuery

open Text (quoted)

inductive HostError where
  | unknownMethod (target method : String)
  | callFailed (target method reason : String)
  | nonNumericComparison (target : String) (returned : Value)
  | uncoercible (reason : String)

def HostError.message : HostError → String
  | .unknownMethod target method => "unknown method " ++ quoted method ++ " on " ++ quoted target
  | .callFailed target method reason => quoted target ++ "." ++ method ++ " failed: " ++ reason
  | .nonNumericComparison target returned =>
    "comparer " ++ quoted target ++ " returned " ++ returned.render ++ ", expected a number"
  | .uncoercible reason => "cannot coerce value: " ++ reason

structure Host where
  /-- Invokes a method of the scriptlet with the first name. -/
  call : String → String → List Value → Except HostError Value
  coerce : Value → Except HostError Value

namespace Host

def compareMethod : String := "compare"

def passthrough : Host where
  call target method _ := .error (.unknownMethod target method)
  coerce v := .ok v

def deciding? (left right : Value) : Option String := left.comparer?.or right.comparer?

/-- The ordering that a number stands for by its sign, which is that of the float nearest to it. -/
def orderingOf (comparer : String) (returned : Value) : Except HostError Ordering :=
  match returned.number?.bind Number.toDouble? with
  | some d => .ok (d.compare (Double.zero false))
  | none => .error (.nonNumericComparison comparer returned)

def compare (host : Host) (left right : Value) : Except HostError Ordering :=
  match deciding? left right with
  | some comparer =>
    (host.call comparer compareMethod [left, right]).bind (orderingOf comparer)
  | none => .ok (comparePlain left.comparable right.comparable)

def equal (host : Host) (left right : Value) : Except HostError Bool :=
  if (deciding? left right).isSome then (host.compare left right).map (· == .eq)
  else .ok (left.deepEqual right)

/-- Both bounds count as in range. The upper one is looked at only if the lower one allows. -/
def inRange (host : Host) (value lower upper : Value) : Except HostError Bool :=
  (host.compare value lower).bind fun low ↦
    if low = .lt then .ok false else (host.compare value upper).map (· != .gt)

end Host

end CloutQuery
