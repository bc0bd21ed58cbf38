import CloutQuery.Value.Basic
import CloutQuery.Text.Natural
import CloutQuery.Text.Character

namespace CloutQuery

open Text

/-- A TOSCA version, `<major>.<minor>[.<fix>[.<qualifier>[-<build>]]]`. -/
structure Version where
  major : Nat
  minor : Nat
  fix : Nat
  qualifier : String
  build : Nat
deriving DecidableEq

namespace Version

def isQualifierChar (c : Char) : Bool := isAlphanumeric c || c = '_'

def qualified? (cs : List Char) : Option (String × Nat) := do
  let (qualifier, build) := cutAt '-' cs
  let build ← build.elim (some 0) natural64?
  if qualifier.all isQualifierChar then some (String.ofList qualifier, build) else none

def ofChars? (cs : List Char) : Option Version := do
  let (major, rest) := cutAt '.' cs
  let major ← natural64? major
  let (minor, rest) := cutAt '.' (← rest)
  let minor ← natural64? minor
  match rest with
  | none => some ⟨major, minor, 0, "", 0⟩
  | some rest =>
    let (fix, rest) := cutAt '.' rest
    let fix ← natural64? fix
    let (qualifier, build) ← rest.elim (some ("", 0)) qualified?
    some ⟨major, minor, fix, qualifier, build⟩

def parse (text : String) : Option Version := ofChars? text.toList

/-- A version in fields; fix, qualifier and build may be left out. -/
def ofMembers? (members : Payload) : Option Version := do
  let field (name : String) : Option Nat :=
    match members.get? name with
    | some (.number n) => n.toNat?
    | _ => none
  let major ← field "major"
  let minor ← field "minor"
  let qualifier := ((members.get? "qualifier").bind Value.text?).getD ""
  some ⟨major, minor, (field "fix").getD 0, qualifier, (field "build").getD 0⟩

/-- Reads a text, or an object with a version as its `$string` or, without that, in fields. -/
def ofValue? : Value → Option Version
  | .text s => parse s
  | .object members =>
    match members.get? "$string" with
    | some (.text s) => parse s
    | _ => ofMembers? members
  | _ => none

def compare (v w : Version) : Ordering :=
  (compareOfLessAndEq v.major w.major).then <|
  (compareOfLessAndEq v.minor w.minor).then <|
  (compareOfLessAndEq v.fix w.fix).then <|
  (compareOfLessAndEq v.qualifier w.qualifier).then <|
  compareOfLessAndEq v.build w.build

end Version

end CloutQuery
