import CloutQuery.Value.Basic
import CloutQuery.Text.Natural

namespace CloutQuery

open Text

inductive Segment where
  | key (name : String)
  | index (place : Nat)
deriving DecidableEq

namespace Segment

/-- Digits alone are a place, if it is below 2^64. -/
def ofChars (cs : List Char) : Segment :=
  match digitsBelow64? cs with
  | some n => .index n
  | none => .key (String.ofList cs)

def parse (text : String) : Segment := ofChars text.toList

def parseDotted (text : String) : List Segment := (splitAt '.' text.toList).map ofChars

def key? : Segment → Option String
  | .key name => some name
  | .index _ => none

def chars : Segment → List Char
  | .key name => name.toList
  | .index place => natText place

def text (s : Segment) : String := String.ofList s.chars

def dotted (segments : List Segment) : String := String.ofList (joinWith '.' (segments.map chars))

def place? : Segment → Option Nat
  | .key name => natural64? name.toList
  | .index place => some place

def descend? (s : Segment) : Value → Option Value
  | .object members => members.get? s.text
  | .array items => s.place?.bind (items[·]?)
  | _ => none

end Segment

end CloutQuery
