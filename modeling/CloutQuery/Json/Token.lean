import CloutQuery.Json.Numeral
import CloutQuery.Json.StringLiteral

namespace CloutQuery.Json

structure Lexeme (α : Type) where
  value : Except Fault α
  skipped : Except Fault Unit

/-- A token keeps what is wrong with it, so that a fault counts only if the reader comes that far. Numbers
and strings keep what comes of reading them and what comes of skipping them, which looks at less. -/
inductive Token where
  | openArray
  | closeArray
  | openObject
  | closeObject
  | comma
  | colon
  | null
  | boolean (flag : Bool)
  | number (lexeme : Lexeme Number)
  | string (lexeme : Lexeme String)
  /-- Begins no token, or is a word cut short or misspelt. -/
  | broken (fault : Fault)

namespace Token

def isBlank (c : Char) : Bool := c = ' ' || c = '\n' || c = '\t' || c = '\r'

def word (expected cs : List Char) : Except Fault (Remainder cs) :=
  match expected, cs with
  | [], cs => .ok (Remainder.all cs)
  | _ :: _, [] => .error .truncated
  | e :: es, c :: rest => if e = c then (word es rest).map (·.widen (by simp)) else .error .malformed

def punctuation? : Char → Option Token
  | '[' => some .openArray
  | ']' => some .closeArray
  | '\x7b' => some .openObject
  | '\x7d' => some .closeObject
  | ',' => some .comma
  | ':' => some .colon
  | _ => none

def word? : Char → Option (Token × List Char)
  | 'n' => some (.null, ['u', 'l', 'l'])
  | 't' => some (.boolean true, ['r', 'u', 'e'])
  | 'f' => some (.boolean false, ['a', 'l', 's', 'e'])
  | _ => none

def ofNumeral (n : Numeral) : Token :=
  match n.toNumber? with
  | some x => .number ⟨.ok x, .ok ()⟩
  | none => .number ⟨.error .malformed, .ok ()⟩

/-- The token that begins with `c`. Nothing is left to scan where it cannot even be skipped. -/
def next (c : Char) (rest : List Char) : Token × Option (Rest (c :: rest)) :=
  match punctuation? c, word? c with
  | some token, _ => (token, some (Rest.tail c rest))
  | none, some (token, expected) =>
    match word expected rest with
    | .error f => (.broken f, none)
    | .ok r => (token, some ((Rest.tail c rest).after r))
  | none, none =>
    if c = '"' then
      let value := (StringLiteral.read rest).map String.ofList
      match StringLiteral.skip rest with
      | .error f => (.string ⟨value, .error f⟩, none)
      | .ok r => (.string ⟨value, .ok ()⟩, some (r.cons c))
    else if c = '-' ∨ c.isDigit then
      match Numeral.read (c :: rest) with
      | .error f => (.number ⟨.error f, .error .malformed⟩, none)
      | .ok (n, r) => (ofNumeral n, some r)
    else (.broken .malformed, none)

def scan (cs : List Char) : List Token :=
  match cs with
  | [] => []
  | c :: rest =>
    if isBlank c then scan rest
    else
      match next c rest with
      | (token, none) => [token]
      | (token, some r) => token :: scan r.1
termination_by cs.length
decreasing_by
  · simp
  · exact r.2

end Token

end CloutQuery.Json
