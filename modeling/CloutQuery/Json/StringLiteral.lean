import CloutQuery.Json.Fault

namespace CloutQuery.Json.StringLiteral

def hexDigit? (c : Char) : Option Nat :=
  if c.isDigit then some (c.toNat - '0'.toNat)
  else if 'a' ≤ c ∧ c ≤ 'f' then some (c.toNat - 'a'.toNat + 10)
  else if 'A' ≤ c ∧ c ≤ 'F' then some (c.toNat - 'A'.toNat + 10)
  else none

/-- Four bytes have to follow before they are looked at. -/
def shortEscape (cs : List Char) : Fault :=
  if (String.ofList cs).utf8ByteSize < 4 then .truncated else .malformed

def hexQuad (cs : List Char) : Except Fault (Nat × Rest cs) :=
  match cs with
  | a :: b :: c :: d :: rest =>
    match hexDigit? a, hexDigit? b, hexDigit? c, hexDigit? d with
    | some a', some b', some c', some d' =>
      .ok (((a' * 16 + b') * 16 + c') * 16 + d', ⟨rest, by simp; omega⟩)
    | _, _, _, _ => .error .malformed
  | cs => .error (shortEscape cs)

def isLeadSurrogate (n : Nat) : Bool := 0xd800 ≤ n && n < 0xdc00

def isTrailSurrogate (n : Nat) : Bool := 0xdc00 ≤ n && n < 0xe000

/-- The second half of a surrogate pair, as an escape of its own. -/
def trailSurrogate (lead : Nat) (cs : List Char) : Except Fault (Char × Rest cs) :=
  match cs with
  | [] => .error .truncated
  | '\\' :: [] => .error .truncated
  | '\\' :: 'u' :: rest =>
    match hexQuad rest with
    | .error f => .error f
    | .ok (trail, r) =>
      if isTrailSurrogate trail then
        .ok (Char.ofNat (0x10000 + (lead - 0xd800) * 0x400 + (trail - 0xdc00)), (r.cons 'u').cons '\\')
      else .error .malformed
  | _ => .error .malformed

def simpleEscape? : Char → Option Char
  | '"' => some '"'
  | '\\' => some '\\'
  | '/' => some '/'
  | 'b' => some '\x08'
  | 'f' => some '\x0c'
  | 'n' => some '\n'
  | 'r' => some '\r'
  | 't' => some '\t'
  | _ => none

def readEscape (cs : List Char) : Except Fault (Char × Rest cs) :=
  match cs with
  | [] => .error .truncated
  | 'u' :: rest =>
    match hexQuad rest with
    | .error f => .error f
    | .ok (n, r) =>
      if isTrailSurrogate n then .error .malformed
      else if isLeadSurrogate n then
        match trailSurrogate n r.1 with
        | .error f => .error f
        | .ok (c, r') => .ok (c, (r.after r'.weaken).cons 'u')
      else .ok (Char.ofNat n, r.cons 'u')
  | c :: rest =>
    match simpleEscape? c with
    | some d => .ok (d, Rest.tail c rest)
    | none => .error .malformed

def skipEscape (cs : List Char) : Except Fault (Rest cs) :=
  match cs with
  | [] => .error .truncated
  | 'u' :: rest => (hexQuad rest).map fun (_, r) ↦ r.cons 'u'
  | c :: rest => if (simpleEscape? c).isSome then .ok (Rest.tail c rest) else .error .malformed

def isControl (c : Char) : Bool := c.toNat < 0x20

def read (cs : List Char) : Except Fault (List Char) :=
  match cs with
  | [] => .error .truncated
  | '"' :: _ => .ok []
  | '\\' :: rest =>
    match readEscape rest with
    | .error f => .error f
    | .ok (c, r) => (read r.1).map (c :: ·)
  | c :: rest => if isControl c then .error .malformed else (read rest).map (c :: ·)
termination_by cs.length
decreasing_by
  · have := r.2; simp only [List.length_cons]; omega
  · simp

/-- Only finds the closing quote, and so accepts surrogate escapes that stand alone. -/
def skip (cs : List Char) : Except Fault (Rest cs) :=
  match cs with
  | [] => .error .truncated
  | '"' :: rest => .ok (Rest.tail '"' rest)
  | '\\' :: rest =>
    match skipEscape rest with
    | .error f => .error f
    | .ok r => (skip r.1).map fun r' ↦ (r.after r'.weaken).cons '\\'
  | c :: rest => if isControl c then .error .malformed else (skip rest).map (·.cons c)
termination_by cs.length
decreasing_by
  · have := r.2; simp only [List.length_cons]; omega
  · simp

end CloutQuery.Json.StringLiteral
