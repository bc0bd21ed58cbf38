import CloutQuery.Json.Token
import CloutQuery.Value.Basic

namespace CloutQuery.Json

/-- The first fault that a reader meets is its answer, so what stands behind it is never looked at. -/
abbrev Reader (α : Type) := (ts : List Token) → Except Fault (α × Rest ts)

namespace Reader

variable {α σ : Type}

def moreItems (one : Reader α) (ts : List Token) : Except Fault (List α × Rest ts) :=
  match one ts with
  | .error f => .error f
  | .ok (x, ⟨.comma :: rest, h⟩) =>
    match moreItems one rest with
    | .error f => .error f
    | .ok (xs, r) => .ok (x :: xs, r.past h)
  | .ok (x, ⟨.closeArray :: rest, h⟩) => .ok ([x], Rest.behind h)
  | .ok (_, ⟨[], _⟩) => .error .truncated
  | .ok _ => .error .malformed
termination_by ts.length
decreasing_by simp at h; omega

def items (one : Reader α) : Reader (List α)
  | .closeArray :: rest => .ok ([], Rest.tail _ rest)
  | ts => moreItems one ts

/-- Reads a member and all that follow it, up to the end of the object. What a key means is decided
before its colon is looked at. -/
def moreMembers (member : σ → Lexeme String → Except Fault (Reader σ)) (s : σ) (ts : List Token) :
    Except Fault (σ × Rest ts) :=
  match ts with
  | .string key :: afterKey =>
    match member s key, afterKey with
    | .error f, _ => .error f
    | .ok read, .colon :: afterColon =>
      match read afterColon with
      | .error f => .error f
      | .ok (s', ⟨.comma :: rest, h⟩) =>
        match moreMembers member s' rest with
        | .error f => .error f
        | .ok (s'', r) => .ok (s'', ((r.past h).cons _).cons _)
      | .ok (s', ⟨.closeObject :: rest, h⟩) => .ok (s', ((Rest.behind h).cons _).cons _)
      | .ok (_, ⟨[], _⟩) => .error .truncated
      | .ok _ => .error .malformed
    | .ok _, [] => .error .truncated
    | .ok _, _ => .error .malformed
  | [] => .error .truncated
  | _ => .error .malformed
termination_by ts.length
decreasing_by simp at h ⊢; omega

def members (member : σ → Lexeme String → Except Fault (Reader σ)) (s : σ) : Reader σ
  | .closeObject :: rest => .ok (s, Rest.tail _ rest)
  | ts => moreMembers member s ts

/-- Reads into a table; of members with one key the last counts. -/
def table (one : Reader α) : Reader (Table α) :=
  members (fun t key ↦ key.value.map fun k ts ↦ (one ts).map fun (x, r) ↦ (t.insert k x, r)) ∅

/-- What is wrong where a value of another kind should stand. The value is read first, unless it is
an array or an object. -/
def unexpected : List Token → Fault
  | [] => .truncated
  | .openArray :: _ | .openObject :: _ | .null :: _ | .boolean _ :: _ => .mismatched
  | .number ⟨.ok _, _⟩ :: _ | .string ⟨.ok _, _⟩ :: _ => .mismatched
  | .number ⟨.error f, _⟩ :: _ | .string ⟨.error f, _⟩ :: _ => f
  | .broken f :: _ => f
  | .closeArray :: _ | .closeObject :: _ | .comma :: _ | .colon :: _ => .malformed

def text : Reader String
  | .string ⟨.ok s, _⟩ :: rest => .ok (s, Rest.tail _ rest)
  | ts => .error (unexpected ts)

def value (room : Nat) : Reader Value
  | .openArray :: rest =>
    match room with
    | 0 => .error .malformed
    | room + 1 => (items (value room) rest).map fun (vs, r) ↦ (.array vs, r.cons _)
  | .openObject :: rest =>
    match room with
    | 0 => .error .malformed
    | room + 1 => (table (value room) rest).map fun (t, r) ↦ (.object t, r.cons _)
  | .null :: rest => .ok (.null, Rest.tail _ rest)
  | .boolean b :: rest => .ok (.boolean b, Rest.tail _ rest)
  | .number ⟨.ok n, _⟩ :: rest => .ok (.number n, Rest.tail _ rest)
  | .string ⟨.ok s, _⟩ :: rest => .ok (.text s, Rest.tail _ rest)
  | ts => .error (unexpected ts)

def skipWithin (room : Nat) : Reader Unit
  | .openArray :: rest =>
    match room with
    | 0 => .error .malformed
    | room + 1 => (items (skipWithin room) rest).map fun (_, r) ↦ ((), r.cons _)
  | .openObject :: rest =>
    match room with
    | 0 => .error .malformed
    | room + 1 =>
      (members (fun _ key ↦ key.skipped.map fun _ ↦ skipWithin room) () rest).map fun (_, r) ↦
        ((), r.cons _)
  | .null :: rest | .boolean _ :: rest => .ok ((), Rest.tail _ rest)
  | .number ⟨_, .ok _⟩ :: rest | .string ⟨_, .ok _⟩ :: rest => .ok ((), Rest.tail _ rest)
  | .number ⟨_, .error f⟩ :: _ | .string ⟨_, .error f⟩ :: _ => .error f
  | ts => .error (unexpected ts)

/-- Passes over a value of any depth: there are no more brackets than tokens. -/
def skip : Reader Unit := fun ts ↦ skipWithin ts.length ts

def depthLimit : Nat := 127

def run (read : Reader α) (text : String) : Except Fault α :=
  match read (Token.scan text.toList) with
  | .error f => .error f
  | .ok (x, ⟨[], _⟩) => .ok x
  | .ok _ => .error .malformed

end Reader

def parse (text : String) : Except Fault Value := (Reader.value Reader.depthLimit).run text

end CloutQuery.Json
