import CloutQuery.Json.Reader

namespace CloutQuery.Json

/-- Reads a thing of one shape, either straight from the tokens of a text or from a value. Both ways skip
unknown members and let an array of the fields, in order, stand for a record. -/
structure Decoder (α : Type) where
  /-- Reads from a text, with room for so many brackets, one inside another. -/
  ofTokens : Nat → Reader α
  ofValue : Value → Option α

structure RecordField (σ : Type) where
  name : String
  isSet : σ → Bool
  ofTokens : σ → Nat → Reader σ
  ofValue : σ → Value → Option σ

namespace Decoder

variable {α σ : Type}

def text : Decoder String := ⟨fun _ ↦ Reader.text, Value.text?⟩

def refine {β : Type} (d : Decoder α) (f : α → Option β) : Decoder β where
  ofTokens room ts := (d.ofTokens room ts).bind fun (x, r) ↦
    match f x with
    | some y => .ok (y, r)
    | none => .error .mismatched
  ofValue v := (d.ofValue v).bind f

def within (room : Nat) (opening : Token) (rest : List Token) (read : Nat → Reader α) :
    Except Fault (α × Rest (opening :: rest)) :=
  match room with
  | 0 => .error .malformed
  | room + 1 => (read room rest).map fun (x, r) ↦ (x, r.cons opening)

def list (d : Decoder α) : Decoder (List α) where
  ofTokens room
    | .openArray :: rest => within room _ rest fun room ↦ Reader.items (d.ofTokens room)
    | ts => .error (Reader.unexpected ts)
  ofValue
    | .array items => items.mapM d.ofValue
    | _ => none

def table (d : Decoder α) : Decoder (Table α) where
  ofTokens room
    | .openObject :: rest => within room _ rest fun room ↦ Reader.table (d.ofTokens room)
    | ts => .error (Reader.unexpected ts)
  ofValue
    | .object ⟨entries⟩ => (entries.mapM fun e ↦ (d.ofValue e.2).map (e.1, ·)).map Table.ofList
    | _ => none

def payload : Decoder Payload where
  ofTokens := (table ⟨Reader.value, some⟩).ofTokens
  ofValue := Value.object?

/-- A field that `d` reads; `get` and `set` say where the state keeps it. -/
def field (name : String) (d : Decoder α) (get : σ → Option α) (set : σ → α → σ) : RecordField σ where
  name
  isSet s := (get s).isSome
  ofTokens s room ts := (d.ofTokens room ts).map fun (x, r) ↦ (set s x, r)
  ofValue s v := (d.ofValue v).map (set s)

/-- A member of a record in a text. One whose field is set already does not fit. -/
def member (fields : List (RecordField σ)) (room : Nat) (s : σ) (key : Lexeme String) :
    Except Fault (Reader σ) :=
  key.value.bind fun name ↦
    match fields.find? (·.name = name) with
    | none => .ok fun ts ↦ (Reader.skip ts).map fun (_, r) ↦ (s, r)
    | some f => if f.isSet s then .error .mismatched else .ok (f.ofTokens s room)

def morePositions (fields : List (RecordField σ)) (room : Nat) (s : σ) (ts : List Token) :
    Except Fault (σ × Rest ts) :=
  match fields with
  | [] => .error (match ts with | [] => .truncated | _ => .malformed)
  | f :: later =>
    match f.ofTokens s room ts with
    | .error fault => .error fault
    | .ok (s', ⟨.closeArray :: _, h⟩) => .ok (s', Rest.behind h)
    | .ok (s', ⟨.comma :: rest, h⟩) =>
      if later.isEmpty then .error .malformed
      else (morePositions later room s' rest).map fun (x, r) ↦ (x, r.past h)
    | .ok (_, ⟨[], _⟩) => .error .truncated
    | .ok _ => .error .malformed

def positions (fields : List (RecordField σ)) (room : Nat) (s : σ) : Reader σ
  | .closeArray :: rest => .ok (s, Rest.tail _ rest)
  | ts => morePositions fields room s ts

def memberOfValue (fields : List (RecordField σ)) (s : σ) (entry : String × Value) : Option σ :=
  match fields.find? (·.name = entry.1) with
  | none => some s
  | some f => f.ofValue s entry.2

def positionOfValue (s : σ) (entry : RecordField σ × Value) : Option σ := entry.1.ofValue s entry.2

def finished (finish : σ → Option α) {ts : List Token} (p : σ × Rest ts) :
    Except Fault (α × Rest ts) :=
  match finish p.1 with
  | some x => .ok (x, p.2)
  | none => .error .mismatched

def record (fields : List (RecordField σ)) (start : σ) (finish : σ → Option α) : Decoder α where
  ofTokens room
    | .openObject :: rest =>
      (within room _ rest fun room ↦ Reader.members (member fields room) start).bind (finished finish)
    | .openArray :: rest =>
      (within room _ rest fun room ↦ positions fields room start).bind (finished finish)
    | ts => .error (Reader.unexpected ts)
  ofValue
    | .object ⟨entries⟩ => (entries.foldlM (memberOfValue fields) start).bind finish
    | .array items =>
      if items.length ≤ fields.length then
        ((fields.zip items).foldlM positionOfValue start).bind finish
      else none
    | _ => none

def parse (d : Decoder α) (text : String) : Except Fault α :=
  (d.ofTokens Reader.depthLimit).run text

end Decoder

end CloutQuery.Json
