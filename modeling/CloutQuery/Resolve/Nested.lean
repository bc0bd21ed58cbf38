import CloutQuery.Resolve.Entity
import CloutQuery.Resolve.Path

namespace CloutQuery

open Text (quoted)

inductive Owner where
  | node
  | capability (name : String)
  | relationship (name : String)

def Owner.noun (singular : String) : Owner → String
  | .node => singular
  | .capability name => "capability " ++ quoted name ++ " " ++ singular
  | .relationship name => "relationship " ++ quoted name ++ " " ++ singular

structure Selection where
  owner : Owner
  mapping : Option Value
  path : List Segment

namespace Resolver

variable (r : Resolver)

def relationshipsNamed (v : Vertex) (name : String) : List Edge :=
  (r.graph.edgesOut v).filter fun e ↦ r.isKind e .relationship && e.name? = some name

def capability? (v : Vertex) (name : String) : Option Value :=
  ((v.properties.get? "capabilities").bind Value.object?).bind (·.get? name)

/-- A capability comes before the relationships of its name, and of these an index picks one. If neither
is there the path already begins with the key. -/
def selectMember? (v : Vertex) (plural : String) : List Segment → Option Selection
  | .key name :: rest =>
    match capability? v name with
    | some capability => some ⟨.capability name, capability.get? plural, rest⟩
    | none =>
      match rest with
      | .index place :: rest =>
        (r.relationshipsNamed v name)[place]?.map fun e ↦
          ⟨.relationship name, e.properties.get? plural, rest⟩
      | _ => none
  | _ => none

def select (v : Vertex) (plural : String) (path : List Segment) : Selection :=
  (r.selectMember? v plural path).getD ⟨.node, v.properties.get? plural, path⟩

/-- Follows a path from a value; `done` is what has been followed of it before. -/
def follow (noun node : String) (done : List Segment) (v : Value) :
    List Segment → Except ResolveError Value
  | [] => .ok v
  | s :: rest =>
    match s.descend? v with
    | some w => follow noun node (done ++ [s]) w rest
    | none => .error (.notFound (.nested noun (Segment.dotted (done ++ [s])) node))

/-- Reads the selected value, has the host coerce it, and follows the rest of the path in what the
host returns. `path` is the whole path, for the message. -/
def readSelection (noun node : String) (path : List Segment) (s : Selection) :
    Except ResolveError Value :=
  match s.path with
  | [] => .error (.notFound (.valueName noun node (Segment.dotted path)))
  | key :: rest =>
    match s.mapping.bind key.descend? with
    | none => .error (.notFound (.value noun key.text node))
    | some found =>
      match r.host.coerce found with
      | .error e => .error (.host e)
      | .ok coerced => follow noun node [key] coerced rest

/-- `singular` names the value in messages, and `plural` is the mapping it is read from. -/
def nestedValue (context : CallContext) (singular plural : String) (path : List Segment) :
    Except ResolveError Value :=
  match path with
  | entity :: second :: rest =>
    (r.resolveNamedEntity context entity.text).bind fun v ↦
      let s := r.select v plural (second :: rest)
      r.readSelection (s.owner.noun singular) (v.name?.getD "") path s
  | _ => .error .tooFewSegments

def propertyAt (context : CallContext) (path : List Segment) : Except ResolveError Value :=
  r.nestedValue context "property" "properties" path

def attributeAt (context : CallContext) (path : List Segment) : Except ResolveError Value :=
  r.nestedValue context "attribute" "attributes" path

end Resolver

end CloutQuery
