import CloutQuery.Element.Kind
import CloutQuery.Graph.Basic

namespace CloutQuery

/-- A compiler marks each element in its metadata with an object that holds a version and a kind; what
lacks the mark, or has another version, is no element of the model. -/
structure Classifier where
  /-- The member of the metadata that holds the mark. -/
  marker : String
  version : String
deriving DecidableEq

namespace Classifier

def standard : Classifier := ⟨"puccini", "1.0"⟩

/-- The kind as marked, perhaps of no known name; a mark without a kind counts as the empty one. -/
def markedKind? (c : Classifier) (metadata : Payload) : Option String := do
  let mark ← (← metadata.get? c.marker).object?
  let version ← (← mark.get? "version").text?
  if version = c.version then some (((mark.get? "kind").bind Value.text?).getD "") else none

def isModelElement (c : Classifier) (metadata : Payload) : Bool := (c.markedKind? metadata).isSome

def hasKind (c : Classifier) (metadata : Payload) (kind : ElementKind) : Bool :=
  c.markedKind? metadata = some kind.name

def elementKind? (c : Classifier) (metadata : Payload) : Option ElementKind :=
  (c.markedKind? metadata).bind ElementKind.ofName?

def isNodeTemplate (c : Classifier) (v : Vertex) : Bool := c.hasKind v.metadata .nodeTemplate

def hasType (v : Vertex) (typeName : String) : Bool :=
  (((v.properties.get? "types").bind Value.object?).any (·.contains typeName))

def isNodeTemplateOf (c : Classifier) (v : Vertex) (typeName : Option String) : Bool :=
  c.isNodeTemplate v && typeName.all (hasType v)

end Classifier

end CloutQuery
