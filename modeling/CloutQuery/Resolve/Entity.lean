import CloutQuery.Resolve.Basic

namespace CloutQuery.Resolver

variable (r : Resolver)

def isKind (e : Edge) (kind : ElementKind) : Bool := r.classifier.hasKind e.metadata kind

def hasHostRole (e : Edge) : Bool :=
  ((e.properties.get? "types").bind Value.object?).any fun types ↦
    types.values.any fun definition ↦
      (((definition.get? "metadata").bind (·.get? "role")).bind Value.text?) = some r.config.hostRole

def hostThrough? (e : Edge) : Option Vertex :=
  if r.isKind e .relationship && r.hasHostRole e then r.graph.target? e else none

/-- The target of the first hosting relationship; the host's own host plays no part. -/
def hostOf (v : Vertex) : Except ResolveError Vertex :=
  match (r.graph.edgesOut v).findSome? r.hostThrough? with
  | some host => .ok host
  | none =>
    .error <| .notFound <| .host <|
      if r.classifier.isNodeTemplate v then some (v.name?.getD "") else none

def resolveHost (id : VertexId) : Except ResolveError Vertex :=
  match r.graph.vertex? id with
  | some v => r.hostOf v
  | none => .error (.notFound (.vertex id))

def contextVertex (place : Option VertexId) (entity : EntityRef) :
    Except ResolveError (Option Vertex) :=
  match place with
  | some id => .ok (r.graph.vertex? id)
  | none => .error (.context entity.text)

def isTemplateNamed (name : String) (v : Vertex) : Bool :=
  r.classifier.isNodeTemplate v && v.name? = some name

/-- The vertex that a reference points at, be it a node template or not. -/
def candidate (context : CallContext) (entity : EntityRef) : Except ResolveError (Option Vertex) :=
  match entity with
  | .site => r.contextVertex context.site entity
  | .source => r.contextVertex context.source entity
  | .target => r.contextVertex context.target entity
  | .host =>
    (r.contextVertex context.site entity).bind fun
      | some site => (r.hostOf site).map some
      | none => .ok none
  | .named name => .ok (r.graph.vertices.find? (r.isTemplateNamed name))

def resolveEntity (context : CallContext) (entity : EntityRef) : Except ResolveError Vertex :=
  (r.candidate context entity).bind fun found ↦
    match found.filter r.classifier.isNodeTemplate with
    | some v => .ok v
    | none => .error (.notFound (.nodeTemplate entity.text))

def resolveNamedEntity (context : CallContext) (name : String) : Except ResolveError Vertex :=
  r.resolveEntity context (EntityRef.parse name)

end CloutQuery.Resolver
