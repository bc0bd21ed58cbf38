import CloutQuery.Value.Basic
import CloutQuery.Timestamp
import CloutQuery.Json.Fault
import CloutQuery.Text.Quoted

namespace CloutQuery

open Text (quoted)

/-- The place of a vertex in the order in which vertices were added, of any size: it is not cut off at
32 bits. -/
structure VertexId where
  index : Nat
deriving DecidableEq

def VertexId.render (id : VertexId) : String := "v" ++ toString id.index

/-- The place of an edge among all edges, as unbounded as that of a vertex. -/
structure EdgeId where
  index : Nat
deriving DecidableEq

def EdgeId.render (id : EdgeId) : String := "e" ++ toString id.index

def Payload.name? (properties : Payload) : Option String := (properties.get? "name").bind Value.text?

structure Vertex where
  id : VertexId
  key : String
  metadata : Payload
  properties : Payload
  edgesOut : List EdgeId

def Vertex.name? (v : Vertex) : Option String := Payload.name? v.properties

def Vertex.addEdge (id : EdgeId) (v : Vertex) : Vertex := { v with edgesOut := v.edgesOut ++ [id] }

structure Edge where
  id : EdgeId
  origin : VertexId
  target : VertexId
  metadata : Payload
  properties : Payload

def Edge.name? (e : Edge) : Option String := Payload.name? e.properties

/-- When a history entry was made: at a known time, or during this run. -/
inductive Stamp where
  | at (time : Timestamp)
  | now
deriving DecidableEq

structure HistoryEntry where
  stamp : Stamp
  description : String
deriving DecidableEq

inductive GraphError where
  /-- The document is not JSON, or not a clout. -/
  | unreadable (fault : Json.Fault)
  | noDocument
  | duplicateVertex (key : String)
  | unknownVertex (id : VertexId)
  | danglingTarget (vertex target : String)

def GraphError.message : GraphError → String
  | .unreadable _ => "invalid clout JSON"
  | .noDocument => "failed to read clout"
  | .duplicateVertex key => "duplicate vertex key " ++ quoted key
  | .unknownVertex id => "unknown vertex " ++ id.render
  | .danglingTarget vertex target =>
    "edge of vertex " ++ quoted vertex ++ " targets unknown vertex " ++ quoted target

/-- The compiled form of a service template. `keys` holds the place of each vertex under its key. -/
structure Graph where
  version : String
  metadata : Payload
  properties : Payload
  history : List HistoryEntry
  vertices : Array Vertex
  edges : Array Edge
  keys : Table VertexId

namespace Graph

def defaultVersion : String := "1.0"

def empty (version : String) : Graph := ⟨version, ∅, ∅, [], #[], #[], ∅⟩

instance : Inhabited Graph := ⟨empty defaultVersion⟩

def vertex? (g : Graph) (id : VertexId) : Option Vertex := g.vertices[id.index]?

def edge? (g : Graph) (id : EdgeId) : Option Edge := g.edges[id.index]?

def vertexByKey? (g : Graph) (key : String) : Option Vertex := (g.keys.get? key).bind g.vertex?

def edgesOut (g : Graph) (v : Vertex) : List Edge := v.edgesOut.filterMap g.edge?

def target? (g : Graph) (e : Edge) : Option Vertex := g.vertex? e.target

/-- A change that may be refused. What it has done before it is refused stays done. -/
abbrev Edit (α : Type) := ExceptT GraphError (StateM Graph) α

def Edit.perform {α : Type} (edit : Edit α) (g : Graph) : Except GraphError α × Graph :=
  StateT.run (ExceptT.run edit) g

def Edit.result {α : Type} (edit : Edit α) (g : Graph) : Except GraphError (α × Graph) :=
  (edit.perform g).1.map fun x ↦ (x, (edit.perform g).2)

def insertVertex (key : String) (metadata properties : Payload) : Edit VertexId := do
  if (← get).keys.contains key then throw (.duplicateVertex key)
  let id : VertexId := ⟨(← get).vertices.size⟩
  modify fun g ↦ { g with keys := g.keys.insert key id }
  modify fun g ↦ { g with vertices := g.vertices.push ⟨id, key, metadata, properties, []⟩ }
  return id

/-- The target is looked at before the origin. -/
def insertEdge (origin target : VertexId) (metadata properties : Payload) : Edit EdgeId := do
  if (← get).vertices.size ≤ target.index then throw (.unknownVertex target)
  let id : EdgeId := ⟨(← get).edges.size⟩
  if (← get).vertices.size ≤ origin.index then throw (.unknownVertex origin)
  modify fun g ↦ { g with vertices := g.vertices.modify origin.index (Vertex.addEdge id) }
  modify fun g ↦ { g with edges := g.edges.push ⟨id, origin, target, metadata, properties⟩ }
  return id

def addVertex (g : Graph) (key : String) (metadata properties : Payload) :
    Except GraphError (VertexId × Graph) := (insertVertex key metadata properties).result g

def addEdge (g : Graph) (origin target : VertexId) (metadata properties : Payload) :
    Except GraphError (EdgeId × Graph) := (insertEdge origin target metadata properties).result g

def appendHistory (g : Graph) (entry : HistoryEntry) : Graph :=
  { g with history := g.history ++ [entry] }

end Graph

end CloutQuery
