import CloutQuery.Graph.Document

namespace CloutQuery.Graph

open Json

def historyOf (metadata : Payload) : Except GraphError (List HistoryEntry) :=
  match metadata.get? "history" with
  | none => .ok []
  | some v =>
    match (Decoder.list HistoryEntry.decoder).ofValue v with
    | some entries => .ok entries
    | none => .error (.unreadable .mismatched)

/-- A vertex of which the edges are still to be added. -/
structure Pending where
  id : VertexId
  key : String
  edges : List EdgeDocument

def addVertexDocuments (g : Graph) :
    List (String × VertexDocument) → Except GraphError (List Pending × Graph)
  | [] => .ok ([], g)
  | (key, v) :: rest => do
    let (id, g) ← g.addVertex key v.metadata v.properties
    let (pending, g) ← g.addVertexDocuments rest
    .ok (⟨id, key, v.edges⟩ :: pending, g)

def addEdgeDocument (origin : VertexId) (key : String) (g : Graph) (e : EdgeDocument) :
    Except GraphError Graph :=
  match g.vertexByKey? e.target with
  | none => .error (.danglingTarget key e.target)
  | some target => (g.addEdge origin target.id e.metadata e.properties).map Prod.snd

def addPendingEdges (g : Graph) (p : Pending) : Except GraphError Graph :=
  p.edges.foldlM (addEdgeDocument p.id p.key) g

/-- The history is read first, then all vertices are added in key order, then the edges of each, so that
an edge may name a later vertex. -/
def ofDocument (d : CloutDocument) : Except GraphError Graph := do
  let history ← historyOf d.metadata
  let start : Graph := { empty d.version with
    metadata := d.metadata.erase "history"
    properties := d.properties
    history }
  let (pending, placed) ← start.addVertexDocuments d.vertices.entries
  pending.foldlM addPendingEdges placed

def ofText (text : String) : Except GraphError Graph :=
  match CloutDocument.decoder.parse text with
  | .ok d => ofDocument d
  | .error fault => .error (.unreadable fault)

def ofValue (v : Value) : Except GraphError Graph :=
  match CloutDocument.decoder.ofValue v with
  | some d => ofDocument d
  | none => .error (.unreadable .mismatched)

end CloutQuery.Graph
