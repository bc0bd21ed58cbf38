import CloutQuery.Graph.Load
import CloutQuery.Graph.Output

namespace CloutQuery

inductive Change where
  | addVertex (key : String) (metadata properties : Payload)
  | addEdge (origin target : VertexId) (metadata properties : Payload)
  | setOutput (name text : String)
  | appendHistory (entry : HistoryEntry)

inductive Outcome where
  | vertex (id : VertexId)
  | edge (id : EdgeId)
  | done
  | refused (error : GraphError)
  /-- There is no such output, or the text does not suit its type. -/
  | notAssigned

namespace Graph

def Edit.outcome {α : Type} (edit : Edit α) (ofAnswer : α → Outcome) : StateM Graph Outcome := do
  match ← edit.run with
  | .ok x => return ofAnswer x
  | .error e => return .refused e

def assignOutput (name text : String) : StateM Graph Outcome := do
  match (← get).setOutput? name text with
  | some g =>
    set g
    return .done
  | none => return .notAssigned

def perform : Change → StateM Graph Outcome
  | .addVertex key metadata properties => (insertVertex key metadata properties).outcome .vertex
  | .addEdge origin target metadata properties =>
    (insertEdge origin target metadata properties).outcome .edge
  | .setOutput name text => assignOutput name text
  | .appendHistory entry => do
    modify (·.appendHistory entry)
    return .done

/-- The graph after a change, be it refused or not. -/
def apply (g : Graph) (c : Change) : Graph := ((perform c).run g).2

def run (g : Graph) (changes : List Change) : Graph := changes.foldl apply g

inductive Reachable : Graph → Prop
  | new (version : String) : Reachable (empty version)
  | loaded {d : CloutDocument} {g : Graph} : ofDocument d = .ok g → Reachable g
  | change {g : Graph} (c : Change) : Reachable g → Reachable (g.apply c)

end Graph

end CloutQuery
