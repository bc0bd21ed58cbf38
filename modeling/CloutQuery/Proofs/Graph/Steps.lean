import CloutQuery.Graph.Change
import CloutQuery.Proofs.Table

namespace CloutQuery.Graph

variable {g g' : Graph}

def withVertex (g : Graph) (key : String) (metadata properties : Payload) : Graph :=
  { g with
    keys := g.keys.insert key ⟨g.vertices.size⟩
    vertices := g.vertices.push ⟨⟨g.vertices.size⟩, key, metadata, properties, []⟩ }

def withEdge (g : Graph) (origin target : VertexId) (metadata properties : Payload) : Graph :=
  { g with
    vertices := g.vertices.modify origin.index (Vertex.addEdge ⟨g.edges.size⟩)
    edges := g.edges.push ⟨⟨g.edges.size⟩, origin, target, metadata, properties⟩ }

theorem insertVertex_perform (g : Graph) (key : String) (metadata properties : Payload) :
    (insertVertex key metadata properties).perform g =
      if g.keys.contains key then (.error (.duplicateVertex key), g)
      else (.ok ⟨g.vertices.size⟩, g.withVertex key metadata properties) := by
  -- reading the graph first is no step of its own
  change (if g.keys.contains key then throw (.duplicateVertex key) else _ : Edit VertexId).perform g = _
  split_ifs <;> rfl

theorem insertEdge_perform (g : Graph) (origin target : VertexId) (metadata properties : Payload) :
    (insertEdge origin target metadata properties).perform g =
      if g.vertices.size ≤ target.index then (.error (.unknownVertex target), g)
      else if g.vertices.size ≤ origin.index then (.error (.unknownVertex origin), g)
      else (.ok ⟨g.edges.size⟩, g.withEdge origin target metadata properties) := by
  change (if g.vertices.size ≤ target.index then throw (.unknownVertex target) else _ :
    Edit EdgeId).perform g = _
  by_cases ht : g.vertices.size ≤ target.index
  · rw [if_pos ht, if_pos ht]
    rfl
  · rw [if_neg ht, if_neg ht]
    change (if g.vertices.size ≤ origin.index then throw (.unknownVertex origin) else _ :
      Edit EdgeId).perform g = _
    split_ifs <;> rfl

theorem addVertex_eq (g : Graph) (key : String) (metadata properties : Payload) :
    g.addVertex key metadata properties =
      if g.keys.contains key then .error (.duplicateVertex key)
      else .ok (⟨g.vertices.size⟩, g.withVertex key metadata properties) := by
  unfold addVertex Edit.result
  rw [insertVertex_perform]
  split_ifs <;> rfl

theorem addEdge_eq (g : Graph) (origin target : VertexId) (metadata properties : Payload) :
    g.addEdge origin target metadata properties =
      if g.vertices.size ≤ target.index then .error (.unknownVertex target)
      else if g.vertices.size ≤ origin.index then .error (.unknownVertex origin)
      else .ok (⟨g.edges.size⟩, g.withEdge origin target metadata properties) := by
  unfold addEdge Edit.result
  rw [insertEdge_perform]
  split_ifs <;> rfl

theorem outcome_run {α : Type} (edit : Edit α) (ofAnswer : α → Outcome) (g : Graph) :
    (edit.outcome ofAnswer).run g =
      (match (edit.perform g).1 with
        | .ok x => ofAnswer x
        | .error e => .refused e, (edit.perform g).2) := by
  change ((match (edit.perform g).1 with
    | .ok x => pure (ofAnswer x)
    | .error e => pure (.refused e) : StateM Graph Outcome)).run (edit.perform g).2 = _
  cases (edit.perform g).1 <;> rfl

theorem assignOutput_run (g : Graph) (name text : String) :
    (assignOutput name text).run g =
      match g.setOutput? name text with
      | some g' => (.done, g')
      | none => (.notAssigned, g) := by
  change ((match g.setOutput? name text with
    | some g' => do
      set g'
      return .done
    | none => return .notAssigned : StateM Graph Outcome)).run g = _
  cases g.setOutput? name text <;> rfl

theorem apply_addVertex (g : Graph) (key : String) (metadata properties : Payload) :
    g.apply (.addVertex key metadata properties) =
      if g.keys.contains key then g else g.withVertex key metadata properties := by
  rw [apply, perform, outcome_run, insertVertex_perform]
  split_ifs <;> rfl

theorem apply_addEdge (g : Graph) (origin target : VertexId) (metadata properties : Payload) :
    g.apply (.addEdge origin target metadata properties) =
      if g.vertices.size ≤ target.index then g
      else if g.vertices.size ≤ origin.index then g
      else g.withEdge origin target metadata properties := by
  rw [apply, perform, outcome_run, insertEdge_perform]
  split_ifs <;> rfl

/-- The ways in which a change can end, each with what it takes and with the graph afterwards. -/
inductive Move (g : Graph) : Change → Outcome → Graph → Prop
  | addVertex {key : String} {metadata properties : Payload} (fresh : g.keys.get? key = none) :
      Move g (.addVertex key metadata properties) (.vertex ⟨g.vertices.size⟩)
        (g.withVertex key metadata properties)
  | duplicateVertex {key : String} {metadata properties : Payload} {id : VertexId}
      (known : g.keys.get? key = some id) :
      Move g (.addVertex key metadata properties) (.refused (.duplicateVertex key)) g
  | addEdge {origin target : VertexId} {metadata properties : Payload}
      (ho : origin.index < g.vertices.size) (ht : target.index < g.vertices.size) :
      Move g (.addEdge origin target metadata properties) (.edge ⟨g.edges.size⟩)
        (g.withEdge origin target metadata properties)
  | unknownTarget {origin target : VertexId} {metadata properties : Payload}
      (ht : g.vertices.size ≤ target.index) :
      Move g (.addEdge origin target metadata properties) (.refused (.unknownVertex target)) g
  | unknownOrigin {origin target : VertexId} {metadata properties : Payload}
      (ht : target.index < g.vertices.size) (ho : g.vertices.size ≤ origin.index) :
      Move g (.addEdge origin target metadata properties) (.refused (.unknownVertex origin)) g
  | setOutput {name text : String} {g' : Graph} (set : g.setOutput? name text = some g') :
      Move g (.setOutput name text) .done g'
  | notAssigned {name text : String} (unset : g.setOutput? name text = none) :
      Move g (.setOutput name text) .notAssigned g
  | appendHistory {entry : HistoryEntry} :
      Move g (.appendHistory entry) .done (g.appendHistory entry)

theorem move_perform (g : Graph) (c : Change) :
    Move g c ((perform c).run g).1 ((perform c).run g).2 := by
  cases c with
  | addVertex key metadata properties =>
    rw [perform, outcome_run, insertVertex_perform]
    by_cases h : g.keys.contains key
    · obtain ⟨id, hid⟩ := (Table.contains_iff _ _).1 h
      rw [if_pos h]
      exact .duplicateVertex hid
    · rw [if_neg h]
      exact .addVertex (by simpa [Table.contains] using h)
  | addEdge origin target metadata properties =>
    rw [perform, outcome_run, insertEdge_perform]
    by_cases ht : g.vertices.size ≤ target.index
    · rw [if_pos ht]
      exact .unknownTarget ht
    · by_cases ho : g.vertices.size ≤ origin.index
      · rw [if_neg ht, if_pos ho]
        exact .unknownOrigin (not_le.1 ht) ho
      · rw [if_neg ht, if_neg ho]
        exact .addEdge (not_le.1 ho) (not_le.1 ht)
  | setOutput name text =>
    rw [perform, assignOutput_run]
    cases h : g.setOutput? name text with
    | some g' => exact .setOutput h
    | none => exact .notAssigned h
  | appendHistory entry => exact .appendHistory

theorem setOutput?_eq_some {name text : String} (h : g.setOutput? name text = some g') :
    ∃ properties, g' = { g with properties } := by
  unfold setOutput? at h
  simp only [Option.bind_eq_bind, Option.bind_eq_some_iff, Option.some.injEq] at h
  obtain ⟨_, _, _, _, _, _, _, _, _, _, _, _, _, _, rfl⟩ := h
  exact ⟨_, rfl⟩

theorem apply_setOutput (g : Graph) (name text : String) :
    ∃ properties, g.apply (.setOutput name text) = { g with properties } := by
  rw [apply, perform, assignOutput_run]
  cases h : g.setOutput? name text with
  | none => exact ⟨g.properties, rfl⟩
  | some g' => exact setOutput?_eq_some h

theorem Move.unchanged {c : Change} {o : Outcome} (h : Move g c o g')
    (ho : (∃ e, o = .refused e) ∨ o = .notAssigned) : g' = g := by
  cases h with
  | duplicateVertex | unknownTarget | unknownOrigin | notAssigned => rfl
  | addVertex | addEdge | setOutput | appendHistory => simp at ho

end CloutQuery.Graph
