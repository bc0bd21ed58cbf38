import CloutQuery.Proofs.Except
import CloutQuery.Proofs.Graph.Steps

namespace CloutQuery.Graph

variable {g g' : Graph}

theorem mem_vertices_iff {v : Vertex} : v ∈ g.vertices ↔ ∃ id, g.vertex? id = some v := by
  rw [Array.mem_iff_getElem?]
  exact ⟨fun ⟨i, hi⟩ ↦ ⟨⟨i⟩, hi⟩, fun ⟨id, hid⟩ ↦ ⟨id.index, hid⟩⟩

theorem lt_of_vertex?_eq_some {id : VertexId} {v : Vertex} (h : g.vertex? id = some v) :
    id.index < g.vertices.size := (Array.getElem?_eq_some_iff.1 h).1

theorem vertex?_withVertex (g : Graph) (key : String) (metadata properties : Payload) (id : VertexId) :
    (g.withVertex key metadata properties).vertex? id =
      if id.index = g.vertices.size then some ⟨⟨g.vertices.size⟩, key, metadata, properties, []⟩
      else g.vertex? id := Array.getElem?_push

theorem vertex?_withEdge (g : Graph) (origin target : VertexId) (metadata properties : Payload)
    (id : VertexId) :
    (g.withEdge origin target metadata properties).vertex? id =
      if origin = id then (g.vertex? id).map (Vertex.addEdge ⟨g.edges.size⟩) else g.vertex? id := by
  unfold vertex? withEdge
  dsimp only
  rw [Array.getElem?_modify]
  by_cases h : origin = id
  · rw [if_pos h, if_pos (congrArg VertexId.index h)]
  · rw [if_neg h, if_neg fun hi ↦ h (by cases origin; cases id; simpa using hi)]

theorem edge?_withEdge (g : Graph) (origin target : VertexId) (metadata properties : Payload)
    (id : EdgeId) :
    (g.withEdge origin target metadata properties).edge? id =
      if id.index = g.edges.size then some ⟨⟨g.edges.size⟩, origin, target, metadata, properties⟩
      else g.edge? id := Array.getElem?_push

theorem size_withEdge (g : Graph) (origin target : VertexId) (metadata properties : Payload) :
    (g.withEdge origin target metadata properties).vertices.size = g.vertices.size :=
  Array.size_modify

/-- The edges that start at a vertex, oldest first. -/
def startingAt (g : Graph) (id : VertexId) : List Edge := g.edges.toList.filter (·.origin = id)

/-- The parts of a graph that say the same thing twice agree. -/
structure Coherent (g : Graph) : Prop where
  vertex_id {id : VertexId} {v : Vertex} : g.vertex? id = some v → v.id = id
  edge_id {id : EdgeId} {e : Edge} : g.edge? id = some e → e.id = id
  index_iff {key : String} {id : VertexId} :
    g.keys.get? key = some id ↔ ∃ v, g.vertex? id = some v ∧ v.key = key
  origin_lt {e : Edge} : e ∈ g.edges → e.origin.index < g.vertices.size
  target_lt {e : Edge} : e ∈ g.edges → e.target.index < g.vertices.size
  edgesOut {id : VertexId} {v : Vertex} :
    g.vertex? id = some v → v.edgesOut = (g.startingAt id).map (·.id)

theorem coherent_of_new (g : Graph) (hv : g.vertices = #[]) (he : g.edges = #[]) (hk : g.keys = ∅) :
    g.Coherent where
  vertex_id h := by simp [vertex?, hv] at h
  edge_id h := by simp [edge?, he] at h
  index_iff := by simp [vertex?, hv, hk]
  origin_lt h := by simp [he] at h
  target_lt h := by simp [he] at h
  edgesOut h := by simp [vertex?, hv] at h

namespace Coherent

theorem congr (h : g.Coherent) (hv : g'.vertices = g.vertices) (he : g'.edges = g.edges)
    (hk : g'.keys = g.keys) : g'.Coherent where
  vertex_id hid := h.vertex_id (by rwa [vertex?, hv] at hid)
  edge_id hid := h.edge_id (by rwa [edge?, he] at hid)
  index_iff := by
    simp only [vertex?, hv, hk]
    exact h.index_iff
  origin_lt hmem := by
    rw [hv]
    exact h.origin_lt (he ▸ hmem)
  target_lt hmem := by
    rw [hv]
    exact h.target_lt (he ▸ hmem)
  edgesOut hid := by
    rw [startingAt, he]
    exact h.edgesOut (by rwa [vertex?, hv] at hid)

theorem startingAt_eq_nil (h : g.Coherent) {id : VertexId} (hid : g.vertices.size ≤ id.index) :
    g.startingAt id = [] := by
  rw [startingAt, List.filter_eq_nil_iff]
  intro e he
  have hlt := h.origin_lt (Array.mem_toList_iff.1 he)
  simp only [decide_eq_true_eq]
  rintro rfl
  omega

theorem withVertex (h : g.Coherent) {key : String} (metadata properties : Payload)
    (fresh : g.keys.get? key = none) : (g.withVertex key metadata properties).Coherent where
  vertex_id {id v} hid := by
    rw [vertex?_withVertex] at hid
    split_ifs at hid with hnew
    · cases hid
      cases id
      simpa using hnew.symm
    · exact h.vertex_id hid
  edge_id hid := h.edge_id hid
  index_iff {key' id} := by
    have hkeys : (g.withVertex key metadata properties).keys.get? key' =
        if key' = key then some ⟨g.vertices.size⟩ else g.keys.get? key' := Table.get?_insert _ _ _ _
    simp only [hkeys, vertex?_withVertex]
    constructor
    · intro hfound
      split_ifs at hfound with hkey
      · cases hfound
        exact ⟨_, if_pos rfl, hkey.symm⟩
      · obtain ⟨v, hv, hvk⟩ := h.index_iff.1 hfound
        have hlt := lt_of_vertex?_eq_some hv
        exact ⟨v, by rw [if_neg (by omega)]; exact hv, hvk⟩
    · rintro ⟨v, hv, rfl⟩
      split_ifs at hv with hnew
      · cases hv
        rw [if_pos rfl]
        cases id
        simpa using hnew.symm
      · have hfound := h.index_iff.2 ⟨v, hv, rfl⟩
        rw [if_neg, hfound]
        rintro hkey
        rw [hkey, fresh] at hfound
        cases hfound
  origin_lt hmem := by
    have := h.origin_lt hmem
    simp only [Graph.withVertex, Array.size_push]
    omega
  target_lt hmem := by
    have := h.target_lt hmem
    simp only [Graph.withVertex, Array.size_push]
    omega
  edgesOut {id v} hid := by
    rw [vertex?_withVertex] at hid
    change v.edgesOut = (g.startingAt id).map (·.id)
    split_ifs at hid with hnew
    · cases hid
      rw [h.startingAt_eq_nil hnew.ge]
      rfl
    · exact h.edgesOut hid

theorem withEdge (h : g.Coherent) {origin target : VertexId} (metadata properties : Payload)
    (ho : origin.index < g.vertices.size) (ht : target.index < g.vertices.size) :
    (g.withEdge origin target metadata properties).Coherent where
  vertex_id {id v} hid := by
    rw [vertex?_withEdge] at hid
    split_ifs at hid with horigin
    · obtain ⟨w, hw, rfl⟩ := Option.map_eq_some_iff.1 hid
      change w.id = id
      exact h.vertex_id hw
    · exact h.vertex_id hid
  edge_id {id e} hid := by
    rw [edge?_withEdge] at hid
    split_ifs at hid with hnew
    · cases hid
      cases id
      simpa using hnew.symm
    · exact h.edge_id hid
  index_iff {key id} := by
    change g.keys.get? key = some id ↔ _
    rw [h.index_iff, vertex?_withEdge]
    split_ifs with horigin
    · constructor
      · rintro ⟨v, hv, hk⟩
        exact ⟨_, Option.map_eq_some_iff.2 ⟨v, hv, rfl⟩, hk⟩
      · rintro ⟨v, hv, hk⟩
        obtain ⟨w, hw, rfl⟩ := Option.map_eq_some_iff.1 hv
        exact ⟨w, hw, hk⟩
    · rfl
  origin_lt {e} hmem := by
    rw [size_withEdge]
    rcases Array.mem_push.1 hmem with hold | rfl
    · exact h.origin_lt hold
    · exact ho
  target_lt {e} hmem := by
    rw [size_withEdge]
    rcases Array.mem_push.1 hmem with hold | rfl
    · exact h.target_lt hold
    · exact ht
  edgesOut {id v} hid := by
    have hstart : (g.withEdge origin target metadata properties).startingAt id =
        if origin = id then
          g.startingAt id ++ [⟨⟨g.edges.size⟩, origin, target, metadata, properties⟩]
        else g.startingAt id := by
      unfold startingAt Graph.withEdge
      dsimp only
      rw [Array.toList_push, List.filter_append, List.filter_singleton]
      split_ifs <;> simp_all
    rw [vertex?_withEdge] at hid
    rw [hstart]
    split_ifs at hid ⊢ with horigin
    · obtain ⟨w, hw, rfl⟩ := Option.map_eq_some_iff.1 hid
      rw [List.map_append, ← h.edgesOut hw]
      rfl
    · exact h.edgesOut hid

theorem move {c : Change} {o : Outcome} (h : g.Coherent) (hm : Move g c o g') : g'.Coherent := by
  cases hm with
  | addVertex fresh => exact h.withVertex _ _ fresh
  | addEdge ho ht => exact h.withEdge _ _ ho ht
  | setOutput set =>
    obtain ⟨properties, rfl⟩ := setOutput?_eq_some set
    exact h.congr rfl rfl rfl
  | appendHistory => exact h.congr rfl rfl rfl
  | duplicateVertex | unknownTarget | unknownOrigin | notAssigned => exact h

theorem addVertex {key : String} {metadata properties : Payload} {id : VertexId} (h : g.Coherent)
    (hadd : g.addVertex key metadata properties = .ok (id, g')) : g'.Coherent := by
  rw [addVertex_eq] at hadd
  split_ifs at hadd with hknown
  cases hadd
  exact h.withVertex _ _ (by simpa [Table.contains] using hknown)

theorem addEdge {origin target : VertexId} {metadata properties : Payload} {id : EdgeId}
    (h : g.Coherent) (hadd : g.addEdge origin target metadata properties = .ok (id, g')) :
    g'.Coherent := by
  rw [addEdge_eq] at hadd
  split_ifs at hadd with ht ho
  cases hadd
  exact h.withEdge _ _ (not_le.1 ho) (not_le.1 ht)

theorem addVertexDocuments {entries : List (String × VertexDocument)} {pending : List Pending}
    (h : g.Coherent) (hadd : g.addVertexDocuments entries = .ok (pending, g')) : g'.Coherent := by
  induction entries generalizing g pending with
  | nil =>
    cases hadd
    exact h
  | cons entry rest ih =>
    obtain ⟨⟨id, g₁⟩, hfirst, hrest⟩ := bind_eq_ok_iff.1 hadd
    obtain ⟨⟨pending', g₂⟩, hlater, hlast⟩ := bind_eq_ok_iff.1 hrest
    cases hlast
    exact ih (h.addVertex hfirst) hlater

theorem addEdgeDocument {origin : VertexId} {key : String} {e : EdgeDocument} (h : g.Coherent)
    (hadd : addEdgeDocument origin key g e = .ok g') : g'.Coherent := by
  unfold Graph.addEdgeDocument at hadd
  split at hadd
  · cases hadd
  · obtain ⟨⟨id, g₁⟩, hedge, rfl⟩ := map_eq_ok_iff.1 hadd
    exact h.addEdge hedge

theorem addPendingEdges {p : Pending} (h : g.Coherent) (hadd : g.addPendingEdges p = .ok g') :
    g'.Coherent := foldlM_keeps (fun _ _ _ h₁ hstep ↦ h₁.addEdgeDocument hstep) h hadd

theorem ofDocument {d : CloutDocument} (hload : ofDocument d = .ok g) : g.Coherent := by
  obtain ⟨history, -, hload⟩ := bind_eq_ok_iff.1 hload
  obtain ⟨⟨pending, placed⟩, hplaced, hload⟩ := bind_eq_ok_iff.1 hload
  have hstart := (coherent_of_new _ rfl rfl rfl).addVertexDocuments hplaced
  exact foldlM_keeps (fun g₁ p g₂ h₁ hstep ↦ h₁.addPendingEdges hstep) hstart hload

end Coherent

theorem Reachable.coherent (h : g.Reachable) : g.Coherent := by
  induction h with
  | new version => exact coherent_of_new _ rfl rfl rfl
  | loaded hload => exact Coherent.ofDocument hload
  | change c _ ih => exact ih.move (move_perform _ c)

structure Extends (g' g : Graph) : Prop where
  vertex {id : VertexId} {v : Vertex} : g.vertex? id = some v →
    ∃ w, g'.vertex? id = some w ∧ w.key = v.key ∧ w.metadata = v.metadata ∧
      w.properties = v.properties ∧ v.edgesOut <+: w.edgesOut
  edge {id : EdgeId} {e : Edge} : g.edge? id = some e → g'.edge? id = some e

namespace Extends

theorem refl (g : Graph) : g.Extends g where
  vertex {_ v} h := ⟨v, h, rfl, rfl, rfl, List.prefix_rfl⟩
  edge h := h

theorem trans {g₁ g₂ g₃ : Graph} (h : g₃.Extends g₂) (h' : g₂.Extends g₁) : g₃.Extends g₁ where
  vertex hid := by
    obtain ⟨v, hv, hk, hm, hp, hpre⟩ := h'.vertex hid
    obtain ⟨w, hw, hk', hm', hp', hpre'⟩ := h.vertex hv
    exact ⟨w, hw, hk'.trans hk, hm'.trans hm, hp'.trans hp, hpre.trans hpre'⟩
  edge hid := h.edge (h'.edge hid)

theorem of_eq (hv : g'.vertices = g.vertices) (he : g'.edges = g.edges) : g'.Extends g where
  vertex {_ v} hid := ⟨v, by rwa [vertex?, hv], rfl, rfl, rfl, List.prefix_rfl⟩
  edge hid := by rwa [edge?, he]

theorem move {c : Change} {o : Outcome} (h : Move g c o g') : g'.Extends g := by
  cases h with
  | @addVertex key metadata properties fresh =>
    refine ⟨fun {id v} hid ↦ ⟨v, ?_, rfl, rfl, rfl, List.prefix_rfl⟩, fun hid ↦ hid⟩
    have := lt_of_vertex?_eq_some hid
    rw [vertex?_withVertex, if_neg (by omega)]
    exact hid
  | @addEdge origin target metadata properties ho ht =>
    refine ⟨fun {id v} hid ↦ ?_, fun {id e} hid ↦ ?_⟩
    · rw [vertex?_withEdge, hid]
      split_ifs
      · exact ⟨_, rfl, rfl, rfl, rfl, List.prefix_append _ _⟩
      · exact ⟨v, rfl, rfl, rfl, rfl, List.prefix_rfl⟩
    · have := (Array.getElem?_eq_some_iff.1 hid).1
      rw [edge?_withEdge, if_neg (by omega)]
      exact hid
  | setOutput set =>
    obtain ⟨properties, rfl⟩ := setOutput?_eq_some set
    exact of_eq rfl rfl
  | appendHistory => exact of_eq rfl rfl
  | duplicateVertex | unknownTarget | unknownOrigin | notAssigned => exact refl g

theorem run (g : Graph) (changes : List Change) : (g.run changes).Extends g := by
  induction changes generalizing g with
  | nil => exact refl g
  | cons c rest ih => exact (ih (g.apply c)).trans (move (move_perform g c))

end Extends

end CloutQuery.Graph
