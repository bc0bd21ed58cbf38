import CloutQuery.Proofs.Graph.Coherence

namespace CloutQuery.Graph

variable {g : Graph}

structure Consistent (g : Graph) : Prop where
  vertex_id {id : VertexId} {v : Vertex} : g.vertex? id = some v → v.id = id
  edge_id {id : EdgeId} {e : Edge} : g.edge? id = some e → e.id = id
  vertexByKey?_eq_some_iff {key : String} {v : Vertex} :
    g.vertexByKey? key = some v ↔ v ∈ g.vertices ∧ v.key = key
  key_injective {v w : Vertex} : v ∈ g.vertices → w ∈ g.vertices → v.key = w.key → v = w
  count_edge (id : EdgeId) : (g.vertices.toList.flatMap (·.edgesOut)).count id =
    if (g.edge? id).isSome then 1 else 0
  mem_edgesOut_iff {v : Vertex} {id : EdgeId} : v ∈ g.vertices →
    (id ∈ v.edgesOut ↔ ∃ e, g.edge? id = some e ∧ e.origin = v.id)
  increasing {v : Vertex} : v ∈ g.vertices → v.edgesOut.Pairwise (·.index < ·.index)
  ends {e : Edge} : e ∈ g.edges → (g.vertex? e.origin).isSome ∧ (g.target? e).isSome
  map_id_edgesOut {v : Vertex} : v ∈ g.vertices → (g.edgesOut v).map (·.id) = v.edgesOut

theorem mem_startingAt_iff {e : Edge} {id : VertexId} :
    e ∈ g.startingAt id ↔ e ∈ g.edges ∧ e.origin = id := by
  rw [startingAt, List.mem_filter, Array.mem_toList_iff, decide_eq_true_eq]

theorem vertex?_isSome {id : VertexId} (hid : id.index < g.vertices.size) : (g.vertex? id).isSome := by
  rw [vertex?, Array.getElem?_eq_getElem hid]
  rfl

namespace Coherent

variable (h : g.Coherent)

include h

theorem vertex?_id {v : Vertex} (hv : v ∈ g.vertices) : g.vertex? v.id = some v := by
  obtain ⟨id, hid⟩ := mem_vertices_iff.1 hv
  rwa [h.vertex_id hid]

theorem edge?_id {e : Edge} (he : e ∈ g.edges) : g.edge? e.id = some e := by
  obtain ⟨i, hi⟩ := Array.mem_iff_getElem?.1 he
  have hid : g.edge? ⟨i⟩ = some e := hi
  rwa [h.edge_id hid]

theorem mem_edgesOut_iff {v : Vertex} {id : EdgeId} (hv : v ∈ g.vertices) :
    id ∈ v.edgesOut ↔ ∃ e, g.edge? id = some e ∧ e.origin = v.id := by
  rw [h.edgesOut (h.vertex?_id hv), List.mem_map]
  constructor
  · rintro ⟨e, he, rfl⟩
    obtain ⟨hmem, horigin⟩ := mem_startingAt_iff.1 he
    exact ⟨e, h.edge?_id hmem, horigin⟩
  · rintro ⟨e, he, horigin⟩
    have hmem : e ∈ g.edges := Array.mem_iff_getElem?.2 ⟨_, he⟩
    exact ⟨e, mem_startingAt_iff.2 ⟨hmem, horigin⟩, h.edge_id he⟩

theorem increasing {v : Vertex} (hv : v ∈ g.vertices) :
    v.edgesOut.Pairwise (·.index < ·.index) := by
  have hedges : g.edges.toList.Pairwise fun e e' ↦ e.id.index < e'.id.index := by
    rw [List.pairwise_iff_getElem]
    intro i j hi hj hij
    have hid (k : ℕ) (hk : k < g.edges.toList.length) : g.edges.toList[k].id = ⟨k⟩ := by
      refine h.edge_id ?_
      rw [Graph.edge?, ← Array.getElem?_toList, List.getElem?_eq_getElem hk]
    rw [hid i hi, hid j hj]
    exact hij
  rw [h.edgesOut (h.vertex?_id hv), List.pairwise_map]
  exact hedges.filter _

theorem edgesOut_eq_startingAt {v : Vertex} (hv : v ∈ g.vertices) :
    g.edgesOut v = g.startingAt v.id := by
  rw [Graph.edgesOut, h.edgesOut (h.vertex?_id hv), List.filterMap_map]
  refine (List.filterMap_congr fun e he ↦ ?_).trans List.filterMap_some
  exact h.edge?_id (mem_startingAt_iff.1 he).1

theorem exists_target {v : Vertex} (hv : v ∈ g.vertices) {e : Edge} (he : e ∈ g.edgesOut v) :
    ∃ target, g.vertex? e.target = some target := by
  rw [h.edgesOut_eq_startingAt hv] at he
  have hstored := (mem_startingAt_iff.1 he).1
  exact Option.isSome_iff_exists.1 (vertex?_isSome (h.target_lt hstored))

theorem key_injective {v w : Vertex} (hv : v ∈ g.vertices) (hw : w ∈ g.vertices)
    (hkey : v.key = w.key) : v = w := by
  have hv' := h.index_iff.2 ⟨v, h.vertex?_id hv, rfl⟩
  have hw' := h.index_iff.2 ⟨w, h.vertex?_id hw, rfl⟩
  rw [hkey, hw', Option.some.injEq] at hv'
  have := h.vertex?_id hv
  rw [← hv', h.vertex?_id hw] at this
  exact (Option.some.inj this).symm

theorem vertexByKey?_eq_some_iff {key : String} {v : Vertex} :
    g.vertexByKey? key = some v ↔ v ∈ g.vertices ∧ v.key = key := by
  rw [vertexByKey?, Option.bind_eq_some_iff]
  constructor
  · rintro ⟨id, hid, hv⟩
    obtain ⟨w, hw, hkey⟩ := h.index_iff.1 hid
    rw [hv, Option.some.injEq] at hw
    exact ⟨mem_vertices_iff.2 ⟨id, hv⟩, hw ▸ hkey⟩
  · rintro ⟨hmem, hkey⟩
    exact ⟨v.id, h.index_iff.2 ⟨v, h.vertex?_id hmem, hkey⟩, h.vertex?_id hmem⟩

theorem vertices_nodup : g.vertices.toList.Nodup := by
  rw [List.nodup_iff_pairwise_ne, List.pairwise_iff_getElem]
  intro i j hi hj hij heq
  have hid (k : ℕ) (hk : k < g.vertices.toList.length) : g.vertices.toList[k].id = ⟨k⟩ := by
    refine h.vertex_id ?_
    rw [Graph.vertex?, ← Array.getElem?_toList, List.getElem?_eq_getElem hk]
  have hsame := congrArg Vertex.id heq
  rw [hid i hi, hid j hj, VertexId.mk.injEq] at hsame
  omega

/-- The lists of different vertices share nothing, since an edge has one origin. -/
theorem lists_nodup : (g.vertices.toList.flatMap (·.edgesOut)).Nodup := by
  rw [List.nodup_flatMap]
  constructor
  · intro v hv
    exact (h.increasing (Array.mem_toList_iff.1 hv)).imp fun hlt heq ↦ by simp [heq] at hlt
  · refine h.vertices_nodup.imp_of_mem fun {v w} hv hw hne ↦ ?_
    intro id hidv hidw
    obtain ⟨e, he, hev⟩ := (h.mem_edgesOut_iff (Array.mem_toList_iff.1 hv)).1 hidv
    obtain ⟨e', he', hew⟩ := (h.mem_edgesOut_iff (Array.mem_toList_iff.1 hw)).1 hidw
    rw [he, Option.some.injEq] at he'
    have hsame : v.id = w.id := hev.symm.trans ((congrArg Edge.origin he').trans hew)
    have hv' := h.vertex?_id (Array.mem_toList_iff.1 hv)
    rw [hsame, h.vertex?_id (Array.mem_toList_iff.1 hw), Option.some.injEq] at hv'
    exact hne hv'.symm

theorem count_edge (id : EdgeId) : (g.vertices.toList.flatMap (·.edgesOut)).count id =
    if (g.edge? id).isSome then 1 else 0 := by
  split_ifs with hid
  · obtain ⟨e, he⟩ := Option.isSome_iff_exists.1 hid
    have horigin := h.origin_lt (Array.mem_iff_getElem?.2 ⟨_, he⟩)
    have hv : g.vertex? e.origin = some g.vertices[e.origin.index] :=
      Array.getElem?_eq_getElem horigin
    have hmem := mem_vertices_iff.2 ⟨_, hv⟩
    have hlisted := (h.mem_edgesOut_iff hmem).2 ⟨e, he, (h.vertex_id hv).symm⟩
    exact List.count_eq_one_of_mem h.lists_nodup
      (List.mem_flatMap.2 ⟨_, Array.mem_toList_iff.2 hmem, hlisted⟩)
  · rw [List.count_eq_zero, List.mem_flatMap]
    rintro ⟨v, hv, hlisted⟩
    obtain ⟨e, he, -⟩ := (h.mem_edgesOut_iff (Array.mem_toList_iff.1 hv)).1 hlisted
    exact hid (by rw [he]; rfl)

theorem consistent : g.Consistent where
  vertex_id := h.vertex_id
  edge_id := h.edge_id
  vertexByKey?_eq_some_iff := h.vertexByKey?_eq_some_iff
  key_injective := h.key_injective
  count_edge := h.count_edge
  mem_edgesOut_iff := h.mem_edgesOut_iff
  increasing := h.increasing
  ends he := ⟨vertex?_isSome (h.origin_lt he), vertex?_isSome (h.target_lt he)⟩
  map_id_edgesOut hv := by rw [h.edgesOut_eq_startingAt hv, ← h.edgesOut (h.vertex?_id hv)]

end Coherent

theorem Reachable.run (h : g.Reachable) (changes : List Change) : (g.run changes).Reachable := by
  induction changes generalizing g with
  | nil => exact h
  | cons c rest ih => exact ih (h.change c)

theorem Move.vertex_answer {g' : Graph} {key : String} {metadata properties : Payload} {id : VertexId}
    (h : Move g (.addVertex key metadata properties) (.vertex id) g') :
    g'.vertex? id = some ⟨id, key, metadata, properties, []⟩ := by
  cases h
  rw [vertex?_withVertex, if_pos rfl]

theorem Move.edge_answer {g' : Graph} {origin target : VertexId} {metadata properties : Payload}
    {id : EdgeId} (h : Move g (.addEdge origin target metadata properties) (.edge id) g') :
    g'.edge? id = some ⟨id, origin, target, metadata, properties⟩ := by
  cases h
  rw [edge?_withEdge, if_pos rfl]

theorem reachable_consistent (h : g.Reachable) :
    g.Consistent ∧
    (∀ changes id v, g.vertex? id = some v → ∃ w, (g.run changes).vertex? id = some w ∧
      w.key = v.key ∧ w.metadata = v.metadata ∧ w.properties = v.properties) ∧
    (∀ changes id e, g.edge? id = some e → (g.run changes).edge? id = some e) ∧
    (∀ key metadata properties id changes,
      ((perform (.addVertex key metadata properties)).run g).1 = .vertex id →
        ∃ w, (g.run (.addVertex key metadata properties :: changes)).vertex? id = some w ∧
          w.key = key ∧ w.metadata = metadata ∧ w.properties = properties) ∧
    (∀ origin target metadata properties id changes,
      ((perform (.addEdge origin target metadata properties)).run g).1 = .edge id →
        (g.run (.addEdge origin target metadata properties :: changes)).edge? id =
          some ⟨id, origin, target, metadata, properties⟩) ∧
    (∀ c, (∃ e, ((perform c).run g).1 = .refused e) ∨ ((perform c).run g).1 = .notAssigned →
      g.apply c = g) := by
  refine ⟨h.coherent.consistent, fun changes id v hv ↦ ?_, fun changes id e ↦ (Extends.run g changes).edge,
    fun key metadata properties id changes hid ↦ ?_,
    fun origin target metadata properties id changes hid ↦ ?_, fun c ↦ (move_perform g c).unchanged⟩
  · obtain ⟨w, hw, hk, hm, hp, -⟩ := (Extends.run g changes).vertex hv
    exact ⟨w, hw, hk, hm, hp⟩
  · have hmove := move_perform g (.addVertex key metadata properties)
    rw [hid] at hmove
    obtain ⟨w, hw, hk, hm, hp, -⟩ := (Extends.run _ changes).vertex hmove.vertex_answer
    exact ⟨w, hw, hk, hm, hp⟩
  · have hmove := move_perform g (.addEdge origin target metadata properties)
    rw [hid] at hmove
    exact (Extends.run _ changes).edge hmove.edge_answer

/-- A vertex with an edge to itself; its key a second time and an edge to nowhere are refused. -/
theorem reachable_consistent_loop :
    let g := (empty "1.0").run [.addVertex "a" ∅ ∅, .addEdge ⟨0⟩ ⟨0⟩ ∅ ∅, .addVertex "a" ∅ ∅,
      .addEdge ⟨0⟩ ⟨1⟩ ∅ ∅]
    g.Reachable ∧ g.Consistent ∧ g.vertices.size = 1 ∧
      ∀ changes, (g.run changes).edge? ⟨0⟩ = some ⟨⟨0⟩, ⟨0⟩, ⟨0⟩, ∅, ∅⟩ := by
  intro g
  have hg : g.Reachable := (Reachable.new "1.0").run _
  have h := reachable_consistent hg
  exact ⟨hg, h.1, rfl, fun changes ↦ h.2.2.1 changes ⟨0⟩ _ rfl⟩

end CloutQuery.Graph
