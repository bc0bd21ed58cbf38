import CloutQuery.Graph.Load
import CloutQuery.Proofs.Graph.Coherence

namespace CloutQuery.Graph

variable {g g' : Graph} {entries : List (String × VertexDocument)}

/-- The vertices that entries become, from the place `n` on. -/
def verticesFrom (n : ℕ) : List (String × VertexDocument) → List Vertex
  | [] => []
  | (key, v) :: rest => ⟨⟨n⟩, key, v.metadata, v.properties, []⟩ :: verticesFrom (n + 1) rest

def pendingFrom (n : ℕ) : List (String × VertexDocument) → List Pending
  | [] => []
  | (key, v) :: rest => ⟨⟨n⟩, key, v.edges⟩ :: pendingFrom (n + 1) rest

def edgesFrom (n : ℕ) : List (String × VertexDocument) → List (VertexId × EdgeDocument)
  | [] => []
  | (_, v) :: rest => v.edges.map (⟨n⟩, ·) ++ edgesFrom (n + 1) rest

def edgesBefore (entries : List (String × VertexDocument)) (i : ℕ) : ℕ :=
  ((entries.take i).map (·.2.edges.length)).sum

theorem verticesFrom_getElem? {n i : ℕ} {key : String} {v : VertexDocument}
    (h : entries[i]? = some (key, v)) :
    (verticesFrom n entries)[i]? = some ⟨⟨n + i⟩, key, v.metadata, v.properties, []⟩ := by
  induction entries generalizing n i with
  | nil => simp at h
  | cons entry rest ih =>
    cases i with
    | zero =>
      simp only [List.getElem?_cons_zero, Option.some.injEq] at h
      subst h
      rfl
    | succ i =>
      rw [List.getElem?_cons_succ] at h
      rw [verticesFrom, List.getElem?_cons_succ, ih h, Nat.add_right_comm, Nat.add_assoc]

theorem length_verticesFrom (n : ℕ) (entries : List (String × VertexDocument)) :
    (verticesFrom n entries).length = entries.length := by
  induction entries generalizing n with
  | nil => rfl
  | cons entry rest ih => rw [verticesFrom, List.length_cons, List.length_cons, ih]

theorem flatMap_pendingFrom (n : ℕ) (entries : List (String × VertexDocument)) :
    (pendingFrom n entries).flatMap (fun p ↦ p.edges.map (p.id, ·)) = edgesFrom n entries := by
  induction entries generalizing n with
  | nil => rfl
  | cons entry rest ih => rw [pendingFrom, edgesFrom, List.flatMap_cons, ih]

theorem length_edgesFrom (n : ℕ) (entries : List (String × VertexDocument)) :
    (edgesFrom n entries).length = (entries.map (·.2.edges.length)).sum := by
  induction entries generalizing n with
  | nil => rfl
  | cons entry rest ih =>
    rw [edgesFrom, List.length_append, List.length_map, ih, List.map_cons, List.sum_cons]

theorem edgesFrom_getElem? {n i j : ℕ} {key : String} {v : VertexDocument} {e : EdgeDocument}
    (hi : entries[i]? = some (key, v)) (hj : v.edges[j]? = some e) :
    (edgesFrom n entries)[edgesBefore entries i + j]? = some (⟨n + i⟩, e) := by
  induction entries generalizing n i with
  | nil => simp at hi
  | cons entry rest ih =>
    cases i with
    | zero =>
      simp only [List.getElem?_cons_zero, Option.some.injEq] at hi
      subst hi
      have hlt := (List.getElem?_eq_some_iff.1 hj).1
      rw [edgesFrom, edgesBefore, List.take_zero, List.map_nil, List.sum_nil, Nat.zero_add,
        List.getElem?_append_left (by rwa [List.length_map]), List.getElem?_map, hj]
      rfl
    | succ i =>
      rw [List.getElem?_cons_succ] at hi
      rw [edgesFrom, edgesBefore, List.take_succ_cons, List.map_cons, List.sum_cons, Nat.add_assoc,
        List.getElem?_append_right (by simp), List.length_map, Nat.add_sub_cancel_left]
      have := ih (n := n + 1) hi
      rwa [Nat.add_right_comm, Nat.add_assoc] at this

theorem exists_of_edgesFrom {n m : ℕ} {origin : VertexId} {e : EdgeDocument}
    (h : (edgesFrom n entries)[m]? = some (origin, e)) : ∃ i key v j, entries[i]? = some (key, v) ∧
      v.edges[j]? = some e ∧ origin = ⟨n + i⟩ ∧ m = edgesBefore entries i + j := by
  induction entries generalizing n m with
  | nil => simp [edgesFrom] at h
  | cons entry rest ih =>
    obtain ⟨key, v⟩ := entry
    rw [edgesFrom] at h
    by_cases hm : m < v.edges.length
    · rw [List.getElem?_append_left (by rwa [List.length_map]), List.getElem?_map] at h
      obtain ⟨e', he, heq⟩ := Option.map_eq_some_iff.1 h
      cases heq
      exact ⟨0, key, v, m, rfl, he, rfl, by simp [edgesBefore]⟩
    · rw [List.getElem?_append_right (by simpa using hm), List.length_map] at h
      obtain ⟨i, key', v', j, hi, hj, rfl, heq⟩ := ih h
      refine ⟨i + 1, key', v', j, hi, hj, by rw [Nat.add_right_comm, Nat.add_assoc], ?_⟩
      rw [edgesBefore, List.take_succ_cons, List.map_cons, List.sum_cons]
      change m = v.edges.length + edgesBefore rest i + j
      omega

theorem addVertexDocuments_spec {pending : List Pending}
    (h : g.addVertexDocuments entries = .ok (pending, g')) :
    pending = pendingFrom g.vertices.size entries ∧
    g' = { g with
      vertices := g.vertices ++ (verticesFrom g.vertices.size entries).toArray
      keys := g'.keys } := by
  induction entries generalizing g pending with
  | nil =>
    cases h
    exact ⟨rfl, by simp [verticesFrom]⟩
  | cons entry rest ih =>
    obtain ⟨key, v⟩ := entry
    obtain ⟨⟨id, g₁⟩, hfirst, hrest⟩ := bind_eq_ok_iff.1 h
    obtain ⟨⟨pending', g₂⟩, hlater, hlast⟩ := bind_eq_ok_iff.1 hrest
    cases hlast
    rw [addVertex_eq] at hfirst
    split_ifs at hfirst
    cases hfirst
    obtain ⟨rfl, hg⟩ := ih hlater
    have hsize : (g.withVertex key v.metadata v.properties).vertices.size = g.vertices.size + 1 :=
      Array.size_push _
    rw [hsize] at hg ⊢
    refine ⟨rfl, hg.trans ?_⟩
    simp [withVertex, verticesFrom]

/-- What a graph becomes by the edges of `rows`, each with its origin. -/
structure Adds (g : Graph) (rows : List (VertexId × EdgeDocument)) (g' : Graph) : Prop where
  rest : g' = { g with vertices := g'.vertices, edges := g'.edges }
  size_vertices : g'.vertices.size = g.vertices.size
  extending : g'.Extends g
  size_edges : g'.edges.size = g.edges.size + rows.length
  edge {j : ℕ} {origin : VertexId} {e : EdgeDocument} : rows[j]? = some (origin, e) →
    ∃ target, g.keys.get? e.target = some target ∧ g'.edge? ⟨g.edges.size + j⟩ =
      some ⟨⟨g.edges.size + j⟩, origin, target, e.metadata, e.properties⟩

namespace Adds

theorem nil (g : Graph) : g.Adds [] g := ⟨rfl, rfl, .refl g, rfl, fun h ↦ by simp at h⟩

theorem append {g₁ g₂ g₃ : Graph} {rows rows' : List (VertexId × EdgeDocument)}
    (h : g₁.Adds rows g₂) (h' : g₂.Adds rows' g₃) : g₁.Adds (rows ++ rows') g₃ where
  rest := by
    rw [h'.rest]
    conv_lhs => rw [h.rest]
  size_vertices := h'.size_vertices.trans h.size_vertices
  extending := h'.extending.trans h.extending
  size_edges := by
    rw [h'.size_edges, h.size_edges, List.length_append, Nat.add_assoc]
  edge {j origin e} hj := by
    have hkeys : g₂.keys = g₁.keys := by rw [h.rest]
    by_cases hlt : j < rows.length
    · rw [List.getElem?_append_left hlt] at hj
      obtain ⟨target, ht, hedge⟩ := h.edge hj
      exact ⟨target, ht, h'.extending.edge hedge⟩
    · rw [List.getElem?_append_right (not_lt.1 hlt)] at hj
      obtain ⟨target, ht, hedge⟩ := h'.edge hj
      have hplace : g₁.edges.size + rows.length + (j - rows.length) = g₁.edges.size + j := by omega
      rw [h.size_edges, hplace] at hedge
      exact ⟨target, hkeys ▸ ht, hedge⟩

theorem addEdgeDocument {origin : VertexId} {key : String} {e : EdgeDocument} (hg : g.Coherent)
    (h : addEdgeDocument origin key g e = .ok g') : g.Adds [(origin, e)] g' := by
  unfold Graph.addEdgeDocument at h
  split at h
  · cases h
  · rename_i target htarget
    obtain ⟨⟨id, g₁⟩, hadd, rfl⟩ := map_eq_ok_iff.1 h
    rw [addEdge_eq] at hadd
    split_ifs at hadd with ht ho
    cases hadd
    obtain ⟨tid, htid, hv⟩ := Option.bind_eq_some_iff.1 htarget
    have hid := hg.vertex_id hv
    refine ⟨rfl, size_withEdge _ _ _ _ _, ?_, ?_, fun {j origin' e'} hj ↦ ?_⟩
    · exact .move (.addEdge (not_le.1 ho) (not_le.1 ht))
    · exact Array.size_push _
    · cases j with
      | succ j => simp at hj
      | zero =>
        simp only [List.getElem?_cons_zero, Option.some.injEq, Prod.mk.injEq] at hj
        obtain ⟨rfl, rfl⟩ := hj
        refine ⟨target.id, hid ▸ htid, ?_⟩
        rw [Nat.add_zero, edge?_withEdge, if_pos rfl]

theorem addEdgeDocuments {origin : VertexId} {key : String} {es : List EdgeDocument}
    (hg : g.Coherent) (h : es.foldlM (Graph.addEdgeDocument origin key) g = .ok g') :
    g.Adds (es.map (origin, ·)) g' := by
  induction es generalizing g with
  | nil =>
    cases h
    exact nil _
  | cons e rest ih =>
    obtain ⟨g₁, hfirst, hrest⟩ := bind_eq_ok_iff.1 h
    exact (addEdgeDocument hg hfirst).append (ih (hg.addEdgeDocument hfirst) hrest)

theorem addPendingEdges {pending : List Pending} (hg : g.Coherent)
    (h : pending.foldlM Graph.addPendingEdges g = .ok g') :
    g.Adds (pending.flatMap fun p ↦ p.edges.map (p.id, ·)) g' := by
  induction pending generalizing g with
  | nil =>
    cases h
    exact nil _
  | cons p rest ih =>
    obtain ⟨g₁, hfirst, hrest⟩ := bind_eq_ok_iff.1 h
    exact (addEdgeDocuments hg hfirst).append (ih (hg.addPendingEdges hfirst) hrest)

end Adds

theorem Adds.exists_vertex {placed : Graph} {rows : List (VertexId × EdgeDocument)}
    (h : placed.Adds rows g) (hplaced : placed.vertices = (verticesFrom 0 entries).toArray) {i : ℕ}
    {key : String} {v : VertexDocument} (hi : entries[i]? = some (key, v)) :
    ∃ w, g.vertex? ⟨i⟩ = some w ∧ w.key = key ∧ w.metadata = v.metadata ∧
      w.properties = v.properties := by
  have hv : placed.vertex? ⟨i⟩ = some ⟨⟨i⟩, key, v.metadata, v.properties, []⟩ := by
    have hi' := verticesFrom_getElem? (n := 0) hi
    rw [Nat.zero_add] at hi'
    rwa [vertex?, hplaced, List.getElem?_toArray]
  obtain ⟨w, hw, hkey, hmetadata, hproperties, -⟩ := h.extending.vertex hv
  exact ⟨w, hw, hkey, hmetadata, hproperties⟩

theorem ofDocument_eq_ok {d : CloutDocument} (h : ofDocument d = .ok g) : ∃ placed : Graph,
    placed.version = d.version ∧ placed.metadata = d.metadata.erase "history" ∧
    placed.properties = d.properties ∧ historyOf d.metadata = .ok placed.history ∧
    placed.vertices = (verticesFrom 0 d.vertices.entries).toArray ∧ placed.edges = #[] ∧
    placed.Adds (edgesFrom 0 d.vertices.entries) g := by
  obtain ⟨history, hhistory, h⟩ := bind_eq_ok_iff.1 h
  obtain ⟨⟨pending, placed⟩, hplaced, h⟩ := bind_eq_ok_iff.1 h
  have hcoherent := (coherent_of_new _ rfl rfl rfl).addVertexDocuments hplaced
  obtain ⟨rfl, hrest⟩ := addVertexDocuments_spec hplaced
  have hadds := Adds.addPendingEdges hcoherent h
  rw [flatMap_pendingFrom] at hadds
  refine ⟨placed, ?_, ?_, ?_, ?_, ?_, ?_, hadds⟩
  · rw [hrest]
    rfl
  · rw [hrest]
  · rw [hrest]
  · rw [hrest]
    exact hhistory
  · rw [hrest]
    exact Array.empty_append
  · rw [hrest]
    rfl

end CloutQuery.Graph
