import CloutQuery.Proofs.Graph.Consistency
import CloutQuery.Proofs.Resolve.View

namespace CloutQuery

open CloutQuery.Graph

def Classifier.follows (c : Classifier) (metadata : Payload) : Bool :=
  ElementKind.followed.any (c.hasKind metadata)

/-- Every change is visible but the adding of an edge of a kind that is not followed. -/
def Change.visible (c : Classifier) : Change → Bool
  | .addEdge _ _ metadata _ => c.follows metadata
  | _ => true

def Vertex.bare (v : Vertex) : Vertex := { v with edgesOut := [] }

def Edge.bare (e : Edge) : Edge := { e with id := ⟨0⟩ }

namespace Graph

variable {c : Classifier} {g g' : Graph}

def bareVertices (g : Graph) : List Vertex := g.vertices.toList.map Vertex.bare

def followedEdges (c : Classifier) (g : Graph) : List Edge :=
  (g.edges.toList.filter (c.follows ·.metadata)).map Edge.bare

theorem length_bareVertices (g : Graph) : g.bareVertices.length = g.vertices.size := by
  rw [bareVertices, List.length_map, Array.length_toList]

theorem bareVertices_withVertex (g : Graph) (key : String) (metadata properties : Payload) :
    (g.withVertex key metadata properties).bareVertices =
      g.bareVertices ++ [⟨⟨g.bareVertices.length⟩, key, metadata, properties, []⟩] := by
  rw [length_bareVertices, bareVertices, withVertex, Array.toList_push, List.map_append]
  rfl

theorem bareVertices_withEdge (g : Graph) (origin target : VertexId) (metadata properties : Payload) :
    (g.withEdge origin target metadata properties).bareVertices = g.bareVertices := by
  refine List.ext_getElem? fun i ↦ ?_
  simp only [bareVertices, withEdge, List.getElem?_map, Array.getElem?_toList, Array.getElem?_modify]
  split_ifs
  · rw [Option.map_map]
    rfl
  · rfl

theorem followedEdges_withEdge (g : Graph) (origin target : VertexId) (metadata properties : Payload) :
    (g.withEdge origin target metadata properties).followedEdges c =
      g.followedEdges c ++
        if c.follows metadata then [⟨⟨0⟩, origin, target, metadata, properties⟩] else [] := by
  rw [followedEdges, withEdge, Array.toList_push, List.filter_append, List.map_append]
  cases hfollows : c.follows metadata <;> simp [followedEdges, Edge.bare, hfollows]

/-- The same vertices, and the same edges of followed kinds in the same order, perhaps under other
ids. -/
structure Alike (c : Classifier) (g g' : Graph) : Prop where
  keys : g.keys = g'.keys
  vertices : g.bareVertices = g'.bareVertices
  edges : g.followedEdges c = g'.followedEdges c

namespace Alike

theorem size (h : Alike c g g') : g.vertices.size = g'.vertices.size := by
  rw [← length_bareVertices, ← length_bareVertices, h.vertices]

theorem addVertex (h : Alike c g g') (key : String) (metadata properties : Payload) :
    Alike c (g.apply (.addVertex key metadata properties))
      (g'.apply (.addVertex key metadata properties)) := by
  rw [apply_addVertex, apply_addVertex, h.keys]
  split_ifs
  · exact h
  · refine ⟨?_, ?_, h.edges⟩
    · rw [withVertex, withVertex, h.keys, h.size]
    · rw [bareVertices_withVertex, bareVertices_withVertex, h.vertices]

theorem addEdge (h : Alike c g g') (origin target : VertexId) (metadata properties : Payload) :
    Alike c (g.apply (.addEdge origin target metadata properties))
      (g'.apply (.addEdge origin target metadata properties)) := by
  rw [apply_addEdge, apply_addEdge, h.size]
  split_ifs
  · exact h
  · exact h
  · refine ⟨h.keys, ?_, ?_⟩
    · rw [bareVertices_withEdge, bareVertices_withEdge, h.vertices]
    · rw [followedEdges_withEdge, followedEdges_withEdge, h.edges]

theorem apply (h : Alike c g g') (change : Change) : Alike c (g.apply change) (g'.apply change) := by
  cases change with
  | addVertex key metadata properties => exact h.addVertex key metadata properties
  | addEdge origin target metadata properties => exact h.addEdge origin target metadata properties
  | setOutput name text =>
    obtain ⟨p, hp⟩ := apply_setOutput g name text
    obtain ⟨p', hp'⟩ := apply_setOutput g' name text
    rw [hp, hp']
    exact ⟨h.keys, h.vertices, h.edges⟩
  | appendHistory entry => exact ⟨h.keys, h.vertices, h.edges⟩

theorem skip (h : Alike c g g') {change : Change} (hinvisible : change.visible c = false) :
    Alike c (g.apply change) g' := by
  cases change with
  | addVertex | setOutput | appendHistory => cases hinvisible
  | addEdge origin target metadata properties =>
    have hmetadata : c.follows metadata = false := hinvisible
    rw [apply_addEdge]
    split_ifs
    · exact h
    · exact h
    · refine ⟨h.keys, ?_, ?_⟩
      · rw [bareVertices_withEdge, h.vertices]
      · rw [followedEdges_withEdge, hmetadata, h.edges]
        exact List.append_nil _

theorem run (h : Alike c g g') (changes : List Change) :
    Alike c (g.run changes) (g'.run (changes.filter (·.visible c))) := by
  induction changes generalizing g g' with
  | nil => exact h
  | cons change rest ih =>
    cases hvisible : change.visible c with
    | true =>
      rw [List.filter_cons_of_pos hvisible]
      exact ih (h.apply change)
    | false =>
      rw [List.filter_cons_of_neg (by simp [hvisible])]
      exact ih (h.skip hvisible)

end Alike

end Graph

namespace Resolver

variable {r : Resolver}

theorem link?_eq_none_of_not_follows {e : Edge} (h : r.classifier.follows e.metadata = false) :
    r.link? e = none := by
  rw [Option.eq_none_iff_forall_ne_some]
  intro l hl
  obtain ⟨kind, hkind, -⟩ := Option.map_eq_some_iff.1 hl
  obtain ⟨hkind, hfollowed⟩ := Option.filter_eq_some_iff.1 hkind
  have hany : r.classifier.follows e.metadata = true :=
    List.any_eq_true.2 ⟨kind, of_decide_eq_true hfollowed, Classifier.hasKind_iff.2 hkind⟩
  rw [h] at hany
  cases hany

theorem links_eq (hg : r.graph.Coherent) {v : Vertex} (hv : v ∈ r.graph.vertices) :
    r.links v = ((r.graph.followedEdges r.classifier).filter (·.origin = v.id)).filterMap r.link? := by
  rw [links, hg.edgesOut_eq_startingAt hv, startingAt, followedEdges, List.filter_map,
    List.filterMap_map, List.filterMap_filter, List.filterMap_filter, List.filterMap_filter]
  refine List.filterMap_congr fun e _ ↦ ?_
  cases hfollows : r.classifier.follows e.metadata with
  | true => rfl
  | false => simp [link?_eq_none_of_not_follows hfollows]

/-- What is seen of a vertex if the followed edges of the whole graph are these. -/
def sightAmong (r : Resolver) (edges : List Edge) (v : Vertex) : Sight :=
  ⟨v.id, r.classifier.isNodeTemplate v, v.properties,
    (edges.filter (·.origin = v.id)).filterMap r.link?⟩

theorem view_eq (hg : r.graph.Coherent) : r.view =
    r.graph.bareVertices.map (r.sightAmong (r.graph.followedEdges r.classifier)) := by
  rw [view, bareVertices, List.map_map]
  refine List.map_congr_left fun v hv ↦ ?_
  rw [sight, links_eq hg (Array.mem_toList_iff.1 hv)]
  rfl

theorem sameView_of_alike {g g' : Graph} (host : Host) (config : Config)
    (h : Alike config.classifier g g') (hg : g.Coherent) (hg' : g'.Coherent) :
    SameView ⟨g, host, config⟩ ⟨g', host, config⟩ where
  view := by
    rw [view_eq hg, view_eq hg']
    exact congrArg₂ (fun edges vertices ↦ vertices.map (sightAmong ⟨g, host, config⟩ edges))
      h.edges h.vertices
  coerce := rfl

theorem unfollowed_edges_invisible (version : String) (changes : List Change) (host : Host)
    (config : Config) :
    let r : Resolver := ⟨(empty version).run changes, host, config⟩
    let r' : Resolver :=
      ⟨(empty version).run (changes.filter (·.visible config.classifier)), host, config⟩
    (∀ id, (r.graph.vertex? id).map Vertex.bare = (r'.graph.vertex? id).map Vertex.bare) ∧
    (∀ context entity, (r.resolveEntity context entity).map (·.id) =
      (r'.resolveEntity context entity).map (·.id)) ∧
    (∀ id, (r.resolveHost id).map (·.id) = (r'.resolveHost id).map (·.id)) ∧
    (∀ id, r.policyTargets id = r'.policyTargets id) ∧
    (∀ id, r.groupMembers id = r'.groupMembers id) ∧
    (∀ context singular plural args,
      r.nestedValue context singular plural args = r'.nestedValue context singular plural args) := by
  intro r r'
  have hnew : (empty version).Reachable := .new version
  have halike : Alike config.classifier r.graph r'.graph := Alike.run ⟨rfl, rfl, rfl⟩ changes
  have hview : SameView r r' :=
    sameView_of_alike host config halike (hnew.run _).coherent (hnew.run _).coherent
  have hids {x y : Except ResolveError Vertex} (hxy : x.map r.sight = y.map r'.sight) :
      x.map (·.id) = y.map (·.id) := by
    have h := congrArg (Except.map Sight.id) hxy
    rwa [map_map_eq, map_map_eq] at h
  refine ⟨fun id ↦ ?_, fun context entity ↦ hids (hview.resolveEntity context entity),
    fun id ↦ hids (hview.resolveHost id), hview.policyTargets, hview.groupMembers,
    hview.nestedValue⟩
  have h := congrArg (·[id.index]?) halike.vertices
  simp only [bareVertices, List.getElem?_map, Array.getElem?_toList] at h
  exact h

end Resolver

end CloutQuery
