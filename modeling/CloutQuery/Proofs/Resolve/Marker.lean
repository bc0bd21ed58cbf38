import CloutQuery.Proofs.Resolve.View

namespace CloutQuery

open CloutQuery.Graph

def standardMark (kind : String) : Payload :=
  ⟨[("puccini", .object ⟨[("kind", .text kind), ("version", .text "1.0")]⟩)]⟩

/-- The kind in a mark; one that is missing or no text counts as empty. -/
def kindText (mark : Payload) : String :=
  match mark.get? "kind" with
  | some (.text kind) => kind
  | _ => ""

/-- The standard mark with the same kind in place of the configured one; all else goes. -/
def Classifier.restamp (c : Classifier) (metadata : Payload) : Payload :=
  match metadata.get? c.marker with
  | some (.object mark) =>
    match mark.get? "version" with
    | some (.text version) => if version = c.version then standardMark (kindText mark) else ∅
    | _ => ∅
  | _ => ∅

def Vertex.mapMetadata (f : Payload → Payload) (v : Vertex) : Vertex := { v with metadata := f v.metadata }

def Edge.mapMetadata (f : Payload → Payload) (e : Edge) : Edge := { e with metadata := f e.metadata }

namespace Graph

def mapMetadata (f : Payload → Payload) (g : Graph) : Graph :=
  { g with
    vertices := g.vertices.map (Vertex.mapMetadata f)
    edges := g.edges.map (Edge.mapMetadata f) }

theorem edgesOut_mapMetadata (f : Payload → Payload) (g : Graph) (v : Vertex) :
    (g.mapMetadata f).edgesOut (v.mapMetadata f) = (g.edgesOut v).map (Edge.mapMetadata f) := by
  have hedge (id : EdgeId) :
      (g.mapMetadata f).edge? id = (g.edge? id).map (Edge.mapMetadata f) := Array.getElem?_map
  simp only [edgesOut, Vertex.mapMetadata, hedge, List.map_filterMap]

end Graph

namespace Classifier

theorem kindText_eq (mark : Payload) : kindText mark = ((mark.get? "kind").bind Value.text?).getD "" := by
  unfold kindText
  cases mark.get? "kind" with
  | none => rfl
  | some v => cases v <;> rfl

theorem restamp_eq (c : Classifier) (metadata : Payload) :
    c.restamp metadata = (c.markedKind? metadata).elim ∅ standardMark := by
  unfold restamp markedKind?
  cases metadata.get? c.marker with
  | none => rfl
  | some v =>
    cases v with
    | null | boolean | number | text | array => rfl
    | object mark =>
      cases hversion : mark.get? "version" with
      | none => simp [hversion, Value.object?]
      | some w =>
        cases w with
        | null | boolean | number | array | object =>
          simp [hversion, Value.object?, Value.text?]
        | text version =>
          by_cases hsupported : version = c.version <;>
            simp [hversion, Value.object?, Value.text?, hsupported, kindText_eq]

theorem markedKind?_standardMark (kind : String) :
    standard.markedKind? (standardMark kind) = some kind := by
  simp [markedKind?, standard, standardMark, Table.get?, Value.object?, Value.text?, List.lookup]

theorem markedKind?_restamp (c : Classifier) (metadata : Payload) :
    standard.markedKind? (c.restamp metadata) = c.markedKind? metadata := by
  rw [restamp_eq]
  cases c.markedKind? metadata with
  | none => rfl
  | some kind => exact markedKind?_standardMark kind

theorem hasKind_restamp (c : Classifier) (metadata : Payload) (kind : ElementKind) :
    standard.hasKind (c.restamp metadata) kind = c.hasKind metadata kind := by
  rw [hasKind, markedKind?_restamp, hasKind]

theorem elementKind?_restamp (c : Classifier) (metadata : Payload) :
    standard.elementKind? (c.restamp metadata) = c.elementKind? metadata := by
  rw [elementKind?, markedKind?_restamp, elementKind?]

end Classifier

def Config.restamped (config : Config) : Config := ⟨"puccini", "1.0", config.hostRole⟩

namespace Resolver

def restamped (r : Resolver) : Resolver :=
  ⟨r.graph.mapMetadata r.classifier.restamp, r.host, r.config.restamped⟩

variable (r : Resolver)

theorem link?_restamped (e : Edge) : r.restamped.link? (e.mapMetadata r.classifier.restamp) = r.link? e := by
  have hkind := r.classifier.elementKind?_restamp e.metadata
  change ((Classifier.standard.elementKind? (r.classifier.restamp e.metadata)).filter _).map _ = _
  rw [hkind]
  rfl

theorem sight_restamped (v : Vertex) :
    r.restamped.sight (v.mapMetadata r.classifier.restamp) = r.sight v := by
  have htemplate : r.restamped.classifier.isNodeTemplate (v.mapMetadata r.classifier.restamp) =
      r.classifier.isNodeTemplate v := r.classifier.hasKind_restamp v.metadata .nodeTemplate
  have hlinks : r.restamped.links (v.mapMetadata r.classifier.restamp) = r.links v := by
    have hedges := edgesOut_mapMetadata r.classifier.restamp r.graph v
    rw [links, restamped, hedges, List.filterMap_map, links]
    exact List.filterMap_congr fun e _ ↦ r.link?_restamped e
  rw [sight, htemplate, hlinks, sight]
  rfl

theorem sameView_restamped : SameView r r.restamped where
  view := by
    rw [view, view, restamped, mapMetadata, Array.toList_map, List.map_map]
    exact List.map_congr_left fun v _ ↦ (r.sight_restamped v).symm
  coerce := rfl

variable {r} in
theorem SameView.map_id {r' : Resolver} {x y : Except ResolveError Vertex}
    (h : x.map r.sight = y.map r'.sight) : x.map (·.id) = y.map (·.id) := by
  have hid := congrArg (Except.map Sight.id) h
  rwa [map_map_eq, map_map_eq] at hid

theorem answers_restamped (g : Graph) (host : Host) (config : Config) :
    let r : Resolver := ⟨g, host, config⟩
    let r' : Resolver := ⟨g.mapMetadata config.classifier.restamp, host,
      ⟨"puccini", "1.0", config.hostRole⟩⟩
    (∀ context entity, (r.resolveEntity context entity).map (·.id) =
      (r'.resolveEntity context entity).map (·.id)) ∧
    (∀ context name, (r.resolveNamedEntity context name).map (·.id) =
      (r'.resolveNamedEntity context name).map (·.id)) ∧
    (∀ id, (r.resolveHost id).map (·.id) = (r'.resolveHost id).map (·.id)) ∧
    (∀ id, r.policyTargets id = r'.policyTargets id) ∧
    (∀ id, r.groupMembers id = r'.groupMembers id) ∧
    ∀ context singular plural args,
      r.nestedValue context singular plural args = r'.nestedValue context singular plural args := by
  intro r r'
  have h : SameView r r' := r.sameView_restamped
  refine ⟨fun context entity ↦ ?_, fun context name ↦ ?_, fun id ↦ ?_, h.policyTargets,
    h.groupMembers, h.nestedValue⟩
  · exact SameView.map_id (h.resolveEntity context entity)
  · exact SameView.map_id (h.resolveEntity context (EntityRef.parse name))
  · exact SameView.map_id (h.resolveHost id)

end Resolver

end CloutQuery
