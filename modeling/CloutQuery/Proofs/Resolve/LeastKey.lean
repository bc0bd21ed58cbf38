import CloutQuery.Proofs.Graph.Image
import CloutQuery.Proofs.Resolve.NamedEntity

namespace CloutQuery

open Json

namespace CloutDocument

variable {d : CloutDocument} {g : Graph} {c : Classifier} {name key : String} {v : VertexDocument}

inductive Loads (d : CloutDocument) (g : Graph) : Prop
  | text {s : String} (read : decoder.parse s = .ok d) (loaded : Graph.ofText s = .ok g)
  | value {v : Value} (read : decoder.ofValue v = some d) (loaded : Graph.ofValue v = .ok g)

theorem Loads.ofDocument (h : d.Loads g) : Graph.ofDocument d = .ok g := by
  cases h with
  | text read loaded => simpa [Graph.ofText, read] using loaded
  | value read loaded => simpa [Graph.ofValue, read] using loaded

theorem Loads.sorted (h : d.Loads g) : d.vertices.Sorted := by
  have hdraft : ∃ x, draft.Yields x ∧ x.finish = some d := by
    cases h with
    | text read =>
      rw [decoder_eq_refine] at read
      obtain ⟨x, hx, hfinish⟩ := Decoder.refine_parse_eq_ok read
      exact ⟨x, Decoder.yields_of_parse hx, hfinish⟩
    | value read =>
      rw [decoder_eq_refine] at read
      obtain ⟨x, hx, hfinish⟩ := Option.bind_eq_some_iff.1 read
      exact ⟨x, .inr ⟨_, hx⟩, hfinish⟩
  obtain ⟨x, hx, hfinish⟩ := hdraft
  cases hfinish
  exact draft_sorted hx

/-- The document has a vertex under the key that a classifier takes for a node template, with the name
among its properties. -/
structure HasTemplate (d : CloutDocument) (c : Classifier) (name key : String) (v : VertexDocument) :
    Prop where
  held : d.vertices.get? key = some v
  marked : c.Marks v.metadata "NodeTemplate"
  named : v.properties.get? "name" = some (.text name)

/-- A node template of the name under the least key, in the order of the bytes. -/
structure LeastTemplate (d : CloutDocument) (c : Classifier) (name key : String) (v : VertexDocument) :
    Prop extends d.HasTemplate c name key v where
  least {key' : String} {v' : VertexDocument} :
    d.HasTemplate c name key' v' → key' ≠ key → Text.bytes key < Text.bytes key'

def templateNamed (c : Classifier) (name : String) (e : String × VertexDocument) : Bool :=
  c.hasKind e.2.metadata .nodeTemplate && Payload.name? e.2.properties = some name

theorem hasTemplate_iff (hd : d.vertices.Sorted) :
    d.HasTemplate c name key v ↔ (key, v) ∈ d.vertices.entries ∧ templateNamed c name (key, v) := by
  simp only [templateNamed, Bool.and_eq_true, Classifier.hasKind_iff_marks, decide_eq_true_eq,
    Payload.name?_eq_some_iff]
  constructor
  · intro h
    exact ⟨Table.mem_of_get? h.held, h.marked, h.named⟩
  · rintro ⟨hmem, hmarked, hnamed⟩
    exact ⟨(Table.get?_eq_some_iff hd).2 hmem, hmarked, hnamed⟩

theorem find?_eq_some_iff (hd : d.vertices.Sorted) :
    d.vertices.entries.find? (templateNamed c name) = some (key, v) ↔ d.LeastTemplate c name key v := by
  rw [Table.find?_entries_eq_some_iff hd, ← and_assoc, ← hasTemplate_iff hd]
  constructor
  · rintro ⟨htemplate, hleast⟩
    refine ⟨htemplate, fun {key' v'} h hne ↦ ?_⟩
    obtain ⟨hmem, hnamed⟩ := (hasTemplate_iff hd).1 h
    exact Text.lt_iff_bytes_lt.1 (hleast (key', v') hmem hnamed hne)
  · intro h
    refine ⟨h.toHasTemplate, fun f hmem hnamed hne ↦ ?_⟩
    exact Text.lt_iff_bytes_lt.2 (h.least ((hasTemplate_iff hd).2 ⟨hmem, hnamed⟩) hne)

theorem find?_eq_none_iff (hd : d.vertices.Sorted) :
    d.vertices.entries.find? (templateNamed c name) = none ↔ ∀ key v, ¬ d.HasTemplate c name key v := by
  simp [List.find?_eq_none, hasTemplate_iff hd]

end CloutDocument

namespace Graph

variable {d : CloutDocument} {g : Graph}

theorem map_vertices_ofDocument (h : ofDocument d = .ok g) :
    g.vertices.toList.map (fun w ↦ (w.key, w.metadata, w.properties)) =
      d.vertices.entries.map fun e ↦ (e.1, e.2.metadata, e.2.properties) := by
  obtain ⟨placed, -, -, -, -, hvertices, -, hadds⟩ := ofDocument_eq_ok h
  have hsize : g.vertices.size = d.vertices.entries.length := by
    simp [hadds.size_vertices, hvertices, length_verticesFrom]
  apply List.ext_getElem
  · simpa using hsize
  · intro i hi hi'
    rw [List.length_map] at hi'
    obtain ⟨w, hw, hkey, hmetadata, hproperties⟩ :=
      hadds.exists_vertex hvertices (List.getElem?_eq_getElem hi')
    obtain ⟨hlt, hw⟩ := Array.getElem?_eq_some_iff.1 hw
    simp [hw, hkey, hmetadata, hproperties]

end Graph

namespace Resolver

variable {r : Resolver} {name : String} {d : CloutDocument} {g : Graph}

theorem resolveNamedEntity_eq_find? (hname : name ∉ EntityRef.reserved) (context : CallContext) :
    r.resolveNamedEntity context name =
      match r.graph.vertices.toList.find? (r.isTemplateNamed name) with
      | some w => .ok w
      | none => .error (.notFound (.nodeTemplate name)) := by
  rw [resolveNamedEntity, EntityRef.parse_unreserved hname, resolveEntity, candidate,
    Array.find?_toList]
  cases hfound : r.graph.vertices.find? (r.isTemplateNamed name) with
  | none => rfl
  | some w =>
    have hw := Array.find?_some hfound
    simp only [isTemplateNamed, Bool.and_eq_true] at hw
    simp [Except.bind, Option.filter_some, hw.1]

theorem map_find?_vertices (h : Graph.ofDocument d = .ok r.graph) (name : String) :
    (r.graph.vertices.toList.find? (r.isTemplateNamed name)).map
        (fun w ↦ (w.key, w.metadata, w.properties)) =
      (d.vertices.entries.find? (CloutDocument.templateNamed r.classifier name)).map
        fun e ↦ (e.1, e.2.metadata, e.2.properties) := by
  let named (x : String × Payload × Payload) : Bool :=
    r.classifier.hasKind x.2.1 .nodeTemplate && Payload.name? x.2.2 = some name
  have hfind := congrArg (List.find? named) (Graph.map_vertices_ofDocument h)
  rw [List.find?_map, List.find?_map] at hfind
  exact hfind

variable {context : CallContext} {w : Vertex}

theorem resolveNamedEntity_eq_ok_iff_least (h : d.Loads r.graph) (hname : name ∉ EntityRef.reserved) :
    r.resolveNamedEntity context name = .ok w ↔ w ∈ r.graph.vertices ∧
      ∃ v, d.LeastTemplate r.classifier name w.key v ∧ w.metadata = v.metadata ∧
        w.properties = v.properties := by
  have hsorted := h.sorted
  have hfind := map_find?_vertices h.ofDocument name
  have hok : r.resolveNamedEntity context name = .ok w ↔
      r.graph.vertices.toList.find? (r.isTemplateNamed name) = some w := by
    rw [resolveNamedEntity_eq_find? hname]
    cases r.graph.vertices.toList.find? (r.isTemplateNamed name) <;> simp
  rw [hok]
  constructor
  · intro hw
    rw [hw, Option.map_some, eq_comm, Option.map_eq_some_iff] at hfind
    obtain ⟨⟨key, v⟩, hv, heq⟩ := hfind
    simp only [Prod.mk.injEq] at heq
    obtain ⟨rfl, hmetadata, hproperties⟩ := heq
    refine ⟨Array.mem_toList_iff.1 (List.mem_of_find?_eq_some hw), v, ?_, hmetadata.symm, hproperties.symm⟩
    exact (CloutDocument.find?_eq_some_iff hsorted).1 hv
  · rintro ⟨hmem, v, hleast, -⟩
    rw [(CloutDocument.find?_eq_some_iff hsorted).2 hleast, Option.map_some, Option.map_eq_some_iff] at hfind
    obtain ⟨u, hu, heq⟩ := hfind
    simp only [Prod.mk.injEq] at heq
    have hstored := Array.mem_toList_iff.1 (List.mem_of_find?_eq_some hu)
    rw [hu, (Graph.Coherent.ofDocument h.ofDocument).key_injective hstored hmem heq.1]

theorem resolveNamedEntity_eq_error_iff_no_template (h : d.Loads r.graph)
    (hname : name ∉ EntityRef.reserved) {e : ResolveError} :
    r.resolveNamedEntity context name = .error e ↔
      e = .notFound (.nodeTemplate name) ∧ ∀ key v, ¬ d.HasTemplate r.classifier name key v := by
  have hfind := map_find?_vertices h.ofDocument name
  have hnone : r.graph.vertices.toList.find? (r.isTemplateNamed name) = none ↔
      ∀ key v, ¬ d.HasTemplate r.classifier name key v := by
    rw [← CloutDocument.find?_eq_none_iff h.sorted, ← Option.map_eq_none_iff, hfind, Option.map_eq_none_iff]
  rw [resolveNamedEntity_eq_find? hname, ← hnone]
  cases r.graph.vertices.toList.find? (r.isTemplateNamed name) <;> simp [eq_comm]

/-- Nothing but the keys of the node templates of the name bears on the answer. -/
theorem map_key_resolveNamedEntity_congr {d' : CloutDocument} {r' : Resolver} {context' : CallContext}
    (h : d.Loads r.graph) (h' : d'.Loads r'.graph) (hc : r'.classifier = r.classifier)
    (hname : name ∉ EntityRef.reserved)
    (hkeys : ∀ key, (∃ v, d'.HasTemplate r.classifier name key v) ↔
      ∃ v, d.HasTemplate r.classifier name key v) :
    (r'.resolveNamedEntity context' name).map Vertex.key =
      (r.resolveNamedEntity context name).map Vertex.key := by
  cases hfound : r.resolveNamedEntity context name with
  | error e =>
    obtain ⟨rfl, hnone⟩ := (resolveNamedEntity_eq_error_iff_no_template h hname).1 hfound
    have hnone' : ∀ key v, ¬ d'.HasTemplate r'.classifier name key v := by
      intro key v hv
      obtain ⟨u, hu⟩ := (hkeys key).1 ⟨v, hc ▸ hv⟩
      exact hnone key u hu
    rw [(resolveNamedEntity_eq_error_iff_no_template h' hname).2 ⟨rfl, hnone'⟩]
  | ok w =>
    obtain ⟨-, v, hleast, -⟩ := (resolveNamedEntity_eq_ok_iff_least h hname).1 hfound
    cases hfound' : r'.resolveNamedEntity context' name with
    | error e =>
      obtain ⟨-, hnone⟩ := (resolveNamedEntity_eq_error_iff_no_template h' hname).1 hfound'
      obtain ⟨u, hu⟩ := (hkeys w.key).2 ⟨v, hleast.toHasTemplate⟩
      exact absurd (hc ▸ hu) (hnone w.key u)
    | ok w' =>
      obtain ⟨-, v', hleast', -⟩ := (resolveNamedEntity_eq_ok_iff_least h' hname).1 hfound'
      rw [hc] at hleast'
      obtain ⟨u, hu⟩ := (hkeys w.key).2 ⟨v, hleast.toHasTemplate⟩
      obtain ⟨u', hu'⟩ := (hkeys w'.key).1 ⟨v', hleast'.toHasTemplate⟩
      -- each of two different keys would be less than the other
      by_contra hne
      have hkey : w'.key ≠ w.key := by
        intro heq
        simp [Except.map, heq] at hne
      exact List.lt_asymm (hleast.least hu' hkey) (hleast'.least hu hkey.symm)

theorem resolveNamedEntity_least_key (h : d.Loads r.graph) (hname : name ∉ EntityRef.reserved) :
    (∀ context w, r.resolveNamedEntity context name = .ok w ↔ w ∈ r.graph.vertices ∧
      ∃ v, d.LeastTemplate r.classifier name w.key v ∧ w.metadata = v.metadata ∧
        w.properties = v.properties) ∧
    (∀ context e, r.resolveNamedEntity context name = .error e ↔
      e = .notFound (.nodeTemplate name) ∧ ∀ key v, ¬ d.HasTemplate r.classifier name key v) ∧
    ∀ (d' : CloutDocument) (r' : Resolver), d'.Loads r'.graph → r'.classifier = r.classifier →
      (∀ key, (∃ v, d'.HasTemplate r.classifier name key v) ↔
        ∃ v, d.HasTemplate r.classifier name key v) →
      ∀ context context', (r'.resolveNamedEntity context' name).map Vertex.key =
        (r.resolveNamedEntity context name).map Vertex.key :=
  ⟨fun _ _ ↦ resolveNamedEntity_eq_ok_iff_least h hname,
    fun _ _ ↦ resolveNamedEntity_eq_error_iff_no_template h hname,
    fun _ _ h' hc hkeys _ _ ↦ map_key_resolveNamedEntity_congr h h' hc hname hkeys⟩

end Resolver

namespace CloutDocument.Twins

def named : Payload := ⟨[("name", .text "web")]⟩

def mark : Payload := Classifier.standard.mark .nodeTemplate

def plain : VertexDocument := ⟨∅, named, []⟩

def template : VertexDocument := ⟨mark, named, []⟩

def linked : VertexDocument := ⟨mark, named, [⟨∅, ∅, "a"⟩]⟩

/-- The vertex with the least key of all is not marked; of the two node templates the later one has an
edge. -/
def document : CloutDocument := ⟨"1.0", ∅, ∅, ⟨[("a", plain), ("b", template), ("c", linked)]⟩⟩

def bare : CloutDocument := ⟨"1.0", ∅, ∅, ⟨[("b", template), ("c", template)]⟩⟩

def vertexValue (members : List (String × Value)) : Value :=
  .object ⟨members ++ [("properties", .object named)]⟩

def value : Value :=
  .object ⟨[("vertexes", .object ⟨[("a", vertexValue []), ("b", vertexValue [("metadata", .object mark)]),
    ("c", vertexValue [("edgesOut", .array [.object ⟨[("targetID", .text "a")]⟩]),
      ("metadata", .object mark)])]⟩)]⟩

def bareValue : Value :=
  .object ⟨[("vertexes", .object ⟨[("b", vertexValue [("metadata", .object mark)]),
    ("c", vertexValue [("metadata", .object mark)])]⟩)]⟩

def first : Vertex := ⟨⟨1⟩, "b", mark, named, []⟩

def resolver : Resolver where
  graph := ⟨"1.0", ∅, ∅, [], #[⟨⟨0⟩, "a", ∅, named, []⟩, first, ⟨⟨2⟩, "c", mark, named, [⟨0⟩]⟩],
    #[⟨⟨0⟩, ⟨2⟩, ⟨0⟩, ∅, ∅⟩], ⟨[("a", ⟨0⟩), ("b", ⟨1⟩), ("c", ⟨2⟩)]⟩⟩
  host := Host.passthrough
  config := Config.standard

def bareResolver : Resolver where
  graph := ⟨"1.0", ∅, ∅, [], #[⟨⟨0⟩, "b", mark, named, []⟩, ⟨⟨1⟩, "c", mark, named, []⟩], #[],
    ⟨[("b", ⟨0⟩), ("c", ⟨1⟩)]⟩⟩
  host := Host.passthrough
  config := Config.standard

theorem ofValue_value : Graph.ofValue value = .ok resolver.graph := by cbv

theorem ofValue_bareValue : Graph.ofValue bareValue = .ok bareResolver.graph := by cbv

theorem loads : document.Loads resolver.graph := .value (by cbv) ofValue_value

theorem bare_loads : bare.Loads bareResolver.graph := .value (by cbv) ofValue_bareValue

theorem templateNamed_plain (name key : String) :
    templateNamed Classifier.standard name (key, plain) = false := rfl

theorem templateNamed_marked (name key : String) (edges : List EdgeDocument) :
    templateNamed Classifier.standard name (key, ⟨mark, named, edges⟩) ↔ name = "web" := by
  have hkind : Classifier.standard.hasKind mark .nodeTemplate := Classifier.standard.hasKind_mark .nodeTemplate
  simp only [templateNamed, Bool.and_eq_true, decide_eq_true_eq, Payload.name?_eq_some_iff, hkind, true_and]
  simp [named, Table.get?, eq_comm]

theorem hasTemplate_iff {name key : String} : (∃ v, document.HasTemplate Classifier.standard name key v) ↔
    name = "web" ∧ (key = "b" ∨ key = "c") := by
  have hsorted : document.vertices.Sorted := by decide
  simp only [CloutDocument.hasTemplate_iff hsorted]
  simp [document, template, linked, exists_or, templateNamed_plain, templateNamed_marked, and_or_left, and_comm]

theorem bare_hasTemplate_iff {name key : String} : (∃ v, bare.HasTemplate Classifier.standard name key v) ↔
    name = "web" ∧ (key = "b" ∨ key = "c") := by
  have hsorted : bare.vertices.Sorted := by decide
  simp only [CloutDocument.hasTemplate_iff hsorted]
  simp [bare, template, exists_or, templateNamed_marked, and_or_left, and_comm]

theorem leastTemplate : document.LeastTemplate Classifier.standard "web" "b" template where
  held := rfl
  marked := Classifier.standard.marks_mark .nodeTemplate
  named := rfl
  least {key v} h hne := by
    obtain ⟨-, rfl | rfl⟩ := hasTemplate_iff.1 ⟨v, h⟩
    · exact absurd rfl hne
    · exact Text.lt_iff_bytes_lt.1 (by decide)

end CloutDocument.Twins

namespace Resolver

open CloutDocument.Twins in
/-- Without the unmarked vertex and the edge the answer has the same key. -/
theorem resolveNamedEntity_least_key_twins :
    Graph.ofValue value = .ok resolver.graph ∧ Graph.ofValue bareValue = .ok bareResolver.graph ∧
    resolver.resolveNamedEntity .empty "web" = .ok first ∧
    (bareResolver.resolveNamedEntity .empty "web").map Vertex.key = .ok "b" ∧
    resolver.resolveNamedEntity .empty "db" = .error (.notFound (.nodeTemplate "db")) := by
  obtain ⟨hok, -, hsame⟩ := resolveNamedEntity_least_key loads (show "web" ∉ EntityRef.reserved by decide)
  obtain ⟨-, herror, -⟩ := resolveNamedEntity_least_key loads (show "db" ∉ EntityRef.reserved by decide)
  have hfirst : resolver.resolveNamedEntity .empty "web" = .ok first :=
    (hok _ _).2 ⟨by simp [resolver], _, leastTemplate, rfl, rfl⟩
  have hbare := hsame bare bareResolver bare_loads rfl
    (fun key ↦ bare_hasTemplate_iff.trans hasTemplate_iff.symm) .empty .empty
  refine ⟨ofValue_value, ofValue_bareValue, hfirst, ?_, (herror _ _).2 ⟨rfl, fun key v hv ↦ ?_⟩⟩
  · rw [hbare, hfirst]
    rfl
  · exact absurd (hasTemplate_iff.1 ⟨v, hv⟩).1 (by decide)

end Resolver

end CloutQuery
