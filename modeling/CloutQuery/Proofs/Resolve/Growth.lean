import CloutQuery.Proofs.Resolve.NamedEntity
import CloutQuery.Proofs.Resolve.View

namespace CloutQuery

structure Sight.Extends (s' s : Sight) : Prop where
  id : s'.id = s.id
  template : s'.template = s.template
  properties : s'.properties = s.properties
  links : s.links <+: s'.links

theorem Sight.Extends.name? {s s' : Sight} (h : s'.Extends s) : s'.name? = s.name? :=
  congrArg Payload.name? h.properties

/-- Changes of the graph as a whole, which concern none of its elements. -/
def Change.outer : Change → Bool
  | addVertex .. | addEdge .. => false
  | setOutput .. | appendHistory .. => true

namespace Graph

variable {g g' : Graph}

theorem run_outer (g : Graph) {changes : List Change} (h : ∀ c ∈ changes, c.outer) :
    ∃ properties history, g.run changes = { g with properties, history } := by
  induction changes generalizing g with
  | nil => exact ⟨g.properties, g.history, rfl⟩
  | cons c rest ih =>
    rw [List.forall_mem_cons] at h
    obtain ⟨properties, history, hrest⟩ := ih (g.apply c) h.2
    cases c with
    | addVertex | addEdge => exact absurd h.1 Bool.false_ne_true
    | setOutput name text =>
      obtain ⟨_, hfirst⟩ := apply_setOutput g name text
      rw [hfirst] at hrest
      exact ⟨properties, history, (congrArg (run · rest) hfirst).trans hrest⟩
    | appendHistory entry => exact ⟨properties, history, hrest⟩

theorem Extends.edgesOut (h : g'.Extends g) (hg : g.Coherent) {v w : Vertex} (hv : v ∈ g.vertices)
    (hlist : v.edgesOut <+: w.edgesOut) : g.edgesOut v <+: g'.edgesOut w := by
  have hsame : v.edgesOut.filterMap g.edge? = v.edgesOut.filterMap g'.edge? := by
    refine List.filterMap_congr fun id hid ↦ ?_
    obtain ⟨e, he, -⟩ := (hg.mem_edgesOut_iff hv).1 hid
    rw [he, h.edge he]
  rw [Graph.edgesOut, hsame]
  exact hlist.filterMap _

end Graph

namespace Resolver

variable {r r' : Resolver}

structure Extends (r' r : Resolver) : Prop where
  vertex {id : VertexId} {v : Vertex} : r.graph.vertex? id = some v →
    ∃ v', r'.graph.vertex? id = some v' ∧ (r'.sight v').Extends (r.sight v)
  target {v : Vertex} {l : Link} : v ∈ r.graph.vertices → l ∈ r.links v →
    ∃ t, r.graph.vertex? l.target = some t
  coerce : r'.host.coerce = r.host.coerce

theorem extends_run {g : Graph} (hg : g.Reachable) (changes : List Change) (host : Host)
    (config : Config) : Extends ⟨g.run changes, host, config⟩ ⟨g, host, config⟩ where
  vertex {id v} hv := by
    have hgrown := Graph.Extends.run g changes
    obtain ⟨w, hw, -, hmetadata, hproperties, hedges⟩ := hgrown.vertex hv
    refine ⟨w, hw, ?_, ?_, hproperties, ?_⟩
    · exact ((hg.run changes).coherent.vertex_id hw).trans (hg.coherent.vertex_id hv).symm
    · exact congrArg (config.classifier.hasKind · .nodeTemplate) hmetadata
    · exact (hgrown.edgesOut hg.coherent (Graph.mem_vertices_iff.2 ⟨id, hv⟩) hedges).filterMap _
  target {v l} hv hl := by
    obtain ⟨e, he, hlink⟩ := List.mem_filterMap.1 hl
    obtain ⟨-, htarget, -⟩ := link?_eq_some hlink
    rw [htarget]
    exact hg.coherent.exists_target hv he
  coerce := rfl

theorem hostOf_eq_ok_iff {v host : Vertex} :
    r.hostOf v = .ok host ↔ (r.links v).findSome? r.hostAt? = some host := by
  rw [hostOf_eq, List.head?_filterMap]
  cases (r.links v).findSome? r.hostAt? <;> simp

namespace Extends

variable (h : r'.Extends r) {v v' : Vertex}

include h

theorem hostAt?_eq_some {l : Link} {host : Vertex} (hhost : r.hostAt? l = some host) :
    ∃ host', r'.hostAt? l = some host' ∧ (r'.sight host').Extends (r.sight host) := by
  unfold hostAt? at hhost ⊢
  split_ifs at hhost ⊢
  exact h.vertex hhost

/-- Nothing comes to be a host that was none: the targets of the links were there before. -/
theorem hostAt?_eq_none (hv : v ∈ r.graph.vertices) {l : Link} (hl : l ∈ r.links v)
    (hnone : r.hostAt? l = none) : r'.hostAt? l = none := by
  obtain ⟨t, ht⟩ := h.target hv hl
  unfold hostAt? at hnone ⊢
  split_ifs at hnone ⊢
  · rw [ht] at hnone
    cases hnone
  · rfl

theorem hostOf (hv : v ∈ r.graph.vertices) (hs : (r'.sight v').Extends (r.sight v)) {host : Vertex}
    (hhost : r.hostOf v = .ok host) :
    ∃ host', r'.hostOf v' = .ok host' ∧ (r'.sight host').Extends (r.sight host) := by
  simp only [hostOf_eq_ok_iff, List.findSome?_eq_some_iff] at hhost ⊢
  obtain ⟨before, l, after, hlinks, hl, hbefore⟩ := hhost
  obtain ⟨more, hmore⟩ := hs.links
  obtain ⟨host', hl', hs'⟩ := h.hostAt?_eq_some hl
  refine ⟨host', ⟨before, l, after ++ more, ?_, hl', fun m hm ↦ ?_⟩, hs'⟩
  · change r.links v ++ more = r'.links v' at hmore
    rw [← hmore, hlinks, List.append_assoc, List.cons_append]
  · refine h.hostAt?_eq_none hv ?_ (hbefore m hm)
    rw [hlinks]
    exact List.mem_append_left _ hm

theorem resolveHost {id : VertexId} {host : Vertex} (hhost : r.resolveHost id = .ok host) :
    ∃ host', r'.resolveHost id = .ok host' ∧ (r'.sight host').Extends (r.sight host) := by
  unfold Resolver.resolveHost at hhost ⊢
  cases hv : r.graph.vertex? id with
  | none =>
    rw [hv] at hhost
    cases hhost
  | some v =>
    rw [hv] at hhost
    obtain ⟨v', hv', hs⟩ := h.vertex hv
    rw [hv']
    exact h.hostOf (Graph.mem_vertices_iff.2 ⟨id, hv⟩) hs hhost

theorem contextVertex {place : Option VertexId} {entity : EntityRef}
    (hv : r.contextVertex place entity = .ok (some v)) :
    ∃ v', r'.contextVertex place entity = .ok (some v') ∧ (r'.sight v').Extends (r.sight v) := by
  cases place with
  | none => cases hv
  | some id =>
    obtain ⟨v', hv', hs⟩ := h.vertex (Except.ok.inj hv)
    exact ⟨v', congrArg Except.ok hv', hs⟩

theorem find? {name : String} (hv : r.graph.vertices.find? (r.isTemplateNamed name) = some v) :
    ∃ v', r'.graph.vertices.find? (r'.isTemplateNamed name) = some v' ∧
      (r'.sight v').Extends (r.sight v) := by
  have hlater {i : ℕ} (hi : i < r.graph.vertices.size) : ∃ hi' : i < r'.graph.vertices.size,
      (r'.sight r'.graph.vertices[i]).Extends (r.sight r.graph.vertices[i]) ∧
      r'.isTemplateNamed name r'.graph.vertices[i] = r.isTemplateNamed name r.graph.vertices[i] := by
    have hv : r.graph.vertex? ⟨i⟩ = some r.graph.vertices[i] := Array.getElem?_eq_getElem hi
    obtain ⟨w, hw, hs⟩ := h.vertex hv
    obtain ⟨hi', rfl⟩ := Array.getElem?_eq_some_iff.1 hw
    refine ⟨hi', hs, ?_⟩
    exact congrArg₂ (fun template found ↦ template && decide (found = some name)) hs.template hs.name?
  -- the vertices in front of the first match are still there, and are still no match
  rw [Array.find?_eq_some_iff_getElem] at hv
  obtain ⟨hmatch, i, hi, rfl, hbefore⟩ := hv
  obtain ⟨hi', hs, hsame⟩ := hlater hi
  refine ⟨_, ?_, hs⟩
  rw [Array.find?_eq_some_iff_getElem]
  refine ⟨hsame.trans hmatch, i, hi', rfl, fun j hj ↦ ?_⟩
  obtain ⟨_, -, hsame'⟩ := hlater (hj.trans hi)
  rw [hsame']
  exact hbefore j hj

theorem candidate {context : CallContext} {entity : EntityRef}
    (hv : r.candidate context entity = .ok (some v)) :
    ∃ v', r'.candidate context entity = .ok (some v') ∧ (r'.sight v').Extends (r.sight v) := by
  cases entity with
  | site | source | target => exact h.contextVertex hv
  | host =>
    cases hsite : context.site with
    | none => simp [Resolver.candidate, Resolver.contextVertex, hsite, Except.bind] at hv
    | some id =>
      cases hu : r.graph.vertex? id with
      | none => simp [Resolver.candidate, Resolver.contextVertex, hsite, hu, Except.bind] at hv
      | some u =>
        rw [r.candidate_host hsite hu, map_eq_ok_iff] at hv
        obtain ⟨host, hhost, ⟨⟩⟩ := hv
        obtain ⟨host', hhost', hs⟩ := h.resolveHost hhost
        obtain ⟨u', hu', -⟩ := h.vertex hu
        refine ⟨host', ?_, hs⟩
        rw [r'.candidate_host hsite hu', hhost']
        rfl
  | named name =>
    obtain ⟨v', hv', hs⟩ := h.find? (Except.ok.inj hv)
    exact ⟨v', congrArg Except.ok hv', hs⟩

theorem resolveEntity {context : CallContext} {entity : EntityRef}
    (hv : r.resolveEntity context entity = .ok v) :
    ∃ v', r'.resolveEntity context entity = .ok v' ∧ (r'.sight v').Extends (r.sight v) := by
  rw [resolveEntity_eq_ok_iff] at hv
  obtain ⟨v', hv', hs⟩ := h.candidate hv.1
  have htemplate := hs.template.trans (Classifier.isNodeTemplate_iff.2 hv.2)
  exact ⟨v', resolveEntity_eq_ok_iff.2 ⟨hv', Classifier.isNodeTemplate_iff.1 htemplate⟩, hs⟩

theorem membersOf (hv : v ∈ r.graph.vertices) (hs : (r'.sight v').Extends (r.sight v)) :
    r.membersOf v <+: r'.membersOf v' := by
  have hsame : (r.links v).filterMap r.memberAt? = (r.links v).filterMap r'.memberAt? := by
    refine List.filterMap_congr fun l hl ↦ ?_
    obtain ⟨t, ht⟩ := h.target hv hl
    obtain ⟨t', ht', hst⟩ := h.vertex ht
    have hproperties : t.properties = t'.properties := hst.properties.symm
    rw [memberAt?, memberAt?, ht, ht', Option.map_some, Option.map_some, hproperties]
  rw [membersOf_eq, membersOf_eq, hsame]
  exact hs.links.filterMap _

theorem groupMembers (id : VertexId) : r.groupMembers id <+: r'.groupMembers id := by
  unfold Resolver.groupMembers
  cases hv : r.graph.vertex? id with
  | none => exact List.nil_prefix
  | some v =>
    obtain ⟨v', hv', hs⟩ := h.vertex hv
    rw [hv']
    exact h.membersOf (Graph.mem_vertices_iff.2 ⟨id, hv⟩) hs

omit h in
/-- A capability or a relationship is selected again; so is the node's own mapping, if the path has
no index that could pick a relationship. -/
theorem source {plural : String} {path : List Segment} {s : Selection}
    (hs : (r'.sight v').Extends (r.sight v)) (hsource : r.Source v plural path s)
    (hsettled : (∀ k, path[1]? ≠ some (.index k)) ∨ s.owner ≠ .node) :
    r'.Source v' plural path s := by
  have hproperties : v'.properties = v.properties := hs.properties
  have hcapability {name : String} {c : Value} : HasCapability v' name c ↔ HasCapability v name c := by
    rw [HasCapability, hproperties, HasCapability]
  cases hsource with
  | capability has => exact .capability (hcapability.2 has)
  | @relationship name place e rest none occurs =>
    have hnamed : (r.relationshipsNamed v name).map (·.properties) <+:
        (r'.relationshipsNamed v' name).map (·.properties) := by
      rw [relationshipsNamed_properties, relationshipsNamed_properties]
      exact hs.links.filterMap _
    have hfound : ((r.relationshipsNamed v name).map (·.properties))[place]? = some e.properties := by
      rw [List.getElem?_map, occurrence_iff.1 occurs, Option.map_some]
    obtain ⟨hplace, hget⟩ := List.getElem?_eq_some_iff.1 hfound
    have hlater := List.prefix_iff_getElem?.1 hnamed place hplace
    rw [hget, List.getElem?_map, Option.map_eq_some_iff] at hlater
    obtain ⟨e', he', hsame⟩ := hlater
    rw [← hsame]
    exact .relationship (fun c hc ↦ none c (hcapability.1 hc)) (occurrence_iff.2 he')
  | node no_capability no_relationship =>
    rw [← hproperties]
    apply Source.node
    · intro name rest c hpath hc
      exact no_capability name rest c hpath (hcapability.1 hc)
    · -- only an index could pick a later relationship, and the path has none
      intro name place rest e hpath
      subst hpath
      exact (hsettled.resolve_right (fun hne ↦ hne rfl) place rfl).elim

theorem nestedValue {context : CallContext} {singular plural : String} {entity : Segment}
    {path : List Segment} {value : Value}
    (hvalue : r.nestedValue context singular plural (entity :: path) = .ok value)
    (hsettled : (∀ k, path[1]? ≠ some (.index k)) ∨
      ∃ n s, r.resolveNamedEntity context entity.text = .ok n ∧ r.Source n plural path s ∧
        s.owner ≠ .node) :
    r'.nestedValue context singular plural (entity :: path) = .ok value := by
  match path with
  | [] => cases hvalue
  | second :: rest =>
    cases hn : r.resolveNamedEntity context entity.text with
    | error e =>
      rw [nestedValue_of_error hn] at hvalue
      cases hvalue
    | ok n =>
      obtain ⟨n', hn', hs⟩ := h.resolveEntity hn
      have howner : (∀ k, (second :: rest)[1]? ≠ some (.index k)) ∨
          (r.select n plural (second :: rest)).owner ≠ .node := by
        refine hsettled.imp_right fun ⟨m, s, hm, hsource, hne⟩ ↦ ?_
        rw [hn, Except.ok.injEq] at hm
        subst hm
        rwa [← hsource.eq_select]
      have hselect := (source hs (r.source_select n plural _) howner).eq_select
      have hname : n'.name? = n.name? := hs.name?
      rw [nestedValue_of_ok hn] at hvalue
      rw [nestedValue_of_ok hn', ← hselect, hname, readSelection, h.coerce]
      exact hvalue

end Extends

/-- A failure may come to an end, and a path that was read in the node's own mapping for want of a
relationship may come to mean the relationship. -/
theorem growth_keeps_answers {g : Graph} (hg : g.Reachable) (changes : List Change) (host : Host)
    (config : Config) :
    let r : Resolver := ⟨g, host, config⟩
    let r' : Resolver := ⟨g.run changes, host, config⟩
    (∀ context entity v, r.resolveEntity context entity = .ok v →
      ∃ v', r'.resolveEntity context entity = .ok v' ∧ v'.id = v.id) ∧
    (∀ id host, r.resolveHost id = .ok host →
      ∃ host', r'.resolveHost id = .ok host' ∧ host'.id = host.id) ∧
    (∀ id, r.groupMembers id <+: r'.groupMembers id) ∧
    (∀ context singular plural entity path value,
      r.nestedValue context singular plural (entity :: path) = .ok value →
      ((∀ k, path[1]? ≠ some (.index k)) ∨
        ∃ n s, r.resolveNamedEntity context entity.text = .ok n ∧ r.Source n plural path s ∧
          s.owner ≠ .node) →
      r'.nestedValue context singular plural (entity :: path) = .ok value) ∧
    ((∀ c ∈ changes, c.outer) →
      r'.resolveEntity = r.resolveEntity ∧ r'.resolveNamedEntity = r.resolveNamedEntity ∧
      r'.resolveHost = r.resolveHost ∧ r'.policyTargets = r.policyTargets ∧
      r'.groupMembers = r.groupMembers ∧ r'.nestedValue = r.nestedValue) := by
  intro r r'
  have h : r'.Extends r := extends_run hg changes host config
  refine ⟨fun context entity v hv ↦ ?_, fun id host hhost ↦ ?_, h.groupMembers,
    fun _ _ _ _ _ _ ↦ h.nestedValue, fun houter ↦ ?_⟩
  · obtain ⟨v', hv', hs⟩ := h.resolveEntity hv
    exact ⟨v', hv', hs.id⟩
  · obtain ⟨host', hhost', hs⟩ := h.resolveHost hhost
    exact ⟨host', hhost', hs.id⟩
  · obtain ⟨properties, history, hrun⟩ := g.run_outer houter
    have hr' : r' = ⟨{ g with properties, history }, host, config⟩ :=
      congrArg (Resolver.mk · host config) hrun
    rw [hr']
    exact ⟨rfl, rfl, rfl, rfl, rfl, rfl⟩

end Resolver

namespace Resolver.GrowingWeb

def template : Payload := Classifier.standard.mark .nodeTemplate

def relationship : Payload := Classifier.standard.mark .relationship

def web : Payload :=
  ⟨[("name", .text "web"), ("properties", .object ⟨[("db", .array [.text "own"])]⟩)]⟩

def resolver : Resolver :=
  ⟨(Graph.empty "1.0").run [.addVertex "a" template web, .addVertex "b" template ∅,
    .addEdge ⟨0⟩ ⟨1⟩ relationship ⟨[("types", Classifier.roleTypes "host")]⟩], Host.passthrough, Config.standard⟩

/-- A second vertex of the name, and a relationship `db` that would be a second host. -/
def changes : List Change :=
  [.addVertex "c" template web,
    .addEdge ⟨0⟩ ⟨2⟩ relationship ⟨[("name", .text "db"), ("types", Classifier.roleTypes "host")]⟩]

def grown : Resolver := ⟨resolver.graph.run changes, resolver.host, resolver.config⟩

def value (r : Resolver) (path : List Segment) : Except ResolveError Value :=
  r.nestedValue .empty "property" "properties" (.key "web" :: path)

theorem reachable : resolver.graph.Reachable := (Graph.Reachable.new "1.0").run _

theorem web_eq : resolver.resolveNamedEntity .empty (Segment.key "web").text =
    .ok ⟨⟨0⟩, "a", template, web, [⟨0⟩]⟩ := by cbv

theorem grown_web_eq : grown.resolveNamedEntity .empty (Segment.key "web").text =
    .ok ⟨⟨0⟩, "a", template, web, [⟨0⟩, ⟨1⟩]⟩ := by cbv

theorem host_eq : resolver.resolveHost ⟨0⟩ = .ok ⟨⟨1⟩, "b", template, ∅, []⟩ := by cbv

theorem value_db : value resolver [.key "db"] = .ok (.array [.text "own"]) := (nestedValue_of_ok web_eq).trans rfl

theorem value_db_item : value resolver [.key "db", .index 0] = .ok (.text "own") := by
  have hselect : resolver.select ⟨⟨0⟩, "a", template, web, [⟨0⟩]⟩ "properties" [.key "db", .index 0] =
      ⟨.node, web.get? "properties", [.key "db", .index 0]⟩ := by cbv
  apply (nestedValue_of_ok web_eq).trans
  rw [hselect]
  rfl

theorem value_grown_db_item : value grown [.key "db", .index 0] ≠ .ok (.text "own") := by
  have hselect : grown.select ⟨⟨0⟩, "a", template, web, [⟨0⟩, ⟨1⟩]⟩ "properties" [.key "db", .index 0] =
      ⟨.relationship "db", none, []⟩ := by cbv
  apply ne_of_eq_of_ne (nestedValue_of_ok grown_web_eq)
  rw [hselect]
  intro h
  cases h

end Resolver.GrowingWeb

namespace Resolver

open GrowingWeb in
/-- The relationship `db` changes no answer but one: in front of an index it takes the place of the
property `db`. -/
theorem growth_keeps_answers_web :
    (∃ v, grown.resolveEntity .empty (.named "web") = .ok v ∧ v.id = ⟨0⟩) ∧
    (∃ host, grown.resolveHost ⟨0⟩ = .ok host ∧ host.id = ⟨1⟩) ∧
    value grown [.key "db"] = .ok (.array [.text "own"]) ∧
    value resolver [.key "db", .index 0] = .ok (.text "own") ∧
    value grown [.key "db", .index 0] ≠ .ok (.text "own") := by
  obtain ⟨hentity, hhost, -, hvalue, -⟩ := growth_keeps_answers reachable changes resolver.host resolver.config
  exact ⟨hentity .empty (.named "web") _ web_eq, hhost ⟨0⟩ _ host_eq,
    hvalue .empty "property" "properties" (.key "web") [.key "db"] _ value_db (.inl (by simp)),
    value_db_item, value_grown_db_item⟩

end Resolver

end CloutQuery
