import CloutQuery.Proofs.Element.Marking
import CloutQuery.Proofs.Graph.Consistency
import CloutQuery.Resolve.Entity

namespace CloutQuery

def CallContext.places (context : CallContext) : List (String × Option VertexId) :=
  [("SELF", context.site), ("SOURCE", context.source), ("TARGET", context.target)]

namespace EntityRef

def reserved : List String := ["SELF", "SOURCE", "TARGET", "HOST"]

theorem text_parse (name : String) : (parse name).text = name := by
  unfold parse
  split <;> rfl

theorem parse_unreserved {name : String} (h : name ∉ reserved) : parse name = .named name := by
  unfold parse
  split
  · simp [reserved] at h
  · simp [reserved] at h
  · simp [reserved] at h
  · simp [reserved] at h
  · rfl

end EntityRef

namespace Resolver

variable {r : Resolver} {context : CallContext}

/-- The vertex that a name stands for. A named node template is the first in the graph's order, whatever
else of that name stands before it. -/
inductive Denotes (r : Resolver) (context : CallContext) : String → Vertex → Prop
  | place {word : String} {v : Vertex} (at_place : (word, some v.id) ∈ context.places)
      (stored : v ∈ r.graph.vertices) (marked : r.classifier.Marks v.metadata "NodeTemplate") :
      Denotes r context word v
  | host {site v : Vertex} (at_site : context.site = some site.id) (stored : site ∈ r.graph.vertices)
      (hosted : r.resolveHost site.id = .ok v) (marked : r.classifier.Marks v.metadata "NodeTemplate") :
      Denotes r context "HOST" v
  | named {name : String} {v : Vertex} {before after : List Vertex}
      (unreserved : name ∉ EntityRef.reserved)
      (order : r.graph.vertices.toList = before ++ v :: after)
      (marked : r.classifier.Marks v.metadata "NodeTemplate")
      (named : v.properties.get? "name" = some (.text name))
      (skipped : ∀ u ∈ before, u.properties.get? "name" = some (.text name) →
        ¬ r.classifier.Marks u.metadata "NodeTemplate") :
      Denotes r context name v

inductive Unresolved (r : Resolver) (context : CallContext) : String → ResolveError → Prop
  | noPlace {word : String} (empty : (word, none) ∈ context.places) :
      Unresolved r context word (.context word)
  | noVertex {word : String} {id : VertexId} (at_place : (word, some id) ∈ context.places)
      (dangling : r.graph.vertex? id = none) :
      Unresolved r context word (.notFound (.nodeTemplate word))
  | unmarked {word : String} {v : Vertex} (at_place : (word, some v.id) ∈ context.places)
      (stored : v ∈ r.graph.vertices) (unmarked : ¬ r.classifier.Marks v.metadata "NodeTemplate") :
      Unresolved r context word (.notFound (.nodeTemplate word))
  | noSite (empty : context.site = none) : Unresolved r context "HOST" (.context "HOST")
  | noSiteVertex {id : VertexId} (at_site : context.site = some id)
      (dangling : r.graph.vertex? id = none) :
      Unresolved r context "HOST" (.notFound (.nodeTemplate "HOST"))
  | noHost {site : Vertex} {e : ResolveError} (at_site : context.site = some site.id)
      (stored : site ∈ r.graph.vertices) (hostless : r.resolveHost site.id = .error e) :
      Unresolved r context "HOST" e
  | unmarkedHost {site v : Vertex} (at_site : context.site = some site.id)
      (stored : site ∈ r.graph.vertices) (hosted : r.resolveHost site.id = .ok v)
      (unmarked : ¬ r.classifier.Marks v.metadata "NodeTemplate") :
      Unresolved r context "HOST" (.notFound (.nodeTemplate "HOST"))
  | noName {name : String} (unreserved : name ∉ EntityRef.reserved)
      (unused : ∀ v ∈ r.graph.vertices, v.properties.get? "name" = some (.text name) →
        ¬ r.classifier.Marks v.metadata "NodeTemplate") :
      Unresolved r context name (.notFound (.nodeTemplate name))

theorem isTemplateNamed_iff {name : String} {v : Vertex} : r.isTemplateNamed name v ↔
    r.classifier.Marks v.metadata "NodeTemplate" ∧ v.properties.get? "name" = some (.text name) := by
  rw [isTemplateNamed, Bool.and_eq_true, decide_eq_true_eq, Classifier.isNodeTemplate_iff, Vertex.name?,
    Payload.name?_eq_some_iff]

theorem resolveEntity_eq_ok_iff {entity : EntityRef} {v : Vertex} :
    r.resolveEntity context entity = .ok v ↔
      r.candidate context entity = .ok (some v) ∧ r.classifier.Marks v.metadata "NodeTemplate" := by
  rw [← Classifier.isNodeTemplate_iff]
  unfold resolveEntity
  cases r.candidate context entity with
  | error e => simp [Except.bind]
  | ok found =>
    cases found with
    | none => simp [Except.bind]
    | some u =>
      simp only [Except.bind, Option.filter_some]
      by_cases hu : r.classifier.isNodeTemplate u
      · rw [if_pos hu]
        simp only [Except.ok.injEq, Option.some.injEq, iff_self_and]
        rintro rfl
        exact hu
      · rw [if_neg hu]
        simp only [reduceCtorEq, Except.ok.injEq, Option.some.injEq, false_iff, not_and]
        rintro rfl
        exact hu

theorem resolveEntity_of_error {entity : EntityRef} {e : ResolveError}
    (h : r.candidate context entity = .error e) : r.resolveEntity context entity = .error e := by
  rw [resolveEntity, h]
  rfl

theorem resolveEntity_of_unmarked {entity : EntityRef} {found : Option Vertex}
    (h : r.candidate context entity = .ok found)
    (hfound : ∀ v, found = some v → ¬ r.classifier.Marks v.metadata "NodeTemplate") :
    r.resolveEntity context entity = .error (.notFound (.nodeTemplate entity.text)) := by
  have hnone : found.filter r.classifier.isNodeTemplate = none := by
    simpa only [Option.filter_eq_none_iff, Classifier.isNodeTemplate_iff] using hfound
  rw [resolveEntity, h]
  simp only [Except.bind, hnone]

theorem candidate_place {word : String} {place : Option VertexId} (h : (word, place) ∈ context.places) :
    r.candidate context (EntityRef.parse word) = r.contextVertex place (EntityRef.parse word) := by
  simp only [CallContext.places, List.mem_cons, Prod.mk.injEq, List.not_mem_nil, or_false] at h
  obtain ⟨rfl, rfl⟩ | ⟨rfl, rfl⟩ | ⟨rfl, rfl⟩ := h <;> rfl

theorem candidate_host {site : VertexId} {v : Vertex} (hsite : context.site = some site)
    (hv : r.graph.vertex? site = some v) :
    r.candidate context .host = (r.resolveHost site).map some := by
  unfold candidate contextVertex resolveHost
  simp only [hsite, hv, Except.bind]

theorem resolveNamedEntity_of_denotes (hg : r.graph.Coherent) {name : String} {v : Vertex}
    (h : r.Denotes context name v) : r.resolveNamedEntity context name = .ok v := by
  unfold resolveNamedEntity
  rw [resolveEntity_eq_ok_iff]
  cases h with
  | place at_place stored marked =>
    rw [candidate_place at_place]
    exact ⟨congrArg Except.ok (hg.vertex?_id stored), marked⟩
  | host at_site stored hosted marked =>
    refine ⟨?_, marked⟩
    have hhost := r.candidate_host at_site (hg.vertex?_id stored)
    rw [hosted] at hhost
    exact hhost
  | named unreserved order marked named skipped =>
    rw [EntityRef.parse_unreserved unreserved]
    refine ⟨congrArg Except.ok ?_, marked⟩
    rw [← Array.find?_toList, List.find?_eq_some_iff_append]
    refine ⟨isTemplateNamed_iff.2 ⟨marked, named⟩, _, _, order, fun u hu ↦ ?_⟩
    by_contra hfound
    rw [Bool.not_eq_true', Bool.not_eq_false, isTemplateNamed_iff] at hfound
    exact skipped u hu hfound.2 hfound.1

theorem resolveNamedEntity_of_unresolved (hg : r.graph.Coherent) {name : String} {e : ResolveError}
    (h : r.Unresolved context name e) : r.resolveNamedEntity context name = .error e := by
  unfold resolveNamedEntity
  cases h with
  | noPlace empty =>
    apply resolveEntity_of_error
    rw [candidate_place empty, contextVertex, EntityRef.text_parse]
  | noVertex at_place dangling =>
    have hfound := candidate_place (r := r) at_place
    rw [contextVertex, dangling] at hfound
    rw [resolveEntity_of_unmarked hfound (by simp), EntityRef.text_parse]
  | unmarked at_place stored unmarked =>
    have hfound := candidate_place (r := r) at_place
    rw [contextVertex, hg.vertex?_id stored] at hfound
    rw [resolveEntity_of_unmarked hfound (by simpa using unmarked), EntityRef.text_parse]
  | noSite empty =>
    apply resolveEntity_of_error
    change r.candidate context .host = _
    simp only [candidate, contextVertex, empty]
    rfl
  | noSiteVertex at_site dangling =>
    have hfound : r.candidate context .host = .ok none := by
      simp only [candidate, contextVertex, at_site, Except.bind, dangling]
    exact resolveEntity_of_unmarked hfound (by simp)
  | noHost at_site stored hostless =>
    apply resolveEntity_of_error
    change r.candidate context .host = _
    rw [r.candidate_host at_site (hg.vertex?_id stored), hostless]
    rfl
  | unmarkedHost at_site stored hosted unmarked =>
    have hfound : r.candidate context .host = _ := r.candidate_host at_site (hg.vertex?_id stored)
    rw [hosted] at hfound
    exact resolveEntity_of_unmarked hfound (by simpa using unmarked)
  | noName unreserved unused =>
    rw [EntityRef.parse_unreserved unreserved]
    have hnone : r.graph.vertices.find? (r.isTemplateNamed name) = none := by
      rw [Array.find?_eq_none]
      intro v hv hfound
      rw [isTemplateNamed_iff] at hfound
      exact unused v hv hfound.2 hfound.1
    exact resolveEntity_of_unmarked (congrArg Except.ok hnone) (by simp)

theorem mem_of_resolveHost_eq_ok {id : VertexId} {v : Vertex} (h : r.resolveHost id = .ok v) :
    v ∈ r.graph.vertices := by
  unfold resolveHost at h
  split at h
  · unfold hostOf at h
    split at h
    · rename_i host hhost
      cases h
      obtain ⟨e, -, he⟩ := List.exists_of_findSome?_eq_some hhost
      unfold hostThrough? at he
      split_ifs at he
      exact Graph.mem_vertices_iff.2 ⟨_, he⟩
    · cases h
  · cases h

theorem place_denotes_or_unresolved (hg : r.graph.Coherent) {word : String} {place : Option VertexId}
    (h : (word, place) ∈ context.places) :
    (∃ v, r.Denotes context word v) ∨ ∃ e, r.Unresolved context word e := by
  cases place with
  | none => exact .inr ⟨_, .noPlace h⟩
  | some id =>
    cases hv : r.graph.vertex? id with
    | none => exact .inr ⟨_, .noVertex h hv⟩
    | some v =>
      have hid := hg.vertex_id hv
      have hstored := Graph.mem_vertices_iff.2 ⟨id, hv⟩
      subst hid
      by_cases ht : r.classifier.Marks v.metadata "NodeTemplate"
      · exact .inl ⟨v, .place h hstored ht⟩
      · exact .inr ⟨_, .unmarked h hstored ht⟩

theorem host_denotes_or_unresolved (hg : r.graph.Coherent) :
    (∃ v, r.Denotes context "HOST" v) ∨ ∃ e, r.Unresolved context "HOST" e := by
  cases hsite : context.site with
  | none => exact .inr ⟨_, .noSite hsite⟩
  | some id =>
    cases hv : r.graph.vertex? id with
    | none => exact .inr ⟨_, .noSiteVertex hsite hv⟩
    | some site =>
      have hid := hg.vertex_id hv
      have hstored := Graph.mem_vertices_iff.2 ⟨id, hv⟩
      subst hid
      cases hhost : r.resolveHost site.id with
      | error e => exact .inr ⟨e, .noHost hsite hstored hhost⟩
      | ok v =>
        by_cases ht : r.classifier.Marks v.metadata "NodeTemplate"
        · exact .inl ⟨v, .host hsite hstored hhost ht⟩
        · exact .inr ⟨_, .unmarkedHost hsite hstored hhost ht⟩

theorem named_denotes_or_unresolved {name : String} (h : name ∉ EntityRef.reserved) :
    (∃ v, r.Denotes context name v) ∨ ∃ e, r.Unresolved context name e := by
  cases hfound : r.graph.vertices.toList.find? (r.isTemplateNamed name) with
  | none =>
    refine .inr ⟨_, .noName h fun v hv hname ht ↦ ?_⟩
    exact List.find?_eq_none.1 hfound v (Array.mem_toList_iff.2 hv) (isTemplateNamed_iff.2 ⟨ht, hname⟩)
  | some v =>
    obtain ⟨hv, before, after, horder, hbefore⟩ := List.find?_eq_some_iff_append.1 hfound
    rw [isTemplateNamed_iff] at hv
    refine .inl ⟨v, .named h horder hv.1 hv.2 fun u hu hname ht ↦ ?_⟩
    have hnot := hbefore u hu
    rw [isTemplateNamed_iff.2 ⟨ht, hname⟩] at hnot
    cases hnot

theorem denotes_or_unresolved (hg : r.graph.Coherent) (context : CallContext) (name : String) :
    (∃ v, r.Denotes context name v) ∨ ∃ e, r.Unresolved context name e := by
  by_cases hname : name ∈ EntityRef.reserved
  · simp only [EntityRef.reserved, List.mem_cons, List.not_mem_nil, or_false] at hname
    obtain rfl | rfl | rfl | rfl := hname
    · exact place_denotes_or_unresolved hg (.head _)
    · exact place_denotes_or_unresolved hg (.tail _ (.head _))
    · exact place_denotes_or_unresolved hg (.tail _ (.tail _ (.head _)))
    · exact host_denotes_or_unresolved hg
  · exact named_denotes_or_unresolved hname

theorem resolveNamedEntity_eq_ok_iff (hg : r.graph.Coherent) {name : String} {v : Vertex} :
    r.resolveNamedEntity context name = .ok v ↔ r.Denotes context name v :=
  (exact_of_reason (fun _ ↦ resolveNamedEntity_of_denotes hg) (fun _ ↦ resolveNamedEntity_of_unresolved hg)
    (denotes_or_unresolved hg context name)).1 v

theorem resolveNamedEntity_eq_error_iff (hg : r.graph.Coherent) {name : String} {e : ResolveError} :
    r.resolveNamedEntity context name = .error e ↔ r.Unresolved context name e :=
  (exact_of_reason (fun _ ↦ resolveNamedEntity_of_denotes hg) (fun _ ↦ resolveNamedEntity_of_unresolved hg)
    (denotes_or_unresolved hg context name)).2 e

theorem resolveNamedEntity_empty_place (r : Resolver) {word : String}
    (h : (word, none) ∈ context.places ∨ word = "HOST" ∧ context.site = none) :
    r.resolveNamedEntity context word = .error (.context word) := by
  apply resolveEntity_of_error
  obtain h | ⟨rfl, hsite⟩ := h
  · rw [candidate_place h, contextVertex, EntityRef.text_parse]
  · change r.candidate context .host = _
    simp only [candidate, contextVertex, hsite]
    rfl

theorem resolveNamedEntity_exact (h : r.graph.Reachable) (context : CallContext) :
    (∀ name v, r.resolveNamedEntity context name = .ok v → v ∈ r.graph.vertices ∧
      r.classifier.Marks v.metadata "NodeTemplate") ∧
    (∀ name v, r.resolveNamedEntity context name = .ok v ↔ r.Denotes context name v) ∧
    (∀ name e, r.resolveNamedEntity context name = .error e ↔ r.Unresolved context name e) ∧
    ∀ word, (word, none) ∈ context.places ∨ word = "HOST" ∧ context.site = none → ∀ graph,
      Resolver.resolveNamedEntity { r with graph } context word = .error (.context word) := by
  have hg := h.coherent
  refine ⟨fun name v hv ↦ ?_, fun name v ↦ resolveNamedEntity_eq_ok_iff hg,
    fun name e ↦ resolveNamedEntity_eq_error_iff hg, fun word hword graph ↦
    resolveNamedEntity_empty_place _ hword⟩
  cases (resolveNamedEntity_eq_ok_iff hg).1 hv with
  | place at_place stored marked => exact ⟨stored, marked⟩
  | host at_site stored hosted marked => exact ⟨mem_of_resolveHost_eq_ok hosted, marked⟩
  | named unreserved order marked named skipped =>
    refine ⟨Array.mem_toList_iff.1 ?_, marked⟩
    rw [order]
    exact List.mem_append_right _ List.mem_cons_self

end Resolver

namespace Resolver.HostedWeb

def named (name : String) : Payload := ⟨[("name", .text name)]⟩

theorem named_get? {name other : String} :
    (named name).get? "name" = some (.text other) ↔ name = other := by
  simp [named, Table.get?]

def ghost : Vertex := ⟨⟨0⟩, "a", ∅, named "web", []⟩

def web : Vertex := ⟨⟨1⟩, "b", Classifier.standard.mark .nodeTemplate, named "web", [⟨0⟩]⟩

def server : Vertex := ⟨⟨2⟩, "c", Classifier.standard.mark .nodeTemplate, named "server", []⟩

/-- An unmarked vertex comes before the node template of its name. -/
def resolver : Resolver :=
  ⟨(Graph.empty "1.0").run [.addVertex ghost.key ghost.metadata ghost.properties,
    .addVertex web.key web.metadata web.properties, .addVertex server.key server.metadata server.properties,
    .addEdge web.id server.id (Classifier.standard.mark .relationship)
      ⟨[("types", Classifier.roleTypes "host")]⟩], Host.passthrough, Config.standard⟩

def context : CallContext := ⟨some web.id, none, some ghost.id⟩

theorem reachable : resolver.graph.Reachable := (Graph.Reachable.new "1.0").run _

theorem vertices_eq : resolver.graph.vertices.toList = [ghost, web, server] := by cbv

theorem host_eq : resolver.resolveHost web.id = .ok server := by cbv

theorem stored {v : Vertex} (h : v ∈ [ghost, web, server]) : v ∈ resolver.graph.vertices := by
  rwa [← Array.mem_toList_iff, vertices_eq]

theorem ghost_unmarked : ¬ resolver.classifier.Marks ghost.metadata "NodeTemplate" := by
  intro h
  obtain ⟨_, hmark, -⟩ := h
  cases hmark

theorem denotes_web : resolver.Denotes context "web" web := by
  have horder : resolver.graph.vertices.toList = [ghost] ++ web :: [server] := vertices_eq
  apply Denotes.named (by decide) horder (Classifier.standard.marks_mark _) rfl
  intro u hu _
  rw [List.mem_singleton.1 hu]
  exact ghost_unmarked

theorem denotes_server : resolver.Denotes context "server" server := by
  have horder : resolver.graph.vertices.toList = [ghost, web] ++ server :: [] := vertices_eq
  apply Denotes.named (by decide) horder (Classifier.standard.marks_mark _) rfl
  intro u hu hname
  -- both vertices in front have the name `web`
  have hweb : u.properties = named "web" := by
    simp only [List.mem_cons, List.not_mem_nil, or_false] at hu
    rcases hu with rfl | rfl <;> rfl
  rw [hweb, named_get?] at hname
  exact absurd hname (by decide)

end Resolver.HostedWeb

namespace Resolver

open HostedWeb in
/-- An unmarked vertex is passed over for the node template of its name behind it; in a place of the
context it is found and turned down. -/
theorem resolveNamedEntity_exact_web :
    resolver.graph.Reachable ∧ resolver.graph.vertices.toList = [ghost, web, server] ∧
    resolver.resolveNamedEntity context "web" = .ok web ∧
    resolver.resolveNamedEntity context "server" = .ok server ∧
    resolver.resolveNamedEntity context "HOST" = .ok server ∧
    resolver.resolveNamedEntity context "ghost" = .error (.notFound (.nodeTemplate "ghost")) ∧
    resolver.resolveNamedEntity context "SOURCE" = .error (.context "SOURCE") ∧
    resolver.resolveNamedEntity context "TARGET" = .error (.notFound (.nodeTemplate "TARGET")) := by
  obtain ⟨-, hok, herror, hempty⟩ := resolveNamedEntity_exact reachable context
  refine ⟨reachable, vertices_eq, (hok _ _).2 denotes_web, (hok _ _).2 denotes_server,
    (hok _ _).2 (.host rfl (stored (.tail _ (.head _))) host_eq (Classifier.standard.marks_mark _)), (herror _ _).2 ?_,
    hempty "SOURCE" (.inl (.tail _ (.head _))) resolver.graph,
    (herror _ _).2 (.unmarked (v := ghost) (.tail _ (.tail _ (.head _))) (stored (.head _)) ghost_unmarked)⟩
  apply Unresolved.noName (by decide)
  intro v hv hname
  rw [← Array.mem_toList_iff, vertices_eq] at hv
  simp only [List.mem_cons, List.not_mem_nil, or_false] at hv
  rcases hv with rfl | rfl | rfl <;> exact absurd (named_get?.1 hname) (by decide)

end Resolver

end CloutQuery
