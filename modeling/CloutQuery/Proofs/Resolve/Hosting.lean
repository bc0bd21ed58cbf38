import CloutQuery.Proofs.Resolve.Growth

namespace CloutQuery

/-- An edge that leads to a host: a relationship, one of whose types has the role of hosts. -/
structure Edge.Hosts (config : Config) (e : Edge) : Prop where
  relationship : config.classifier.Marks e.metadata "Relationship"
  role : ∃ types, e.properties.get? "types" = some (.object types) ∧ ∃ entry ∈ types.entries,
    ∃ metadata, entry.2.get? "metadata" = some metadata ∧
      metadata.get? "role" = some (.text config.hostRole)

/-- An edge without the vertex that it starts at and without its place among the edges. -/
def Edge.content (e : Edge) : VertexId × Payload × Payload := (e.target, e.metadata, e.properties)

/-- The second list has the same edges in front of the first hosting one, in any order, then that one,
then whatever. -/
inductive SameFirstHost (config : Config) : List Edge → List Edge → Prop
  | mk {before after before' after' : List Edge} {e e' : Edge} (hosts : e.Hosts config)
      (skipped : ∀ b ∈ before, ¬ b.Hosts config) (same : e'.content = e.content)
      (order : (before'.map Edge.content).Perm (before.map Edge.content)) :
      SameFirstHost config (before ++ e :: after) (before' ++ e' :: after')

theorem Edge.hosts_congr {config : Config} {e e' : Edge} (h : e'.content = e.content) :
    e'.Hosts config ↔ e.Hosts config := by
  obtain ⟨-, hmetadata, hproperties⟩ : e'.target = e.target ∧ e'.metadata = e.metadata ∧
    e'.properties = e.properties := by simpa [content] using h
  constructor
  · rintro ⟨hrelationship, hrole⟩
    exact ⟨hmetadata ▸ hrelationship, hproperties ▸ hrole⟩
  · rintro ⟨hrelationship, hrole⟩
    exact ⟨hmetadata.symm ▸ hrelationship, hproperties.symm ▸ hrole⟩

namespace Resolver

variable {r r' : Resolver}

theorem hasHostRole_iff {e : Edge} : r.hasHostRole e ↔
    ∃ types, e.properties.get? "types" = some (.object types) ∧ ∃ entry ∈ types.entries,
      ∃ metadata, entry.2.get? "metadata" = some metadata ∧
        metadata.get? "role" = some (.text r.config.hostRole) := by
  simp only [hasHostRole, Option.any_eq_true, Option.bind_eq_some_iff, Value.object?_eq_some_iff,
    List.any_eq_true, Table.values, List.mem_map, decide_eq_true_eq, Value.text?_eq_some_iff]
  constructor
  · rintro ⟨types, ⟨_, htypes, rfl⟩, _, ⟨entry, hentry, rfl⟩, _, ⟨metadata, hmetadata, hrole⟩, rfl⟩
    exact ⟨types, htypes, entry, hentry, metadata, hmetadata, hrole⟩
  · rintro ⟨types, htypes, entry, hentry, metadata, hmetadata, hrole⟩
    exact ⟨types, ⟨_, htypes, rfl⟩, _, ⟨entry, hentry, rfl⟩, _, ⟨metadata, hmetadata, hrole⟩, rfl⟩

theorem hosts_iff {e : Edge} :
    e.Hosts r.config ↔ (r.isKind e .relationship && r.hasHostRole e) = true := by
  rw [Bool.and_eq_true, hasHostRole_iff, isKind, Classifier.hasKind_iff_marks]
  exact ⟨fun h ↦ ⟨h.relationship, h.role⟩, fun h ↦ ⟨h.1, h.2⟩⟩

theorem hostThrough?_of_hosts {e : Edge} (h : e.Hosts r.config) :
    r.hostThrough? e = r.graph.vertex? e.target := if_pos (hosts_iff.1 h)

theorem hostThrough?_of_not_hosts {e : Edge} (h : ¬ e.Hosts r.config) : r.hostThrough? e = none :=
  if_neg fun hboth ↦ h (hosts_iff.2 hboth)

inductive HostedBy (r : Resolver) (id : VertexId) (host : Vertex) : Prop
  | mk {v : Vertex} {before after : List Edge} {e : Edge} (stored : r.graph.vertex? id = some v)
      (order : r.graph.edgesOut v = before ++ e :: after) (hosts : e.Hosts r.config)
      (skipped : ∀ b ∈ before, ¬ b.Hosts r.config) (target : r.graph.vertex? e.target = some host)

inductive Hostless (r : Resolver) (id : VertexId) : ResolveError → Prop
  | noVertex (dangling : r.graph.vertex? id = none) : Hostless r id (.notFound (.vertex id))
  | nodeTemplate {v : Vertex} (stored : r.graph.vertex? id = some v)
      (hostless : ∀ e ∈ r.graph.edgesOut v, ¬ e.Hosts r.config)
      (template : r.classifier.isNodeTemplate v) :
      Hostless r id (.notFound (.host (some (v.name?.getD ""))))
  | unmarked {v : Vertex} (stored : r.graph.vertex? id = some v)
      (hostless : ∀ e ∈ r.graph.edgesOut v, ¬ e.Hosts r.config)
      (unmarked : ¬ r.classifier.isNodeTemplate v) : Hostless r id (.notFound (.host none))

theorem resolveHost_of_vertex {id : VertexId} {v : Vertex} (hv : r.graph.vertex? id = some v) :
    r.resolveHost id = r.hostOf v := by
  rw [resolveHost, hv]

theorem resolveHost_of_hostedBy {id : VertexId} {host : Vertex} (h : r.HostedBy id host) :
    r.resolveHost id = .ok host := by
  obtain ⟨hstored, horder, hhosts, hskipped, htarget⟩ := h
  have hfound : (r.graph.edgesOut _).findSome? r.hostThrough? = some host :=
    List.findSome?_eq_some_iff.2 ⟨_, _, _, horder, (hostThrough?_of_hosts hhosts).trans htarget,
      fun b hb ↦ hostThrough?_of_not_hosts (hskipped b hb)⟩
  rw [resolveHost_of_vertex hstored, hostOf, hfound]

theorem resolveHost_of_hostless {id : VertexId} {e : ResolveError} (h : r.Hostless id e) :
    r.resolveHost id = .error e := by
  have hnothing {v : Vertex} (hnone : ∀ e ∈ r.graph.edgesOut v, ¬ e.Hosts r.config) :
      (r.graph.edgesOut v).findSome? r.hostThrough? = none :=
    List.findSome?_eq_none_iff.2 fun e he ↦ hostThrough?_of_not_hosts (hnone e he)
  cases h with
  | noVertex dangling => rw [resolveHost, dangling]
  | nodeTemplate stored hostless template =>
    rw [resolveHost_of_vertex stored, hostOf, hnothing hostless]
    dsimp only
    rw [if_pos template]
  | unmarked stored hostless unmarked =>
    rw [resolveHost_of_vertex stored, hostOf, hnothing hostless]
    dsimp only
    rw [if_neg unmarked]

theorem exists_hostedBy (hg : r.graph.Coherent) {id : VertexId} {v : Vertex} {before after : List Edge}
    {e : Edge} (hv : r.graph.vertex? id = some v) (horder : r.graph.edgesOut v = before ++ e :: after)
    (hhosts : e.Hosts r.config) (hskipped : ∀ b ∈ before, ¬ b.Hosts r.config) :
    ∃ host, r.HostedBy id host ∧ host.id = e.target := by
  have hlisted : e ∈ r.graph.edgesOut v := by
    rw [horder]
    exact List.mem_append_right _ List.mem_cons_self
  obtain ⟨host, hhost⟩ := hg.exists_target (Graph.mem_vertices_iff.2 ⟨id, hv⟩) hlisted
  exact ⟨host, .mk hv horder hhosts hskipped hhost, hg.vertex_id hhost⟩

theorem hostedBy_or_hostless (hg : r.graph.Coherent) (id : VertexId) :
    (∃ host, r.HostedBy id host) ∨ ∃ e, r.Hostless id e := by
  cases hv : r.graph.vertex? id with
  | none => exact .inr ⟨_, .noVertex hv⟩
  | some v =>
    by_cases hsome : ∃ e ∈ r.graph.edgesOut v, e.Hosts r.config
    · obtain ⟨before, e, after, horder, hskipped, hhosts⟩ := exists_first hsome
      obtain ⟨host, hhost, -⟩ := exists_hostedBy hg hv horder hhosts hskipped
      exact .inl ⟨host, hhost⟩
    · have hnone : ∀ e ∈ r.graph.edgesOut v, ¬ e.Hosts r.config := by
        intro e he hhosts
        exact hsome ⟨e, he, hhosts⟩
      by_cases ht : r.classifier.isNodeTemplate v
      · exact .inr ⟨_, .nodeTemplate hv hnone ht⟩
      · exact .inr ⟨_, .unmarked hv hnone ht⟩

theorem resolveHost_eq_iff (hg : r.graph.Coherent) (id : VertexId) :
    (∀ host, r.resolveHost id = .ok host ↔ r.HostedBy id host) ∧
    ∀ e, r.resolveHost id = .error e ↔ r.Hostless id e :=
  exact_of_reason (fun _ ↦ resolveHost_of_hostedBy) (fun _ ↦ resolveHost_of_hostless)
    (hostedBy_or_hostless hg id)

theorem resolveHost_of_sameFirstHost (hg : r.graph.Coherent) (hg' : r'.graph.Coherent)
    (hconfig : r'.config = r.config) {id : VertexId} {v v' : Vertex} (hv : r.graph.vertex? id = some v)
    (hv' : r'.graph.vertex? id = some v')
    (hsame : SameFirstHost r.config (r.graph.edgesOut v) (r'.graph.edgesOut v')) :
    ∃ host host', r.resolveHost id = .ok host ∧ r'.resolveHost id = .ok host' ∧ host'.id = host.id := by
  -- the relation is between lists of edges, so the lists have to be variables for its only case
  generalize hedges : r.graph.edgesOut v = edges at hsame
  generalize hedges' : r'.graph.edgesOut v' = edges' at hsame
  cases hsame with
  | @mk before _ before' _ e e' hosts skipped same order =>
    have hosts' : e'.Hosts r'.config := hconfig ▸ (Edge.hosts_congr same).2 hosts
    have skipped' : ∀ b' ∈ before', ¬ b'.Hosts r'.config := by
      intro b' hb' hhosts
      obtain ⟨b, hb, hcontent⟩ := List.mem_map.1 (order.subset (List.mem_map_of_mem hb'))
      rw [hconfig, ← Edge.hosts_congr hcontent] at hhosts
      exact skipped b hb hhosts
    obtain ⟨host, hhost, hid⟩ := exists_hostedBy hg hv hedges hosts skipped
    obtain ⟨host', hhost', hid'⟩ := exists_hostedBy hg' hv' hedges' hosts' skipped'
    refine ⟨host, host', resolveHost_of_hostedBy hhost, resolveHost_of_hostedBy hhost', ?_⟩
    rw [hid, hid']
    exact congrArg Prod.fst same

theorem resolveHost_exact (h : r.graph.Reachable) :
    (∀ id host, r.resolveHost id = .ok host ↔ r.HostedBy id host) ∧
    (∀ id e, r.resolveHost id = .error e ↔ r.Hostless id e) ∧
    (∀ r' : Resolver, r'.graph.Reachable → r'.config = r.config →
      ∀ id v v', r.graph.vertex? id = some v → r'.graph.vertex? id = some v' →
        SameFirstHost r.config (r.graph.edgesOut v) (r'.graph.edgesOut v') →
        ∃ host host', r.resolveHost id = .ok host ∧ r'.resolveHost id = .ok host' ∧
          host'.id = host.id) ∧
    ∀ changes id host, r.resolveHost id = .ok host →
      ∃ host', Resolver.resolveHost { r with graph := r.graph.run changes } id = .ok host' ∧
        host'.id = host.id := by
  have hg := h.coherent
  refine ⟨fun id ↦ (resolveHost_eq_iff hg id).1, fun id ↦ (resolveHost_eq_iff hg id).2,
    fun r' h' hconfig id v v' ↦ resolveHost_of_sameFirstHost hg h'.coherent hconfig,
    fun changes id host hhost ↦ ?_⟩
  obtain ⟨host', hhost', hsight⟩ := (extends_run h changes r.host r.config).resolveHost hhost
  exact ⟨host', hhost', hsight.id⟩

end Resolver

namespace Resolver.HostedOs

def relationship : Payload := Classifier.standard.mark .relationship

def hosting : Payload := ⟨[("types", Classifier.roleTypes "host")]⟩

def resolver (edges : List Change) : Resolver :=
  ⟨(Graph.empty "1.0").run ([.addVertex "web" (Classifier.standard.mark .nodeTemplate) ∅,
    .addVertex "os" ∅ ∅, .addVertex "rack" ∅ ∅, .addEdge ⟨1⟩ ⟨2⟩ relationship hosting] ++ edges),
    Host.passthrough, Config.standard⟩

def placed : Resolver :=
  resolver [.addEdge ⟨0⟩ ⟨2⟩ relationship ∅, .addEdge ⟨0⟩ ⟨2⟩ ∅ hosting,
    .addEdge ⟨0⟩ ⟨1⟩ relationship hosting, .addEdge ⟨0⟩ ⟨2⟩ relationship hosting]

/-- What stands in front of the first hosting edge has changed places, and what stands behind it is gone. -/
def moved : Resolver :=
  resolver [.addEdge ⟨0⟩ ⟨2⟩ ∅ hosting, .addEdge ⟨0⟩ ⟨2⟩ relationship ∅,
    .addEdge ⟨0⟩ ⟨1⟩ relationship hosting]

def web (edges : List EdgeId) : Vertex := ⟨⟨0⟩, "web", Classifier.standard.mark .nodeTemplate, ∅, edges⟩

def os : Vertex := ⟨⟨1⟩, "os", ∅, ∅, [⟨0⟩]⟩

def rack : Vertex := ⟨⟨2⟩, "rack", ∅, ∅, []⟩

def plain (id : EdgeId) : Edge := ⟨id, ⟨0⟩, ⟨2⟩, relationship, ∅⟩

def unmarked (id : EdgeId) : Edge := ⟨id, ⟨0⟩, ⟨2⟩, ∅, hosting⟩

def toOs : Edge := ⟨⟨3⟩, ⟨0⟩, ⟨1⟩, relationship, hosting⟩

def toRack : Edge := ⟨⟨4⟩, ⟨0⟩, ⟨2⟩, relationship, hosting⟩

theorem reachable (edges : List Change) : (resolver edges).graph.Reachable := (Graph.Reachable.new "1.0").run _

theorem placed_web : placed.graph.vertex? ⟨0⟩ = some (web [⟨1⟩, ⟨2⟩, ⟨3⟩, ⟨4⟩]) := by cbv

theorem moved_web : moved.graph.vertex? ⟨0⟩ = some (web [⟨1⟩, ⟨2⟩, ⟨3⟩]) := by cbv

theorem placed_edgesOut : placed.graph.edgesOut (web [⟨1⟩, ⟨2⟩, ⟨3⟩, ⟨4⟩]) =
    [plain ⟨1⟩, unmarked ⟨2⟩] ++ toOs :: [toRack] := by cbv

theorem moved_edgesOut : moved.graph.edgesOut (web [⟨1⟩, ⟨2⟩, ⟨3⟩]) =
    [unmarked ⟨1⟩, plain ⟨2⟩] ++ toOs :: [] := by cbv

theorem toOs_hosts : toOs.Hosts Config.standard where
  relationship := Classifier.standard.marks_mark .relationship
  role := ⟨_, rfl, _, List.mem_cons_self, _, rfl, rfl⟩

theorem not_hosts {e : Edge} (h : e ∈ [plain ⟨1⟩, unmarked ⟨2⟩]) : ¬ e.Hosts Config.standard := by
  intro hhosts
  simp only [List.mem_cons, List.not_mem_nil, or_false] at h
  rcases h with rfl | rfl
  · obtain ⟨_, htypes, -⟩ := hhosts.role
    cases htypes
  · obtain ⟨_, hmark, -⟩ := hhosts.relationship
    cases hmark

theorem hostedBy : placed.HostedBy ⟨0⟩ os :=
  .mk placed_web placed_edgesOut toOs_hosts (fun _ ↦ not_hosts) (by cbv)

theorem rack_hostless : placed.Hostless ⟨2⟩ (.notFound (.host none)) := by
  have hrack : placed.graph.vertex? ⟨2⟩ = some rack := by cbv
  have hplain : placed.classifier.isNodeTemplate rack = false := by cbv
  apply Hostless.unmarked hrack
  · intro e he
    exact absurd he List.not_mem_nil
  · simp [hplain]

theorem sameFirstHost : SameFirstHost Config.standard (placed.graph.edgesOut (web [⟨1⟩, ⟨2⟩, ⟨3⟩, ⟨4⟩]))
    (moved.graph.edgesOut (web [⟨1⟩, ⟨2⟩, ⟨3⟩])) := by
  rw [placed_edgesOut, moved_edgesOut]
  exact .mk toOs_hosts (fun _ ↦ not_hosts) rfl (.swap _ _ _)

end Resolver.HostedOs

namespace Resolver

open HostedOs in
/-- The host of `web` is `os`, which is no node template and has a host of its own. -/
theorem resolveHost_exact_os :
    placed.resolveHost ⟨0⟩ = .ok os ∧
    placed.resolveHost ⟨2⟩ = .error (.notFound (.host none)) ∧
    placed.resolveHost ⟨3⟩ = .error (.notFound (.vertex ⟨3⟩)) ∧
    ∃ host host', placed.resolveHost ⟨0⟩ = .ok host ∧ moved.resolveHost ⟨0⟩ = .ok host' ∧
      host'.id = host.id := by
  obtain ⟨hok, herror, hsame, -⟩ := resolveHost_exact (r := placed) (reachable _)
  exact ⟨(hok _ _).2 hostedBy, (herror _ _).2 rack_hostless, (herror _ _).2 (.noVertex (by cbv)),
    hsame moved (reachable _) rfl _ _ _ placed_web moved_web sameFirstHost⟩

end Resolver

end CloutQuery
