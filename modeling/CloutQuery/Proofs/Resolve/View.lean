import CloutQuery.Resolve.Membership
import CloutQuery.Resolve.Nested
import CloutQuery.Proofs.Element.Marking
import CloutQuery.Proofs.Except
import CloutQuery.Proofs.Resolve.NamedEntity
import CloutQuery.Proofs.Resolve.NestedValue

namespace CloutQuery

def ElementKind.followed : List ElementKind := [relationship, member, nodeTemplateTarget, groupTarget]

/-- An edge of a followed kind, less its id and origin. -/
structure Link where
  kind : ElementKind
  hosting : Bool
  target : VertexId
  properties : Payload

structure Sight where
  id : VertexId
  template : Bool
  properties : Payload
  links : List Link

def Sight.name? (s : Sight) : Option String := Payload.name? s.properties

def Sight.noHost (s : Sight) : ResolveError :=
  .notFound (.host (if s.template then some (s.name?.getD "") else none))

namespace Resolver

variable (r : Resolver)

def link? (e : Edge) : Option Link :=
  ((r.classifier.elementKind? e.metadata).filter (· ∈ ElementKind.followed)).map fun kind ↦
    ⟨kind, r.hasHostRole e, e.target, e.properties⟩

def links (v : Vertex) : List Link := (r.graph.edgesOut v).filterMap r.link?

def sight (v : Vertex) : Sight := ⟨v.id, r.classifier.isNodeTemplate v, v.properties, r.links v⟩

def view : List Sight := r.graph.vertices.toList.map r.sight

def hostAt? (l : Link) : Option Vertex :=
  if l.kind = .relationship && l.hosting then r.graph.vertex? l.target else none

def memberAt? (l : Link) : Option Payload :=
  if l.kind = .member then (r.graph.vertex? l.target).map (·.properties) else none

def addTargetsAt (targets : List Payload) (l : Link) : List Payload :=
  match r.graph.vertex? l.target with
  | none => targets
  | some target =>
    if l.kind = .nodeTemplateTarget then targets ++ [target.properties]
    else if l.kind = .groupTarget then (r.membersOf target).foldl addMember targets
    else targets

def namedAt? (name : String) (l : Link) : Option Payload :=
  if l.kind = .relationship && Payload.name? l.properties = some name then some l.properties else none

variable {r}

theorem link?_eq_some {e : Edge} {l : Link} (h : r.link? e = some l) :
    l.hosting = r.hasHostRole e ∧ l.target = e.target ∧ l.properties = e.properties ∧
      ∀ kind, r.isKind e kind = decide (l.kind = kind) := by
  obtain ⟨kind, hkind, rfl⟩ := Option.map_eq_some_iff.1 h
  obtain ⟨hkind, -⟩ := Option.filter_eq_some_iff.1 hkind
  refine ⟨rfl, rfl, rfl, fun kind' ↦ ?_⟩
  rw [isKind, Bool.eq_iff_iff, Classifier.hasKind_iff, hkind, decide_eq_true_eq, Option.some.injEq]

theorem link?_eq_none {e : Edge} (h : r.link? e = none) {kind : ElementKind}
    (hkind : kind ∈ ElementKind.followed) : r.isKind e kind = false := by
  by_contra htrue
  rw [Bool.not_eq_false, isKind, Classifier.hasKind_iff] at htrue
  simp [link?, htrue, hkind] at h

theorem hostThrough?_eq (e : Edge) : r.hostThrough? e = (r.link? e).bind r.hostAt? := by
  cases h : r.link? e with
  | none =>
    have hkind : r.isKind e .relationship = false := link?_eq_none h (by decide)
    simp [hostThrough?, hkind]
  | some l =>
    obtain ⟨hhost, htarget, -, hkind⟩ := link?_eq_some h
    simp [hostThrough?, hostAt?, hkind, hhost, htarget, Graph.target?]

theorem hostOf_eq (v : Vertex) : r.hostOf v =
    ((r.links v).filterMap r.hostAt?).head?.elim (.error (r.sight v).noHost) .ok := by
  have h : (r.graph.edgesOut v).findSome? r.hostThrough? = ((r.links v).filterMap r.hostAt?).head? := by
    rw [links, List.filterMap_filterMap, ← List.head?_filterMap]
    simp only [hostThrough?_eq]
  unfold hostOf
  rw [h]
  cases ((r.links v).filterMap r.hostAt?).head? <;> rfl

theorem membersOf_eq (group : Vertex) : r.membersOf group = (r.links group).filterMap r.memberAt? := by
  rw [membersOf, links, List.filterMap_filter, List.map_filterMap, List.filterMap_filterMap]
  refine List.filterMap_congr fun e _ ↦ ?_
  cases h : r.link? e with
  | none =>
    have hkind : r.isKind e .member = false := link?_eq_none h (by decide)
    simp [hkind]
  | some l =>
    obtain ⟨-, htarget, -, hkind⟩ := link?_eq_some h
    simp only [hkind, Option.bind_some, memberAt?, htarget, decide_eq_true_eq]
    split_ifs <;> rfl

theorem addTargets_eq (targets : List Payload) (e : Edge) :
    r.addTargets targets e = (r.link? e).elim targets (r.addTargetsAt targets) := by
  unfold addTargets
  cases h : r.link? e with
  | none =>
    have hnode : r.isKind e .nodeTemplateTarget = false := link?_eq_none h (by decide)
    have hgroup : r.isKind e .groupTarget = false := link?_eq_none h (by decide)
    cases r.graph.target? e <;> simp [hnode, hgroup]
  | some l =>
    obtain ⟨-, htarget, -, hkind⟩ := link?_eq_some h
    unfold Graph.target?
    cases hv : r.graph.vertex? e.target <;> simp [addTargetsAt, hkind, htarget, hv]

theorem foldl_addTargets (policy : Vertex) :
    (r.graph.edgesOut policy).foldl r.addTargets [] = (r.links policy).foldl r.addTargetsAt [] := by
  rw [links, List.foldl_filterMap]
  refine List.foldl_ext _ _ _ fun targets e _ ↦ ?_
  rw [addTargets_eq]
  cases r.link? e <;> rfl

theorem relationshipsNamed_properties (v : Vertex) (name : String) :
    (r.relationshipsNamed v name).map (·.properties) = (r.links v).filterMap (namedAt? name) := by
  rw [relationshipsNamed, ← List.filterMap_eq_map, List.filterMap_filter, links,
    List.filterMap_filterMap]
  refine List.filterMap_congr fun e _ ↦ ?_
  cases h : r.link? e with
  | none =>
    have hkind : r.isKind e .relationship = false := link?_eq_none h (by decide)
    simp [hkind]
  | some l =>
    obtain ⟨-, -, hproperties, hkind⟩ := link?_eq_some h
    simp only [hkind, Function.comp_apply, Option.bind_some, namedAt?, hproperties]
    rfl

theorem selectMember?_link {n : Vertex} {name plural : String} (hc : capability? n name = none)
    (place : ℕ) (rest : List Segment) :
    r.selectMember? n plural (.key name :: .index place :: rest) =
      ((r.links n).filterMap (namedAt? name))[place]?.map fun properties ↦
        ⟨.relationship name, properties.get? plural, rest⟩ := by
  rw [selectMember?_relationship hc, ← relationshipsNamed_properties, List.getElem?_map,
    Option.map_map]
  rfl

theorem view_getElem? (r : Resolver) (id : VertexId) :
    r.view[id.index]? = (r.graph.vertex? id).map r.sight := by
  rw [view, List.getElem?_map, Array.getElem?_toList]
  rfl

theorem find?_sight (name : String) : (r.graph.vertices.find? (r.isTemplateNamed name)).map r.sight =
    r.view.find? fun s ↦ s.template && s.name? = some name := by
  rw [view, List.find?_map, ← Array.find?_toList]
  rfl

/-- Two resolvers see the same, and the host brings values into the same form for both. -/
structure SameView (r r' : Resolver) : Prop where
  view : r.view = r'.view
  coerce : r.host.coerce = r'.host.coerce

namespace SameView

variable {r' : Resolver} (h : SameView r r')

include h

theorem vertex?_map (id : VertexId) :
    (r.graph.vertex? id).map r.sight = (r'.graph.vertex? id).map r'.sight := by
  rw [← view_getElem?, ← view_getElem?, h.view]

theorem vertex?_cases (id : VertexId) :
    (r.graph.vertex? id = none ∧ r'.graph.vertex? id = none) ∨
    ∃ v v', r.graph.vertex? id = some v ∧ r'.graph.vertex? id = some v' ∧ r.sight v = r'.sight v' := by
  have hmap := h.vertex?_map id
  cases hv : r.graph.vertex? id with
  | none => simpa [hv] using hmap
  | some v =>
    rw [hv, Option.map_some, eq_comm, Option.map_eq_some_iff] at hmap
    obtain ⟨v', hv', heq⟩ := hmap
    exact .inr ⟨v, v', rfl, hv', heq.symm⟩

theorem hostOf {v v' : Vertex} (hv : r.sight v = r'.sight v') :
    (r.hostOf v).map r.sight = (r'.hostOf v').map r'.sight := by
  have hlinks : r.links v = r'.links v' := congrArg Sight.links hv
  have hhosts : ((r.links v).filterMap r.hostAt?).map r.sight =
      ((r'.links v').filterMap r'.hostAt?).map r'.sight := by
    rw [List.map_filterMap, List.map_filterMap, hlinks]
    refine List.filterMap_congr fun l _ ↦ ?_
    unfold hostAt?
    split_ifs
    · exact h.vertex?_map l.target
    · rfl
  have hfirst := congrArg List.head? hhosts
  rw [List.head?_map, List.head?_map] at hfirst
  have helim (o : Option Vertex) (s : Vertex → Sight) (e : ResolveError) :
      (o.elim (.error e) .ok : Except ResolveError Vertex).map s = (o.map s).elim (.error e) .ok := by
    cases o <;> rfl
  rw [hostOf_eq, hostOf_eq, helim, helim, hfirst, hv]

theorem resolveHost (id : VertexId) :
    (r.resolveHost id).map r.sight = (r'.resolveHost id).map r'.sight := by
  unfold Resolver.resolveHost
  obtain ⟨hn, hn'⟩ | ⟨v, v', hv, hv', heq⟩ := h.vertex?_cases id
  · rw [hn, hn']
    rfl
  · rw [hv, hv']
    exact h.hostOf heq

theorem contextVertex (place : Option VertexId) (entity : EntityRef) :
    (r.contextVertex place entity).map (Option.map r.sight) =
      (r'.contextVertex place entity).map (Option.map r'.sight) := by
  cases place with
  | none => rfl
  | some id => exact congrArg Except.ok (h.vertex?_map id)

theorem candidate (context : CallContext) (entity : EntityRef) :
    (r.candidate context entity).map (Option.map r.sight) =
      (r'.candidate context entity).map (Option.map r'.sight) := by
  cases entity with
  | site | source | target => exact h.contextVertex _ _
  | host =>
    cases hsite : context.site with
    | none => simp only [Resolver.candidate, Resolver.contextVertex, hsite, Except.bind, Except.map]
    | some id =>
      obtain ⟨hn, hn'⟩ | ⟨v, v', hv, hv', -⟩ := h.vertex?_cases id
      · simp only [Resolver.candidate, Resolver.contextVertex, hsite, hn, hn', Except.bind, Except.map,
          Option.map_none]
      · rw [r.candidate_host hsite hv, r'.candidate_host hsite hv', map_map_eq, map_map_eq]
        have hhost := congrArg (Except.map some) (h.resolveHost id)
        rwa [map_map_eq, map_map_eq] at hhost
  | named name =>
    refine congrArg Except.ok ?_
    rw [find?_sight, find?_sight, h.view]

theorem resolveEntity (context : CallContext) (entity : EntityRef) :
    (r.resolveEntity context entity).map r.sight = (r'.resolveEntity context entity).map r'.sight := by
  unfold Resolver.resolveEntity
  obtain ⟨e, he, he'⟩ | ⟨found, found', hfound, hfound', heq⟩ :=
    map_eq_map_cases (h.candidate context entity)
  · rw [he, he']
    rfl
  · rw [hfound, hfound']
    cases found with
    | none =>
      cases found' with
      | none => rfl
      | some v' => cases heq
    | some v =>
      cases found' with
      | none => cases heq
      | some v' =>
        have hv : r.sight v = r'.sight v' := Option.some.inj heq
        have htemplate : r.classifier.isNodeTemplate v = r'.classifier.isNodeTemplate v' :=
          congrArg Sight.template hv
        simp only [Except.bind, Option.filter_some, htemplate]
        split_ifs
        · exact congrArg Except.ok hv
        · rfl

theorem membersOf {v v' : Vertex} (hv : r.sight v = r'.sight v') : r.membersOf v = r'.membersOf v' := by
  have hlinks : r.links v = r'.links v' := congrArg Sight.links hv
  rw [membersOf_eq, membersOf_eq, hlinks]
  refine List.filterMap_congr fun l _ ↦ ?_
  unfold memberAt?
  have hproperties := congrArg (Option.map Sight.properties) (h.vertex?_map l.target)
  rw [Option.map_map, Option.map_map] at hproperties
  split_ifs
  · exact hproperties
  · rfl

theorem groupMembers (id : VertexId) : r.groupMembers id = r'.groupMembers id := by
  unfold Resolver.groupMembers
  obtain ⟨hn, hn'⟩ | ⟨v, v', hv, hv', heq⟩ := h.vertex?_cases id
  · rw [hn, hn']
  · rw [hv, hv']
    exact h.membersOf heq

theorem addTargetsAt (targets : List Payload) (l : Link) :
    r.addTargetsAt targets l = r'.addTargetsAt targets l := by
  unfold Resolver.addTargetsAt
  obtain ⟨hn, hn'⟩ | ⟨v, v', hv, hv', heq⟩ := h.vertex?_cases l.target
  · rw [hn, hn']
  · have hproperties : v.properties = v'.properties := congrArg Sight.properties heq
    simp only [hv, hv', hproperties, h.membersOf heq]

theorem policyTargets (id : VertexId) : r.policyTargets id = r'.policyTargets id := by
  unfold Resolver.policyTargets
  obtain ⟨hn, hn'⟩ | ⟨v, v', hv, hv', heq⟩ := h.vertex?_cases id
  · rw [hn, hn']
  · have hlinks : r.links v = r'.links v' := congrArg Sight.links heq
    simp only [hv, hv', foldl_addTargets, hlinks]
    exact List.foldl_ext _ _ _ fun targets l _ ↦ h.addTargetsAt targets l

omit h in
theorem select {n n' : Vertex} (hn : r.sight n = r'.sight n') (plural : String) (path : List Segment) :
    r.select n plural path = r'.select n' plural path := by
  have hlinks : r.links n = r'.links n' := congrArg Sight.links hn
  have hproperties : n.properties = n'.properties := congrArg Sight.properties hn
  have hcapability (name : String) : capability? n name = capability? n' name := by
    rw [capability?, hproperties, capability?]
  have hmember : r.selectMember? n plural path = r'.selectMember? n' plural path := by
    cases path with
    | nil => rfl
    | cons segment rest =>
      cases segment with
      | index _ => rfl
      | key name =>
        cases hc : capability? n name with
        | some c =>
          rw [selectMember?_capability hc, selectMember?_capability ((hcapability name).symm.trans hc)]
        | none =>
          have hc' := (hcapability name).symm.trans hc
          cases rest with
          | nil => simp only [selectMember?, hc, hc']
          | cons segment rest =>
            cases segment with
            | key _ => simp only [selectMember?, hc, hc']
            | index place => rw [selectMember?_link hc, selectMember?_link hc', hlinks]
  rw [Resolver.select, hmember, hproperties, Resolver.select]

theorem readSelection (noun node : String) (path : List Segment) (s : Selection) :
    r.readSelection noun node path s = r'.readSelection noun node path s := by
  unfold Resolver.readSelection
  rw [h.coerce]

theorem nestedValue (context : CallContext) (singular plural : String) (args : List Segment) :
    r.nestedValue context singular plural args = r'.nestedValue context singular plural args := by
  match args with
  | [] | [_] => rfl
  | entity :: second :: rest =>
    obtain ⟨e, he, he'⟩ | ⟨n, n', hn, hn', heq⟩ :=
      map_eq_map_cases (h.resolveEntity context (EntityRef.parse entity.text))
    · rw [nestedValue_of_error he, nestedValue_of_error he']
    · have hname : n.name? = n'.name? := congrArg Sight.name? heq
      rw [nestedValue_of_ok hn, nestedValue_of_ok hn', select heq, hname]
      exact h.readSelection _ _ _ _

end SameView

end Resolver

end CloutQuery
