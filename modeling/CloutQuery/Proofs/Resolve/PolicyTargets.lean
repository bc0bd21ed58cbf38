import CloutQuery.Proofs.Resolve.View
import CloutQuery.Proofs.Value.Same

namespace CloutQuery

open CloutQuery.Graph

def Graph.reorder (g : Graph) (id : VertexId) (order : List EdgeId) : Graph :=
  { g with vertices := g.vertices.modify id.index fun v ↦ { v with edgesOut := order } }

namespace Resolver

/-- Whether a payload has the name; `none` is that of all payloads without one. -/
def hasName (name : Option Value) (p : Payload) : Bool :=
  match p.get? "name", name with
  | some a, some b => a.same b
  | none, none => true
  | _, _ => false

theorem sameName_eq_hasName (p q : Payload) : sameName p q = hasName (q.get? "name") p := rfl

theorem sameName_of_hasName {name : Option Value} {q : Payload} (h : hasName name q) (p : Payload) :
    sameName p q = hasName name p := by
  rw [sameName_eq_hasName]
  unfold hasName at h ⊢
  cases hq : q.get? "name" with
  | none =>
    rw [hq] at h
    cases name with
    | none => rfl
    | some _ => cases h
  | some b =>
    rw [hq] at h
    cases name with
    | none => cases h
    | some c =>
      cases p.get? "name" with
      | none => rfl
      | some a => exact Value.same_congr_right h a

theorem any_sameName {name : Option Value} {member : Payload} (h : hasName name member)
    (targets : List Payload) : targets.any (sameName · member) = targets.any (hasName name) :=
  congrArg targets.any (funext (sameName_of_hasName h))

section Members

variable (name : Option Value)

theorem filter_eq_nil_of_not_any {targets : List Payload} (h : ¬ targets.any (hasName name)) :
    targets.filter (hasName name) = [] := by
  simpa using h

theorem filter_addMember (targets : List Payload) (member : Payload) :
    (addMember targets member).filter (hasName name) =
      if targets.any (hasName name) then targets.filter (hasName name)
      else [member].filter (hasName name) := by
  unfold addMember
  cases hmember : hasName name member with
  | true =>
    rw [any_sameName hmember]
    split_ifs with hany
    · rfl
    · rw [List.filter_append, filter_eq_nil_of_not_any name hany, List.nil_append]
  | false =>
    have hother : [member].filter (hasName name) = [] := by simp [hmember]
    have hkept : (if targets.any (sameName · member) then targets else targets ++ [member]).filter
        (hasName name) = targets.filter (hasName name) := by
      split_ifs
      · rfl
      · rw [List.filter_append, hother, List.append_nil]
    rw [hkept, hother]
    split_ifs with hany
    · rfl
    · exact filter_eq_nil_of_not_any name hany

theorem any_addMember (targets : List Payload) (member : Payload) :
    (addMember targets member).any (hasName name) =
      (targets.any (hasName name) || hasName name member) := by
  unfold addMember
  split_ifs with hsame
  · cases hmember : hasName name member with
    | true => rw [← any_sameName hmember, hsame, Bool.or_true]
    | false => rw [Bool.or_false]
  · simp

theorem any_foldl_addMember (members targets : List Payload) :
    (members.foldl addMember targets).any (hasName name) =
      (targets.any (hasName name) || members.any (hasName name)) := by
  induction members generalizing targets with
  | nil => simp
  | cons member rest ih => rw [List.foldl_cons, ih, any_addMember, List.any_cons, Bool.or_assoc]

/-- Of a group's members the first of a name is added, if there is no target of that name yet. -/
theorem filter_foldl_addMember (members targets : List Payload) :
    (members.foldl addMember targets).filter (hasName name) =
      if targets.any (hasName name) then targets.filter (hasName name)
      else (members.find? (hasName name)).toList := by
  induction members generalizing targets with
  | nil =>
    split_ifs with hany
    · rfl
    · exact filter_eq_nil_of_not_any name hany
  | cons member rest ih =>
    rw [List.foldl_cons, ih, any_addMember, filter_addMember, List.find?_cons]
    cases targets.any (hasName name) with
    | true => simp
    | false => cases hmember : hasName name member <;> simp [hmember]

end Members

variable (r : Resolver)

def payload? (kind : ElementKind) (e : Edge) : Option Payload :=
  if r.isKind e kind then (r.graph.target? e).map (·.properties) else none

def direct? (e : Edge) : Option Payload := r.payload? .nodeTemplateTarget e

def grouped (e : Edge) : List Payload :=
  if r.isKind e .groupTarget then (r.graph.target? e).elim [] r.membersOf else []

def reached (e : Edge) : List Payload := (r.direct? e).toList ++ r.grouped e

def directlyNamed (name : Option Value) (e : Edge) : Bool := (r.direct? e).any (hasName name)

def groupNamed (name : Option Value) (e : Edge) : Bool := (r.grouped e).any (hasName name)

def directs (name : Option Value) (es : List Edge) : List Payload :=
  (es.filterMap r.direct?).filter (hasName name)

variable {r}

theorem isKind_unique {e : Edge} {kind kind' : ElementKind} (h : r.isKind e kind)
    (h' : r.isKind e kind') : kind = kind' :=
  Classifier.hasKind_unique h h'

theorem grouped_eq_nil {e : Edge} {p : Payload} (h : r.direct? e = some p) : r.grouped e = [] := by
  unfold direct? payload? at h
  split_ifs at h with hdirect
  unfold grouped
  split_ifs with hgroup
  · exact absurd (isKind_unique hdirect hgroup) (by decide)
  · rfl

theorem groupNamed_eq_false {name : Option Value} {e : Edge} (h : r.directlyNamed name e) :
    r.groupNamed name e = false := by
  cases hp : r.direct? e with
  | none => simp [directlyNamed, hp] at h
  | some p => simp [groupNamed, grouped_eq_nil hp]

theorem addTargets_eq_foldl (targets : List Payload) (e : Edge) :
    r.addTargets targets e = (r.grouped e).foldl addMember (targets ++ (r.direct? e).toList) := by
  unfold addTargets grouped direct? payload?
  cases ht : r.graph.target? e with
  | none => simp
  | some t =>
    by_cases hdirect : r.isKind e .nodeTemplateTarget
    · have hgroup : ¬ r.isKind e .groupTarget := fun h ↦
        absurd (isKind_unique hdirect h) (by decide)
      simp [hdirect, hgroup]
    · by_cases hgroup : r.isKind e .groupTarget <;> simp [hdirect, hgroup]

theorem directs_cons (name : Option Value) (e : Edge) (es : List Edge) :
    r.directs name (e :: es) = (r.direct? e).toList.filter (hasName name) ++ r.directs name es := by
  unfold directs
  rw [List.filterMap_cons]
  cases r.direct? e with
  | none => rfl
  | some p => cases hp : hasName name p <;> simp [hp]

theorem any_append_direct (name : Option Value) (targets : List Payload) (e : Edge) :
    (targets ++ (r.direct? e).toList).any (hasName name) =
      (targets.any (hasName name) || r.directlyNamed name e) := by
  rw [List.any_append, directlyNamed]
  cases r.direct? e <;> simp

theorem filter_addTargets (name : Option Value) (targets : List Payload) (e : Edge) :
    (r.addTargets targets e).filter (hasName name) =
      if targets.any (hasName name) || r.directlyNamed name e then
        targets.filter (hasName name) ++ (r.direct? e).toList.filter (hasName name)
      else ((r.grouped e).find? (hasName name)).toList := by
  rw [addTargets_eq_foldl, filter_foldl_addMember, any_append_direct, List.filter_append]

theorem any_addTargets (name : Option Value) (targets : List Payload) (e : Edge) :
    (r.addTargets targets e).any (hasName name) =
      (targets.any (hasName name) || r.directlyNamed name e || r.groupNamed name e) := by
  rw [addTargets_eq_foldl, any_foldl_addMember, any_append_direct, groupNamed]

/-- The member of a name that is found before any direct target of that name. -/
def firstMember? (r : Resolver) (name : Option Value) (es : List Edge) : Option Payload :=
  if es.findIdx (r.directlyNamed name) < es.findIdx (r.groupNamed name) then none
  else (es.find? (r.groupNamed name)).bind fun e ↦ (r.grouped e).find? (hasName name)

theorem firstMember?_cons (name : Option Value) (e : Edge) (es : List Edge) :
    r.firstMember? name (e :: es) =
      if r.directlyNamed name e then none
      else if r.groupNamed name e then (r.grouped e).find? (hasName name)
      else r.firstMember? name es := by
  unfold firstMember?
  rw [List.findIdx_cons, List.findIdx_cons, List.find?_cons]
  cases hdirect : r.directlyNamed name e with
  | true => simp [groupNamed_eq_false hdirect]
  | false => cases r.groupNamed name e <;> simp

theorem firstMember?_eq_none {name : Option Value} {es : List Edge}
    (h : (∀ e ∈ es, ¬ r.groupNamed name e) ∨
      es.findIdx (r.directlyNamed name) < es.findIdx (r.groupNamed name)) :
    r.firstMember? name es = none := by
  unfold firstMember?
  split_ifs with hlt
  · rfl
  · rw [List.find?_eq_none.2 (h.resolve_right hlt)]
    rfl

theorem firstMember?_eq_find? {name : Option Value} {es : List Edge} {e : Edge}
    (he : es.find? (r.groupNamed name) = some e)
    (h : ¬ es.findIdx (r.directlyNamed name) < es.findIdx (r.groupNamed name)) :
    r.firstMember? name es = (r.grouped e).find? (hasName name) := by
  rw [firstMember?, if_neg h, he, Option.bind_some]

/-- Once there is a target of the name, only direct ones are added. -/
theorem filter_foldl_addTargets (name : Option Value) (targets : List Payload) (es : List Edge) :
    (es.foldl r.addTargets targets).filter (hasName name) =
      (if targets.any (hasName name) then targets.filter (hasName name)
        else (r.firstMember? name es).toList) ++ r.directs name es := by
  induction es generalizing targets with
  | nil =>
    split_ifs with hany
    · exact (List.append_nil _).symm
    · exact filter_eq_nil_of_not_any name hany
  | cons e rest ih =>
    rw [List.foldl_cons, ih, any_addTargets, filter_addTargets, firstMember?_cons, directs_cons]
    have hnone (hdirect : r.directlyNamed name e = false) :
        (r.direct? e).toList.filter (hasName name) = [] := by
      cases hp : r.direct? e with
      | none => rfl
      | some p => simpa [directlyNamed, hp] using hdirect
    cases hany : targets.any (hasName name) with
    | true => simp
    | false =>
      have hempty := filter_eq_nil_of_not_any name (by simp [hany] : ¬ targets.any (hasName name))
      cases hdirect : r.directlyNamed name e with
      | true => simp [hempty]
      | false => cases r.groupNamed name e <;> simp [hnone hdirect]

theorem policyTargets_of_vertex {id : VertexId} {policy : Vertex} (h : r.graph.vertex? id = some policy) :
    r.policyTargets id = (r.graph.edgesOut policy).foldl r.addTargets [] := by
  rw [policyTargets, h]

theorem filter_policyTargets {id : VertexId} {policy : Vertex} (h : r.graph.vertex? id = some policy)
    (name : Option Value) : (r.policyTargets id).filter (hasName name) =
      (r.firstMember? name (r.graph.edgesOut policy)).toList ++ r.directs name (r.graph.edgesOut policy) := by
  rw [policyTargets_of_vertex h, filter_foldl_addTargets]
  rfl

theorem length_directs (name : Option Value) (es : List Edge) :
    (r.directs name es).length = es.countP (r.directlyNamed name) := by
  induction es with
  | nil => rfl
  | cons e rest ih =>
    rw [directs_cons, List.length_append, ih, List.countP_cons, Nat.add_comm, directlyNamed]
    cases hp : r.direct? e with
    | none => simp
    | some p => cases hname : hasName name p <;> simp [hname]

/-- The targets of a name are the direct ones, and one more if a member of the name comes first. -/
theorem countP_policyTargets {id : VertexId} {policy : Vertex} (h : r.graph.vertex? id = some policy)
    (name : Option Value) : (r.policyTargets id).countP (hasName name) =
      (r.firstMember? name (r.graph.edgesOut policy)).toList.length +
        (r.graph.edgesOut policy).countP (r.directlyNamed name) := by
  rw [List.countP_eq_length_filter, filter_policyTargets h, List.length_append, length_directs]

theorem foldl_addMember_sublist (members targets : List Payload) :
    (members.foldl addMember targets).Sublist (targets ++ members) := by
  induction members generalizing targets with
  | nil => simp
  | cons member rest ih =>
    have hstep : (addMember targets member).Sublist (targets ++ [member]) := by
      unfold addMember
      split_ifs
      · exact List.sublist_append_left _ _
      · exact List.Sublist.refl _
    have hrest := (ih (addMember targets member)).trans (hstep.append_right rest)
    rwa [List.append_assoc, List.singleton_append] at hrest

theorem foldl_addTargets_sublist (es : List Edge) (targets : List Payload) :
    (es.foldl r.addTargets targets).Sublist (targets ++ es.flatMap r.reached) := by
  induction es generalizing targets with
  | nil => simp
  | cons e rest ih =>
    have hstep : (r.addTargets targets e).Sublist (targets ++ r.reached e) := by
      rw [addTargets_eq_foldl, reached, ← List.append_assoc]
      exact foldl_addMember_sublist _ _
    have hrest := (ih (r.addTargets targets e)).trans (hstep.append_right (rest.flatMap r.reached))
    rwa [List.append_assoc, ← List.flatMap_cons] at hrest

theorem payload?_eq_some_iff {kind : ElementKind} {e : Edge} {p : Payload} :
    r.payload? kind e = some p ↔
      r.isKind e kind ∧ ∃ t, r.graph.target? e = some t ∧ t.properties = p := by
  unfold payload?
  split_ifs with hkind <;> simp [hkind]

theorem membersOf_eq_filterMap (group : Vertex) :
    r.membersOf group = (r.graph.edgesOut group).filterMap (r.payload? .member) := by
  rw [membersOf, List.filterMap_filter, List.map_filterMap]
  refine List.filterMap_congr fun e _ ↦ ?_
  unfold payload?
  split_ifs <;> rfl

theorem mem_grouped_iff {e : Edge} {p : Payload} : p ∈ r.grouped e ↔
    r.isKind e .groupTarget ∧ ∃ group, r.graph.target? e = some group ∧ p ∈ r.membersOf group := by
  unfold grouped
  split_ifs with hkind
  · cases r.graph.target? e <;> simp [hkind]
  · simp [hkind]

theorem exists_of_mem_reached {e : Edge} {p : Payload} (h : p ∈ r.reached e) :
    ∃ t, r.graph.target? e = some t ∧
      (r.isKind e .nodeTemplateTarget ∧ t.properties = p ∨
        r.isKind e .groupTarget ∧ ∃ m ∈ r.graph.edgesOut t, r.isKind m .member ∧
          ∃ u, r.graph.target? m = some u ∧ u.properties = p) := by
  rcases List.mem_append.1 h with hdirect | hgroup
  · obtain ⟨hkind, t, ht, hproperties⟩ := payload?_eq_some_iff.1 (Option.mem_toList.1 hdirect)
    exact ⟨t, ht, .inl ⟨hkind, hproperties⟩⟩
  · obtain ⟨hkind, t, ht, hmember⟩ := mem_grouped_iff.1 hgroup
    rw [membersOf_eq_filterMap, List.mem_filterMap] at hmember
    obtain ⟨m, hm, hp⟩ := hmember
    exact ⟨t, ht, .inr ⟨hkind, m, hm, payload?_eq_some_iff.1 hp⟩⟩

theorem any_foldl_addTargets (name : Option Value) (targets : List Payload) (es : List Edge) :
    (es.foldl r.addTargets targets).any (hasName name) =
      (targets.any (hasName name) || es.any fun e ↦ r.directlyNamed name e || r.groupNamed name e) := by
  induction es generalizing targets with
  | nil => simp
  | cons e rest ih => rw [List.foldl_cons, ih, any_addTargets, List.any_cons, Bool.or_assoc, Bool.or_assoc,
      Bool.or_assoc]

end Resolver

namespace Graph

theorem vertex?_reorder (g : Graph) (id : VertexId) (order : List EdgeId) (id' : VertexId) :
    (g.reorder id order).vertex? id' =
      (g.vertex? id').map fun v ↦ if id = id' then { v with edgesOut := order } else v := by
  unfold vertex? reorder
  dsimp only
  rw [Array.getElem?_modify]
  by_cases h : id = id'
  · simp [h]
  · have hindex : id.index ≠ id'.index := fun hi ↦ h (by cases id; cases id'; simpa using hi)
    simp [h, hindex]

theorem vertex?_reorder_cases {g : Graph} {id : VertexId} {v : Vertex} {order : List EdgeId}
    (hv : g.vertex? id = some v) (horder : order.Perm v.edgesOut) (id' : VertexId) :
    (g.vertex? id' = none ∧ (g.reorder id order).vertex? id' = none) ∨
    ∃ w w', g.vertex? id' = some w ∧ (g.reorder id order).vertex? id' = some w' ∧
      w'.properties = w.properties ∧ ((g.reorder id order).edgesOut w').Perm (g.edgesOut w) := by
  rw [vertex?_reorder]
  cases hw : g.vertex? id' with
  | none => exact .inl ⟨rfl, rfl⟩
  | some w =>
    refine .inr ⟨w, _, rfl, rfl, ?_, ?_⟩
    · split_ifs <;> rfl
    · split_ifs with h
      · rw [← h, hv, Option.some.injEq] at hw
        exact hw ▸ horder.filterMap _
      · exact List.Perm.refl _

end Graph

namespace Resolver

variable {r : Resolver}

def reorder (r : Resolver) (id : VertexId) (order : List EdgeId) : Resolver :=
  { r with graph := r.graph.reorder id order }

section Reordered

variable {id : VertexId} {policy : Vertex} {order : List EdgeId}
  (hpolicy : r.graph.vertex? id = some policy) (horder : order.Perm policy.edgesOut)

include hpolicy horder

theorem payload?_reorder (kind : ElementKind) (e : Edge) :
    (r.reorder id order).payload? kind e = r.payload? kind e := by
  have hkind : (r.reorder id order).isKind e kind = r.isKind e kind := rfl
  have htarget : ((r.reorder id order).graph.target? e).map (·.properties) =
      (r.graph.target? e).map (·.properties) := by
    unfold Graph.target? reorder
    obtain ⟨h, h'⟩ | ⟨w, w', h, h', hproperties, -⟩ :=
      Graph.vertex?_reorder_cases hpolicy horder e.target
    · rw [h, h']
    · rw [h, h']
      exact congrArg some hproperties
  rw [payload?, payload?, hkind, htarget]

theorem directlyNamed_reorder (name : Option Value) (e : Edge) :
    (r.reorder id order).directlyNamed name e = r.directlyNamed name e := by
  unfold directlyNamed direct?
  rw [payload?_reorder hpolicy horder]

/-- A group that is the policy itself has its members in another order, but no others. -/
theorem groupNamed_reorder (name : Option Value) (e : Edge) :
    (r.reorder id order).groupNamed name e = r.groupNamed name e := by
  have hkind : (r.reorder id order).isKind e .groupTarget = r.isKind e .groupTarget := rfl
  unfold groupNamed grouped
  rw [hkind]
  split_ifs
  · unfold Graph.target?
    obtain ⟨h, h'⟩ | ⟨w, w', h, h', -, hedges⟩ :=
      Graph.vertex?_reorder_cases hpolicy horder e.target
    · rw [h, reorder, h']
      rfl
    · have hsame : (r.reorder id order).payload? .member = r.payload? .member :=
        funext (payload?_reorder hpolicy horder .member)
      have hmembers : ((r.reorder id order).membersOf w').Perm (r.membersOf w) := by
        rw [membersOf_eq_filterMap, membersOf_eq_filterMap, hsame]
        exact hedges.filterMap _
      rw [h, reorder, h']
      exact hmembers.any_eq
  · rfl

theorem any_policyTargets_reorder (name : Option Value) :
    ((r.reorder id order).policyTargets id).any (hasName name) =
      (r.policyTargets id).any (hasName name) := by
  obtain ⟨hnone, -⟩ | ⟨w, w', hw, hw', -, hedges⟩ := Graph.vertex?_reorder_cases hpolicy horder id
  · rw [hpolicy] at hnone
    cases hnone
  · rw [policyTargets_of_vertex (r := r.reorder id order) hw', policyTargets_of_vertex hw,
      any_foldl_addTargets, any_foldl_addTargets]
    simp only [directlyNamed_reorder hpolicy horder, groupNamed_reorder hpolicy horder]
    exact congrArg _ hedges.any_eq

end Reordered

theorem policyTargets_by_name (r : Resolver) {id : VertexId} {policy : Vertex}
    (hpolicy : r.graph.vertex? id = some policy) :
    let es := r.graph.edgesOut policy
    let targets := r.policyTargets id
    targets.Sublist (es.flatMap r.reached) ∧
    (∀ name,
      ((∀ e ∈ es, ¬ r.groupNamed name e) ∨
          es.findIdx (r.directlyNamed name) < es.findIdx (r.groupNamed name) →
        targets.filter (hasName name) = r.directs name es ∧
        targets.countP (hasName name) = es.countP (r.directlyNamed name)) ∧
      ∀ e, es.find? (r.groupNamed name) = some e →
        ¬ es.findIdx (r.directlyNamed name) < es.findIdx (r.groupNamed name) →
        ∃ m, (r.grouped e).find? (hasName name) = some m ∧
          targets.filter (hasName name) = m :: r.directs name es ∧
          targets.countP (hasName name) = es.countP (r.directlyNamed name) + 1) ∧
    (∀ p ∈ targets, ∃ e ∈ es, ∃ t, r.graph.target? e = some t ∧
      (r.isKind e .nodeTemplateTarget ∧ t.properties = p ∨
        r.isKind e .groupTarget ∧ ∃ m ∈ r.graph.edgesOut t, r.isKind m .member ∧
          ∃ u, r.graph.target? m = some u ∧ u.properties = p)) ∧
    (∀ name, (∃ p ∈ targets, hasName name p) ↔
      ∃ e ∈ es, r.directlyNamed name e ∨ r.groupNamed name e) ∧
    ∀ order, order.Perm policy.edgesOut → ∀ name,
      (∃ p ∈ (r.reorder id order).policyTargets id, hasName name p) ↔ ∃ p ∈ targets, hasName name p := by
  intro es targets
  have hsublist : targets.Sublist (es.flatMap r.reached) := by
    have h := foldl_addTargets_sublist (r := r) es []
    rwa [← policyTargets_of_vertex hpolicy] at h
  have hnames (name : Option Value) := filter_policyTargets hpolicy name
  have hcount (name : Option Value) := countP_policyTargets hpolicy name
  refine ⟨hsublist, fun name ↦ ⟨fun hfirst ↦ ?_, fun e he hfirst ↦ ?_⟩, fun p hp ↦ ?_, fun name ↦ ?_,
    fun order horder name ↦ ?_⟩
  · have hnone := firstMember?_eq_none hfirst
    rw [hnames, hcount, hnone]
    exact ⟨rfl, Nat.zero_add _⟩
  · have hnamed : r.groupNamed name e := List.find?_some he
    obtain ⟨m, hm⟩ := Option.isSome_iff_exists.1 (List.find?_isSome.2 (List.any_eq_true.1 hnamed))
    have hsome := (firstMember?_eq_find? he hfirst).trans hm
    rw [hnames, hcount, hsome]
    exact ⟨m, hm, rfl, Nat.add_comm _ _⟩
  · obtain ⟨e, he, hreached⟩ := List.mem_flatMap.1 (hsublist.subset hp)
    exact ⟨e, he, exists_of_mem_reached hreached⟩
  · have hany := any_foldl_addTargets (r := r) name [] es
    rw [← policyTargets_of_vertex hpolicy, Bool.eq_iff_iff] at hany
    simpa using hany
  · have hany := any_policyTargets_reorder hpolicy horder name
    rw [Bool.eq_iff_iff] at hany
    simpa using hany

/-- The group comes first, so its member `a` is a target beside the direct one. -/
theorem policyTargets_by_name_group_first :
    let named (name : String) : Payload := ⟨[("name", .text name)]⟩
    let mark := Classifier.standard.mark
    let policy : Vertex := ⟨⟨0⟩, "policy", mark .policy, ∅, [⟨2⟩, ⟨3⟩]⟩
    let g : Graph := ⟨"1.0", ∅, ∅, [],
      #[policy, ⟨⟨1⟩, "group", mark .group, ∅, [⟨0⟩, ⟨1⟩]⟩,
        ⟨⟨2⟩, "a", mark .nodeTemplate, named "a", []⟩],
      #[⟨⟨0⟩, ⟨1⟩, ⟨2⟩, mark .member, ∅⟩, ⟨⟨1⟩, ⟨1⟩, ⟨2⟩, mark .member, ∅⟩,
        ⟨⟨2⟩, ⟨0⟩, ⟨1⟩, mark .groupTarget, ∅⟩, ⟨⟨3⟩, ⟨0⟩, ⟨2⟩, mark .nodeTemplateTarget, ∅⟩],
      ⟨[("a", ⟨2⟩), ("group", ⟨1⟩), ("policy", ⟨0⟩)]⟩⟩
    let r : Resolver := ⟨g, Host.passthrough, Config.standard⟩
    r.graph.vertex? ⟨0⟩ = some policy ∧
      (r.policyTargets ⟨0⟩).filter (hasName (some (.text "a"))) = [named "a", named "a"] ∧
      (r.policyTargets ⟨0⟩).countP (hasName (some (.text "a"))) = 2 := by
  intro named mark policy g r
  have hpolicy : r.graph.vertex? ⟨0⟩ = some policy := rfl
  let toGroup : Edge := ⟨⟨2⟩, ⟨0⟩, ⟨1⟩, mark .groupTarget, ∅⟩
  let toNode : Edge := ⟨⟨3⟩, ⟨0⟩, ⟨2⟩, mark .nodeTemplateTarget, ∅⟩
  have hedges : r.graph.edgesOut policy = [toGroup, toNode] := rfl
  have hmembers : r.grouped toGroup = [named "a", named "a"] := rfl
  have hnode : r.direct? toNode = some (named "a") := rfl
  have hgroup : r.direct? toGroup = none := by
    have hkind : r.isKind toGroup .groupTarget := Classifier.hasKind_mark _ _
    rw [direct?, payload?, if_neg fun h ↦ absurd (isKind_unique hkind h) (by decide)]
  have hname : hasName (some (.text "a")) (named "a") := rfl
  obtain ⟨-, hnames, -⟩ := policyTargets_by_name r hpolicy
  rw [hedges] at hnames
  obtain ⟨m, hm, hfilter, hcount⟩ := (hnames (some (.text "a"))).2 toGroup
    (by simp [groupNamed, hmembers, hname])
    (by simp [List.findIdx_cons, groupNamed, hmembers, hname])
  rw [hmembers, List.find?_cons_of_pos hname, Option.some.injEq] at hm
  refine ⟨hpolicy, hfilter.trans ?_, hcount.trans ?_⟩
  · simp [directs, hgroup, hnode, hname, ← hm]
  · simp [directlyNamed, hgroup, hnode, hname]

end Resolver

end CloutQuery
