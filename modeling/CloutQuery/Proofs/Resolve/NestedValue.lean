import CloutQuery.Graph.Change
import CloutQuery.Proofs.Element.Marking
import CloutQuery.Proofs.Resolve.Descent
import CloutQuery.Resolve.Nested

namespace CloutQuery.Resolver

open Segment (Leads)

variable {r : Resolver} {noun node plural name : String} {n : Vertex} {e : Edge} {edges : List Edge} {place : ℕ}

def HasCapability (n : Vertex) (name : String) (capability : Value) : Prop :=
  ∃ entries, n.properties.get? "capabilities" = some (.object entries) ∧
    entries.get? name = some capability

structure IsRelationship (r : Resolver) (name : String) (e : Edge) : Prop where
  marked : r.classifier.Marks e.metadata "Relationship"
  named : e.properties.get? "name" = some (.text name)

/-- Of the relationships of a name among some edges the one at the place, counted from 0. -/
inductive Occurrence (r : Resolver) (name : String) : List Edge → ℕ → Edge → Prop
  | here {e : Edge} {rest : List Edge} (found : r.IsRelationship name e) :
      Occurrence r name (e :: rest) 0 e
  | counted {e f : Edge} {rest : List Edge} {place : ℕ} (found : r.IsRelationship name f)
      (later : Occurrence r name rest place e) : Occurrence r name (f :: rest) (place + 1) e
  | passed {e f : Edge} {rest : List Edge} {place : ℕ} (other : ¬ r.IsRelationship name f)
      (later : Occurrence r name rest place e) : Occurrence r name (f :: rest) place e

/-- The source of a value, by the path behind the entity: a capability comes before a relationship
of that name, and a relationship before the node's own mapping. -/
inductive Source (r : Resolver) (n : Vertex) (plural : String) : List Segment → Selection → Prop
  | capability {name : String} {capability : Value} {rest : List Segment}
      (has : HasCapability n name capability) :
      Source r n plural (.key name :: rest) ⟨.capability name, capability.get? plural, rest⟩
  | relationship {name : String} {place : ℕ} {e : Edge} {rest : List Segment}
      (none : ∀ c, ¬ HasCapability n name c)
      (occurs : r.Occurrence name (r.graph.edgesOut n) place e) :
      Source r n plural (.key name :: .index place :: rest)
        ⟨.relationship name, e.properties.get? plural, rest⟩
  | node {path : List Segment}
      (no_capability : ∀ name rest c, path = .key name :: rest → ¬ HasCapability n name c)
      (no_relationship : ∀ name place rest e, path = .key name :: .index place :: rest →
        ¬ r.Occurrence name (r.graph.edgesOut n) place e) :
      Source r n plural path ⟨.node, n.properties.get? plural, path⟩

/-- What a selection reads as: what the host makes of the value under the first segment, and from there
what the other segments lead to. -/
inductive Reads (host : Host) : Selection → Value → Prop
  | mk {owner : Owner} {mapping found coerced w : Value} {key : Segment} {later : List Segment}
      (first : key.Step mapping found) (accepted : host.coerce found = .ok coerced)
      (rest : Leads coerced later w) : Reads host ⟨owner, some mapping, key :: later⟩ w

/-- What keeps a selection from being read, with the error for it. `args` is the whole path. -/
inductive Obstacle (host : Host) (noun node : String) (args : List Segment) :
    Selection → ResolveError → Prop
  | noKey {owner : Owner} {mapping : Option Value} :
      Obstacle host noun node args ⟨owner, mapping, []⟩
        (.notFound (.valueName noun node (Segment.dotted args)))
  | noMapping {owner : Owner} {key : Segment} {later : List Segment} :
      Obstacle host noun node args ⟨owner, none, key :: later⟩
        (.notFound (.value noun key.text node))
  | noValue {owner : Owner} {mapping : Value} {key : Segment} {later : List Segment}
      (missing : ∀ found, ¬ key.Step mapping found) :
      Obstacle host noun node args ⟨owner, some mapping, key :: later⟩
        (.notFound (.value noun key.text node))
  | refused {owner : Owner} {mapping found : Value} {key : Segment} {later : List Segment}
      {e : HostError} (first : key.Step mapping found) (refusal : host.coerce found = .error e) :
      Obstacle host noun node args ⟨owner, some mapping, key :: later⟩ (.host e)
  | deadEnd {owner : Owner} {mapping found coerced v : Value} {key s : Segment}
      {passed later : List Segment} (first : key.Step mapping found)
      (accepted : host.coerce found = .ok coerced) (reached : Leads coerced passed v)
      (stuck : ∀ w, ¬ s.Step v w) :
      Obstacle host noun node args ⟨owner, some mapping, key :: (passed ++ s :: later)⟩
        (.notFound (.nested noun (Segment.dotted (key :: passed ++ [s])) node))

theorem capability?_eq_some_iff {c : Value} : capability? n name = some c ↔ HasCapability n name c := by
  simp only [capability?, Option.bind_eq_some_iff, HasCapability, Value.object?_eq_some_iff]
  constructor
  · intro h
    obtain ⟨entries, ⟨_, hentries, rfl⟩, hc⟩ := h
    exact ⟨entries, hentries, hc⟩
  · intro h
    obtain ⟨entries, hentries, hc⟩ := h
    exact ⟨entries, ⟨_, hentries, rfl⟩, hc⟩

theorem capability?_eq_none_iff : capability? n name = none ↔ ∀ c, ¬ HasCapability n name c := by
  simp only [← capability?_eq_some_iff, Option.eq_none_iff_forall_ne_some, ne_eq]

theorem isRelationship_iff :
    (r.isKind e .relationship && e.name? = some name) = true ↔ r.IsRelationship name e := by
  rw [Bool.and_eq_true, decide_eq_true_eq, isKind, Classifier.hasKind_iff_marks, Edge.name?,
    Payload.name?_eq_some_iff]
  exact ⟨fun h ↦ ⟨h.1, h.2⟩, fun h ↦ ⟨h.marked, h.named⟩⟩

theorem occurrence_iff_filter {p : Edge → Bool} (hp : ∀ f, p f = true ↔ r.IsRelationship name f) :
    r.Occurrence name edges place e ↔ (edges.filter p)[place]? = some e := by
  induction edges generalizing place with
  | nil => exact iff_of_false nofun (by simp)
  | cons f rest ih =>
    -- an edge of the name is counted by the place, any other is passed over
    by_cases hf : r.IsRelationship name f
    · rw [List.filter_cons_of_pos ((hp f).2 hf)]
      cases place with
      | zero =>
        rw [List.getElem?_cons_zero, Option.some.injEq]
        constructor
        · intro h
          cases h with
          | here => rfl
          | passed other => exact absurd hf other
        · intro h
          rw [← h]
          exact .here hf
      | succ place =>
        rw [List.getElem?_cons_succ, ← ih]
        constructor
        · intro h
          cases h with
          | counted _ later => exact later
          | passed other => exact absurd hf other
        · exact .counted hf
    · rw [List.filter_cons_of_neg fun h ↦ hf ((hp f).1 h), ← ih]
      constructor
      · intro h
        cases h with
        | here found => exact absurd found hf
        | counted found => exact absurd found hf
        | passed _ later => exact later
      · exact .passed hf

theorem occurrence_iff :
    r.Occurrence name (r.graph.edgesOut n) place e ↔ (r.relationshipsNamed n name)[place]? = some e :=
  occurrence_iff_filter fun _ ↦ isRelationship_iff

theorem no_occurrence_iff :
    (∀ e, ¬ r.Occurrence name (r.graph.edgesOut n) place e) ↔
      (r.relationshipsNamed n name)[place]? = none := by
  simp only [occurrence_iff, Option.eq_none_iff_forall_ne_some, ne_eq]

theorem selectMember?_capability {c : Value} (hc : capability? n name = some c) (rest : List Segment) :
    r.selectMember? n plural (.key name :: rest) =
      some ⟨.capability name, c.get? plural, rest⟩ := by
  unfold selectMember?
  simp only [hc]

theorem selectMember?_relationship (hc : capability? n name = none) (place : ℕ) (rest : List Segment) :
    r.selectMember? n plural (.key name :: .index place :: rest) =
      (r.relationshipsNamed n name)[place]?.map fun e ↦
        ⟨.relationship name, e.properties.get? plural, rest⟩ := by
  unfold selectMember?
  simp only [hc]

theorem selectMember?_eq_none {path : List Segment}
    (no_capability : ∀ name rest, path = .key name :: rest → capability? n name = none)
    (no_relationship : ∀ name place rest, path = .key name :: .index place :: rest →
      (r.relationshipsNamed n name)[place]? = none) :
    r.selectMember? n plural path = none := by
  match path with
  | [] | .index _ :: _ => rfl
  | .key name :: rest =>
    have hc := no_capability name rest rfl
    match rest with
    | [] | .key _ :: _ =>
      unfold selectMember?
      simp only [hc]
    | .index place :: rest =>
      rw [selectMember?_relationship hc, no_relationship name place rest rfl, Option.map_none]

theorem Source.eq_select {path : List Segment} {s : Selection} (h : r.Source n plural path s) :
    s = r.select n plural path := by
  unfold select
  cases h with
  | capability has =>
    rw [selectMember?_capability (capability?_eq_some_iff.2 has), Option.getD_some]
  | relationship none occurs =>
    rw [selectMember?_relationship (capability?_eq_none_iff.2 none), occurrence_iff.1 occurs,
      Option.map_some, Option.getD_some]
  | node no_capability no_relationship =>
    rw [selectMember?_eq_none, Option.getD_none]
    · intro name rest hpath
      exact capability?_eq_none_iff.2 fun c ↦ no_capability name rest c hpath
    · intro name place rest hpath
      exact no_occurrence_iff.1 fun e ↦ no_relationship name place rest e hpath

theorem source_node {path : List Segment}
    (no_capability : ∀ name rest, path = .key name :: rest → capability? n name = none)
    (no_relationship : ∀ name place rest, path = .key name :: .index place :: rest →
      (r.relationshipsNamed n name)[place]? = none) :
    r.Source n plural path (r.select n plural path) := by
  rw [select, selectMember?_eq_none no_capability no_relationship, Option.getD_none]
  apply Source.node
  · intro name rest c hpath
    exact capability?_eq_none_iff.1 (no_capability name rest hpath) c
  · intro name place rest e hpath
    exact no_occurrence_iff.2 (no_relationship name place rest hpath) e

theorem source_select (r : Resolver) (n : Vertex) (plural : String) (path : List Segment) :
    r.Source n plural path (r.select n plural path) := by
  match path with
  | [] | .index _ :: _ => exact source_node (by simp) (by simp)
  | .key name :: rest =>
    cases hc : capability? n name with
    | some c =>
      rw [select, selectMember?_capability hc, Option.getD_some]
      exact .capability (capability?_eq_some_iff.1 hc)
    | none =>
      have hnone : ∀ name' rest', Segment.key name :: rest = .key name' :: rest' →
          capability? n name' = none := by
        intro _ _ hpath
        cases hpath
        exact hc
      match rest with
      | [] | .key _ :: _ => exact source_node hnone (by simp)
      | .index place :: later =>
        cases he : (r.relationshipsNamed n name)[place]? with
        | some e =>
          rw [select, selectMember?_relationship hc, he, Option.map_some, Option.getD_some]
          exact .relationship (capability?_eq_none_iff.1 hc) (occurrence_iff.2 he)
        | none =>
          apply source_node hnone
          intro _ _ _ hpath
          cases hpath
          exact he

theorem follow_eq_ok_iff {done path : List Segment} {v w : Value} :
    follow noun node done v path = .ok w ↔ Leads v path w := by
  induction path generalizing done v with
  | nil =>
    rw [follow, Except.ok.injEq]
    constructor
    · intro h
      rw [h]
      exact .here w
    · intro h
      cases h
      rfl
  | cons s rest ih =>
    rw [follow]
    cases hs : s.descend? v with
    | none =>
      refine iff_of_false nofun fun h ↦ ?_
      cases h with
      | step first => exact Segment.descend?_eq_none_iff.1 hs _ first
    | some u =>
      rw [ih]
      constructor
      · exact .step (Segment.descend?_eq_some_iff.1 hs)
      · intro h
        cases h with
        | step first later =>
          rw [← Segment.descend?_eq_some_iff, hs, Option.some.injEq] at first
          rwa [first]

theorem follow_eq_error_iff {done path : List Segment} {v : Value} {e : ResolveError} :
    follow noun node done v path = .error e ↔ ∃ passed s later u,
      path = passed ++ s :: later ∧ Leads v passed u ∧ (∀ w, ¬ s.Step u w) ∧
      e = .notFound (.nested noun (Segment.dotted (done ++ passed ++ [s])) node) := by
  induction path generalizing done v with
  | nil => simp [follow]
  | cons s rest ih =>
    rw [follow]
    cases h : s.descend? v with
    | none =>
      have hstuck := Segment.descend?_eq_none_iff.1 h
      constructor
      · intro he
        cases he
        exact ⟨[], s, rest, v, rfl, .here v, hstuck, by rw [List.append_nil]⟩
      · intro hfails
        obtain ⟨passed, t, later, u, hpath, hleads, -, rfl⟩ := hfails
        cases hleads with
        | here =>
          cases hpath
          rw [List.append_nil]
        | step first =>
          cases hpath
          exact absurd first (hstuck _)
    | some w =>
      have hstep := Segment.descend?_eq_some_iff.1 h
      dsimp only
      rw [ih]
      constructor
      · intro hfails
        obtain ⟨passed, t, later, u, rfl, hleads, hstuck, rfl⟩ := hfails
        exact ⟨s :: passed, t, later, u, rfl, .step hstep hleads, hstuck, by simp⟩
      · intro hfails
        obtain ⟨passed, t, later, u, hpath, hleads, hstuck, rfl⟩ := hfails
        cases hleads with
        | here =>
          cases hpath
          exact absurd hstep (hstuck w)
        | @step _ _ w' _ passed first hleads =>
          cases hpath
          rw [← Segment.descend?_eq_some_iff, h, Option.some.injEq] at first
          subst first
          exact ⟨passed, t, later, u, rfl, hleads, hstuck, by simp⟩

theorem readSelection_eq_ok_iff {args : List Segment} {s : Selection} {w : Value} :
    r.readSelection noun node args s = .ok w ↔ Reads r.host s w := by
  obtain ⟨owner, mapping, path⟩ := s
  unfold readSelection
  constructor
  · intro h
    cases path with
    | nil => cases h
    | cons key later =>
      dsimp only at h
      split at h
      · cases h
      · rename_i found hfound
        obtain ⟨m, rfl, hstep⟩ := Option.bind_eq_some_iff.1 hfound
        split at h
        · cases h
        · rename_i coerced hcoerced
          exact .mk (Segment.descend?_eq_some_iff.1 hstep) hcoerced (follow_eq_ok_iff.1 h)
  · intro h
    cases h with
    | mk first accepted rest =>
      simp only [Option.bind_some, Segment.descend?_eq_some_iff.2 first, accepted]
      exact follow_eq_ok_iff.2 rest

theorem readSelection_eq_error_iff {args : List Segment} {s : Selection} {e : ResolveError} :
    r.readSelection noun node args s = .error e ↔ Obstacle r.host noun node args s e := by
  obtain ⟨owner, mapping, path⟩ := s
  unfold readSelection
  constructor
  · intro h
    cases path with
    | nil =>
      cases h
      exact .noKey
    | cons key later =>
      cases mapping with
      | none =>
        cases h
        exact .noMapping
      | some mapping =>
        dsimp only [Option.bind_some] at h
        split at h
        · rename_i hmissing
          cases h
          exact .noValue (Segment.descend?_eq_none_iff.1 hmissing)
        · rename_i found hfound
          have first := Segment.descend?_eq_some_iff.1 hfound
          split at h
          · rename_i e' hrefusal
            cases h
            exact .refused first hrefusal
          · rename_i coerced hcoerced
            obtain ⟨passed, s, later, u, rfl, hleads, hstuck, rfl⟩ := follow_eq_error_iff.1 h
            exact .deadEnd first hcoerced hleads hstuck
  · intro h
    cases h with
    | noKey => rfl
    | noMapping => rfl
    | noValue missing => simp only [Option.bind_some, Segment.descend?_eq_none_iff.2 missing]
    | refused first refusal =>
      simp only [Option.bind_some, Segment.descend?_eq_some_iff.2 first, refusal]
    | deadEnd first accepted reached stuck =>
      simp only [Option.bind_some, Segment.descend?_eq_some_iff.2 first, accepted]
      exact follow_eq_error_iff.2 ⟨_, _, _, _, rfl, reached, stuck, rfl⟩

theorem nestedValue_of_error {context : CallContext} {singular : String} {entity second : Segment}
    {rest : List Segment} {e : ResolveError} (he : r.resolveNamedEntity context entity.text = .error e) :
    r.nestedValue context singular plural (entity :: second :: rest) = .error e := by
  rw [nestedValue, he]
  rfl

theorem nestedValue_of_ok {context : CallContext} {singular : String} {entity second : Segment}
    {rest : List Segment} (hn : r.resolveNamedEntity context entity.text = .ok n) :
    r.nestedValue context singular plural (entity :: second :: rest) =
      r.readSelection ((r.select n plural (second :: rest)).owner.noun singular) (n.name?.getD "")
        (entity :: second :: rest) (r.select n plural (second :: rest)) := by
  rw [nestedValue, hn]
  rfl

theorem nestedValue_reads (r : Resolver) (context : CallContext) (singular plural : String) :
    (∀ args : List Segment, args.length < 2 →
      r.nestedValue context singular plural args = .error .tooFewSegments) ∧
    ∀ entity second rest,
      (∀ e, r.resolveNamedEntity context entity.text = .error e →
        r.nestedValue context singular plural (entity :: second :: rest) = .error e) ∧
      ∀ n, r.resolveNamedEntity context entity.text = .ok n →
        ∃ s, r.Source n plural (second :: rest) s ∧
          (∀ s', r.Source n plural (second :: rest) s' → s' = s) ∧
          (∀ w, r.nestedValue context singular plural (entity :: second :: rest) = .ok w ↔
            Reads r.host s w) ∧
          ∀ e, r.nestedValue context singular plural (entity :: second :: rest) = .error e ↔
            Obstacle r.host (s.owner.noun singular) (n.name?.getD "") (entity :: second :: rest) s e := by
  refine ⟨fun args hargs ↦ ?_, fun entity second rest ↦ ⟨fun e he ↦ nestedValue_of_error he,
    fun n hn ↦ ⟨_, r.source_select n plural _, fun s' ↦ Source.eq_select, fun w ↦ ?_, fun e ↦ ?_⟩⟩⟩
  · match args, hargs with
    | [], _ | [_], _ => rfl
  · rw [nestedValue_of_ok hn]
    exact readSelection_eq_ok_iff
  · rw [nestedValue_of_ok hn]
    exact readSelection_eq_error_iff

end CloutQuery.Resolver

namespace CloutQuery.Resolver.LinkedWeb

def properties : Payload :=
  ⟨[("capabilities", .object ⟨[("db", .object ∅)]⟩), ("name", .text "web")]⟩

def link (name : String) (limits : Value) : Payload :=
  ⟨[("name", .text name), ("properties", .object ⟨[("limits", limits)]⟩)]⟩

def relationship : Payload := Classifier.standard.mark .relationship

def second : Edge :=
  ⟨⟨4⟩, ⟨0⟩, ⟨0⟩, relationship, link "cache" (.object ⟨[("cpu", .array [.text "two", .text "four"])]⟩)⟩

/-- Only the third and the last are relationships `cache`: the others have another name, no mark, or the
mark of another kind. -/
def edges : List Edge :=
  [⟨⟨0⟩, ⟨0⟩, ⟨0⟩, relationship, link "db" .null⟩, ⟨⟨1⟩, ⟨0⟩, ⟨0⟩, ∅, link "cache" .null⟩,
    ⟨⟨2⟩, ⟨0⟩, ⟨0⟩, relationship, link "cache" (.text "none")⟩,
    ⟨⟨3⟩, ⟨0⟩, ⟨0⟩, Classifier.standard.mark .member, link "cache" .null⟩, second]

def node : Vertex :=
  ⟨⟨0⟩, "v", Classifier.standard.mark .nodeTemplate, properties, edges.map (·.id)⟩

def resolver : Resolver :=
  ⟨(Graph.empty "1.0").run (.addVertex node.key node.metadata node.properties ::
    edges.map fun e ↦ .addEdge e.origin e.target e.metadata e.properties), Host.passthrough, Config.standard⟩

def context : CallContext := ⟨some node.id, none, none⟩

theorem self_eq : resolver.resolveNamedEntity context "SELF" = .ok node := rfl

theorem edgesOut_eq : resolver.graph.edgesOut node = edges := rfl

theorem isRelationship {name : String} {limits : Value} {id : EdgeId} :
    resolver.IsRelationship name ⟨id, ⟨0⟩, ⟨0⟩, relationship, link name limits⟩ where
  marked := Classifier.standard.marks_mark .relationship
  named := rfl

theorem occurrence_second : resolver.Occurrence "cache" (resolver.graph.edgesOut node) 1 second := by
  have hname : ¬ resolver.IsRelationship "cache" ⟨⟨0⟩, ⟨0⟩, ⟨0⟩, relationship, link "db" .null⟩ := by
    intro h
    simpa [link, Table.get?] using h.named
  have hplain : ¬ resolver.IsRelationship "cache" ⟨⟨1⟩, ⟨0⟩, ⟨0⟩, ∅, link "cache" .null⟩ := by
    intro h
    obtain ⟨_, hmark, -⟩ := h.marked
    cases hmark
  have hmember : ¬ resolver.IsRelationship "cache"
      ⟨⟨3⟩, ⟨0⟩, ⟨0⟩, Classifier.standard.mark .member, link "cache" .null⟩ := by
    intro h
    have hrelationship : Classifier.standard.hasKind (Classifier.standard.mark .member) .relationship :=
      Classifier.hasKind_iff_marks.2 h.marked
    cases Classifier.hasKind_unique (Classifier.standard.hasKind_mark .member) hrelationship
  rw [edgesOut_eq]
  exact .passed hname (.passed hplain (.counted isRelationship (.passed hmember (.here isRelationship))))

end CloutQuery.Resolver.LinkedWeb

namespace CloutQuery.Resolver

open LinkedWeb in
/-- A capability without the mapping hides a relationship of its name. -/
theorem nestedValue_reads_web :
    let read (path : List Segment) := resolver.nestedValue context "property" "properties" (.key "SELF" :: path)
    read [.key "db", .index 0, .key "limits"] =
      .error (.notFound (.value ((Owner.capability "db").noun "property") "0" "web")) ∧
    read [.key "cache", .index 1, .key "limits", .key "cpu", .key "+1"] = .ok (.text "four") ∧
    read [.key "cache", .index 2, .key "limits"] = .error (.notFound (.value "property" "cache" "web")) := by
  intro read
  have h (second : Segment) (rest : List Segment) :=
    ((nestedValue_reads resolver context "property" "properties").2 (.key "SELF") second rest).2 _ self_eq
  have hcapability (c : Value) : ¬ HasCapability node "cache" c := by
    intro hc
    obtain ⟨_, hentries, hc⟩ := hc
    cases hentries
    cases hc
  refine ⟨?_, ?_, ?_⟩
  · obtain ⟨s, -, hs, -, herror⟩ := h (.key "db") [.index 0, .key "limits"]
    obtain rfl := hs _ (.capability ⟨_, rfl, rfl⟩)
    exact (herror _).2 .noMapping
  · obtain ⟨s, -, hs, hok, -⟩ := h (.key "cache") [.index 1, .key "limits", .key "cpu", .key "+1"]
    obtain rfl := hs _ (.relationship hcapability occurrence_second)
    let one : Text.NaturalText := ⟨true, ['1'], by decide, by simp, by decide⟩
    have hone : one.value = 1 := by decide
    have hfour : (Segment.key "+1").Step (.array [.text "two", .text "four"]) (.text "four") :=
      .written (t := one) rfl (by rw [hone]; rfl)
    exact (hok _).2 (.mk (.member rfl) rfl (.step (.member rfl) (.step hfour (.here _))))
  · obtain ⟨s, -, hs, -, herror⟩ := h (.key "cache") [.index 2, .key "limits"]
    have hsource : resolver.Source node "properties" [.key "cache", .index 2, .key "limits"]
        ⟨.node, node.properties.get? "properties", [.key "cache", .index 2, .key "limits"]⟩ := by
      apply Source.node
      · intro name rest c hpath
        cases hpath
        exact hcapability c
      · intro name place rest e hpath
        cases hpath
        exact no_occurrence_iff.2 rfl e
    obtain rfl := hs _ hsource
    exact (herror _).2 .noMapping

end CloutQuery.Resolver
