import CloutQuery.CommandLine.Run
import CloutQuery.Proofs.Element.Marking
import CloutQuery.Proofs.Except

namespace CloutQuery

namespace Classifier

variable {c : Classifier} {v : Vertex}

theorem isNodeTemplateOf_none (c : Classifier) (v : Vertex) :
    c.isNodeTemplateOf v none = c.hasKind v.metadata .nodeTemplate := by
  simp [isNodeTemplateOf, isNodeTemplate]

theorem hasKind_of_isNodeTemplateOf {typeName : Option String} (h : c.isNodeTemplateOf v typeName) :
    c.hasKind v.metadata .nodeTemplate := by
  simp only [isNodeTemplateOf, Bool.and_eq_true] at h
  exact h.1

end Classifier

namespace CommandLine

/-- What a report on an element shows, as a value and as a line: the key, whether the element is one of
the model, its kind if it has one, and whether it is a node template. -/
structure Report.Shows (rep : Report) (key : String) (modelElement : Bool) (kind : Option ElementKind)
    (nodeTemplate : Bool) : Prop where
  keyMember : rep.value.get? "key" = some (.text key)
  elementMember : rep.value.get? "model_element" = some (.boolean modelElement)
  kindMember : rep.value.get? "kind" = some (kind.elim .null fun k ↦ .text k.name)
  templateMember : rep.value.get? "node_template" = some (.boolean nodeTemplate)
  line (inColor : Bool) : rep.lines inColor = [Style.bold.apply inColor key ++ " kind=" ++
    kind.elim "-" (·.name) ++ " node_template=" ++ if nodeTemplate then "true" else "false"]

theorem shows_ofClassification (c : Classifier) (v : Vertex) (typeName : Option String) :
    (Report.ofClassification c v typeName).Shows v.key (c.isModelElement v.metadata)
      (c.elementKind? v.metadata) (c.isNodeTemplateOf v typeName) where
  keyMember := by simp [Report.ofClassification, Value.get?, Value.object?, Table.ofList]
  elementMember := by simp [Report.ofClassification, Value.get?, Value.object?, Table.ofList]
  kindMember := by
    cases hkind : c.elementKind? v.metadata <;>
      simp [Report.ofClassification, Value.get?, Value.object?, Table.ofList, hkind]
  templateMember := by simp [Report.ofClassification, Value.get?, Value.object?, Table.ofList]
  line inColor := by
    cases hkind : c.elementKind? v.metadata <;> cases htemplate : c.isNodeTemplateOf v typeName <;>
      simp [Report.ofClassification, hkind, htemplate, Value.render, Value.scalarText]

theorem classify_eq_ok {r : Resolver} {key : String} {typeName : Option String} {rep : Report}
    (h : report r (.classify key typeName) = .ok rep) : ∃ v, r.graph.vertexByKey? key = some v ∧
      rep = .ofClassification r.classifier v typeName := by
  obtain ⟨v, hv, hrep⟩ := bind_eq_ok_iff.1 h
  unfold vertex at hv
  split at hv
  · rename_i u hu
    cases hv
    exact ⟨v, hu, (Except.ok.inj hrep).symm⟩
  · cases hv

theorem classification_coherent :
    (∀ (c : Classifier) (metadata : Payload),
      (∀ kind, c.elementKind? metadata = some kind ↔ c.hasKind metadata kind) ∧
      (∀ kind, c.hasKind metadata kind ↔ c.Marks metadata kind.name) ∧
      (∀ kind kind', c.hasKind metadata kind → c.hasKind metadata kind' → kind = kind') ∧
      (∀ kind, c.hasKind metadata kind → c.isModelElement metadata) ∧
      (c.isModelElement metadata ↔ c.HasMark metadata) ∧
      (¬ c.HasMark metadata → c.elementKind? metadata = none ∧ ∀ kind, ¬ c.hasKind metadata kind)) ∧
    (∀ (c : Classifier) (v : Vertex),
      (∀ typeName, c.isNodeTemplateOf v (some typeName) → c.isNodeTemplateOf v none) ∧
      (c.isNodeTemplateOf v none ↔ c.elementKind? v.metadata = some .nodeTemplate)) ∧
    ∀ (r : Resolver) (key : String) (typeName : Option String) (rep : Report),
      report r (.classify key typeName) = .ok rep → ∃ v modelElement kind nodeTemplate,
        r.graph.vertexByKey? key = some v ∧ rep.Shows v.key modelElement kind nodeTemplate ∧
        (kind ≠ none → modelElement = true) ∧ (nodeTemplate = true → kind = some .nodeTemplate) := by
  refine ⟨fun c metadata ↦ ⟨fun kind ↦ Classifier.hasKind_iff.symm, fun kind ↦ Classifier.hasKind_iff_marks,
    fun kind kind' ↦ Classifier.hasKind_unique, fun kind ↦ Classifier.isModelElement_of_hasKind,
    Classifier.isModelElement_iff, fun hmark ↦ ?_⟩, fun c v ↦ ⟨fun typeName h ↦ ?_, ?_⟩,
    fun r key typeName rep h ↦ ?_⟩
  · have hnone := Classifier.elementKind?_of_unmarked hmark
    refine ⟨hnone, fun kind hkind ↦ ?_⟩
    rw [Classifier.hasKind_iff, hnone] at hkind
    cases hkind
  · rw [Classifier.isNodeTemplateOf_none]
    exact Classifier.hasKind_of_isNodeTemplateOf h
  · rw [Classifier.isNodeTemplateOf_none, Classifier.hasKind_iff]
  · obtain ⟨v, hv, rfl⟩ := classify_eq_ok h
    refine ⟨v, _, _, _, hv, shows_ofClassification r.classifier v typeName, fun hkind ↦ ?_,
      fun htemplate ↦ ?_⟩
    · obtain ⟨kind, hkind⟩ := Option.ne_none_iff_exists'.1 hkind
      exact Classifier.isModelElement_of_hasKind (Classifier.hasKind_iff.2 hkind)
    · exact Classifier.hasKind_iff.1 (Classifier.hasKind_of_isNodeTemplateOf htemplate)

/-- A node template of a type, for a classifier of its version and for one of another. -/
theorem classification_coherent_web :
    let root : Payload := ⟨[("types", .object ⟨[("tosca::Root", .object ∅)]⟩)]⟩
    let web : Vertex := ⟨⟨0⟩, "web", Classifier.standard.mark .nodeTemplate, root, []⟩
    let r : Resolver := ⟨⟨"1.0", ∅, ∅, [], #[web], #[], ⟨[("web", web.id)]⟩⟩, Host.passthrough, Config.standard⟩
    let later : Classifier := ⟨"puccini", "2.0"⟩
    (∃ rep, report r (.classify "web" (some "tosca::Root")) = .ok rep ∧
      rep.Shows "web" true (some .nodeTemplate) true) ∧
    r.classifier.isNodeTemplateOf web none ∧ ¬ later.HasMark web.metadata ∧
    later.elementKind? web.metadata = none := by
  intro root web r later
  have hrep : report r (.classify "web" (some "tosca::Root")) =
      .ok (.ofClassification r.classifier web (some "tosca::Root")) := rfl
  have htyped : r.classifier.isNodeTemplateOf web (some "tosca::Root") := rfl
  have hunmarked : ¬ later.HasMark web.metadata := by
    rintro ⟨mark, hmark, hversion⟩
    cases hmark
    simp [later, Table.get?, List.lookup, Classifier.standard] at hversion
  obtain ⟨hanswers, htemplates, hreports⟩ := classification_coherent
  obtain ⟨v, modelElement, kind, nodeTemplate, hv, hshows, helement, hkind⟩ := hreports r _ _ _ hrep
  obtain rfl : web = v := Option.some.inj hv
  obtain rfl : true = nodeTemplate := by
    have hmember : _ = some (Value.boolean nodeTemplate) := hshows.templateMember
    simpa [Report.ofClassification, Value.get?, Value.object?, Table.ofList, htyped] using hmember
  obtain rfl := hkind rfl
  obtain rfl := helement (by simp)
  exact ⟨⟨_, hrep, hshows⟩, (htemplates r.classifier web).1 _ htyped, hunmarked,
    ((hanswers later web.metadata).2.2.2.2.2 hunmarked).1⟩

end CommandLine

end CloutQuery
