import CloutQuery.Element.Classifier
import CloutQuery.Proofs.Value.Path
import Mathlib

namespace CloutQuery

theorem Payload.name?_eq_some_iff {properties : Payload} {name : String} :
    properties.name? = some name ↔ properties.get? "name" = some (.text name) := by
  simp [Payload.name?, Option.bind_eq_some_iff, Value.text?_eq_some_iff]

theorem ElementKind.ofName?_eq_some_iff {s : String} {kind : ElementKind} :
    ofName? s = some kind ↔ kind.name = s := by
  constructor
  · intro h
    simpa using List.find?_some h
  · rintro rfl
    cases kind <;> rfl

theorem Classifier.hasKind_iff {c : Classifier} {metadata : Payload} {kind : ElementKind} :
    c.hasKind metadata kind ↔ c.elementKind? metadata = some kind := by
  simp only [hasKind, elementKind?, decide_eq_true_eq, Option.bind_eq_some_iff,
    ElementKind.ofName?_eq_some_iff]
  exact ⟨fun h ↦ ⟨_, h, rfl⟩, by rintro ⟨_, h, rfl⟩; exact h⟩

theorem Classifier.hasKind_unique {c : Classifier} {metadata : Payload} {kind kind' : ElementKind}
    (h : c.hasKind metadata kind) (h' : c.hasKind metadata kind') : kind = kind' := by
  rw [hasKind_iff] at h h'
  exact Option.some.inj (h.symm.trans h')

/-- The metadata hold a mark of the version that the classifier reads, be there a kind in it or not. -/
def Classifier.HasMark (c : Classifier) (metadata : Payload) : Prop :=
  ∃ mark, metadata.get? c.marker = some (.object mark) ∧ mark.get? "version" = some (.text c.version)

theorem Classifier.isModelElement_iff {c : Classifier} {metadata : Payload} :
    c.isModelElement metadata ↔ c.HasMark metadata := by
  simp only [isModelElement, Option.isSome_iff_exists, markedKind?, Option.bind_eq_bind,
    Option.bind_eq_some_iff, Value.object?_eq_some_iff, Value.text?_eq_some_iff]
  constructor
  · rintro ⟨_, _, hmark, mark, rfl, _, hversion, version, rfl, hfound⟩
    split_ifs at hfound with hread
    exact ⟨mark, hmark, hread ▸ hversion⟩
  · rintro ⟨mark, hmark, hversion⟩
    exact ⟨_, _, hmark, mark, rfl, _, hversion, c.version, rfl, if_pos rfl⟩

theorem Classifier.isModelElement_of_hasKind {c : Classifier} {metadata : Payload} {kind : ElementKind}
    (h : c.hasKind metadata kind) : c.isModelElement metadata := by
  rw [hasKind, decide_eq_true_eq] at h
  simp [isModelElement, h]

theorem Classifier.elementKind?_of_unmarked {c : Classifier} {metadata : Payload}
    (h : ¬ c.HasMark metadata) : c.elementKind? metadata = none := by
  rw [Option.eq_none_iff_forall_ne_some]
  intro kind hkind
  exact h (isModelElement_iff.1 (isModelElement_of_hasKind (hasKind_iff.2 hkind)))

def Classifier.Marks (c : Classifier) (metadata : Payload) (kind : String) : Prop :=
  ∃ mark, metadata.get? c.marker = some (.object mark) ∧
    mark.get? "version" = some (.text c.version) ∧ mark.get? "kind" = some (.text kind)

theorem Classifier.markedKind?_eq_some_iff {c : Classifier} {metadata : Payload} {kind : String}
    (hkind : kind ≠ "") : c.markedKind? metadata = some kind ↔ c.Marks metadata kind := by
  simp only [markedKind?, Option.bind_eq_bind, Option.bind_eq_some_iff, Value.object?_eq_some_iff,
    Value.text?_eq_some_iff]
  constructor
  · rintro ⟨_, hmark, mark, rfl, _, hversion, version, rfl, hfound⟩
    split_ifs at hfound with hread
    subst hread
    -- a kind that is missing or no text would be the empty one
    cases hname : mark.get? "kind" with
    | none => simp [hname, hkind.symm] at hfound
    | some v =>
      refine ⟨mark, hmark, hversion, hname.trans (congrArg some ?_)⟩
      cases v <;> simp_all [Value.text?]
  · rintro ⟨mark, hmark, hversion, hname⟩
    exact ⟨_, hmark, mark, rfl, _, hversion, c.version, rfl, by simp [hname, Value.text?]⟩

theorem ElementKind.name_ne_empty (kind : ElementKind) : kind.name ≠ "" := by
  cases kind <;> decide

theorem Classifier.hasKind_iff_marks {c : Classifier} {metadata : Payload} {kind : ElementKind} :
    c.hasKind metadata kind ↔ c.Marks metadata kind.name := by
  rw [hasKind, decide_eq_true_eq, markedKind?_eq_some_iff kind.name_ne_empty]

theorem Classifier.isNodeTemplate_iff {c : Classifier} {v : Vertex} :
    c.isNodeTemplate v ↔ c.Marks v.metadata "NodeTemplate" := hasKind_iff_marks

def Classifier.mark (c : Classifier) (kind : ElementKind) : Payload :=
  ⟨[(c.marker, .object ⟨[("kind", .text kind.name), ("version", .text c.version)]⟩)]⟩

def Classifier.roleTypes (role : String) : Value :=
  .object ⟨[("tosca::HostedOn", .object ⟨[("metadata", .object ⟨[("role", .text role)]⟩)]⟩)]⟩

theorem Classifier.hasKind_mark (c : Classifier) (kind : ElementKind) : c.hasKind (c.mark kind) kind := by
  have hmark : c.markedKind? (c.mark kind) = some kind.name := by
    simp [markedKind?, mark, Table.get?, Value.object?, Value.text?, List.lookup]
  exact decide_eq_true hmark

theorem Classifier.marks_mark (c : Classifier) (kind : ElementKind) : c.Marks (c.mark kind) kind.name :=
  hasKind_iff_marks.1 (c.hasKind_mark kind)

end CloutQuery
