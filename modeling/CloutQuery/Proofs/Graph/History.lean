import CloutQuery.Proofs.Graph.Loading
import Mathlib

namespace CloutQuery

def Change.entry? : Change → Option HistoryEntry
  | .appendHistory entry => some entry
  | .addVertex .. | .addEdge .. | .setOutput .. => none

/-- What a change may do to a graph, accepted or refused: nothing is touched but its own part, and a
list that is its own only grows at the end. -/
def Change.Frame (g : Graph) : Change → Graph → Prop
  | .addVertex key _ _, g' =>
    g' = { g with vertices := g'.vertices, keys := g'.keys } ∧
      g.vertices.toList <+: g'.vertices.toList ∧ ∀ k ≠ key, g'.keys.get? k = g.keys.get? k
  | .addEdge origin _ _ _, g' =>
    g' = { g with vertices := g'.vertices, edges := g'.edges } ∧
      g.edges.toList <+: g'.edges.toList ∧ g'.vertices.size = g.vertices.size ∧
      (∀ id ≠ origin, g'.vertex? id = g.vertex? id) ∧
      ∀ v, g.vertex? origin = some v → ∃ list, v.edgesOut <+: list ∧
        g'.vertex? origin = some { v with edgesOut := list }
  | .setOutput _ _, g' => g' = { g with properties := g'.properties }
  | .appendHistory entry, g' => g' = { g with history := g.history ++ [entry] }

namespace Graph

variable {g g' : Graph}

theorem frame_withVertex (g : Graph) (key : String) (metadata properties : Payload) :
    (Change.addVertex key metadata properties).Frame g (g.withVertex key metadata properties) := by
  refine ⟨rfl, ?_, fun k hk ↦ ?_⟩
  · simp [withVertex]
  · simp [withVertex, hk]

theorem frame_withEdge (g : Graph) (origin target : VertexId) (metadata properties : Payload) :
    (Change.addEdge origin target metadata properties).Frame g
      (g.withEdge origin target metadata properties) := by
  refine ⟨rfl, ?_, size_withEdge _ _ _ _ _, ?_, ?_⟩
  · simp [withEdge]
  · intro id hid
    rw [vertex?_withEdge, if_neg (Ne.symm hid)]
  · intro v hv
    refine ⟨v.edgesOut ++ [⟨g.edges.size⟩], List.prefix_append _ _, ?_⟩
    rw [vertex?_withEdge, if_pos rfl, hv]
    rfl

theorem Move.frame {c : Change} {o : Outcome} (h : Move g c o g') : c.Frame g g' := by
  cases h with
  | addVertex => exact frame_withVertex _ _ _ _
  | duplicateVertex => exact ⟨rfl, List.prefix_rfl, fun _ _ ↦ rfl⟩
  | addEdge => exact frame_withEdge _ _ _ _ _
  | unknownTarget | unknownOrigin =>
    exact ⟨rfl, List.prefix_rfl, rfl, fun _ _ ↦ rfl, fun v hv ↦ ⟨v.edgesOut, List.prefix_rfl, hv⟩⟩
  | setOutput set =>
    obtain ⟨properties, rfl⟩ := setOutput?_eq_some set
    rfl
  | notAssigned => rfl
  | appendHistory => rfl

theorem history_of_frame {c : Change} (h : c.Frame g g') : g'.history = g.history ++ c.entry?.toList := by
  cases c with
  | addVertex =>
    rw [h.1]
    exact (List.append_nil _).symm
  | addEdge =>
    rw [h.1]
    exact (List.append_nil _).symm
  | setOutput =>
    rw [show g' = { g with properties := g'.properties } from h]
    exact (List.append_nil _).symm
  | appendHistory entry =>
    rw [show g' = { g with history := g.history ++ [entry] } from h]
    rfl

theorem history_run (g : Graph) (changes : List Change) :
    (g.run changes).history = g.history ++ changes.filterMap Change.entry? := by
  induction changes generalizing g with
  | nil => simp [run]
  | cons c rest ih =>
    have hfirst := history_of_frame (move_perform g c).frame
    have hrest := ih (g.apply c)
    change (((g.apply c).run rest).history = _)
    rw [hrest, apply, hfirst]
    cases h : c.entry? <;> simp [h]

theorem run_append (g : Graph) (changes later : List Change) :
    g.run (changes ++ later) = (g.run changes).run later := List.foldl_append

theorem history_ofDocument {d : CloutDocument} (h : ofDocument d = .ok g) :
    historyOf d.metadata = .ok g.history := by
  obtain ⟨placed, -, -, -, hhistory, -, -, hadds⟩ := ofDocument_eq_ok h
  rw [hhistory, hadds.rest]

theorem history_appends :
    (∀ version changes,
      ((empty version).run changes).history = changes.filterMap Change.entry?) ∧
    (∀ d g, ofDocument d = .ok g → ∃ loaded, historyOf d.metadata = .ok loaded ∧
      ∀ changes, (g.run changes).history = loaded ++ changes.filterMap Change.entry?) ∧
    (∀ (g : Graph) changes later, (g.run changes).history <+: (g.run (changes ++ later)).history) ∧
    ∀ (g : Graph) (c : Change), c.Frame g (g.apply c) := by
  refine ⟨fun version changes ↦ ?_, fun d g hload ↦ ?_, fun g changes later ↦ ?_, fun g c ↦ ?_⟩
  · exact history_run (empty version) changes
  · exact ⟨g.history, history_ofDocument hload, history_run g⟩
  · rw [run_append, history_run (g.run changes) later]
    exact List.prefix_append _ _
  · exact (move_perform g c).frame

/-- An entry of the document stays in front of one that is appended between two refused changes. -/
theorem history_appends_between_refusals :
    let compiled : Value := .object ⟨[("description", .text "compiled"),
      ("timestamp", .text "2024-01-02T03:04:05Z")]⟩
    let d : CloutDocument :=
      ⟨"1.0", ⟨[("history", .array [compiled])]⟩, ∅, ⟨[("a", ⟨∅, ∅, []⟩)]⟩⟩
    let changes : List Change := [.addVertex "a" ∅ ∅, .appendHistory ⟨.now, "resolved"⟩,
      .addEdge ⟨0⟩ ⟨7⟩ ∅ ∅]
    ∃ g, ofDocument d = .ok g ∧ (g.run changes).vertices.size = 1 ∧
      (g.run changes).history.map (·.description) = ["compiled", "resolved"] := by
  intro compiled d changes
  have hload : ofDocument d = .ok ⟨"1.0", ∅, ∅, [⟨.at ⟨1064436664, 5, 0⟩, "compiled"⟩],
    #[⟨⟨0⟩, "a", ∅, ∅, []⟩], #[], ⟨[("a", ⟨0⟩)]⟩⟩ := by cbv
  obtain ⟨loaded, hloaded, hrun⟩ := history_appends.2.1 d _ hload
  refine ⟨_, hload, rfl, ?_⟩
  rw [hrun, Except.ok.inj (hloaded.symm.trans (history_ofDocument hload))]
  rfl

end Graph

end CloutQuery
