import CloutQuery.Graph.Load
import CloutQuery.Proofs.Json.Rearrangement
import Mathlib

namespace CloutQuery

open Json Decoder

theorem EdgeDocument.agrees_decoder : EdgeDocument.decoder.Agrees := by
  have hagrees : ∀ f ∈ fields, f.Agrees := by
    simp only [fields, List.forall_mem_cons]
    exact ⟨agrees_field agrees_payload _ _, agrees_field agrees_payload _ _,
      agrees_field agrees_text _ _, List.forall_mem_nil _⟩
  have hapart : fields.Pairwise RecordField.Apart := by
    simp only [fields, List.pairwise_cons, List.forall_mem_cons, List.not_mem_nil,
      IsEmpty.forall_iff, implies_true, List.Pairwise.nil, and_true]
    refine ⟨⟨?_, ?_⟩, ?_⟩ <;>
      exact apart_field (fun _ _ _ ↦ rfl) (fun _ _ ↦ rfl) fun _ _ ↦ rfl
  have hstart : ∀ f ∈ fields, f.isSet ⟨none, none, none⟩ = false := by simp [fields, field]
  exact agrees_record hagrees hapart hstart _

theorem VertexDocument.agrees_decoder : VertexDocument.decoder.Agrees := by
  have hagrees : ∀ f ∈ fields, f.Agrees := by
    simp only [fields, List.forall_mem_cons]
    exact ⟨agrees_field agrees_payload _ _, agrees_field agrees_payload _ _,
      agrees_field (agrees_list EdgeDocument.agrees_decoder) _ _, List.forall_mem_nil _⟩
  have hapart : fields.Pairwise RecordField.Apart := by
    simp only [fields, List.pairwise_cons, List.forall_mem_cons, List.not_mem_nil,
      IsEmpty.forall_iff, implies_true, List.Pairwise.nil, and_true]
    refine ⟨⟨?_, ?_⟩, ?_⟩ <;>
      exact apart_field (fun _ _ _ ↦ rfl) (fun _ _ ↦ rfl) fun _ _ ↦ rfl
  have hstart : ∀ f ∈ fields, f.isSet ⟨none, none, none⟩ = false := by simp [fields, field]
  exact agrees_record hagrees hapart hstart _

theorem CloutDocument.agrees_decoder : CloutDocument.decoder.Agrees := by
  have hagrees : ∀ f ∈ fields, f.Agrees := by
    simp only [fields, List.forall_mem_cons]
    exact ⟨agrees_field agrees_text _ _, agrees_field agrees_payload _ _,
      agrees_field agrees_payload _ _,
      agrees_field (agrees_table VertexDocument.agrees_decoder) _ _, List.forall_mem_nil _⟩
  have hapart : fields.Pairwise RecordField.Apart := by
    simp only [fields, List.pairwise_cons, List.forall_mem_cons, List.not_mem_nil,
      IsEmpty.forall_iff, implies_true, List.Pairwise.nil, and_true]
    refine ⟨⟨?_, ?_, ?_⟩, ⟨?_, ?_⟩, ?_⟩ <;>
      exact apart_field (fun _ _ _ ↦ rfl) (fun _ _ ↦ rfl) fun _ _ ↦ rfl
  have hstart : ∀ f ∈ fields, f.isSet ⟨none, none, none, none⟩ = false := by simp [fields, field]
  exact agrees_record hagrees hapart hstart _

namespace Graph

theorem ofText_eq_ok_iff {text : String} {g : Graph} : ofText text = .ok g ↔
    ∃ d, CloutDocument.decoder.parse text = .ok d ∧ ofDocument d = .ok g := by
  unfold ofText
  cases CloutDocument.decoder.parse text <;> simp

theorem ofValue_eq_ok_iff {v : Value} {g : Graph} : ofValue v = .ok g ↔
    ∃ d, CloutDocument.decoder.ofValue v = some d ∧ ofDocument d = .ok g := by
  unfold ofValue
  cases CloutDocument.decoder.ofValue v <;> simp

theorem ofText_iff_of_tree {text : String} {w : Tree} (hw : WrittenAs text w)
    (hfits : w.Fits Reader.depthLimit) (hdistinct : w.Distinct) (g : Graph) :
    ofText text = .ok g ↔ ofValue w.value = .ok g := by
  rw [ofText_eq_ok_iff, ofValue_eq_ok_iff]
  simp only [CloutDocument.agrees_decoder.parse_eq_ok_iff hw hfits hdistinct]

/-- A graph is loaded from a text just if it is loaded from the value, and so from every text that
differs from it in blanks and in the order of members only. -/
theorem ofText_agrees {text : String} {v : Value} (hparse : Json.parse text = .ok v)
    (hkeys : DistinctKeys text) :
    (∀ g, ofText text = .ok g ↔ ofValue v = .ok g) ∧
    ∀ text' v', Json.parse text' = .ok v' → Rearranged text text' →
      ∀ g, ofText text' = .ok g ↔ ofText text = .ok g := by
  have hload {text : String} {w : Tree} {v : Value} (hparse : Json.parse text = .ok v)
      (hw : WrittenAs text w) (hdistinct : w.Distinct) (g : Graph) :
      v = w.value ∧ (ofText text = .ok g ↔ ofValue w.value = .ok g) := by
    obtain ⟨w₀, hw₀, hfits, rfl⟩ := parse_eq_ok_iff.1 hparse
    obtain rfl := hw₀.unique hw
    exact ⟨rfl, ofText_iff_of_tree hw hfits hdistinct g⟩
  refine ⟨fun g ↦ ?_, fun text' v' hparse' hrearranged g ↦ ?_⟩
  · obtain ⟨w, hw, -, -⟩ := parse_eq_ok_iff.1 hparse
    obtain ⟨rfl, h⟩ := hload hparse hw (hkeys w hw) g
    exact h
  · obtain ⟨w, w', hw, hw', horder⟩ := hrearranged.exists_trees hparse hparse'
    have hdistinct := hkeys w hw
    rw [(hload hparse hw hdistinct g).2, (hload hparse' hw' (horder.distinct hdistinct) g).2,
      horder.value_eq hdistinct]

/-- Vertices out of key order and written as arrays, an edge to the first of them, and a member that no
document has. -/
def unsortedText : String :=
  "\x7b\"vertexes\":\x7b\"b\":[],\"a\":[\x7b\x7d,\x7b\x7d,[[\x7b\x7d,\x7b\x7d,\"b\"]]]\x7d,\"x\":null\x7d"

def rearrangedText : String :=
  "\x7b\"x\":null, \"vertexes\":\x7b\"a\":[\x7b\x7d,\x7b\x7d,[[\x7b\x7d,\x7b\x7d,\"b\"]]],\"b\":[]\x7d\x7d"

theorem ofText_agrees_rearranged : ∃ v v' g,
    Json.parse unsortedText = .ok v ∧ DistinctKeys unsortedText ∧
    Json.parse rearrangedText = .ok v' ∧ Rearranged unsortedText rearrangedText ∧
    ofValue v = .ok g ∧ ofText unsortedText = .ok g ∧ ofText rearrangedText = .ok g := by
  let a : String × Tree :=
    ("a", .array [.object [], .object [], .array [.array [.object [], .object [], .text "b"]]])
  let b : String × Tree := ("b", .array [])
  let x : String × Tree := ("x", .null)
  let w : Tree := .object [("vertexes", .object [b, a]), x]
  let w' : Tree := .object [x, ("vertexes", .object [a, b])]
  have hw : WrittenAs unsortedText w := by cbv
  have hw' : WrittenAs rearrangedText w' := by cbv
  have hparse := parse_eq_ok_iff.2 ⟨w, hw, w.fits_length.mono (by cbv), rfl⟩
  have hparse' := parse_eq_ok_iff.2 ⟨w', hw', w'.fits_length.mono (by cbv), rfl⟩
  have hkeys : DistinctKeys unsortedText := fun u hu ↦ by
    rw [← hw.unique hu]
    simp [w, a, b, x, Tree.Distinct]
  have horder : w.Reordered w' :=
    .trans (.member "vertexes" [] [x] (.members (.swap a b [])))
      (.members (.swap x ("vertexes", Tree.object [a, b]) []))
  have hrearranged : Rearranged unsortedText rearrangedText := .inr ⟨w, w', hw, hw', horder⟩
  have hloads : (ofValue w.value).isOk = true := by cbv
  obtain ⟨g, hg⟩ : ∃ g, ofValue w.value = .ok g := by
    cases h : ofValue w.value with
    | ok g => exact ⟨g, rfl⟩
    | error => rw [h] at hloads; cases hloads
  obtain ⟨hagrees, hfree⟩ := ofText_agrees hparse hkeys
  have htext := (hagrees g).2 hg
  exact ⟨w.value, w'.value, g, hparse, hkeys, hparse', hrearranged, hg, htext,
    (hfree _ _ hparse' hrearranged g).2 htext⟩

end Graph

end CloutQuery
