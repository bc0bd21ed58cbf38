import CloutQuery.Proofs.Graph.Consistency
import CloutQuery.Proofs.Graph.Loading
import CloutQuery.Proofs.Graph.Meaning
import CloutQuery.Proofs.Graph.Streaming
import CloutQuery.Proofs.Text.ByteOrder

namespace CloutQuery

open Json

namespace Graph

variable {g : Graph} {d : CloutDocument} {entries : List (String × VertexDocument)}

/-- The graph holds what the document says, each thing once and in the order of the document. -/
structure Image (d : CloutDocument) (g : Graph) : Prop where
  version : g.version = d.version
  properties : g.properties = d.properties
  metadata {key : String} : key ≠ "history" → g.metadata.get? key = d.metadata.get? key
  metadata_history : g.metadata.get? "history" = none
  metadata_entries : g.metadata.entries = d.metadata.entries.filter fun e ↦ e.1 ≠ "history"
  metadata_sorted : d.metadata.Sorted → g.metadata.Sorted
  no_history : d.metadata.get? "history" = none → g.history = []
  history {v : Value} : d.metadata.get? "history" = some v →
    ∃ items, v = .array items ∧ items.map HistoryEntry.decoder.ofValue = g.history.map some
  history_means {v : Value} : d.metadata.get? "history" = some v → v.Sorted →
    ListMeans HistoryEntry.Means v g.history
  ascending : (d.vertices.entries.map fun e ↦ Text.bytes e.1).Pairwise (· < ·)
  size_vertices : g.vertices.size = d.vertices.entries.length
  size_edges : g.edges.size = (d.vertices.entries.map (·.2.edges.length)).sum
  vertex {i : ℕ} {key : String} {v : VertexDocument} : d.vertices.entries[i]? = some (key, v) →
    ∃ w, g.vertex? ⟨i⟩ = some w ∧ w.id = ⟨i⟩ ∧ w.key = key ∧ w.metadata = v.metadata ∧
      w.properties = v.properties ∧ (g.edgesOut w).length = v.edges.length ∧
      ∀ (j : ℕ) (e : EdgeDocument), v.edges[j]? = some e → ∃ target u,
        (g.edgesOut w)[j]? = some ⟨⟨edgesBefore d.vertices.entries i + j⟩, ⟨i⟩, target,
          e.metadata, e.properties⟩ ∧
        g.vertex? target = some u ∧ u.key = e.target

structure HasEdges (g : Graph) (entries : List (String × VertexDocument)) : Prop where
  size : g.edges.size = (entries.map (·.2.edges.length)).sum
  edge {i j : ℕ} {key : String} {v : VertexDocument} {e : EdgeDocument} :
    entries[i]? = some (key, v) → v.edges[j]? = some e → ∃ target u,
      g.edge? ⟨edgesBefore entries i + j⟩ =
        some ⟨⟨edgesBefore entries i + j⟩, ⟨i⟩, target, e.metadata, e.properties⟩ ∧
      g.vertex? target = some u ∧ u.key = e.target
  place {id : EdgeId} {e : Edge} : g.edge? id = some e → ∃ i key v j,
    entries[i]? = some (key, v) ∧ j < v.edges.length ∧ e.origin = ⟨i⟩ ∧
    id = ⟨edgesBefore entries i + j⟩

theorem Adds.hasEdges {placed : Graph} (hg : g.Coherent) (hnone : placed.edges = #[])
    (h : placed.Adds (edgesFrom 0 entries) g) : g.HasEdges entries := by
  have hempty : placed.edges.size = 0 := by rw [hnone]; rfl
  have hedge {m : ℕ} {origin : VertexId} {e : EdgeDocument}
      (hm : (edgesFrom 0 entries)[m]? = some (origin, e)) : ∃ target u,
      g.edge? ⟨m⟩ = some ⟨⟨m⟩, origin, target, e.metadata, e.properties⟩ ∧
      g.vertex? target = some u ∧ u.key = e.target := by
    obtain ⟨target, htarget, he⟩ := h.edge hm
    have hkeys : g.keys = placed.keys := by rw [h.rest]
    obtain ⟨u, hu, hkey⟩ := hg.index_iff.1 (hkeys ▸ htarget)
    rw [hempty, Nat.zero_add] at he
    exact ⟨target, u, he, hu, hkey⟩
  have hsize : g.edges.size = (edgesFrom 0 entries).length := by
    rw [h.size_edges, hempty, Nat.zero_add]
  refine ⟨hsize.trans (length_edgesFrom 0 entries), fun hi hj ↦ ?_, fun {id e} he ↦ ?_⟩
  · have hm := edgesFrom_getElem? (n := 0) hi hj
    rw [Nat.zero_add] at hm
    exact hedge hm
  · have hlt : id.index < (edgesFrom 0 entries).length :=
      hsize ▸ (Array.getElem?_eq_some_iff.1 he).1
    have hm := List.getElem?_eq_getElem hlt
    obtain ⟨i, key, v, j, hi, hj, horigin, hplace⟩ := exists_of_edgesFrom hm
    obtain ⟨_, _, he', -⟩ := hedge hm
    have heq := he.symm.trans he'
    rw [Option.some.injEq] at heq
    refine ⟨i, key, v, j, hi, (List.getElem?_eq_some_iff.1 hj).1, ?_, ?_⟩
    · rw [heq, horigin, Nat.zero_add]
    · cases id
      exact congrArg EdgeId.mk hplace

theorem HasEdges.edgesOut_eq {i : ℕ} {key : String} {v : VertexDocument} {w : Vertex}
    (h : g.HasEdges entries) (hg : g.Coherent) (hi : entries[i]? = some (key, v))
    (hw : g.vertex? ⟨i⟩ = some w) :
    w.edgesOut = (List.range v.edges.length).map fun j ↦ ⟨edgesBefore entries i + j⟩ := by
  have hmem : w ∈ g.vertices := mem_vertices_iff.2 ⟨_, hw⟩
  have : Std.Irrefl fun a b : EdgeId ↦ a.index < b.index := ⟨fun _ ↦ Nat.lt_irrefl _⟩
  have : Std.Antisymm fun a b : EdgeId ↦ a.index < b.index :=
    ⟨fun _ _ hab hba ↦ absurd hba (Nat.lt_asymm hab)⟩
  -- both lists ascend, so it is enough that they hold the same ids
  refine List.Pairwise.eq_of_mem_iff (hg.increasing hmem) ?_ fun id ↦ ?_
  · rw [List.pairwise_map]
    exact List.pairwise_lt_range.imp fun hlt ↦ Nat.add_lt_add_left hlt _
  · rw [hg.mem_edgesOut_iff hmem, hg.vertex_id hw]
    constructor
    · rintro ⟨e, he, horigin⟩
      obtain ⟨i', key', v', j, hi', hj, horigin', rfl⟩ := h.place he
      rw [horigin, VertexId.mk.injEq] at horigin'
      subst horigin'
      rw [hi, Option.some.injEq, Prod.mk.injEq] at hi'
      exact List.mem_map_of_mem (List.mem_range.2 (hi'.2 ▸ hj))
    · intro hid
      obtain ⟨j, hj, rfl⟩ := List.mem_map.1 hid
      obtain ⟨target, u, he, -, -⟩ := h.edge hi (List.getElem?_eq_getElem (List.mem_range.1 hj))
      exact ⟨_, he, rfl⟩

theorem HasEdges.length_edgesOut {i : ℕ} {key : String} {v : VertexDocument} {w : Vertex}
    (h : g.HasEdges entries) (hg : g.Coherent) (hi : entries[i]? = some (key, v))
    (hw : g.vertex? ⟨i⟩ = some w) : (g.edgesOut w).length = v.edges.length := by
  have hids := hg.consistent.map_id_edgesOut (mem_vertices_iff.2 ⟨_, hw⟩)
  rw [h.edgesOut_eq hg hi hw] at hids
  simpa using congrArg List.length hids

theorem HasEdges.edgesOut_getElem? {i j : ℕ} {key : String} {v : VertexDocument} {w : Vertex}
    (h : g.HasEdges entries) (hg : g.Coherent) (hi : entries[i]? = some (key, v))
    (hw : g.vertex? ⟨i⟩ = some w) (hj : j < v.edges.length) :
    (g.edgesOut w)[j]? = g.edge? ⟨edgesBefore entries i + j⟩ := by
  have hmem : w ∈ g.vertices := mem_vertices_iff.2 ⟨_, hw⟩
  have hids := hg.consistent.map_id_edgesOut hmem
  rw [h.edgesOut_eq hg hi hw] at hids
  have hid := congrArg (·[j]?) hids
  simp only [List.getElem?_map, List.getElem?_range hj, Option.map_some] at hid
  obtain ⟨e, he, heid⟩ := Option.map_eq_some_iff.1 hid
  have hstart := List.mem_of_getElem? he
  rw [hg.edgesOut_eq_startingAt hmem] at hstart
  rw [he, ← heid, hg.edge?_id (mem_startingAt_iff.1 hstart).1]

theorem historyOf_eq_ok {metadata : Payload} {history : List HistoryEntry}
    (h : historyOf metadata = .ok history) :
    (metadata.get? "history" = none → history = []) ∧
    ∀ v, metadata.get? "history" = some v → ∃ items, v = .array items ∧
      items.map HistoryEntry.decoder.ofValue = history.map some := by
  unfold historyOf at h
  cases hv : metadata.get? "history" with
  | none =>
    rw [hv] at h
    cases h
    exact ⟨fun _ ↦ rfl, fun v hv' ↦ (by cases hv')⟩
  | some v =>
    rw [hv] at h
    dsimp only at h
    split at h
    · rename_i entries hentries
      cases h
      refine ⟨(by cases ·), fun v' hv' ↦ ?_⟩
      cases hv'
      cases v with
      | array items => exact ⟨items, rfl, mapM_eq_some_iff.1 hentries⟩
      | null | boolean | number | text | object => cases hentries
    · cases h

theorem image_of_sorted (hsorted : d.vertices.Sorted) (h : ofDocument d = .ok g) : Image d g := by
  have hg := Coherent.ofDocument h
  obtain ⟨placed, hversion, hmetadata, hproperties, hhistory, hvertices, hnone, hadds⟩ :=
    ofDocument_eq_ok h
  have hedges := hadds.hasEdges hg hnone
  obtain ⟨hv, hm, hp, hh⟩ : g.version = placed.version ∧ g.metadata = placed.metadata ∧
      g.properties = placed.properties ∧ g.history = placed.history := by
    rw [hadds.rest]
    exact ⟨rfl, rfl, rfl, rfl⟩
  obtain ⟨hno, hentries⟩ := historyOf_eq_ok hhistory
  have herase := hm.trans hmetadata
  exact {
    version := hv.trans hversion
    properties := hp.trans hproperties
    metadata := fun {key} hkey ↦ by rw [herase, Table.get?_erase, if_neg hkey]
    metadata_history := by rw [herase, Table.get?_erase, if_pos rfl]
    metadata_entries := congrArg Table.entries herase
    metadata_sorted := fun hmetadata ↦ herase ▸ Table.sorted_erase hmetadata "history"
    no_history := fun hn ↦ hh.trans (hno hn)
    history := fun hget ↦ hh ▸ hentries _ hget
    history_means := fun hget hv ↦ by
      obtain ⟨items, rfl, hitems⟩ := hentries _ hget
      rw [hh]
      exact Decoder.tells_list HistoryEntry.tells_decoder _ _ hv (mapM_eq_some_iff.2 hitems)
    ascending := by
      rw [List.pairwise_map]
      exact (List.pairwise_map.1 hsorted).imp Text.lt_iff_bytes_lt.1
    size_vertices := by
      rw [hadds.size_vertices, hvertices]
      exact length_verticesFrom 0 _
    size_edges := hedges.size
    vertex := fun {i key v} hi ↦ by
      obtain ⟨w, hw, hk, hm, hp⟩ := hadds.exists_vertex hvertices hi
      refine ⟨w, hw, hg.vertex_id hw, hk, hm, hp, hedges.length_edgesOut hg hi hw, ?_⟩
      intro j e hj
      obtain ⟨target, u, he, hu, hkey⟩ := hedges.edge hi hj
      refine ⟨target, u, ?_, hu, hkey⟩
      rw [hedges.edgesOut_getElem? hg hi hw (List.getElem?_eq_some_iff.1 hj).1]
      exact he }

end Graph

namespace CloutDocument

/-- Reads the fields of a document and fills in none of those that are missing. -/
def draft : Decoder Draft := Decoder.record fields ⟨none, none, none, none⟩ some

/-- The document that a draft is completed to, with the standard version and nothing else. -/
def Draft.completed (x : Draft) : CloutDocument :=
  ⟨x.version.getD Graph.defaultVersion, x.metadata.getD ∅, x.properties.getD ∅, x.vertices.getD ∅⟩

theorem fields_keep_sorted {f : RecordField Draft} (hf : f ∈ fields) :
    f.Keeps fun x ↦ (x.vertices.getD ∅).Sorted := by
  rcases List.mem_cons.1 hf with rfl | hf
  · exact Decoder.field_keeps fun _ _ hs _ ↦ hs
  rcases List.mem_cons.1 hf with rfl | hf
  · exact Decoder.field_keeps fun _ _ hs _ ↦ hs
  rcases List.mem_cons.1 hf with rfl | hf
  · exact Decoder.field_keeps fun _ _ hs _ ↦ hs
  rw [List.mem_singleton.1 hf]
  exact Decoder.field_keeps fun _ _ _ ht ↦ Decoder.yields_table_sorted ht

theorem draft_sorted {x : Draft} (h : draft.Yields x) : (x.vertices.getD ∅).Sorted := by
  obtain ⟨_, hs, heq⟩ := Decoder.yields_record (fun _ hf ↦ fields_keep_sorted hf)
    (by exact Table.sorted_empty) h
  cases heq
  exact hs

theorem decoder_eq_refine : decoder = draft.refine Draft.finish :=
  Decoder.record_eq_refine fields ⟨none, none, none, none⟩ Draft.finish

end CloutDocument

namespace Graph

variable {g : Graph} {d : CloutDocument}

theorem load_image :
    (∀ (text : String) (g : Graph), ofText text = .ok g → ∃ x,
      CloutDocument.draft.parse text = .ok x ∧ Image x.completed g ∧
      ∀ v, Json.parse text = .ok v → DistinctKeys text → CloutDocument.Means v x.completed) ∧
    ∀ (v : Value) (g : Graph), ofValue v = .ok g → ∃ x,
      CloutDocument.draft.ofValue v = some x ∧ Image x.completed g ∧
      (v.Sorted → CloutDocument.Means v x.completed) := by
  constructor
  · intro text g h
    obtain ⟨d, hd, h⟩ := ofText_eq_ok_iff.1 h
    obtain ⟨x, hx, hfinish⟩ := Decoder.refine_parse_eq_ok (CloutDocument.decoder_eq_refine ▸ hd)
    cases hfinish
    have hsorted := CloutDocument.draft_sorted (Decoder.yields_of_parse hx)
    refine ⟨x, hx, image_of_sorted hsorted h, fun v hparse hkeys ↦ ?_⟩
    obtain ⟨w, hw, hfits, rfl⟩ := parse_eq_ok_iff.1 hparse
    have hvalue := (CloutDocument.agrees_decoder.parse_eq_ok_iff hw hfits (hkeys w hw)).1 hd
    exact CloutDocument.tells_decoder _ _ (parse_sorted hparse) hvalue
  · intro v g h
    obtain ⟨d, hd, h⟩ := ofValue_eq_ok_iff.1 h
    obtain ⟨x, hx, hfinish⟩ := Option.bind_eq_some_iff.1 (CloutDocument.decoder_eq_refine ▸ hd)
    cases hfinish
    have hsorted := CloutDocument.draft_sorted (.inr ⟨v, hx⟩)
    exact ⟨x, hx, image_of_sorted hsorted h, fun hv ↦ CloutDocument.tells_decoder v _ hv hd⟩

end Graph

namespace CloutDocument

def compiledEntry : Value :=
  .object ⟨[("description", .text "compiled"), ("timestamp", .text "2024-05-01T12:00:00Z")]⟩

/-- A document without a version, with a history between two other members of its metadata, and with an
edge to a vertex that comes later. -/
def forward : Draft where
  version := none
  metadata := some ⟨[("author", .text "a"), ("history", .array [compiledEntry]), ("title", .text "t")]⟩
  properties := none
  vertices := some ⟨[("a", ⟨∅, ∅, [⟨∅, ∅, "b"⟩]⟩), ("b", ⟨∅, ∅, []⟩)]⟩

def forwardValue : Value :=
  .object ⟨[("metadata", .object (forward.metadata.getD ∅)), ("vertexes", .object ⟨[
    ("a", .object ⟨[("edgesOut", .array [.object ⟨[("targetID", .text "b")]⟩])]⟩), ("b", .object ∅)]⟩)]⟩

theorem draft_ofValue_forward : draft.ofValue forwardValue = some forward := rfl

theorem compiledEntry_sorted : compiledEntry.Sorted := ⟨by decide, trivial, trivial, trivial⟩

theorem forwardValue_sorted : forwardValue.Sorted := by
  refine ⟨by decide, ⟨by decide, trivial, ⟨compiledEntry_sorted, trivial⟩, trivial, trivial⟩, ?_, trivial⟩
  exact ⟨by decide, ⟨by decide, ⟨⟨by decide, trivial, trivial⟩, trivial⟩, trivial⟩, ⟨.nil, trivial⟩, trivial⟩

theorem description_of_compiledEntry {e : HistoryEntry} (h : HistoryEntry.Means compiledEntry e) :
    e.description = "compiled" := by
  cases h with
  | mk record _ _ description_stated =>
    cases record
    cases description_stated
    rfl

end CloutDocument

namespace Graph

open CloutDocument in
theorem load_image_forward :
    ∃ g, ofValue forwardValue = .ok g ∧ CloutDocument.Means forwardValue forward.completed ∧
      g.version = "1.0" ∧ g.metadata.get? "author" = some (.text "a") ∧
      g.metadata.get? "history" = none ∧ g.metadata.get? "title" = some (.text "t") ∧
      (∃ e, g.history = [e] ∧ e.description = "compiled") ∧ g.edges.size = 1 ∧
      ∃ w target u, g.vertex? ⟨0⟩ = some w ∧ w.key = "a" ∧
        (g.edgesOut w)[0]? = some ⟨⟨0⟩, ⟨0⟩, target, ∅, ∅⟩ ∧ g.vertex? target = some u ∧
        u.key = "b" := by
  have hloads : ∃ g, ofValue forwardValue = .ok g := ⟨_, rfl⟩
  obtain ⟨g, hg⟩ := hloads
  obtain ⟨x, hx, himage, hmeans⟩ := load_image.2 _ g hg
  obtain rfl := Option.some.inj (draft_ofValue_forward.symm.trans hx)
  have hhistory : ∃ e, g.history = [e] ∧ e.description = "compiled" := by
    obtain ⟨items, hitems, hentries⟩ := himage.history_means rfl ⟨compiledEntry_sorted, trivial⟩
    cases hitems
    obtain ⟨e, rest, he, hrest, hentries⟩ := List.forall₂_cons_left_iff.1 hentries
    rw [List.forall₂_nil_left_iff.1 hrest] at hentries
    exact ⟨e, hentries, description_of_compiledEntry he⟩
  obtain ⟨w, hw, -, hk, -, -, -, hedges⟩ := himage.vertex (i := 0) rfl
  obtain ⟨target, u, he, hu, hkey⟩ := hedges 0 _ rfl
  exact ⟨g, hg, hmeans forwardValue_sorted, himage.version, himage.metadata (by decide),
    himage.metadata_history, himage.metadata (by decide), hhistory, himage.size_edges, w, target, u,
    hw, hk, he, hu, hkey⟩

end Graph

end CloutQuery
