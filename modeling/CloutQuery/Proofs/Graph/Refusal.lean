import CloutQuery.Proofs.Graph.HistoryEntry
import CloutQuery.Proofs.Graph.Image
import CloutQuery.Proofs.Graph.Streaming

namespace CloutQuery

def EdgeDocument.Dangles (d : CloutDocument) (e : EdgeDocument) : Prop := e.target ∉ d.vertices.keys

namespace Graph

open Json

variable {g g' placed : Graph} {d : CloutDocument} {entries : List (String × VertexDocument)}

/-- Of the vertices with a dangling edge the one of the least key, with its first dangling edge. -/
inductive FirstDangling (d : CloutDocument) : String → String → Prop
  | mk {key : String} {v : VertexDocument} {before after : List EdgeDocument} {e : EdgeDocument}
      (stored : (key, v) ∈ d.vertices.entries) (order : v.edges = before ++ e :: after)
      (dangles : e.Dangles d) (earlier : ∀ b ∈ before, ¬ b.Dangles d)
      (least : ∀ entry ∈ d.vertices.entries, (∃ e' ∈ entry.2.edges, e'.Dangles d) →
        Text.bytes key ≤ Text.bytes entry.1) : FirstDangling d key e.target

inductive Refused (d : CloutDocument) : GraphError → Prop
  | history (bad : BadHistory d.metadata) : Refused d (.unreadable .mismatched)
  | dangling {key target : String} (readable : ¬ BadHistory d.metadata)
      (first : FirstDangling d key target) : Refused d (.danglingTarget key target)

structure RefusedExactly (d : CloutDocument) (outcome : Except GraphError Graph) : Prop where
  error_iff {e : GraphError} : outcome = .error e ↔ Refused d e
  fails_iff : (∃ e, outcome = .error e) ↔
    BadHistory d.metadata ∨ ∃ entry ∈ d.vertices.entries, ∃ e ∈ entry.2.edges, e.Dangles d
  no_duplicate (key : String) : outcome ≠ .error (.duplicateVertex key)
  no_unknown (id : VertexId) : outcome ≠ .error (.unknownVertex id)

theorem exists_addVertexDocuments (hnodup : (entries.map Prod.fst).Nodup)
    (hfresh : ∀ key ∈ entries.map Prod.fst, g.keys.get? key = none) :
    ∃ pending placed, g.addVertexDocuments entries = .ok (pending, placed) ∧
      ∀ key, placed.keys.contains key ↔ g.keys.contains key ∨ key ∈ entries.map Prod.fst := by
  induction entries generalizing g with
  | nil => exact ⟨[], g, rfl, fun key ↦ by simp⟩
  | cons entry rest ih =>
    obtain ⟨key, v⟩ := entry
    rw [List.map_cons, List.nodup_cons] at hnodup
    rw [List.map_cons, List.forall_mem_cons] at hfresh
    let g₁ := g.withVertex key v.metadata v.properties
    have hkeys (k : String) : g₁.keys.get? k = if k = key then some ⟨g.vertices.size⟩ else g.keys.get? k :=
      Table.get?_insert _ _ _ _
    have hfirst : g.addVertex key v.metadata v.properties = .ok (⟨g.vertices.size⟩, g₁) := by
      rw [addVertex_eq, if_neg (by simp [Table.contains, hfresh.1])]
    have hlater : ∀ k ∈ rest.map Prod.fst, g₁.keys.get? k = none := by
      intro k hk
      have hne : k ≠ key := ne_of_mem_of_not_mem hk hnodup.1
      rw [hkeys, if_neg hne]
      exact hfresh.2 k hk
    obtain ⟨pending, placed, hrest, hcontains⟩ := ih hnodup.2 hlater
    refine ⟨⟨⟨g.vertices.size⟩, key, v.edges⟩ :: pending, placed, ?_, fun k ↦ ?_⟩
    · rw [addVertexDocuments, hfirst]
      change (g₁.addVertexDocuments rest >>= _) = _
      rw [hrest]
      rfl
    · have hk : g₁.keys.contains k ↔ k = key ∨ g.keys.contains k := by
        unfold Table.contains
        rw [hkeys]
        split_ifs with heq <;> simp [heq]
      rw [hcontains, hk, List.map_cons, List.mem_cons]
      tauto

/-- What the second pass keeps of the graph that it starts with. -/
structure Settled (placed g : Graph) : Prop where
  coherent : g.Coherent
  keys : g.keys = placed.keys
  size : g.vertices.size = placed.vertices.size

theorem Settled.addEdgeDocument {origin : VertexId} {key : String} {e : EdgeDocument}
    (h : Settled placed g) (hadd : addEdgeDocument origin key g e = .ok g') : Settled placed g' := by
  have hadds := Adds.addEdgeDocument h.coherent hadd
  have hkeys : g'.keys = g.keys := by rw [hadds.rest]
  exact ⟨h.coherent.addEdgeDocument hadd, hkeys.trans h.keys, hadds.size_vertices.trans h.size⟩

theorem Settled.addPendingEdges {p : Pending} (h : Settled placed g)
    (hadd : g.addPendingEdges p = .ok g') : Settled placed g' :=
  foldlM_keeps (fun _ _ _ h₁ hstep ↦ h₁.addEdgeDocument hstep) h hadd

theorem vertexByKey?_eq_none_iff (hg : g.Coherent) {key : String} :
    g.vertexByKey? key = none ↔ ¬ g.keys.contains key := by
  unfold vertexByKey? Table.contains
  cases hid : g.keys.get? key with
  | none => simp
  | some id =>
    obtain ⟨v, hv, -⟩ := hg.index_iff.1 hid
    simp [hv]

/-- An edge of a known origin fails if its target is unknown, and for no other reason. -/
theorem addEdgeDocument_eq_error_iff (hg : g.Coherent) {origin : VertexId}
    (horigin : origin.index < g.vertices.size) {key : String} {e : EdgeDocument} {err : GraphError} :
    addEdgeDocument origin key g e = .error err ↔
      ¬ g.keys.contains e.target ∧ err = .danglingTarget key e.target := by
  rw [← vertexByKey?_eq_none_iff hg]
  unfold addEdgeDocument
  cases htarget : g.vertexByKey? e.target with
  | none => simp [eq_comm]
  | some target =>
    have hstored := hg.vertex?_id (hg.vertexByKey?_eq_some_iff.1 htarget).1
    have hlt := lt_of_vertex?_eq_some hstored
    dsimp only
    rw [addEdge_eq, if_neg (by omega), if_neg (by omega)]
    simp [Except.map]

def DanglesAt (d : CloutDocument) (key : String) (edges : List EdgeDocument) (err : GraphError) : Prop :=
  ∃ before e after, edges = before ++ e :: after ∧ (∀ b ∈ before, ¬ b.Dangles d) ∧ e.Dangles d ∧
    err = .danglingTarget key e.target

theorem exists_danglesAt_iff {key : String} {edges : List EdgeDocument} :
    (∃ err, DanglesAt d key edges err) ↔ ∃ e ∈ edges, e.Dangles d := by
  constructor
  · rintro ⟨_, before, e, after, rfl, -, he, -⟩
    exact ⟨e, List.mem_append_right _ List.mem_cons_self, he⟩
  · intro h
    obtain ⟨before, e, after, horder, hbefore, he⟩ := exists_first h
    exact ⟨_, before, e, after, horder, hbefore, he, rfl⟩

structure Placed (d : CloutDocument) (placed : Graph) : Prop where
  coherent : placed.Coherent
  size : placed.vertices.size = d.vertices.entries.length
  contains_iff {key : String} : placed.keys.contains key ↔ key ∈ d.vertices.keys

theorem addPendingEdges_eq_error_iff (hplaced : Placed d placed) (h : Settled placed g) {p : Pending}
    (hp : p.id.index < placed.vertices.size) {err : GraphError} :
    g.addPendingEdges p = .error err ↔ DanglesAt d p.key p.edges err := by
  have hstep (g₁ : Graph) (e : EdgeDocument) (err : GraphError) (h₁ : Settled placed g₁) :
      addEdgeDocument p.id p.key g₁ e = .error err ↔
        e.Dangles d ∧ err = .danglingTarget p.key e.target := by
    rw [addEdgeDocument_eq_error_iff h₁.coherent (h₁.size ▸ hp), h₁.keys, hplaced.contains_iff,
      EdgeDocument.Dangles]
  rw [addPendingEdges, foldlM_eq_error_iff (P := Settled placed)
    (fun _ _ _ _ h₁ hadd ↦ h₁.addEdgeDocument hadd) (fun g₁ e _ err h₁ ↦ hstep g₁ e err h₁) h]
  simp [DanglesAt]

theorem exists_placed (hsorted : d.vertices.Sorted) (start : Graph) (hv : start.vertices = #[])
    (he : start.edges = #[]) (hk : start.keys = ∅) : ∃ placed,
      start.addVertexDocuments d.vertices.entries = .ok (pendingFrom 0 d.vertices.entries, placed) ∧
      Placed d placed := by
  have hnodup : (d.vertices.entries.map Prod.fst).Nodup := hsorted.imp fun hlt ↦ ne_of_lt hlt
  obtain ⟨pending, placed, hadd, hcontains⟩ := exists_addVertexDocuments (g := start) hnodup
    fun key _ ↦ by rw [hk, Table.get?_empty]
  obtain ⟨rfl, hspec⟩ := addVertexDocuments_spec hadd
  rw [hv] at hadd
  refine ⟨placed, hadd, (coherent_of_new start hv he hk).addVertexDocuments hadd, ?_, fun {key} ↦ ?_⟩
  · rw [hspec, hv]
    simp [length_verticesFrom]
  · rw [hcontains, hk]
    simp [Table.contains, Table.keys]

theorem exists_pendingFrom_iff {Q : String → List EdgeDocument → Prop} (n : ℕ) :
    (∃ p ∈ pendingFrom n entries, Q p.key p.edges) ↔ ∃ entry ∈ entries, Q entry.1 entry.2.edges := by
  induction entries generalizing n with
  | nil => simp [pendingFrom]
  | cons entry rest ih => simp [pendingFrom, ih]

theorem forall_pendingFrom_iff {Q : String → List EdgeDocument → Prop} (n : ℕ) :
    (∀ p ∈ pendingFrom n entries, Q p.key p.edges) ↔ ∀ entry ∈ entries, Q entry.1 entry.2.edges := by
  have h : (∃ p ∈ pendingFrom n entries, ¬ Q p.key p.edges) ↔ _ :=
    exists_pendingFrom_iff (Q := fun key edges ↦ ¬ Q key edges) n
  simpa using not_congr h

theorem index_lt_of_mem_pendingFrom {n : ℕ} {p : Pending} (h : p ∈ pendingFrom n entries) :
    p.id.index < n + entries.length := by
  induction entries generalizing n with
  | nil => cases h
  | cons entry rest ih =>
    rw [List.length_cons]
    rcases List.mem_cons.1 h with rfl | hlater
    · dsimp only
      omega
    · have := ih hlater
      omega

theorem pairwise_pendingFrom (h : entries.Pairwise (·.1 < ·.1)) (n : ℕ) :
    (pendingFrom n entries).Pairwise (·.key < ·.key) := by
  induction entries generalizing n with
  | nil => exact .nil
  | cons entry rest ih =>
    obtain ⟨hfirst, hrest⟩ := List.pairwise_cons.1 h
    exact .cons ((forall_pendingFrom_iff (Q := fun key _ ↦ entry.1 < key) (n + 1)).2 hfirst) (ih hrest _)

theorem foldlM_addPendingEdges_eq_error_iff (hsorted : d.vertices.Sorted) (hplaced : Placed d placed)
    {err : GraphError} :
    (pendingFrom 0 d.vertices.entries).foldlM addPendingEdges placed = .error err ↔
      ∃ key target, FirstDangling d key target ∧ err = .danglingTarget key target := by
  have hkeys : d.vertices.entries.Pairwise (·.1 < ·.1) := List.pairwise_map.1 hsorted
  have hstep (g₁ : Graph) (p : Pending) (hp : p ∈ pendingFrom 0 d.vertices.entries) (err : GraphError)
      (h₁ : Settled placed g₁) : g₁.addPendingEdges p = .error err ↔ DanglesAt d p.key p.edges err := by
    have hlt := index_lt_of_mem_pendingFrom hp
    rw [Nat.zero_add, ← hplaced.size] at hlt
    exact addPendingEdges_eq_error_iff hplaced h₁ hlt
  rw [foldlM_eq_error_iff (P := Settled placed) (fun _ _ _ _ h₁ hadd ↦ h₁.addPendingEdges hadd) hstep
    ⟨hplaced.coherent, rfl, rfl⟩]
  have hnone (key : String) (edges : List EdgeDocument) :
      (∀ e, ¬ DanglesAt d key edges e) ↔ ¬ ∃ e ∈ edges, e.Dangles d :=
    not_exists.symm.trans (not_congr exists_danglesAt_iff)
  have hleast (key : String) : (∀ q ∈ pendingFrom 0 d.vertices.entries,
      (∃ e ∈ q.edges, e.Dangles d) → ¬ q.key < key) ↔
      ∀ entry ∈ d.vertices.entries, (∃ e ∈ entry.2.edges, e.Dangles d) → ¬ entry.1 < key :=
    forall_pendingFrom_iff (Q := fun k edges ↦ (∃ e ∈ edges, e.Dangles d) → ¬ k < key) 0
  -- the entries stand in key order, so the first one to fail is the one of the least key
  simp only [hnone]
  rw [first_iff_least (fun _ _ ↦ lt_asymm) (pairwise_pendingFrom hkeys 0)]
  simp only [hleast]
  rw [exists_pendingFrom_iff (Q := fun key edges ↦ DanglesAt d key edges err ∧
    ∀ entry ∈ d.vertices.entries, (∃ e ∈ entry.2.edges, e.Dangles d) → ¬ entry.1 < key)]
  simp only [Text.lt_iff_bytes_lt]
  constructor
  · rintro ⟨⟨key, v⟩, hstored, ⟨before, e, after, horder, hbefore, he, rfl⟩, hleast⟩
    exact ⟨key, e.target, .mk hstored horder he hbefore hleast, rfl⟩
  · rintro ⟨_, _, ⟨hstored, horder, he, hbefore, hleast⟩, rfl⟩
    exact ⟨_, hstored, ⟨_, _, _, horder, hbefore, he, rfl⟩, hleast⟩

theorem ofDocument_eq_error_iff (hsorted : d.vertices.Sorted) {err : GraphError} :
    ofDocument d = .error err ↔ Refused d err := by
  rw [ofDocument, bind_eq_error_iff, historyOf_eq_error_iff]
  let start (history : List HistoryEntry) : Graph :=
    ⟨d.version, d.metadata.erase "history", d.properties, history, #[], #[], ∅⟩
  have hpasses (history : List HistoryEntry) :
      ((start history).addVertexDocuments d.vertices.entries >>= fun p ↦
        p.1.foldlM addPendingEdges p.2) = .error err ↔
      ∃ key target, FirstDangling d key target ∧ err = .danglingTarget key target := by
    obtain ⟨placed, hadd, hplaced⟩ := exists_placed hsorted (start history) rfl rfl rfl
    rw [hadd, ← foldlM_addPendingEdges_eq_error_iff hsorted hplaced]
    rfl
  constructor
  · rintro (⟨hbad, rfl⟩ | ⟨history, hhistory, h⟩)
    · exact .history hbad
    · obtain ⟨key, target, hfirst, rfl⟩ := (hpasses history).1 h
      refine .dangling (fun hbad ↦ ?_) hfirst
      rw [historyOf_eq_error_iff.2 ⟨hbad, rfl⟩] at hhistory
      cases hhistory
  · rintro (hbad | ⟨hreadable, hfirst⟩)
    · exact .inl ⟨hbad, rfl⟩
    · cases hhistory : historyOf d.metadata with
      | error e => exact absurd (historyOf_eq_error_iff.1 hhistory).1 hreadable
      | ok history => exact .inr ⟨history, rfl, (hpasses history).2 ⟨_, _, hfirst, rfl⟩⟩

theorem exists_firstDangling_iff (hsorted : d.vertices.Sorted) :
    (∃ key target, FirstDangling d key target) ↔
      ∃ entry ∈ d.vertices.entries, ∃ e ∈ entry.2.edges, e.Dangles d := by
  constructor
  · rintro ⟨_, _, ⟨hstored, horder, he, -, -⟩⟩
    refine ⟨_, hstored, _, ?_, he⟩
    rw [horder]
    exact List.mem_append_right _ List.mem_cons_self
  · intro h
    obtain ⟨⟨key, v⟩, hstored, hv, hleast⟩ :=
      (first_iff_least (fun _ _ ↦ lt_asymm) (List.pairwise_map.1 hsorted)).1 (exists_first h)
    obtain ⟨before, e, after, horder, hbefore, he⟩ := exists_first hv
    simp only [Text.lt_iff_bytes_lt] at hleast
    exact ⟨key, e.target, .mk hstored horder he hbefore hleast⟩

theorem refusedExactly_ofDocument (hsorted : d.vertices.Sorted) : RefusedExactly d (ofDocument d) where
  error_iff := ofDocument_eq_error_iff hsorted
  fails_iff := by
    simp only [ofDocument_eq_error_iff hsorted, ← exists_firstDangling_iff hsorted]
    constructor
    · rintro ⟨_, hbad | ⟨-, hfirst⟩⟩
      · exact .inl hbad
      · exact .inr ⟨_, _, hfirst⟩
    · intro h
      by_cases hbad : BadHistory d.metadata
      · exact ⟨_, .history hbad⟩
      · obtain ⟨key, target, hfirst⟩ := h.resolve_left hbad
        exact ⟨_, .dangling hbad hfirst⟩
  no_duplicate key h := by cases (ofDocument_eq_error_iff hsorted).1 h
  no_unknown id h := by cases (ofDocument_eq_error_iff hsorted).1 h

theorem sorted_of_draft {x : CloutDocument.Draft} (hx : CloutDocument.draft.Yields x)
    (hd : x.finish = some d) : d.vertices.Sorted := by
  cases hd
  exact CloutDocument.draft_sorted hx

theorem load_refusals :
    (∀ text d, CloutDocument.decoder.parse text = .ok d → RefusedExactly d (ofText text)) ∧
    ∀ v d, CloutDocument.decoder.ofValue v = some d → RefusedExactly d (ofValue v) := by
  constructor
  · intro text d hd
    have hload : ofText text = ofDocument d := by rw [ofText, hd]
    rw [CloutDocument.decoder_eq_refine] at hd
    obtain ⟨x, hx, hfinish⟩ := Decoder.refine_parse_eq_ok hd
    rw [hload]
    exact refusedExactly_ofDocument (sorted_of_draft (Decoder.yields_of_parse hx) hfinish)
  · intro v d hd
    have hload : ofValue v = ofDocument d := by rw [ofValue, hd]
    rw [CloutDocument.decoder_eq_refine] at hd
    obtain ⟨x, hx, hfinish⟩ := Option.bind_eq_some_iff.1 hd
    rw [hload]
    exact refusedExactly_ofDocument (sorted_of_draft (.inr ⟨v, hx⟩) hfinish)

namespace Haunted

def row (target : String) : EdgeDocument := ⟨∅, ∅, target⟩

/-- Both vertices have a dangling edge, and `a` has two. -/
def rows : Table VertexDocument :=
  ⟨[("a", ⟨∅, ∅, [row "b"] ++ row "ghost" :: [row "gone"]⟩), ("b", ⟨∅, ∅, [row "nowhere"]⟩)]⟩

def document (history : Value) (vertices : Table VertexDocument) : CloutDocument :=
  ⟨"1.0", ⟨[("history", history)]⟩, ∅, vertices⟩

def edge (target : String) : Value := .object ⟨[("targetID", .text target)]⟩

def value (history : Value) : Value :=
  .object ⟨[("metadata", .object ⟨[("history", history)]⟩), ("vertexes", .object ⟨[
    ("a", .object ⟨[("edgesOut", .array [edge "b", edge "ghost", edge "gone"])]⟩),
    ("b", .object ⟨[("edgesOut", .array [edge "nowhere"])]⟩)]⟩)]⟩

def text : String := "\x7b\"metadata\":\x7b\"history\":null\x7d\x7d"

theorem ofValue_value (history : Value) :
    CloutDocument.decoder.ofValue (value history) = some (document history rows) := by cbv

theorem parse_text : CloutDocument.decoder.parse text = .ok (document .null ∅) := by
  let w : Tree := .object [("metadata", .object [("history", .null)])]
  have hw : WrittenAs text w := by cbv
  refine (CloutDocument.agrees_decoder.parse_eq_ok_iff hw (w.fits_length.mono (by cbv)) ?_).2 (by cbv)
  simp [w, Tree.Distinct]

theorem badHistory (vertices : Table VertexDocument) : BadHistory (document .null vertices).metadata := by
  refine ⟨.null, rfl, fun h ↦ ?_⟩
  obtain ⟨_, hitems, -⟩ := h
  cases hitems

theorem not_badHistory : ¬ BadHistory (document (.array []) rows).metadata := by
  intro h
  obtain ⟨_, hget, hnot⟩ := h
  cases hget
  exact hnot ⟨[], rfl, fun _ hitem ↦ absurd hitem List.not_mem_nil⟩

theorem dangles_iff {target : String} :
    (row target).Dangles (document (.array []) rows) ↔ target ≠ "a" ∧ target ≠ "b" := by
  simp [EdgeDocument.Dangles, Table.keys, document, rows, row]

theorem firstDangling : FirstDangling (document (.array []) rows) "a" "ghost" := by
  apply FirstDangling.mk (e := row "ghost") List.mem_cons_self rfl (dangles_iff.2 (by decide))
  · simp [dangles_iff]
  · intro entry hentry _
    change ¬ Text.bytes entry.1 < Text.bytes "a"
    rw [← Text.lt_iff_bytes_lt]
    simp only [document, rows, List.mem_cons, List.not_mem_nil, or_false] at hentry
    rcases hentry with rfl | rfl <;> decide

end Haunted

open Haunted in
/-- A history of a wrong shape comes before the dangling edges. -/
theorem load_refusals_ghost :
    ofValue (value (.array [])) = .error (.danglingTarget "a" "ghost") ∧
    ofValue (value .null) = .error (.unreadable .mismatched) ∧
    ofText text = .error (.unreadable .mismatched) :=
  ⟨(load_refusals.2 _ _ (ofValue_value _)).error_iff.2 (.dangling not_badHistory firstDangling),
    (load_refusals.2 _ _ (ofValue_value _)).error_iff.2 (.history (badHistory _)),
    (load_refusals.1 _ _ parse_text).error_iff.2 (.history (badHistory _))⟩

end Graph

end CloutQuery
