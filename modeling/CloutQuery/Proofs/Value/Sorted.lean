import CloutQuery.Proofs.Json.Reading

namespace CloutQuery

namespace Value

theorem sortedItems_iff {items : List Value} : SortedItems items ↔ ∀ v ∈ items, v.Sorted := by
  induction items with
  | nil => simp [SortedItems]
  | cons v vs ih => rw [SortedItems, ih, List.forall_mem_cons]

theorem sortedEntries_iff {entries : List (String × Value)} :
    SortedEntries entries ↔ ∀ e ∈ entries, e.2.Sorted := by
  induction entries with
  | nil => simp [SortedEntries]
  | cons e rest ih => rw [SortedEntries, ih, List.forall_mem_cons]

theorem sorted_of_get? {t : Table Value} (h : SortedEntries t.entries) {key : String} {v : Value}
    (hv : t.get? key = some v) : v.Sorted :=
  sortedEntries_iff.1 h _ (Table.mem_of_get? hv)

end Value

namespace Json.Reader

variable {α : Type} {P : α → Prop} {one : Reader α} {ts : List Token}

theorem moreItems_keeps (hone : ∀ ts x r, one ts = .ok (x, r) → P x) {xs : List α} {r : Rest ts}
    (h : moreItems one ts = .ok (xs, r)) : ∀ x ∈ xs, P x := by
  fun_induction moreItems one ts generalizing xs
  case case3 =>
    cases h
    rename_i hread _ _ hrest ih
    exact List.forall_mem_cons.2 ⟨hone _ _ _ hread, ih hrest⟩
  case case4 =>
    cases h
    rename_i hread
    exact List.forall_mem_singleton.2 (hone _ _ _ hread)
  all_goals cases h

theorem items_keeps (hone : ∀ ts x r, one ts = .ok (x, r) → P x) {xs : List α} {r : Rest ts}
    (h : items one ts = .ok (xs, r)) : ∀ x ∈ xs, P x := by
  unfold items at h
  split at h
  · cases h
    exact nofun
  · exact moreItems_keeps hone h

theorem table_keeps (hone : ∀ ts x r, one ts = .ok (x, r) → P x) {t : Table α} {r : Rest ts}
    (h : Reader.table one ts = .ok (t, r)) : ∀ e ∈ t.entries, P e.2 := by
  refine members_keeps (P := fun t ↦ ∀ e ∈ t.entries, P e.2)
    (fun t key read ts t' r ht hmember hread ↦ ?_) nofun h
  obtain ⟨k, -, rfl⟩ := map_eq_ok_iff.1 hmember
  obtain ⟨⟨x, r'⟩, hx, heq⟩ := map_eq_ok_iff.1 hread
  cases heq
  intro e he
  obtain rfl | he := Table.mem_insertEntry he
  · exact hone _ _ _ hx
  · exact ht e he

theorem value_sorted {room : ℕ} {v : Value} {r : Rest ts} (h : value room ts = .ok (v, r)) :
    v.Sorted := by
  induction room generalizing ts v with
  | zero =>
    unfold value at h
    split at h <;> cases h <;> trivial
  | succ room ih =>
    unfold value at h
    split at h
    · obtain ⟨⟨items, r'⟩, hitems, heq⟩ := map_eq_ok_iff.1 h
      cases heq
      exact Value.sortedItems_iff.2 (items_keeps (fun _ _ _ ↦ ih) hitems)
    · obtain ⟨⟨⟨entries⟩, r'⟩, htable, heq⟩ := map_eq_ok_iff.1 h
      cases heq
      exact ⟨table_sorted htable, Value.sortedEntries_iff.2 (table_keeps (fun _ _ _ ↦ ih) htable)⟩
    all_goals cases h <;> trivial

end Json.Reader

theorem Json.parse_sorted {text : String} {v : Value} (h : parse text = .ok v) : v.Sorted := by
  unfold parse Reader.run at h
  split at h
  · cases h
  · rename_i hread
    cases h
    exact Reader.value_sorted hread
  · cases h

end CloutQuery
