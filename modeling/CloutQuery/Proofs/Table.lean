import CloutQuery.Table
import Mathlib.Data.String.Basic
import Mathlib.Tactic

namespace CloutQuery.Table

variable {α : Type}

@[simp] theorem get?_empty (key : String) : (∅ : Table α).get? key = none := rfl

theorem lookup_cons_eq_ite (k : String) (v : α) (rest : List (String × α)) (j : String) :
    ((k, v) :: rest).lookup j = if j = k then some v else rest.lookup j := by
  by_cases h : j = k
  · rw [h, if_pos rfl, List.lookup_cons_self]
  · rw [if_neg h, List.lookup_cons, beq_false_of_ne h]

theorem lookup_insertEntry (key : String) (value : α) (entries : List (String × α)) (j : String) :
    (insertEntry key value entries).lookup j = if j = key then some value else entries.lookup j := by
  induction entries with
  | nil => exact lookup_cons_eq_ite key value [] j
  | cons e rest ih =>
    obtain ⟨k, v⟩ := e
    by_cases hlt : key < k
    · rw [insertEntry, if_pos hlt, lookup_cons_eq_ite]
    · by_cases heq : key = k
      · subst heq
        rw [insertEntry, if_neg hlt, if_pos rfl, lookup_cons_eq_ite, lookup_cons_eq_ite]
        split_ifs <;> rfl
      · rw [insertEntry, if_neg hlt, if_neg heq, lookup_cons_eq_ite, lookup_cons_eq_ite, ih]
        by_cases hk : j = k
        · rw [if_pos hk, if_pos hk, if_neg fun h ↦ heq (h.symm.trans hk)]
        · rw [if_neg hk, if_neg hk]

@[simp] theorem get?_insert (t : Table α) (key : String) (value : α) (j : String) :
    (t.insert key value).get? j = if j = key then some value else t.get? j :=
  lookup_insertEntry key value t.entries j

@[simp] theorem get?_erase (t : Table α) (key j : String) :
    (t.erase key).get? j = if j = key then none else t.get? j := by
  obtain ⟨entries⟩ := t
  unfold get? erase
  dsimp only
  induction entries with
  | nil => rw [List.filter_nil, List.lookup_nil, ite_self]
  | cons e rest ih =>
    obtain ⟨k, v⟩ := e
    rw [lookup_cons_eq_ite]
    by_cases hk : k = key
    · rw [List.filter_cons_of_neg (by simpa using hk), ih, hk]
      split_ifs <;> rfl
    · rw [List.filter_cons_of_pos (by simpa using hk), lookup_cons_eq_ite, ih]
      by_cases hj : j = k
      · rw [if_pos hj, if_pos hj, if_neg fun h ↦ hk (hj.symm.trans h)]
      · rw [if_neg hj, if_neg hj]

theorem contains_iff (t : Table α) (key : String) : t.contains key ↔ ∃ v, t.get? key = some v := by
  rw [contains, Option.isSome_iff_exists]

theorem mem_of_get? {t : Table α} {key : String} {value : α} (h : t.get? key = some value) :
    (key, value) ∈ t.entries := by
  obtain ⟨before, after, hentries, -⟩ := List.lookup_eq_some_iff.1 h
  rw [hentries]
  exact List.mem_append_right _ List.mem_cons_self

theorem mem_insertEntry {key : String} {value : α} {entries : List (String × α)} {e : String × α}
    (h : e ∈ insertEntry key value entries) : e = (key, value) ∨ e ∈ entries := by
  induction entries with
  | nil => exact .inl (List.mem_singleton.1 h)
  | cons f rest ih =>
    obtain ⟨k, v⟩ := f
    unfold insertEntry at h
    split_ifs at h with hlt heq
    · exact List.mem_cons.1 h
    · exact (List.mem_cons.1 h).imp_right (List.mem_cons_of_mem _)
    · obtain rfl | h := List.mem_cons.1 h
      · exact .inr List.mem_cons_self
      · exact (ih h).imp_right (List.mem_cons_of_mem _)

theorem mem_keys_insertEntry {key : String} {value : α} {entries : List (String × α)} {j : String}
    (h : j ∈ (insertEntry key value entries).map Prod.fst) :
    j = key ∨ j ∈ entries.map Prod.fst := by
  obtain ⟨e, he, rfl⟩ := List.mem_map.1 h
  exact (mem_insertEntry he).imp (congrArg Prod.fst) List.mem_map_of_mem

theorem sorted_insert {t : Table α} (h : t.Sorted) (key : String) (value : α) :
    (t.insert key value).Sorted := by
  obtain ⟨entries⟩ := t
  unfold Sorted insert keys at *
  dsimp only at *
  induction entries with
  | nil => simp [insertEntry]
  | cons e rest ih =>
    obtain ⟨k, v⟩ := e
    rw [List.map_cons, List.pairwise_cons] at h
    unfold insertEntry
    split_ifs with hlt heq
    · rw [List.map_cons, List.map_cons, List.pairwise_cons, List.pairwise_cons]
      refine ⟨fun j hj ↦ ?_, h⟩
      rcases List.mem_cons.1 hj with rfl | hj
      · exact hlt
      · exact hlt.trans (h.1 j hj)
    · subst heq
      exact List.pairwise_cons.2 h
    · rw [List.map_cons, List.pairwise_cons]
      refine ⟨fun j hj ↦ ?_, ih h.2⟩
      rcases mem_keys_insertEntry hj with rfl | hj
      · exact lt_of_le_of_ne (not_lt.1 hlt) (Ne.symm heq)
      · exact h.1 j hj

theorem sorted_erase {t : Table α} (h : t.Sorted) (key : String) : (t.erase key).Sorted :=
  h.sublist (List.filter_sublist.map _)

theorem sorted_empty : (∅ : Table α).Sorted := List.Pairwise.nil

theorem sorted_ofList (entries : List (String × α)) : (ofList entries).Sorted := by
  have h (t : Table α) (ht : t.Sorted) :
      (entries.foldl (fun t e ↦ t.insert e.1 e.2) t).Sorted := by
    induction entries generalizing t with
    | nil => exact ht
    | cons e rest ih => exact ih _ (sorted_insert ht e.1 e.2)
  exact h empty sorted_empty

instance (t : Table α) : Decidable t.Sorted := inferInstanceAs (Decidable (t.keys.Pairwise (· < ·)))

theorem get?_eq_some_iff {t : Table α} (h : t.Sorted) {key : String} {value : α} :
    t.get? key = some value ↔ (key, value) ∈ t.entries := by
  refine ⟨mem_of_get?, fun hmem ↦ ?_⟩
  obtain ⟨before, after, hentries⟩ := List.append_of_mem hmem
  rw [Sorted, keys, hentries, List.map_append, List.map_cons, List.pairwise_append] at h
  refine List.lookup_eq_some_iff.2 ⟨before, after, hentries, fun e he ↦ ?_⟩
  have hlt : e.1 < key := h.2.2 e.1 (List.mem_map_of_mem he) key List.mem_cons_self
  exact bne_iff_ne.2 hlt.ne'

/-- A table in key order has the keys of another as soon as it has no others and as many. -/
theorem keys_eq_of_subset {s t : Table α} (hs : s.Sorted) (ht : t.Sorted) (hsize : s.size = t.size)
    (hsubset : s.keys ⊆ t.keys) : s.keys = t.keys := by
  have hlength : t.keys.length ≤ s.keys.length := by
    rw [keys, keys, List.length_map, List.length_map]
    exact hsize.ge
  have hperm := (List.subperm_of_subset hs.nodup hsubset).perm_of_length_le hlength
  exact hperm.eq_of_pairwise (fun _ _ _ _ h h' ↦ absurd h' h.asymm) hs ht

/-- Tables in key order match entry by entry if they are of one size and each entry of the first has
its match under its key in the second. -/
theorem forall₂_entries_iff {R : α → α → Prop} {s t : Table α} (hs : s.Sorted) (ht : t.Sorted) :
    List.Forall₂ (fun e f ↦ e.1 = f.1 ∧ R e.2 f.2) s.entries t.entries ↔
      s.size = t.size ∧ ∀ e ∈ s.entries, ∃ w, t.get? e.1 = some w ∧ R e.2 w := by
  rw [List.forall₂_iff_get]
  refine and_congr_right fun hsize ↦ ⟨fun h e he ↦ ?_, fun h i hi hi' ↦ ?_⟩
  · obtain ⟨i, hi, rfl⟩ := List.getElem_of_mem he
    have hi' : i < t.entries.length := hi.trans_eq hsize
    obtain ⟨hkey, hR⟩ := h i hi hi'
    have hfound := (get?_eq_some_iff ht).2 (List.get_mem t.entries ⟨i, hi'⟩)
    rw [← hkey] at hfound
    exact ⟨_, hfound, hR⟩
  · have hkeys : s.keys = t.keys := by
      refine keys_eq_of_subset hs ht hsize fun key hkey ↦ ?_
      obtain ⟨e, he, rfl⟩ := List.mem_map.1 hkey
      obtain ⟨w, hw, -⟩ := h e he
      exact List.mem_map.2 ⟨(e.1, w), (get?_eq_some_iff ht).1 hw, rfl⟩
    have hkey : (s.entries.get ⟨i, hi⟩).1 = (t.entries.get ⟨i, hi'⟩).1 := by
      have hplace := congrArg (·[i]?) hkeys
      simpa [keys, hi, hi'] using hplace
    obtain ⟨w, hw, hR⟩ := h _ (List.get_mem s.entries ⟨i, hi⟩)
    have hmem := (get?_eq_some_iff ht).2 (List.get_mem t.entries ⟨i, hi'⟩)
    rw [hkey, hmem, Option.some.injEq] at hw
    subst hw
    exact ⟨hkey, hR⟩

theorem insertEntry_comm {j k : String} (hne : j ≠ k) (v w : α) (entries : List (String × α)) :
    insertEntry k w (insertEntry j v entries) = insertEntry j v (insertEntry k w entries) := by
  wlog hlt : j < k generalizing j k v w
  · exact (this hne.symm w v (lt_of_le_of_ne (not_lt.1 hlt) hne.symm)).symm
  induction entries with
  | nil => simp [insertEntry, hlt, hlt.not_gt, hne.symm]
  | cons e rest ih =>
    obtain ⟨i, u⟩ := e
    rcases lt_trichotomy j i with hj | rfl | hj
    · -- the smaller key stands in front, whether the greater one comes before or behind `i`
      have hk : insertEntry k w ((j, v) :: (i, u) :: rest) = (j, v) :: insertEntry k w ((i, u) :: rest) := by
        rw [insertEntry, if_neg hlt.not_gt, if_neg hne.symm]
      rw [insertEntry, if_pos hj, hk]
      rcases lt_trichotomy k i with hki | rfl | hki
      · simp [insertEntry, hki, hlt]
      · simp [insertEntry, hlt]
      · simp [insertEntry, hki.not_gt, hki.ne', hj]
    · simp [insertEntry, hlt.not_gt, hne.symm]
    · simp [insertEntry, hj.not_gt, hj.ne', (hj.trans hlt).not_gt, (hj.trans hlt).ne', ih]

theorem insert_comm (t : Table α) {j k : String} (hne : j ≠ k) (v w : α) :
    (t.insert j v).insert k w = (t.insert k w).insert j v :=
  congrArg Table.mk (insertEntry_comm hne v w t.entries)

theorem insertEntry_insertEntry (key : String) (v w : α) (entries : List (String × α)) :
    insertEntry key w (insertEntry key v entries) = insertEntry key w entries := by
  induction entries with
  | nil => simp [insertEntry]
  | cons e rest ih =>
    obtain ⟨k, u⟩ := e
    rcases lt_trichotomy key k with hlt | rfl | hlt
    · simp [insertEntry, hlt]
    · simp [insertEntry]
    · simp [insertEntry, hlt.not_gt, hlt.ne', ih]

theorem insert_insert (t : Table α) (key : String) (v w : α) :
    (t.insert key v).insert key w = t.insert key w :=
  congrArg Table.mk (insertEntry_insertEntry key v w t.entries)

theorem entry_eq_of_key_eq {entries : List (String × α)} (h : (entries.map Prod.fst).Nodup)
    {e f : String × α} (he : e ∈ entries) (hf : f ∈ entries) (hkey : e.1 = f.1) : e = f :=
  List.inj_on_of_nodup_map h he hf hkey

/-- The first match among entries in key order is the one with the least key. -/
theorem find?_entries_eq_some_iff {t : Table α} (h : t.Sorted) {p : String × α → Bool} {e : String × α} :
    t.entries.find? p = some e ↔
      e ∈ t.entries ∧ p e = true ∧ ∀ f ∈ t.entries, p f = true → f.1 ≠ e.1 → e.1 < f.1 := by
  have hleast {e : String × α} (he : t.entries.find? p = some e) :
      ∀ f ∈ t.entries, p f = true → f.1 ≠ e.1 → e.1 < f.1 := by
    intro f hf hp hne
    obtain ⟨-, before, after, hentries, hbefore⟩ := List.find?_eq_some_iff_append.1 he
    have hpairwise := List.pairwise_map.1 h
    rw [hentries, List.pairwise_append, List.pairwise_cons] at hpairwise
    simp only [hentries, List.mem_append, List.mem_cons] at hf
    rcases hf with hf | rfl | hf
    · have hnot := hbefore f hf
      simp [hp] at hnot
    · exact absurd rfl hne
    · exact hpairwise.2.1.1 f hf
  constructor
  · intro he
    exact ⟨List.mem_of_find?_eq_some he, List.find?_some he, hleast he⟩
  · rintro ⟨hmem, hp, hother⟩
    have hsome : (t.entries.find? p).isSome := List.find?_isSome.2 ⟨e, hmem, hp⟩
    obtain ⟨f, hf⟩ := Option.isSome_iff_exists.1 hsome
    have hkey : f.1 = e.1 := by
      by_contra hne
      have hlt := hother f (List.mem_of_find?_eq_some hf) (List.find?_some hf) hne
      exact absurd hlt (hleast hf e hmem hp (Ne.symm hne)).not_gt
    rw [hf, entry_eq_of_key_eq h.nodup (List.mem_of_find?_eq_some hf) hmem hkey]

theorem ofList_perm {l l' : List (String × α)} (hperm : l.Perm l') (h : (l.map Prod.fst).Nodup) :
    ofList l = ofList l' := by
  refine hperm.foldl_eq' (fun e he f hf t ↦ ?_) empty
  by_cases hkey : e.1 = f.1
  · rw [entry_eq_of_key_eq h he hf hkey]
  · exact insert_comm t hkey e.2 f.2

theorem insertEntry_perm {key : String} {value : α} {entries : List (String × α)}
    (h : key ∉ entries.map Prod.fst) : (insertEntry key value entries).Perm ((key, value) :: entries) := by
  induction entries with
  | nil => exact .refl _
  | cons e rest ih =>
    obtain ⟨k, v⟩ := e
    rw [List.map_cons, List.mem_cons, not_or] at h
    rw [insertEntry]
    split_ifs with hlt heq
    · exact .refl _
    · exact absurd heq h.1
    · exact ((ih h.2).cons _).trans (.swap _ _ _)

theorem entries_ofList_perm {l : List (String × α)} (h : (l.map Prod.fst).Nodup) :
    (ofList l).entries.Perm l := by
  induction l using List.reverseRecOn with
  | nil => exact .refl _
  | append_singleton l e ih =>
    rw [List.map_append, List.nodup_append] at h
    have hl := ih h.1
    have hfresh : e.1 ∉ (ofList l).entries.map Prod.fst := by
      intro hmem
      exact h.2.2 _ ((hl.map Prod.fst).mem_iff.1 hmem) e.1 (by simp) rfl
    have hlast : ofList (l ++ [e]) = (ofList l).insert e.1 e.2 := by
      rw [ofList, List.foldl_append]
      rfl
    rw [hlast]
    exact (insertEntry_perm hfresh).trans ((hl.cons e).trans (List.perm_append_singleton e l).symm)

theorem entries_ofList_of_sorted {l : List (String × α)} (h : (l.map Prod.fst).Pairwise (· < ·)) :
    (ofList l).entries = l := by
  have hsorted := List.pairwise_map.1 (sorted_ofList l)
  exact (entries_ofList_perm h.nodup).eq_of_pairwise (fun _ _ _ _ hlt hlt' ↦ absurd hlt' hlt.asymm) hsorted
    (List.pairwise_map.1 h)

end CloutQuery.Table
