import CloutQuery.Proofs.Value.Sorted
import CloutQuery.Proofs.Value.StructuralOrder

namespace CloutQuery.Value

theorem deepEqual_of_rank_ne {v w : Value} (h : v.rank ≠ w.rank) : v.deepEqual w = false := by
  cases v <;> cases w <;> first | rfl | exact absurd rfl h

theorem compareEntries_eq_iff {vs ws : List (String × Value)} :
    compareEntries vs ws = .eq ↔
      List.Forall₂ (fun e f ↦ e.1 = f.1 ∧ e.2.compareStructure f.2 = .eq) vs ws := by
  induction vs generalizing ws with
  | nil => cases ws <;> simp [compareEntries]
  | cons e vs ih =>
    cases ws with
    | nil => simp [compareEntries]
    | cons f ws =>
      have hkey : compareOfLessAndEq e.1 f.1 = .eq ↔ e.1 = f.1 := compare_eq_iff_eq (a := e.1) (b := f.1)
      rw [compareEntries, Ordering.then_eq_eq, Ordering.then_eq_eq, hkey, ih, List.forall₂_cons]

mutual

theorem deepEqual_iff (v w : Value) (hv : v.Sorted) (hw : w.Sorted) :
    v.deepEqual w ↔ v.compareStructure w = .eq := by
  by_cases h : v.rank = w.rank
  · match v with
    | .null =>
      cases w with
      | null => exact iff_of_true rfl rfl
      | _ => cases h
    | .boolean a =>
      cases w with
      | boolean b => cases a <;> cases b <;> decide
      | _ => cases h
    | .number a =>
      cases w with
      | number b => exact decide_eq_true_iff
      | _ => cases h
    | .text a =>
      cases w with
      | text b => exact decide_eq_true_iff.trans (compare_eq_iff_eq (a := a) (b := b)).symm
      | _ => cases h
    | .array a =>
      cases w with
      | array b => exact deepEqualItems_iff a b hv hw
      | _ => cases h
    | .object ⟨a⟩ =>
      cases w with
      | object t =>
        obtain ⟨b⟩ := t
        obtain ⟨hkeys, hentries⟩ := hv
        have hmatch := Table.forall₂_entries_iff (R := fun v w ↦ v.compareStructure w = .eq) hkeys hw.1
        rw [← deepEqualMembers_iff a ⟨b⟩ hentries hw.2] at hmatch
        have hequal : (Value.object ⟨a⟩).deepEqual (.object ⟨b⟩) ↔
            a.length = b.length ∧ deepEqualMembers a ⟨b⟩ := by
          rw [deepEqual, Bool.and_eq_true, decide_eq_true_iff]
          rfl
        exact (hequal.trans hmatch.symm).trans compareEntries_eq_iff.symm
      | _ => cases h
  · rw [deepEqual_of_rank_ne h, compareStructure_of_rank_ne h, Nat.compare_eq_eq]
    exact iff_of_false Bool.false_ne_true h
termination_by structural v

theorem deepEqualItems_iff (vs ws : List Value) (hvs : SortedItems vs) (hws : SortedItems ws) :
    (decide (vs.length = ws.length) && deepEqualItems vs ws) ↔ compareItems vs ws = .eq := by
  match vs, ws with
  | [], [] => exact iff_of_true rfl rfl
  | [], _ :: _ => exact iff_of_false nofun nofun
  | _ :: _, [] => exact iff_of_false nofun nofun
  | v :: vs, w :: ws =>
    have hitems := deepEqualItems_iff vs ws hvs.2 hws.2
    rw [Bool.and_eq_true, decide_eq_true_iff] at hitems
    rw [compareItems, Ordering.then_eq_eq, ← deepEqual_iff v w hvs.1 hws.1, ← hitems, deepEqualItems,
      Bool.and_eq_true, Bool.and_eq_true, decide_eq_true_iff, List.length_cons, List.length_cons,
      Nat.succ_inj, and_left_comm]
termination_by structural vs

theorem deepEqualMembers_iff (vs : List (String × Value)) (t : Table Value) (hvs : SortedEntries vs)
    (ht : SortedEntries t.entries) : deepEqualMembers vs t ↔
      ∀ e ∈ vs, ∃ w, t.get? e.1 = some w ∧ e.2.compareStructure w = .eq := by
  match vs with
  | [] => exact iff_of_true rfl nofun
  | (k, v) :: vs =>
    rw [deepEqualMembers, Bool.and_eq_true, List.forall_mem_cons, deepEqualMembers_iff vs t hvs.2 ht]
    refine and_congr_left' ?_
    cases hw : t.get? k with
    | none => simp
    | some w => simpa using deepEqual_iff v w hvs.1 (sorted_of_get? ht hw)
termination_by structural vs

end

end CloutQuery.Value
