import CloutQuery.Value.Basic
import Mathlib.Tactic

namespace CloutQuery

theorem Number.same_refl (n : Number) : n.same n := by
  cases n <;> simp [same]

theorem Number.same_congr_left {m n : Number} (h : m.same n) (k : Number) : m.same k = n.same k := by
  cases m with
  | integer a _ =>
    cases n with
    | integer b _ =>
      have hab : a = b := of_decide_eq_true h
      cases k <;> simp [same, hab]
    | double e => cases h
  | double d =>
    cases n with
    | integer b _ => cases h
    | double e =>
      have hunits : d.units = e.units := of_decide_eq_true h
      cases k <;> simp [same, hunits]

namespace Value

mutual

theorem same_refl (v : Value) : v.same v := by
  match v with
  | .null => rfl
  | .boolean _ => exact decide_eq_true rfl
  | .number n => exact n.same_refl
  | .text _ => exact decide_eq_true rfl
  | .array items => exact sameItems_refl items
  | .object ⟨entries⟩ => exact sameEntries_refl entries
termination_by structural v

theorem sameItems_refl (vs : List Value) : sameItems vs vs := by
  match vs with
  | [] => rfl
  | v :: vs => simp [sameItems, same_refl v, sameItems_refl vs]
termination_by structural vs

theorem sameEntries_refl (vs : List (String × Value)) : sameEntries vs vs := by
  match vs with
  | [] => rfl
  | (k, v) :: vs => simp [sameEntries, same_refl v, sameEntries_refl vs]
termination_by structural vs

end

mutual

theorem same_congr_left (v w : Value) (h : v.same w) (u : Value) : v.same u = w.same u := by
  match v with
  | .null =>
    cases w with
    | null => rfl
    | _ => cases h
  | .boolean a =>
    cases w with
    | boolean b =>
      have hab : a = b := of_decide_eq_true h
      rw [hab]
    | _ => cases h
  | .number m =>
    cases w with
    | number n =>
      cases u with
      | number k => exact Number.same_congr_left h k
      | _ => rfl
    | _ => cases h
  | .text a =>
    cases w with
    | text b =>
      have hab : a = b := of_decide_eq_true h
      rw [hab]
    | _ => cases h
  | .array vs =>
    cases w with
    | array ws =>
      cases u with
      | array us => exact sameItems_congr_left vs ws h us
      | _ => rfl
    | _ => cases h
  | .object ⟨vs⟩ =>
    cases w with
    | object t =>
      cases u with
      | object t' => exact sameEntries_congr_left vs t.entries h t'.entries
      | _ => rfl
    | _ => cases h
termination_by structural v

theorem sameItems_congr_left (vs ws : List Value) (h : sameItems vs ws) (us : List Value) :
    sameItems vs us = sameItems ws us := by
  match vs, ws with
  | [], [] => rfl
  | v :: vs, w :: ws =>
    obtain ⟨hhead, htail⟩ : v.same w ∧ sameItems vs ws := by simpa [sameItems] using h
    cases us with
    | nil => rfl
    | cons u us =>
      rw [sameItems, sameItems, same_congr_left v w hhead u, sameItems_congr_left vs ws htail us]
termination_by structural vs

theorem sameEntries_congr_left (vs ws : List (String × Value)) (h : sameEntries vs ws)
    (us : List (String × Value)) : sameEntries vs us = sameEntries ws us := by
  match vs, ws with
  | [], [] => rfl
  | (j, v) :: vs, (k, w) :: ws =>
    obtain ⟨⟨hkey, hhead⟩, htail⟩ : (j = k ∧ v.same w) ∧ sameEntries vs ws := by
      simpa [sameEntries] using h
    cases us with
    | nil => rfl
    | cons u us =>
      rw [sameEntries, sameEntries, hkey, same_congr_left v w hhead u.2,
        sameEntries_congr_left vs ws htail us]
termination_by structural vs

end

theorem same_comm (v w : Value) : v.same w = w.same v := by
  rw [Bool.eq_iff_iff]
  constructor
  · intro h
    rw [← same_congr_left v w h v]
    exact same_refl v
  · intro h
    rw [← same_congr_left w v h w]
    exact same_refl w

theorem same_congr_right {v w : Value} (h : v.same w) (u : Value) : u.same v = u.same w := by
  rw [same_comm u v, same_congr_left v w h u, same_comm w u]

end Value

end CloutQuery
