import CloutQuery.Value.Order
import CloutQuery.Proofs.Number.ExactOrder

namespace CloutQuery

open Std

/-- What the orders of `a` and `b` and of `b` and `c` say of that of `a` and `c`, if neither goes
down. -/
def Composes (p q r : Ordering) : Prop := p.isLE → q.isLE → r = p.then q

theorem composes_of_transCmp {α : Type} (cmp : α → α → Ordering) [TransCmp cmp] (a b c : α) :
    Composes (cmp a b) (cmp b c) (cmp a c) := by
  intro hab hbc
  cases h : cmp a b with
  | lt => exact TransCmp.lt_of_lt_of_isLE h hbc
  | eq => exact TransCmp.congr_left h
  | gt =>
    rw [h] at hab
    cases hab

theorem swap_of_transCmp {α : Type} (cmp : α → α → Ordering) [TransCmp cmp] (a b : α) :
    cmp b a = (cmp a b).swap := OrientedCmp.eq_swap

theorem Composes.isLE {p q r : Ordering} (h : Composes p q r) (hp : p.isLE) (hq : q.isLE) :
    r.isLE := by
  rw [h hp hq]
  cases p with
  | lt => rfl
  | eq => exact hq
  | gt => cases hp

theorem Composes.then {p q r p' q' r' : Ordering} (h : Composes p q r)
    (h' : p = .eq → q = .eq → Composes p' q' r') : Composes (p.then p') (q.then q') (r.then r') := by
  intro hp hq
  cases p with
  | lt =>
    have hq₀ : q.isLE := by
      cases q with
      | lt | eq => rfl
      | gt => cases hq
    rw [h rfl hq₀]
    rfl
  | eq =>
    cases q with
    | lt =>
      rw [h rfl rfl]
      cases p' <;> first | rfl | cases hp
    | eq =>
      rw [h rfl rfl]
      exact h' rfl rfl hp hq
    | gt => cases hq
  | gt => cases hp

theorem transCmp_of_composes {α : Type} {cmp : α → α → Ordering}
    (hswap : ∀ a b, cmp b a = (cmp a b).swap) (h : ∀ a b c, Composes (cmp a b) (cmp b c) (cmp a c)) :
    TransCmp cmp where
  eq_swap := hswap _ _
  isLE_trans := (h _ _ _).isLE

instance transCmpBool : TransCmp fun a b : Bool ↦ compareOfLessAndEq a b :=
  transCmp_of_composes (by decide) (by unfold Composes; decide)

instance : TransCmp Number.compare := by
  have hcompare (a b : Number) : a.compare b = compare a.value b.value := by
    rw [Number.compare_eq_cmp, cmp_eq_compare]
  refine transCmp_of_composes (fun a b ↦ ?_) fun a b c ↦ ?_
  · rw [hcompare, hcompare]
    exact swap_of_transCmp compare a.value b.value
  · rw [hcompare, hcompare, hcompare]
    exact composes_of_transCmp compare a.value b.value c.value

namespace Value

theorem compareStructure_of_rank_ne {v w : Value} (h : v.rank ≠ w.rank) :
    v.compareStructure w = compare v.rank w.rank := by
  cases v <;> cases w <;> first | rfl | exact absurd rfl h

theorem compareStructure_eq_rank_then (v w : Value) :
    v.compareStructure w = (compare v.rank w.rank).then (v.compareStructure w) := by
  by_cases h : v.rank = w.rank
  · rewrite [Nat.compare_eq_eq.2 h]
    exact Ordering.eq_then.symm
  · rw [compareStructure_of_rank_ne h, Ordering.then_self]

mutual

theorem compareStructure_swap (v w : Value) : w.compareStructure v = (v.compareStructure w).swap := by
  by_cases h : v.rank = w.rank
  · match v with
    | .null =>
      cases w with
      | null => rfl
      | _ => cases h
    | .boolean a =>
      cases w with
      | boolean b => exact swap_of_transCmp (fun a b : Bool ↦ compareOfLessAndEq a b) a b
      | _ => cases h
    | .number a =>
      cases w with
      | number b => exact swap_of_transCmp Number.compare a b
      | _ => cases h
    | .text a =>
      cases w with
      | text b => exact swap_of_transCmp compare a b
      | _ => cases h
    | .array a =>
      cases w with
      | array b => exact compareItems_swap a b
      | _ => cases h
    | .object ⟨a⟩ =>
      cases w with
      | object t => exact compareEntries_swap a t.entries
      | _ => cases h
  · rw [compareStructure_of_rank_ne h, compareStructure_of_rank_ne (Ne.symm h)]
    exact OrientedOrd.eq_swap
termination_by structural v

theorem compareItems_swap (vs ws : List Value) : compareItems ws vs = (compareItems vs ws).swap := by
  match vs, ws with
  | [], [] => rfl
  | [], _ :: _ => rfl
  | _ :: _, [] => rfl
  | v :: vs, w :: ws =>
    simp only [compareItems, Ordering.swap_then]
    rw [compareStructure_swap v w, compareItems_swap vs ws]
termination_by structural vs

theorem compareEntries_swap (vs ws : List (String × Value)) :
    compareEntries ws vs = (compareEntries vs ws).swap := by
  match vs, ws with
  | [], [] => rfl
  | [], _ :: _ => rfl
  | _ :: _, [] => rfl
  | (j, v) :: vs, (k, w) :: ws =>
    simp only [compareEntries, Ordering.swap_then]
    have hkey : compareOfLessAndEq k j = (compareOfLessAndEq j k).swap :=
      swap_of_transCmp compare j k
    rw [hkey, compareStructure_swap v w, compareEntries_swap vs ws]
termination_by structural vs

end

mutual

theorem compareStructure_composes (u v w : Value) :
    Composes (u.compareStructure v) (v.compareStructure w) (u.compareStructure w) := by
  rewrite [compareStructure_eq_rank_then u v, compareStructure_eq_rank_then v w,
    compareStructure_eq_rank_then u w]
  refine (composes_of_transCmp compare _ _ _).then fun huv hvw ↦ ?_
  rw [Nat.compare_eq_eq] at huv hvw
  -- the ranks are equal, so only values of one kind are left
  match u with
  | .null =>
    cases v with
    | null =>
      cases w with
      | null => exact fun _ _ ↦ rfl
      | _ => cases hvw
    | _ => cases huv
  | .boolean a =>
    cases v with
    | boolean b =>
      cases w with
      | boolean c => exact composes_of_transCmp (fun a b : Bool ↦ compareOfLessAndEq a b) a b c
      | _ => cases hvw
    | _ => cases huv
  | .number a =>
    cases v with
    | number b =>
      cases w with
      | number c => exact composes_of_transCmp Number.compare a b c
      | _ => cases hvw
    | _ => cases huv
  | .text a =>
    cases v with
    | text b =>
      cases w with
      | text c => exact composes_of_transCmp compare a b c
      | _ => cases hvw
    | _ => cases huv
  | .array a =>
    cases v with
    | array b =>
      cases w with
      | array c => exact compareItems_composes a b c
      | _ => cases hvw
    | _ => cases huv
  | .object ⟨a⟩ =>
    cases v with
    | object t =>
      cases w with
      | object t' => exact compareEntries_composes a t.entries t'.entries
      | _ => cases hvw
    | _ => cases huv
termination_by structural u

theorem compareItems_composes (us vs ws : List Value) :
    Composes (compareItems us vs) (compareItems vs ws) (compareItems us ws) := by
  match us, vs, ws with
  | [], [], ws => exact fun _ _ ↦ rfl
  | [], _ :: _, [] => exact fun _ h ↦ by cases h
  | [], _ :: _, _ :: _ => exact fun _ _ ↦ rfl
  | _ :: _, [], _ => exact fun h ↦ by cases h
  | _ :: _, _ :: _, [] => exact fun _ h ↦ by cases h
  | u :: us, v :: vs, w :: ws =>
    exact (compareStructure_composes u v w).then fun _ _ ↦ compareItems_composes us vs ws
termination_by structural us

theorem compareEntries_composes (us vs ws : List (String × Value)) :
    Composes (compareEntries us vs) (compareEntries vs ws) (compareEntries us ws) := by
  match us, vs, ws with
  | [], [], ws => exact fun _ _ ↦ rfl
  | [], _ :: _, [] => exact fun _ h ↦ by cases h
  | [], _ :: _, _ :: _ => exact fun _ _ ↦ rfl
  | _ :: _, [], _ => exact fun h ↦ by cases h
  | _ :: _, _ :: _, [] => exact fun _ h ↦ by cases h
  | (i, u) :: us, (j, v) :: vs, (k, w) :: ws =>
    have hkey : Composes (compareOfLessAndEq i j) (compareOfLessAndEq j k) (compareOfLessAndEq i k) :=
      composes_of_transCmp compare i j k
    exact (hkey.then fun _ _ ↦ compareStructure_composes u v w).then fun _ _ ↦
      compareEntries_composes us vs ws
termination_by structural us

end

instance : TransCmp compareStructure :=
  transCmp_of_composes compareStructure_swap compareStructure_composes

end Value

def Scalar.toValue : Scalar → Value
  | .boolean flag => .boolean flag
  | .number n => .number n
  | .text s => .text s
  | .sequence items => .array items
  | .structured members => .object members

theorem comparePlain_eq_compareStructure (a b : Option Scalar) :
    comparePlain a b =
      ((a.map Scalar.toValue).getD .null).compareStructure ((b.map Scalar.toValue).getD .null) := by
  cases a with
  | none =>
    cases b with
    | none => rfl
    | some b => cases b <;> rfl
  | some a =>
    cases b with
    | none => cases a <;> rfl
    | some b => cases a <;> cases b <;> rfl

end CloutQuery
