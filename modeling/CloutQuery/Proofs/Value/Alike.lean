import CloutQuery.Proofs.Value.StructuralEquality

namespace CloutQuery

theorem Table.lookup_rel {α : Type} {R : α → α → Prop} {es fs : List (String × α)}
    (h : List.Forall₂ (fun e f ↦ e.1 = f.1 ∧ R e.2 f.2) es fs) (key : String) :
    Option.Rel R (es.lookup key) (fs.lookup key) := by
  induction h with
  | nil => exact .none
  | @cons e f es fs hef _ ih =>
    obtain ⟨j, v⟩ := e
    obtain ⟨k, w⟩ := f
    obtain ⟨rfl, hR⟩ : j = k ∧ R v w := hef
    rw [lookup_cons_eq_ite, lookup_cons_eq_ite]
    split_ifs
    · exact .some hR
    · exact ih

namespace Value

def Alike (v w : Value) : Prop := v.compareStructure w = .eq

theorem compareItems_eq_iff {vs ws : List Value} :
    compareItems vs ws = .eq ↔ List.Forall₂ Alike vs ws := by
  induction vs generalizing ws with
  | nil => cases ws <;> simp [compareItems]
  | cons v vs ih =>
    cases ws with
    | nil => simp [compareItems]
    | cons w ws => rw [compareItems, Ordering.then_eq_eq, ih, List.forall₂_cons, Alike]

theorem length_object (members : Payload) : (object members).length =
    (((object members).get? "$string").bind text?).elim members.size String.length := by
  rw [length, get?, object?, Option.bind_some]
  rcases members.get? "$string" with _ | v
  · rfl
  · cases v <;> rfl

namespace Alike

variable {v w : Value}

theorem rank_eq (h : v.Alike w) : v.rank = w.rank := by
  by_contra hne
  unfold Alike at h
  rw [compareStructure_of_rank_ne hne, Nat.compare_eq_eq] at h
  exact hne h

theorem text?_eq (h : v.Alike w) : v.text? = w.text? := by
  have hrank := h.rank_eq
  cases v with
  | text s =>
    cases w with
    | text t => exact congrArg some ((compare_eq_iff_eq (a := s) (b := t)).1 h)
    | _ => cases hrank
  | _ =>
    cases w with
    | text t => cases hrank
    | _ => rfl

theorem number?_rel (h : v.Alike w) :
    Option.Rel (fun m n ↦ m.compare n = .eq) v.number? w.number? := by
  have hrank := h.rank_eq
  cases v with
  | number m =>
    cases w with
    | number n => exact .some h
    | _ => cases hrank
  | _ =>
    cases w with
    | number n => cases hrank
    | _ => exact .none

theorem get?_rel (h : v.Alike w) (key : String) : Option.Rel Alike (v.get? key) (w.get? key) := by
  have hrank := h.rank_eq
  cases v with
  | object s =>
    cases w with
    | object t => exact Table.lookup_rel (compareEntries_eq_iff.1 h) key
    | _ => cases hrank
  | _ =>
    cases w with
    | object t => cases hrank
    | _ => exact .none

theorem textAt_eq (h : v.Alike w) (key : String) : (v.get? key).bind text? = (w.get? key).bind text? := by
  have hmember := h.get?_rel key
  generalize v.get? key = x, w.get? key = y at hmember ⊢
  cases hmember with
  | none => rfl
  | some hmember => exact hmember.text?_eq

theorem numberAt_rel (h : v.Alike w) (key : String) :
    Option.Rel (fun m n ↦ m.compare n = .eq) ((v.get? key).bind number?) ((w.get? key).bind number?) := by
  have hmember := h.get?_rel key
  generalize v.get? key = x, w.get? key = y at hmember ⊢
  cases hmember with
  | none => exact .none
  | some hmember => exact hmember.number?_rel

theorem comparer?_eq (h : v.Alike w) : v.comparer? = w.comparer? := h.textAt_eq "$comparer"

theorem length_eq (h : v.Alike w) : v.length = w.length := by
  have hrank := h.rank_eq
  cases v with
  | text s =>
    cases w with
    | text t => exact congrArg String.length (Option.some.inj h.text?_eq)
    | _ => cases hrank
  | array vs =>
    cases w with
    | array ws => exact (compareItems_eq_iff.1 h).length_eq
    | _ => cases hrank
  | object s =>
    cases w with
    | object t =>
      have hsize : s.size = t.size := (compareEntries_eq_iff.1 h).length_eq
      rw [length_object, length_object, h.textAt_eq, hsize]
    | _ => cases hrank
  | _ => cases w <;> first | rfl | cases hrank

end Alike

end Value

end CloutQuery
