import CloutQuery.Proofs.Except
import CloutQuery.Proofs.Host.PlainOrder
import Mathlib

namespace CloutQuery

open Std

def Value.AtMost (v w : Value) : Prop := (v.plain.compareStructure w.plain).isLE

namespace Value.AtMost

variable {u v w : Value}

theorem trans (h : u.AtMost v) (h' : v.AtMost w) : u.AtMost w := TransCmp.isLE_trans h h'

theorem of_not (h : ¬ v.AtMost w) : w.AtMost v := by
  rw [AtMost, Ordering.isLE_iff_ne_gt, not_not] at h
  rw [AtMost, OrientedCmp.gt_iff_lt.1 h]
  rfl

end Value.AtMost

namespace Host

section Bounds

variable {host : Host} {value lower upper : Value}

theorem inRange_of_error {e : HostError} (h : host.compare value lower = .error e) :
    host.inRange value lower upper = .error e := by
  rw [inRange, h]
  rfl

theorem inRange_of_lt (h : host.compare value lower = .ok .lt) :
    host.inRange value lower upper = .ok false := by
  rw [inRange, h]
  rfl

theorem inRange_of_ne_lt {low : Ordering} (h : host.compare value lower = .ok low) (hlow : low ≠ .lt) :
    host.inRange value lower upper = (host.compare value upper).map (· != .gt) := by
  rw [inRange, h]
  exact if_neg hlow

theorem inRange_eq_error_iff {e : HostError} :
    host.inRange value lower upper = .error e ↔ host.compare value lower = .error e ∨
      (∃ low, host.compare value lower = .ok low ∧ low ≠ .lt) ∧ host.compare value upper = .error e := by
  cases hlow : host.compare value lower with
  | error e' => simp [inRange_of_error hlow]
  | ok low =>
    by_cases hlt : low = .lt
    · subst hlt
      simp [inRange_of_lt hlow]
    · simp [inRange_of_ne_lt hlow hlt, hlt, map_eq_error_iff]

theorem inRange_eq_ok {inside : Bool} (h : host.inRange value lower upper = .ok inside) :
    inside ↔ host.compare value lower ≠ .ok .lt ∧ host.compare value upper ≠ .ok .gt := by
  cases hlow : host.compare value lower with
  | error e =>
    rw [inRange_of_error hlow] at h
    cases h
  | ok low =>
    by_cases hlt : low = .lt
    · subst hlt
      rw [inRange_of_lt hlow] at h
      cases h
      simp
    · rw [inRange_of_ne_lt hlow hlt, map_eq_ok_iff] at h
      obtain ⟨high, hhigh, rfl⟩ := h
      simp [hhigh, hlt]

end Bounds

variable {a b c : Value}

theorem compare_ne_gt_iff (host : Host) (ha : a.comparer? = none) (hb : b.comparer? = none) :
    host.compare a b ≠ .ok .gt ↔ a.AtMost b := by
  rw [host.compare_eq_structure ha hb, ok_ne_gt_iff, Value.AtMost]

theorem compare_eq_gt_iff (host : Host) (ha : a.comparer? = none) (hb : b.comparer? = none) :
    host.compare a b = .ok .gt ↔ ¬ a.AtMost b := by
  rw [← host.compare_ne_gt_iff ha hb, not_not]

theorem compare_eq_lt_iff (host : Host) (ha : a.comparer? = none) (hb : b.comparer? = none) :
    host.compare a b = .ok .lt ↔ ¬ b.AtMost a := by
  rw [host.compare_eq_structure ha hb, Except.ok.injEq, ← OrientedCmp.gt_iff_lt, Value.AtMost,
    Ordering.isLE_iff_ne_gt, not_not]

theorem inRange_eq_true_iff (host : Host) (ha : a.comparer? = none) (hb : b.comparer? = none)
    (hc : c.comparer? = none) : host.inRange a b c = .ok true ↔ b.AtMost a ∧ a.AtMost c := by
  have hlt := host.compare_eq_lt_iff ha hb
  have hgt := host.compare_eq_gt_iff ha hc
  cases hin : host.inRange a b c with
  | error e =>
    rw [inRange_eq_error_iff, host.compare_eq_structure ha hb, host.compare_eq_structure ha hc] at hin
    simp at hin
  | ok inside => rw [Except.ok.injEq, inRange_eq_ok hin, Ne, Ne, hlt, hgt, not_not, not_not]

theorem inRange_interval (host : Host) :
    (∀ value lower upper : Value,
      (∀ e, host.inRange value lower upper = .error e ↔ host.compare value lower = .error e ∨
        (∃ low, host.compare value lower = .ok low ∧ low ≠ .lt) ∧
          host.compare value upper = .error e) ∧
      ∀ inside, host.inRange value lower upper = .ok inside →
        (inside ↔ host.compare value lower ≠ .ok .lt ∧ host.compare value upper ≠ .ok .gt)) ∧
    ∀ value lower upper : Value, value.comparer? = none → lower.comparer? = none →
      upper.comparer? = none →
      (host.inRange value lower upper = .ok true → ∃ o ≠ .gt, host.compare lower upper = .ok o) ∧
      (∀ lower' upper' : Value, lower'.comparer? = none → upper'.comparer? = none →
        host.compare lower' lower ≠ .ok .gt → host.compare upper upper' ≠ .ok .gt →
        host.inRange value lower upper = .ok true → host.inRange value lower' upper' = .ok true) ∧
      (host.compare lower upper ≠ .ok .gt →
        let below := host.compare value lower = .ok .lt
        let within := host.inRange value lower upper = .ok true
        let above := host.compare value upper = .ok .gt
        (below ∨ within ∨ above) ∧ ¬ (below ∧ within) ∧ ¬ (within ∧ above) ∧ ¬ (below ∧ above)) := by
  refine ⟨fun value lower upper ↦ ⟨fun e ↦ inRange_eq_error_iff, fun inside ↦ inRange_eq_ok⟩,
    fun value lower upper hv hl hu ↦ ⟨fun hin ↦ ?_, fun lower' upper' hl' hu' hlower hupper hin ↦ ?_,
      fun hordered ↦ ?_⟩⟩
  · rw [host.inRange_eq_true_iff hv hl hu] at hin
    have hordered : lower.AtMost upper := hin.1.trans hin.2
    exact ⟨_, Ordering.isLE_iff_ne_gt.1 hordered, host.compare_eq_structure hl hu⟩
  · rw [host.compare_ne_gt_iff hl' hl] at hlower
    rw [host.compare_ne_gt_iff hu hu'] at hupper
    rw [host.inRange_eq_true_iff hv hl hu] at hin
    rw [host.inRange_eq_true_iff hv hl' hu']
    exact ⟨hlower.trans hin.1, hin.2.trans hupper⟩
  · rw [host.compare_ne_gt_iff hl hu] at hordered
    rw [host.compare_eq_lt_iff hv hl, host.inRange_eq_true_iff hv hl hu, host.compare_eq_gt_iff hv hu]
    -- what is below the lower bound is not above the upper one
    have hapart (h : ¬ lower.AtMost value) : value.AtMost upper :=
      (Value.AtMost.of_not h).trans hordered
    tauto

/-- A size in bytes between numbers, and so between what comes before all numbers and what comes behind
them. A bound that no host can compare goes unseen behind a lower one that is not reached. -/
theorem inRange_interval_sizes :
    let size : Value := .object ⟨[("$number", .number (.integer 1024 (by decide))),
      ("$string", .text "1 KiB")]⟩
    let one : Value := .number (.integer 1 (by decide))
    let named : Value := .object ⟨[("$comparer", .text "size")]⟩
    (size.comparer? = none ∧ one.comparer? = none ∧ (Value.text "z").comparer? = none ∧
      Value.null.comparer? = none ∧ (Value.array []).comparer? = none) ∧
    passthrough.inRange size one (.text "z") = .ok true ∧
    passthrough.inRange size .null (.array []) = .ok true ∧
    passthrough.compare size one ≠ .ok .lt ∧
    passthrough.inRange one size named = .ok false := by
  intro size one named
  have hin : passthrough.inRange size one (.text "z") = .ok true := by cbv
  have hordered : passthrough.compare one (.text "z") = .ok .lt := by cbv
  have hlower : passthrough.compare .null one = .ok .lt := by cbv
  have hupper : passthrough.compare (.text "z") (.array []) = .ok .lt := by cbv
  obtain ⟨-, hplain⟩ := inRange_interval passthrough
  obtain ⟨-, hwider, hplace⟩ := hplain size one (.text "z") rfl rfl rfl
  obtain ⟨-, hdisjoint, -, -⟩ := hplace (by simp [hordered])
  exact ⟨⟨rfl, rfl, rfl, rfl, rfl⟩, hin,
    hwider .null (.array []) rfl rfl (by simp [hlower]) (by simp [hupper]) hin,
    fun h ↦ hdisjoint ⟨h, hin⟩, by cbv⟩

end Host

end CloutQuery
