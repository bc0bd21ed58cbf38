import CloutQuery.Proofs.Host.PlainOrder
import CloutQuery.Proofs.Value.StructuralEquality
import Mathlib

namespace CloutQuery

/-- The value counts as itself: it is no object with a comparer, a number or a text to count as. -/
structure Value.Untagged (v : Value) : Prop where
  comparer : v.comparer? = none
  number : (v.get? "$number").bind number? = none
  text : (v.get? "$string").bind text? = none

theorem Value.Untagged.plain_eq {v : Value} (h : v.Untagged) : v.plain = v := by
  cases v with
  | null | boolean | number | text | array => rfl
  | object members =>
    have hnumber : (members.get? "$number").bind number? = none := h.number
    have htext : (members.get? "$string").bind text? = none := h.text
    unfold plain comparable
    dsimp only
    split
    · rename_i hn
      rw [hn] at hnumber
      cases hnumber
    · rename_i hs _
      rw [hs] at htext
      cases htext
    · rfl

namespace Host

theorem compare_singleton (host : Host) (a b : Value) :
    host.compare (.array [a]) (.array [b]) = .ok (a.compareStructure b) := by
  rw [host.compare_eq_structure rfl rfl]
  exact congrArg Except.ok Ordering.then_eq

theorem compare_agrees (host : Host) {a b : Value} (ha : a.Sorted) (hb : b.Sorted) :
    (a.Untagged → b.Untagged →
      host.compare a b = host.compare (.array [a]) (.array [b]) ∧
      host.compare a b = .ok (a.compareStructure b) ∧
      (host.compare a b = .ok .eq ↔ a.deepEqual b)) ∧
    ∃ o, (∀ host' : Host, host'.compare (.array [a]) (.array [b]) = .ok o) ∧
      (o = .eq ↔ a.deepEqual b) := by
  have hequal := Value.deepEqual_iff a b ha hb
  refine ⟨fun hua hub ↦ ?_, _, fun host' ↦ host'.compare_singleton a b, hequal.symm⟩
  have hcompare : host.compare a b = .ok (a.compareStructure b) := by
    rw [host.compare_eq_structure hua.comparer hub.comparer, hua.plain_eq, hub.plain_eq]
  rw [compare_singleton, hcompare, hequal]
  exact ⟨rfl, rfl, iff_of_eq (Except.ok.injEq _ _)⟩

/-- An integer and a float of one value in equal objects, and a value that names a comparer. -/
theorem compare_agrees_zero :
    let zero := Value.number .zero
    let object (n : Value) := Value.object ⟨[("size", n), ("tags", .array [.text "x"])]⟩
    let a := object zero
    let b := object (.number (.double (Double.zero true)))
    let c := Value.object ⟨[("$comparer", .text "size"), ("$number", zero)]⟩
    (a.Sorted ∧ b.Sorted ∧ c.Sorted ∧ a.Untagged ∧ b.Untagged) ∧
    passthrough.compare a b = .ok .eq ∧
    ∃ o, (∀ host : Host, host.compare (.array [c]) (.array [a]) = .ok o) ∧ o ≠ .eq := by
  intro zero object a b c
  have ha : a.Sorted := ⟨by decide, trivial, ⟨trivial, trivial⟩, trivial⟩
  have hb : b.Sorted := ⟨by decide, trivial, ⟨trivial, trivial⟩, trivial⟩
  have hc : c.Sorted := ⟨by decide, trivial, trivial, trivial⟩
  have hua : a.Untagged := ⟨rfl, rfl, rfl⟩
  have hub : b.Untagged := ⟨rfl, rfl, rfl⟩
  have hzero : Number.zero.compare (.double (Double.zero true)) = .eq := by
    rw [Number.compare_eq_cmp, cmp_eq_eq_iff]
    simp [Number.value, Number.zero, Double.value, Double.zero]
  have hequal : a.deepEqual b := by
    simp [a, b, object, zero, Value.deepEqual, Value.deepEqualMembers, Value.deepEqualItems, Table.get?,
      Table.size, List.lookup, hzero]
  have hdifferent : c.deepEqual a = false := by cbv
  obtain ⟨hplain, -⟩ := compare_agrees passthrough ha hb
  obtain ⟨-, o, ho, hiff⟩ := compare_agrees passthrough hc ha
  refine ⟨⟨ha, hb, hc, hua, hub⟩, (hplain hua hub).2.2.2 hequal, o, ho, fun h ↦ ?_⟩
  rw [hiff, hdifferent] at h
  cases h

end Host

end CloutQuery
