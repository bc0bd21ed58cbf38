import CloutQuery.Host.Basic
import CloutQuery.Proofs.Value.StructuralOrder

namespace CloutQuery

open Std

/-- What a value counts as when it is compared, as a value. -/
def Value.plain (v : Value) : Value := (v.comparable.map Scalar.toValue).getD .null

namespace Host

theorem compare_eq_structure (host : Host) {a b : Value} (ha : a.comparer? = none)
    (hb : b.comparer? = none) : host.compare a b = .ok (a.plain.compareStructure b.plain) := by
  have hnone : deciding? a b = none := by rw [deciding?, ha, hb, Option.none_or]
  unfold compare
  rw [hnone]
  exact congrArg Except.ok (comparePlain_eq_compareStructure a.comparable b.comparable)

theorem ok_ne_gt_iff {o : Ordering} : (Except.ok o : Except HostError Ordering) ≠ .ok .gt ↔ o.isLE := by
  cases o <;> simp

theorem compare_total_preorder (host : Host) {a b c : Value} (ha : a.comparer? = none)
    (hb : b.comparer? = none) (hc : c.comparer? = none) :
    (∃ o, ∀ host' : Host, host'.compare a b = .ok o) ∧
    host.compare a a = .ok .eq ∧
    host.compare b a = (host.compare a b).map Ordering.swap ∧
    (host.compare a b ≠ .ok .gt → host.compare b c ≠ .ok .gt → host.compare a c ≠ .ok .gt) ∧
    (host.compare a b = .ok .eq → host.compare a c = host.compare b c) ∧
    (∀ m n : Number, a.comparable = some (.number m) → b.comparable = some (.number n) →
      host.compare a b = .ok (cmp m.value n.value)) := by
  refine ⟨⟨_, fun host' ↦ host'.compare_eq_structure ha hb⟩, ?_⟩
  rw [host.compare_eq_structure ha ha, host.compare_eq_structure ha hb,
    host.compare_eq_structure hb ha, host.compare_eq_structure hb hc,
    host.compare_eq_structure ha hc, ok_ne_gt_iff, ok_ne_gt_iff, ok_ne_gt_iff]
  refine ⟨?_, ?_, TransCmp.isLE_trans, fun h ↦ ?_, fun m n hm hn ↦ ?_⟩
  · exact congrArg Except.ok ReflCmp.compare_self
  · exact congrArg Except.ok (Value.compareStructure_swap a.plain b.plain)
  · exact congrArg Except.ok (TransCmp.congr_left (Except.ok.inj h))
  · rw [Value.plain, Value.plain, hm, hn]
    exact congrArg Except.ok (Number.compare_eq_cmp m n)

/-- An integer that no float holds, the float it is rounded to, and a size with a unit. -/
theorem compare_total_preorder_beyond_floats :
    let a := Value.number (.integer 0x20000000000001 (by decide))
    let b := Value.number (.double ⟨false, 0x10000000000000, 1, by decide⟩)
    let c := Value.object ⟨[("$number", .number (.integer 0x20000000000002 (by decide))),
      ("$string", .text "8 PiB")]⟩
    (a.comparer? = none ∧ b.comparer? = none ∧ c.comparer? = none) ∧
    (∃ o, ∀ host : Host, host.compare a b = .ok o) ∧
    passthrough.compare b a = (passthrough.compare a b).map Ordering.swap ∧
    (passthrough.compare a b ≠ .ok .gt → passthrough.compare b c ≠ .ok .gt →
      passthrough.compare a c ≠ .ok .gt) := by
  intro a b c
  have h := compare_total_preorder passthrough (a := a) (b := b) (c := c) rfl rfl rfl
  exact ⟨⟨rfl, rfl, rfl⟩, h.1, h.2.2.1, h.2.2.2.1⟩

end Host

end CloutQuery
