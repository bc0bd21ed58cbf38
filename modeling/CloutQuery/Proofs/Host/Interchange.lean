import CloutQuery.Proofs.Host.PlainOrder
import CloutQuery.Proofs.Value.Alike
import Mathlib

namespace CloutQuery

open Std

namespace Value

theorem plain_object (members : Payload) : (object members).plain =
    (((object members).get? "$number").bind number?).elim
      ((((object members).get? "$string").bind text?).elim (object members) text) number := by
  rw [plain, comparable, get?, get?, object?, Option.bind_some, Option.bind_some]
  rcases members.get? "$number" with _ | v
  · rcases members.get? "$string" with _ | w
    · rfl
    · cases w <;> rfl
  · rcases members.get? "$string" with _ | w
    · cases v <;> rfl
    · cases v <;> cases w <;> rfl

variable {v w : Value}

theorem Alike.plain (h : v.Alike w) : v.plain.Alike w.plain := by
  have hrank := h.rank_eq
  cases v with
  | object s =>
    cases w with
    | object t =>
      rw [plain_object, plain_object, h.textAt_eq]
      have hnumber := h.numberAt_rel "$number"
      generalize ((object s).get? "$number").bind number? = x,
        ((object t).get? "$number").bind number? = y at hnumber ⊢
      cases hnumber with
      | none =>
        cases ((object t).get? "$string").bind text? with
        | none => exact h
        | some _ => exact ReflCmp.compare_self
      | some hmn => exact hmn
    | _ => cases hrank
  | _ => cases w <;> first | exact h | cases hrank

theorem deepEqual_congr_left (h : v.Alike w) (hv : v.Sorted) (hw : w.Sorted) {c : Value}
    (hc : c.Sorted) : v.deepEqual c = w.deepEqual c := by
  have hcompare : v.compareStructure c = w.compareStructure c := TransCmp.congr_left h
  rw [Bool.eq_iff_iff, deepEqual_iff v c hv hc, deepEqual_iff w c hw hc, hcompare]

end Value

namespace Host

variable {a b c : Value}

theorem compare_congr_left (host : Host) (h : a.Alike b) (ha : a.comparer? = none)
    (hc : c.comparer? = none) : host.compare a c = host.compare b c := by
  have hb : b.comparer? = none := h.comparer?_eq ▸ ha
  rw [host.compare_eq_structure ha hc, host.compare_eq_structure hb hc]
  exact congrArg Except.ok (TransCmp.congr_left h.plain)

theorem compare_congr_right (host : Host) (h : a.Alike b) (ha : a.comparer? = none)
    (hc : c.comparer? = none) : host.compare c a = host.compare c b := by
  have hb : b.comparer? = none := h.comparer?_eq ▸ ha
  rw [host.compare_eq_structure hc ha, host.compare_eq_structure hc hb]
  exact congrArg Except.ok (TransCmp.congr_right h.plain)

theorem equal_of_plain (host : Host) (ha : a.comparer? = none) (hb : b.comparer? = none) :
    host.equal a b = .ok (a.deepEqual b) := by
  rw [equal, deciding?, ha, hb, Option.none_or, Option.isSome_none, if_neg Bool.false_ne_true]

theorem deepEqual_interchangeable (host : Host) (ha : a.Sorted) (hb : b.Sorted)
    (h : a.deepEqual b) :
    a.comparer? = b.comparer? ∧ a.length = b.length ∧
    (a.comparer? = none → b.comparer? = none → host.compare a b = .ok .eq ∧
      ∀ c d : Value, c.Sorted → c.comparer? = none → d.comparer? = none →
        host.compare a c = host.compare b c ∧ host.compare c a = host.compare c b ∧
        host.equal a c = host.equal b c ∧ host.inRange a c d = host.inRange b c d) := by
  have halike : a.Alike b := (Value.deepEqual_iff a b ha hb).1 h
  refine ⟨halike.comparer?_eq, halike.length_eq, fun hna hnb ↦ ⟨?_, fun c d hc hnc hnd ↦ ?_⟩⟩
  · rw [host.compare_congr_left halike hna hnb, host.compare_eq_structure hnb hnb]
    exact congrArg Except.ok ReflCmp.compare_self
  · have hleft := host.compare_congr_left halike hna hnc
    refine ⟨hleft, host.compare_congr_right halike hna hnc, ?_, ?_⟩
    · rw [host.equal_of_plain hna hnc, host.equal_of_plain hnb hnc,
        Value.deepEqual_congr_left halike ha hb hc]
    · rw [inRange, inRange, hleft, host.compare_congr_left halike hna hnd]

/-- A size of zero bytes as an integer and as the negative float zero, against an integer that no float
holds and a text. -/
theorem deepEqual_interchangeable_zero :
    let size (n : Number) := Value.object ⟨[("$number", .number n), ("$string", .text "0 B")]⟩
    let a := size .zero
    let b := size (.double (Double.zero true))
    let c := Value.number (.integer 0x20000000000001 (by decide))
    let d := Value.text "0 B"
    (a.Sorted ∧ b.Sorted ∧ c.Sorted ∧ a.deepEqual b) ∧
    passthrough.compare a b = .ok .eq ∧ passthrough.equal a c = passthrough.equal b c ∧
    passthrough.inRange a c d = passthrough.inRange b c d := by
  intro size a b c d
  have ha : a.Sorted := ⟨by decide, trivial, trivial, trivial⟩
  have hb : b.Sorted := ⟨by decide, trivial, trivial, trivial⟩
  have hzero : Number.zero.compare (.double (Double.zero true)) = .eq := by
    rw [Number.compare_eq_cmp, cmp_eq_eq_iff]
    simp [Number.value, Number.zero, Double.value_zero]
  have hequal : a.deepEqual b := by
    simp [a, b, size, Value.deepEqual, Value.deepEqualMembers, Table.get?, Table.size, List.lookup, hzero]
  obtain ⟨-, -, hplain⟩ := deepEqual_interchangeable passthrough ha hb hequal
  obtain ⟨hcompare, hothers⟩ := hplain rfl rfl
  obtain ⟨-, -, hsame, hrange⟩ := hothers c d trivial rfl rfl
  exact ⟨⟨ha, hb, trivial, hequal⟩, hcompare, hsame, hrange⟩

end Host

end CloutQuery
