import CloutQuery.Host.Basic
import CloutQuery.Proofs.Except
import CloutQuery.Proofs.Number.ExactOrder
import Mathlib

namespace CloutQuery.Host

variable {left right : Value} {name : String}

theorem orderingOf_number (name : String) (n : Number) :
    orderingOf name (.number n) = .ok (cmp n.value 0) := by
  obtain ⟨d, hd, hsign⟩ := n.toDouble?_sign
  rw [orderingOf, Value.number?, Option.bind_some, hd, ← hsign]

theorem orderingOf_ofOrdering (name : String) (o : Ordering) :
    orderingOf name (.number (Number.ofOrdering o)) = .ok o := by
  refine (orderingOf_number name _).trans (congrArg Except.ok ?_)
  cases o <;> simp [Number.ofOrdering, Number.value, Number.zero]

theorem orderingOf_of_number?_eq_none {returned : Value} (h : returned.number? = none) :
    orderingOf name returned = .error (.nonNumericComparison name returned) := by
  rw [orderingOf, h, Option.bind_none]

theorem deciding?_eq_some_iff : deciding? left right = some name ↔
    left.comparer? = some name ∨ left.comparer? = none ∧ right.comparer? = some name :=
  Option.or_eq_some_iff

theorem deciding?_eq_of_named (h : left.comparer? = some name ∨ right.comparer? = some name)
    (hleft : ∀ other ∈ left.comparer?, other = name) : deciding? left right = some name := by
  rw [deciding?_eq_some_iff]
  cases hother : left.comparer? with
  | none => exact .inr ⟨rfl, h.resolve_left (by simp [hother])⟩
  | some other => exact .inl (congrArg some (hleft other hother))

theorem deciding?_isSome_iff : (deciding? left right).isSome ↔
    left.comparer?.isSome ∨ right.comparer?.isSome := by
  rw [deciding?, Option.isSome_or, Bool.or_eq_true]

theorem compare_of_deciding (host : Host) (h : deciding? left right = some name) :
    host.compare left right =
      (host.call name compareMethod [left, right]).bind (orderingOf name) := by
  rw [compare, h]

theorem equal_of_deciding (host : Host) (h : deciding? left right = some name) :
    host.equal left right = (host.compare left right).map (· == .eq) := by
  rw [equal, h, Option.isSome_some, if_pos rfl]

theorem compare_of_answer (host : Host) (h : deciding? left right = some name) {o : Ordering}
    (hanswer : host.call name compareMethod [left, right] = .ok (.number (Number.ofOrdering o))) :
    host.compare left right = .ok o := by
  rw [compare_of_deciding host h, hanswer]
  exact orderingOf_ofOrdering name o

/-- The host has a part in the comparison through a single answer: another host with the same answer
to the same call, on the comparer of the left value before that of the right, compares alike. -/
theorem compare_delegates (host : Host) (h : left.comparer?.isSome ∨ right.comparer?.isSome) :
    ∃ name, (left.comparer? = some name ∨ left.comparer? = none ∧ right.comparer? = some name) ∧
      (∀ e, host.call name "compare" [left, right] = .error e → host.compare left right = .error e) ∧
      (∀ n, host.call name "compare" [left, right] = .ok (.number n) →
        host.compare left right = .ok (cmp n.value 0)) ∧
      (∀ v, host.call name "compare" [left, right] = .ok v → v.number? = none →
        host.compare left right = .error (.nonNumericComparison name v)) ∧
      (∀ host' : Host, host'.call name "compare" [left, right] = host.call name "compare" [left, right] →
        host'.compare left right = host.compare left right) ∧
      (host.equal left right = .ok true ↔ host.compare left right = .ok .eq) ∧
      ∀ e, host.equal left right = .error e ↔ host.compare left right = .error e := by
  obtain ⟨name, hname⟩ := Option.isSome_iff_exists.1 (deciding?_isSome_iff.2 h)
  have hcompare (host : Host) := compare_of_deciding host hname
  refine ⟨name, deciding?_eq_some_iff.1 hname, fun e he ↦ ?_, fun n hn ↦ ?_, fun v hv hnone ↦ ?_,
    fun host' hsame ↦ ?_, ?_⟩
  · rw [hcompare, compareMethod, he]
    rfl
  · rw [hcompare, compareMethod, hn]
    exact orderingOf_number name n
  · rw [hcompare, compareMethod, hv]
    exact orderingOf_of_number?_eq_none hnone
  · rw [hcompare, hcompare, compareMethod, hsame]
  · rw [equal_of_deciding host hname]
    refine ⟨?_, fun e ↦ map_eq_error_iff⟩
    simp [map_eq_ok_iff]

/-- A host that answers the least float below zero to a plain number and a tagged one. -/
theorem compare_delegates_subnormal :
    let left := Value.number .zero
    let right := Value.object ⟨[("$comparer", .text "size"), ("$number", .number .zero)]⟩
    let answer := Number.double ⟨true, 1, -1074, by decide⟩
    let host : Host := ⟨fun _ _ _ ↦ .ok (.number answer), .ok⟩
    right.comparer?.isSome ∧ host.compare left right = .ok .lt ∧ host.equal left right ≠ .ok true := by
  intro left right answer host
  have hright : left.comparer?.isSome ∨ right.comparer?.isSome := .inr rfl
  obtain ⟨name, hname, -, hnumber, -, -, hequal, -⟩ := compare_delegates host hright
  have hsize : name = "size" := by
    obtain h | ⟨-, h⟩ := hname
    · cases h
    · exact (Option.some.inj h).symm
  subst hsize
  have hsign : cmp answer.value 0 = .lt := by
    rw [cmp_eq_lt_iff]
    simp [answer, Number.value, Double.value]
  have hcompare := hnumber answer rfl
  rw [hsign] at hcompare
  refine ⟨rfl, hcompare, fun h ↦ ?_⟩
  rw [hequal, hcompare] at h
  cases h

end CloutQuery.Host
