import CloutQuery.Proofs.Value.StructuralEquality

namespace CloutQuery

/-- A value whose numbers are rationals. The members of an object stand in key order, as in the value
it comes from. -/
inductive Exact where
  | null
  | boolean (flag : Bool)
  | number (q : ℚ)
  | text (s : String)
  | array (items : List Exact)
  | object (members : List (String × Exact))

namespace Value

mutual

def toExact : Value → Exact
  | .null => .null
  | .boolean flag => .boolean flag
  | .number n => .number n.value
  | .text s => .text s
  | .array items => .array (exactItems items)
  | .object ⟨entries⟩ => .object (exactEntries entries)
termination_by structural v => v

def exactItems : List Value → List Exact
  | [] => []
  | v :: vs => v.toExact :: exactItems vs
termination_by structural vs => vs

def exactEntries : List (String × Value) → List (String × Exact)
  | [] => []
  | (k, v) :: vs => (k, v.toExact) :: exactEntries vs
termination_by structural vs => vs

end

theorem toExact_ne_of_rank_ne {v w : Value} (h : v.rank ≠ w.rank) : v.toExact ≠ w.toExact := by
  cases v <;> cases w <;> first | exact absurd rfl h | nofun

mutual

theorem compareStructure_eq_iff (v w : Value) :
    v.compareStructure w = .eq ↔ v.toExact = w.toExact := by
  by_cases h : v.rank = w.rank
  · match v with
    | .null =>
      cases w with
      | null => exact iff_of_true rfl rfl
      | _ => cases h
    | .boolean a =>
      cases w with
      | boolean b =>
        have hflag : compareOfLessAndEq a b = .eq ↔ a = b := by cases a <;> cases b <;> decide
        exact hflag.trans (Exact.boolean.injEq a b).symm.to_iff
      | _ => cases h
    | .number a =>
      cases w with
      | number b =>
        have hnumber : a.compare b = .eq ↔ a.value = b.value := by
          rw [Number.compare_eq_cmp, cmp_eq_eq_iff]
        exact hnumber.trans (Exact.number.injEq a.value b.value).symm.to_iff
      | _ => cases h
    | .text a =>
      cases w with
      | text b =>
        have htext : compareOfLessAndEq a b = .eq ↔ a = b := compare_eq_iff_eq (a := a) (b := b)
        exact htext.trans (Exact.text.injEq a b).symm.to_iff
      | _ => cases h
    | .array a =>
      cases w with
      | array b => exact (compareItems_eq_iff_exact a b).trans (Exact.array.injEq _ _).symm.to_iff
      | _ => cases h
    | .object ⟨a⟩ =>
      cases w with
      | object t =>
        exact (compareEntries_eq_iff_exact a t.entries).trans (Exact.object.injEq _ _).symm.to_iff
      | _ => cases h
  · rw [compareStructure_of_rank_ne h, Nat.compare_eq_eq]
    exact iff_of_false h (toExact_ne_of_rank_ne h)
termination_by structural v

theorem compareItems_eq_iff_exact (vs ws : List Value) :
    compareItems vs ws = .eq ↔ exactItems vs = exactItems ws := by
  match vs, ws with
  | [], [] => exact iff_of_true rfl rfl
  | [], _ :: _ => exact iff_of_false nofun nofun
  | _ :: _, [] => exact iff_of_false nofun nofun
  | v :: vs, w :: ws =>
    rw [compareItems, Ordering.then_eq_eq, exactItems, exactItems, List.cons.injEq,
      compareStructure_eq_iff v w, compareItems_eq_iff_exact vs ws]
termination_by structural vs

theorem compareEntries_eq_iff_exact (vs ws : List (String × Value)) :
    compareEntries vs ws = .eq ↔ exactEntries vs = exactEntries ws := by
  match vs, ws with
  | [], [] => exact iff_of_true rfl rfl
  | [], _ :: _ => exact iff_of_false nofun nofun
  | _ :: _, [] => exact iff_of_false nofun nofun
  | (j, v) :: vs, (k, w) :: ws =>
    have hkey : compareOfLessAndEq j k = .eq ↔ j = k := compare_eq_iff_eq (a := j) (b := k)
    rw [compareEntries, Ordering.then_eq_eq, Ordering.then_eq_eq, exactEntries, exactEntries,
      List.cons.injEq, Prod.mk.injEq, hkey, compareStructure_eq_iff v w,
      compareEntries_eq_iff_exact vs ws]
termination_by structural vs

end

theorem deepEqual_iff_toExact {v w : Value} (hv : v.Sorted) (hw : w.Sorted) :
    v.deepEqual w ↔ v.toExact = w.toExact :=
  (deepEqual_iff v w hv hw).trans (compareStructure_eq_iff v w)

/-- Values are equal exactly when they are one with exact numbers, and so equality is an equivalence.
Objects have their members in key order, as they have in every value that is read from a text. -/
theorem deepEqual_exact {a b c : Value} (ha : a.Sorted) (hb : b.Sorted) (hc : c.Sorted) :
    (a.deepEqual b ↔ a.toExact = b.toExact) ∧
    a.deepEqual a ∧ (a.deepEqual b → b.deepEqual a) ∧
    (a.deepEqual b → b.deepEqual c → a.deepEqual c) := by
  rw [deepEqual_iff_toExact ha hb, deepEqual_iff_toExact ha ha, deepEqual_iff_toExact hb ha,
    deepEqual_iff_toExact hb hc, deepEqual_iff_toExact ha hc]
  exact ⟨Iff.rfl, rfl, Eq.symm, Eq.trans⟩

/-- Integers and floats of one value, the two zeros among them, and 2^53 + 1 against the float 2^53. -/
theorem deepEqual_exact_kinds :
    let object (id one zero : Number) :=
      Value.object ⟨[("id", .number id), ("xs", .array [.number one, .number zero])]⟩
    let id : Number := .integer 0x20000000000001 (by decide)
    let a := object id (.integer 1 (by decide)) .zero
    let b := object id (.double ⟨false, 0x10000000000000, -52, by decide⟩) (.double (Double.zero true))
    let c := object (.double ⟨false, 0x10000000000000, 1, by decide⟩) (.integer 1 (by decide)) .zero
    (a.Sorted ∧ b.Sorted ∧ c.Sorted) ∧ a.deepEqual b ∧ b.deepEqual a ∧ ¬ a.deepEqual c := by
  intro object id a b c
  have hkeys : ["id", "xs"].Pairwise (· < ·) := by decide
  have hsorted (id one zero : Number) : (object id one zero).Sorted :=
    ⟨hkeys, trivial, ⟨trivial, trivial, trivial⟩, trivial⟩
  have ha : a.Sorted := hsorted _ _ _
  have hb : b.Sorted := hsorted _ _ _
  have hc : c.Sorted := hsorted _ _ _
  have hab : a.toExact = b.toExact := by
    norm_num [a, b, object, toExact, exactEntries, exactItems, Number.value, Number.zero, Double.value,
      Double.zero]
  have hac : a.toExact ≠ c.toExact := by
    norm_num [a, c, id, object, toExact, exactEntries, exactItems, Number.value, Double.value]
  obtain ⟨hequal, -, hsymm, -⟩ := deepEqual_exact ha hb hc
  exact ⟨⟨ha, hb, hc⟩, hequal.2 hab, hsymm (hequal.2 hab),
    fun h ↦ hac ((deepEqual_exact ha hc hb).1.1 h)⟩

end Value

end CloutQuery
