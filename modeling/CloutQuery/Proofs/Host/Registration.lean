import CloutQuery.Host.Registry
import CloutQuery.Proofs.Host.Delegation
import CloutQuery.Proofs.Table

namespace CloutQuery

namespace Comparer

def lastUnder? (name : String) (calls : List (String × Comparer)) : Option Comparer :=
  ((calls.filter (·.1 = name)).getLast?).map Prod.snd

theorem lastUnder?_append (name other : String) (comparer : Comparer) (calls : List (String × Comparer)) :
    lastUnder? name (calls ++ [(other, comparer)]) =
      if name = other then some comparer else lastUnder? name calls := by
  rw [lastUnder?, List.filter_append, List.filter_singleton]
  by_cases h : name = other
  · simp [h]
  · simp [h, Ne.symm h, lastUnder?]

theorem lastUnder?_eq_none {name : String} {calls : List (String × Comparer)}
    (h : ∀ call ∈ calls, call.1 ≠ name) : lastUnder? name calls = none := by
  have hnone : calls.filter (·.1 = name) = [] := List.filter_eq_nil_iff.2 (by simpa using h)
  rw [lastUnder?, hnone]
  rfl

theorem lastUnder?_eq_some {name : String} {comparer : Comparer} {before after : List (String × Comparer)}
    (h : ∀ call ∈ after, call.1 ≠ name) :
    lastUnder? name (before ++ (name, comparer) :: after) = some comparer := by
  have hnone : after.filter (·.1 = name) = [] := List.filter_eq_nil_iff.2 (by simpa using h)
  rw [lastUnder?, List.filter_append, List.filter_cons_of_pos (by simp), hnone, List.getLast?_concat]
  rfl

end Comparer

namespace Registry

/-- A registry with the registrations that were made in it, oldest first. The comparer that is built in
counts as the first of them. -/
inductive History : Registry → List (String × Comparer) → Prop
  | new : History empty []
  | builtins : History withBuiltins [(Comparer.versionName, Comparer.version)]
  | register {r : Registry} {calls : List (String × Comparer)} (name : String) (comparer : Comparer) :
      History r calls → History (r.register name comparer) (calls ++ [(name, comparer)])

variable {r : Registry} {calls : List (String × Comparer)}

theorem get?_register (r : Registry) (name : String) (comparer : Comparer) (other : String) :
    (r.register name comparer).comparers.get? other =
      if other = name then some comparer else r.comparers.get? other :=
  Table.get?_insert r.comparers name comparer other

theorem History.get?_eq (h : r.History calls) (name : String) :
    r.comparers.get? name = Comparer.lastUnder? name calls := by
  induction h with
  | new => rfl
  | builtins => exact (get?_register _ _ _ _).trans (Comparer.lastUnder?_append name _ _ []).symm
  | register other comparer _ ih => rw [get?_register, Comparer.lastUnder?_append, ih]

theorem call_compare (r : Registry) (name : String) (left right : Value) :
    r.call name Host.compareMethod [left, right] =
      (r.comparers.get? name).elim (.error (.unknownMethod name Host.compareMethod)) fun f ↦
        (f left right).map fun o ↦ .number (Number.ofOrdering o) := by
  cases hfound : r.comparers.get? name <;> simp [call, hfound]

end Registry

namespace Host

variable {left right : Value} {name : String}

theorem compare_toHost (r : Registry) (h : deciding? left right = some name) :
    r.toHost.compare left right =
      (r.comparers.get? name).elim (.error (.unknownMethod name compareMethod)) fun f ↦ f left right := by
  have hcall : r.toHost.call name compareMethod [left, right] = _ := r.call_compare name left right
  rw [compare_of_deciding _ h, hcall]
  cases r.comparers.get? name with
  | none => rfl
  | some f =>
    rw [Option.elim_some, Option.elim_some]
    cases f left right with
    | error e => rfl
    | ok o => exact orderingOf_ofOrdering name o

theorem compare_registered {r : Registry} {calls : List (String × Comparer)} (hr : r.History calls)
    (hname : left.comparer? = some name ∨ left.comparer? = none ∧ right.comparer? = some name) :
    (∀ before f after, calls = before ++ (name, f) :: after → (∀ call ∈ after, call.1 ≠ name) →
      r.toHost.compare left right = f left right ∧
      ∀ o, f left right = .ok o → f right left = .ok o.swap → (∀ other ∈ right.comparer?, other = name) →
        r.toHost.compare left right = .ok o ∧ r.toHost.compare right left = .ok o.swap) ∧
    ((∀ call ∈ calls, call.1 ≠ name) →
      r.toHost.compare left right = .error (.unknownMethod name "compare")) ∧
    ∀ (r' : Registry) (calls' : List (String × Comparer)), r'.History calls' →
      calls'.filter (·.1 = name) = calls.filter (·.1 = name) →
      r'.toHost.compare left right = r.toHost.compare left right := by
  have hdecides : deciding? left right = some name := deciding?_eq_some_iff.2 hname
  refine ⟨fun before f after hcalls hafter ↦ ?_, fun hnone ↦ ?_, fun r' calls' hr' hsame ↦ ?_⟩
  · have hf : r.comparers.get? name = some f := by
      rw [hr.get?_eq, hcalls, Comparer.lastUnder?_eq_some hafter]
    have hcompare {v w : Value} (h : deciding? v w = some name) : r.toHost.compare v w = f v w := by
      rw [compare_toHost r h, hf, Option.elim_some]
    refine ⟨hcompare hdecides, fun o hlr hrl hright ↦ ?_⟩
    have hreversed : deciding? right left = some name :=
      deciding?_eq_of_named (hname.symm.imp_left And.right) hright
    rw [hcompare hdecides, hcompare hreversed]
    exact ⟨hlr, hrl⟩
  · rw [compare_toHost r hdecides, hr.get?_eq, Comparer.lastUnder?_eq_none hnone]
    rfl
  · rw [compare_toHost r' hdecides, compare_toHost r hdecides, hr'.get?_eq, hr.get?_eq,
      Comparer.lastUnder?, hsame, Comparer.lastUnder?]

/-- The second of two registrations under a name counts, whatever is registered under another name behind
it; with the built-in comparer alone the name is unknown. -/
theorem compare_registered_again :
    let byLength : Comparer := fun v w ↦ .ok (compareOfLessAndEq v.length w.length)
    let descending : Comparer := fun v w ↦ byLength w v
    let refusing : Comparer := fun _ _ ↦ .error (.callFailed "weight" "compare" "refused")
    let calls : List (String × Comparer) := [("size", byLength), ("size", descending), ("weight", refusing)]
    let r := ((Registry.empty.register "size" byLength).register "size" descending).register "weight" refusing
    let a := Value.text "abc"
    let b := Value.object ⟨[("$comparer", .text "size")]⟩
    r.History calls ∧ Registry.withBuiltins.History [(Comparer.versionName, Comparer.version)] ∧
    b.comparer? = some "size" ∧
    r.toHost.compare a b = .ok .lt ∧ r.toHost.compare b a = .ok .gt ∧
    Registry.withBuiltins.toHost.compare a b = .error (.unknownMethod "size" "compare") := by
  intro byLength descending refusing calls r a b
  have hr : r.History calls := ((Registry.History.new.register _ _).register _ _).register _ _
  have hname : a.comparer? = some "size" ∨ a.comparer? = none ∧ b.comparer? = some "size" :=
    .inr ⟨rfl, rfl⟩
  obtain ⟨hlast, -, -⟩ := compare_registered hr hname
  obtain ⟨-, hboth⟩ := hlast [("size", byLength)] descending [("weight", refusing)] rfl (by simp)
  have hother : ∀ other ∈ b.comparer?, other = "size" := fun _ h ↦ (Option.some.inj h).symm
  obtain ⟨hab, hba⟩ := hboth .lt (by cbv) (by cbv) hother
  obtain ⟨-, hnone, -⟩ := compare_registered .builtins hname
  exact ⟨hr, .builtins, rfl, hab, hba, hnone (by simp [Comparer.versionName])⟩

end Host

end CloutQuery
