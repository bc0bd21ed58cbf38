import CloutQuery.Host.Registry
import CloutQuery.Proofs.Host.Delegation
import CloutQuery.Proofs.Host.Registration
import CloutQuery.Proofs.Table

namespace CloutQuery

open Comparer

namespace Version

/-- The parts of a version in the order in which they count; texts stand in the order of their code
points. -/
def components (v : Version) : ℕ ×ₗ ℕ ×ₗ ℕ ×ₗ String ×ₗ ℕ :=
  toLex (v.major, toLex (v.minor, toLex (v.fix, toLex (v.qualifier, v.build))))

theorem compare_eq_cmp (v w : Version) : v.compare w = cmp v.components w.components := by
  rw [cmp_eq_compare]
  rfl

theorem cmp_components_eq_iff {v w : Version} : cmp v.components w.components = .eq ↔ v = w := by
  rw [cmp_eq_eq_iff]
  obtain ⟨major, minor, fix, qualifier, build⟩ := v
  obtain ⟨major', minor', fix', qualifier', build'⟩ := w
  simp [components]

end Version

namespace Comparer

theorem version_of_readable {l r : Value} {v w : Version} (hl : Version.ofValue? l = some v)
    (hr : Version.ofValue? r = some w) : version l r = .ok (v.compare w) := by
  rw [version, readVersion, hl, readVersion, hr]
  rfl

theorem version_of_unreadable {l r : Value}
    (h : Version.ofValue? l = none ∨ Version.ofValue? r = none) :
    ∃ v ∈ [l, r], Version.ofValue? v = none ∧
      version l r = .error (.callFailed versionName "compare" ("not a version: " ++ v.render)) := by
  cases hl : Version.ofValue? l with
  | none =>
    refine ⟨l, List.mem_cons_self, hl, ?_⟩
    rw [version, readVersion, hl]
    rfl
  | some v =>
    have hr : Version.ofValue? r = none := h.resolve_left (by simp [hl])
    refine ⟨r, List.mem_cons_of_mem _ List.mem_cons_self, hr, ?_⟩
    rw [version, readVersion, hl, readVersion, hr]
    rfl

end Comparer

namespace Host

abbrev builtins : Host := Registry.withBuiltins.toHost

theorem builtins_call (l r : Value) : builtins.call versionName compareMethod [l, r] =
    (version l r).map fun o ↦ .number (Number.ofOrdering o) := by
  have hfound : Registry.withBuiltins.comparers.get? versionName = some version := by
    rw [Registry.withBuiltins, Registry.register, Table.get?_insert, if_pos rfl]
  have hcall := Registry.withBuiltins.call_compare versionName l r
  rwa [hfound] at hcall

/-- The comparison fails, and its error shows one of the two values that is no version. -/
def RefusesVersion (l r : Value) : Prop :=
  ∃ v ∈ [l, r], Version.ofValue? v = none ∧ builtins.compare l r =
    .error (.callFailed versionName "compare" ("not a version: " ++ v.render))

/-- Two values of which one names the version comparer and neither names another. -/
structure VersionPair (left right : Value) : Prop where
  named : left.comparer? = some versionName ∨ right.comparer? = some versionName
  left_only : ∀ name ∈ left.comparer?, name = versionName
  right_only : ∀ name ∈ right.comparer?, name = versionName

namespace VersionPair

variable {l r : Value} {v w : Version}

theorem of_right (hl : l.comparer? = none ∨ l.comparer? = some versionName)
    (hr : r.comparer? = some versionName) : VersionPair l r where
  named := .inr hr
  left_only name hname := by
    rcases hl with h | h <;> rw [h] at hname <;> cases hname
    rfl
  right_only name hname := by
    rw [hr] at hname
    cases hname
    rfl

theorem symm (h : VersionPair l r) : VersionPair r l := ⟨h.named.symm, h.right_only, h.left_only⟩

theorem deciding?_eq (h : VersionPair l r) : deciding? l r = some versionName :=
  deciding?_eq_of_named h.named h.left_only

theorem compare_eq (h : VersionPair l r) (hl : Version.ofValue? l = some v)
    (hr : Version.ofValue? r = some w) :
    builtins.compare l r = .ok (cmp v.components w.components) := by
  refine compare_of_answer builtins h.deciding?_eq ?_
  rw [builtins_call, version_of_readable hl hr, Version.compare_eq_cmp]
  rfl

theorem equal_iff (h : VersionPair l r) (hl : Version.ofValue? l = some v)
    (hr : Version.ofValue? r = some w) : builtins.equal l r = .ok true ↔ v = w := by
  rw [equal_of_deciding builtins h.deciding?_eq, h.compare_eq hl hr, ← Version.cmp_components_eq_iff,
    map_eq_ok_iff]
  simp

theorem refuses (h : VersionPair l r)
    (hnone : Version.ofValue? l = none ∨ Version.ofValue? r = none) : RefusesVersion l r := by
  obtain ⟨v, hv, hunread, hversion⟩ := version_of_unreadable hnone
  refine ⟨v, hv, hunread, ?_⟩
  rw [compare_of_deciding builtins h.deciding?_eq, builtins_call, hversion]
  rfl

end VersionPair

theorem ok_cmp_ne_gt_iff {α : Type} [LinearOrder α] {x y : α} :
    (Except.ok (cmp x y) : Except HostError Ordering) ≠ .ok .gt ↔ x ≤ y := by
  rw [Ne, Except.ok.injEq]
  exact (cmp_compares x y).ne_gt

theorem compare_versions :
    (∀ l r : Value, VersionPair l r →
      (∀ v w, Version.ofValue? l = some v → Version.ofValue? r = some w →
        builtins.compare l r = .ok (cmp v.components w.components) ∧
        (builtins.compare l r = .ok .eq ↔ v = w) ∧ (builtins.equal l r = .ok true ↔ v = w)) ∧
      (Version.ofValue? l = none ∨ Version.ofValue? r = none →
        RefusesVersion l r ∧ RefusesVersion r l)) ∧
    ∀ a b c : Value, (Version.ofValue? a).isSome → (Version.ofValue? b).isSome →
      (Version.ofValue? c).isSome →
      (VersionPair a a → builtins.compare a a = .ok .eq) ∧
      (VersionPair a b → builtins.compare b a = (builtins.compare a b).map Ordering.swap) ∧
      (VersionPair a b → VersionPair b c → VersionPair a c →
        builtins.compare a b ≠ .ok .gt → builtins.compare b c ≠ .ok .gt →
        builtins.compare a c ≠ .ok .gt) := by
  refine ⟨fun l r h ↦ ⟨fun v w hl hr ↦ ⟨h.compare_eq hl hr, ?_, h.equal_iff hl hr⟩,
    fun hnone ↦ ⟨h.refuses hnone, h.symm.refuses hnone.symm⟩⟩, fun a b c ha hb hc ↦ ?_⟩
  · rw [h.compare_eq hl hr, ← Version.cmp_components_eq_iff, Except.ok.injEq]
  · obtain ⟨u, hu⟩ := Option.isSome_iff_exists.1 ha
    obtain ⟨v, hv⟩ := Option.isSome_iff_exists.1 hb
    obtain ⟨w, hw⟩ := Option.isSome_iff_exists.1 hc
    refine ⟨fun h ↦ ?_, fun h ↦ ?_, fun hab hbc hac ↦ ?_⟩
    · rw [h.compare_eq hu hu, cmp_self_eq_eq]
    · rw [h.compare_eq hu hv, h.symm.compare_eq hv hu, ← cmp_swap]
      rfl
    · rw [hab.compare_eq hu hv, hbc.compare_eq hv hw, hac.compare_eq hu hw, ok_cmp_ne_gt_iff,
        ok_cmp_ne_gt_iff, ok_cmp_ne_gt_iff]
      exact le_trans

/-- A version in a text, as a `$string` and in fields, and a text that is none. -/
theorem compare_versions_mixed :
    let named (rest : List (String × Value)) := Value.object ⟨("$comparer", .text versionName) :: rest⟩
    let a := Value.text "1.9.5"
    let b := named [("$string", .text "1.10.0.rc-2")]
    let c := named [("build", .number (.integer 2 (by decide))), ("major", .number (.integer 1 (by decide))),
      ("minor", .number (.integer 10 (by decide))), ("qualifier", .text "rc")]
    let d := Value.text "1"
    (VersionPair a b ∧ VersionPair b c ∧ VersionPair a c ∧ VersionPair b d) ∧
    builtins.compare a b = .ok .lt ∧ builtins.equal b c = .ok true ∧
    builtins.compare a c ≠ .ok .gt ∧ RefusesVersion d b := by
  intro named a b c d
  have hab : VersionPair a b := .of_right (.inl rfl) rfl
  have hbc : VersionPair b c := .of_right (.inr rfl) rfl
  have hac : VersionPair a c := .of_right (.inl rfl) rfl
  have hbd : VersionPair b d := (VersionPair.of_right (.inl rfl) rfl).symm
  have ha : Version.ofValue? a = some ⟨1, 9, 5, "", 0⟩ := by cbv
  have hb : Version.ofValue? b = some ⟨1, 10, 0, "rc", 2⟩ := by cbv
  have hc : Version.ofValue? c = some ⟨1, 10, 0, "rc", 2⟩ := by cbv
  have hd : Version.ofValue? d = none := by cbv
  obtain ⟨hpairs, htriples⟩ := compare_versions
  obtain ⟨hless, -⟩ := (hpairs a b hab).1 _ _ ha hb
  obtain ⟨-, hsame, hequal⟩ := (hpairs b c hbc).1 _ _ hb hc
  obtain ⟨-, -, htrans⟩ := htriples a b c (by rw [ha]; rfl) (by rw [hb]; rfl) (by rw [hc]; rfl)
  rw [← Version.compare_eq_cmp] at hless
  refine ⟨⟨hab, hbc, hac, hbd⟩, hless, hequal.2 rfl, htrans hab hbc hac ?_ ?_,
    ((hpairs b d hbd).2 (.inr hd)).2⟩
  · rw [hless]
    exact fun h ↦ by cases h
  · rw [hsame.2 rfl]
    exact fun h ↦ by cases h

end Host

end CloutQuery
