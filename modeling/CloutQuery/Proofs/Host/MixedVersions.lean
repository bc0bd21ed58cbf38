import CloutQuery.Proofs.Host.VersionOrder

namespace CloutQuery.Host

open Comparer

inductive HoldsVersion : Value → Version → Prop
  | plain {s : String} {v : Version} (h : Version.parse s = some v) : HoldsVersion (.text s) v
  | tagged {members : Payload} {s : String} {v : Version}
      (hcomparer : members.get? "$comparer" = some (.text versionName))
      (hstring : members.get? "$string" = some (.text s)) (h : Version.parse s = some v) :
      HoldsVersion (.object members) v

def TextsAgree (a b : Value) : Prop :=
  ∀ s t v w, a = .text s → b = .text t → Version.parse s = some v → Version.parse t = some w →
    cmp s t = cmp v.components w.components

theorem textsAgree_iff {s t : String} {v w : Version} (hs : Version.parse s = some v)
    (ht : Version.parse t = some w) :
    TextsAgree (.text s) (.text t) ↔ cmp s t = cmp v.components w.components := by
  refine ⟨fun h ↦ h s t v w rfl rfl hs ht, ?_⟩
  rintro h _ _ v' w' ⟨⟩ ⟨⟩ hv' hw'
  cases hs.symm.trans hv'
  cases ht.symm.trans hw'
  exact h

theorem compare_texts (host : Host) (s t : String) : host.compare (.text s) (.text t) = .ok (cmp s t) := by
  rw [cmp_eq_compare]
  rfl

namespace HoldsVersion

variable {a b : Value} {v w : Version}

theorem ofValue?_eq (h : HoldsVersion a v) : Version.ofValue? a = some v := by
  cases h with
  | plain h => exact h
  | tagged _ hstring h =>
    rw [Version.ofValue?, hstring]
    exact h

theorem tagged_or_text (h : HoldsVersion a v) :
    a.comparer? = some versionName ∨ ∃ s, a = .text s := by
  cases h with
  | plain => exact .inr ⟨_, rfl⟩
  | tagged hcomparer =>
    refine .inl ?_
    rw [Value.comparer?, Value.get?, Value.object?, Option.bind_some, hcomparer]
    rfl

theorem versionPair_or_texts (ha : HoldsVersion a v) (hb : HoldsVersion b w) :
    VersionPair a b ∨ ∃ s t, a = .text s ∧ b = .text t := by
  obtain hna | ⟨s, rfl⟩ := ha.tagged_or_text
  · obtain hnb | ⟨t, rfl⟩ := hb.tagged_or_text
    · exact .inl (.of_right (.inr hna) hnb)
    · exact .inl (VersionPair.of_right (.inl rfl) hna).symm
  · obtain hnb | ⟨t, rfl⟩ := hb.tagged_or_text
    · exact .inl (.of_right (.inl rfl) hnb)
    · exact .inr ⟨s, t, rfl, rfl⟩

theorem compare_eq (ha : HoldsVersion a v) (hb : HoldsVersion b w) (h : TextsAgree a b) :
    builtins.compare a b = .ok (cmp v.components w.components) := by
  obtain hpair | ⟨s, t, rfl, rfl⟩ := ha.versionPair_or_texts hb
  · exact hpair.compare_eq ha.ofValue?_eq hb.ofValue?_eq
  · rw [compare_texts, h s t v w rfl rfl ha.ofValue?_eq hb.ofValue?_eq]

end HoldsVersion

def taggedVersion (s : String) : Value :=
  .object ⟨[("$comparer", .text versionName), ("$string", .text s)]⟩

theorem holdsVersion_taggedVersion {s : String} {v : Version} (h : Version.parse s = some v) :
    HoldsVersion (taggedVersion s) v := .tagged rfl rfl h

theorem textsAgree_taggedVersion_right (a : Value) (s : String) : TextsAgree a (taggedVersion s) :=
  fun _ _ _ _ _ h ↦ by cases h

theorem textsAgree_taggedVersion_left (s : String) (a : Value) : TextsAgree (taggedVersion s) a :=
  fun _ _ _ _ h ↦ by cases h

theorem compare_taggedVersion_right {a : Value} {s : String} {v w : Version} (ha : HoldsVersion a v)
    (hs : Version.parse s = some w) :
    builtins.compare a (taggedVersion s) = .ok (cmp v.components w.components) :=
  ha.compare_eq (holdsVersion_taggedVersion hs) (textsAgree_taggedVersion_right a s)

theorem compare_taggedVersion_left {a : Value} {s : String} {v w : Version} (ha : HoldsVersion a v)
    (hs : Version.parse s = some w) :
    builtins.compare (taggedVersion s) a = .ok (cmp w.components v.components) :=
  (holdsVersion_taggedVersion hs).compare_eq ha (textsAgree_taggedVersion_left s a)

/-- Two texts that stand in another order than their versions are the ends of a chain that does not
compose: the later text, its version in an object, and the earlier text. -/
theorem chain_breaks {s t : String} {v w : Version} (hs : Version.parse s = some v)
    (ht : Version.parse t = some w) (hlt : s < t) (hle : w.components ≤ v.components) :
    builtins.compare (.text t) (taggedVersion t) ≠ .ok .gt ∧
    builtins.compare (taggedVersion t) (.text s) ≠ .ok .gt ∧
    builtins.compare (.text t) (.text s) = .ok .gt := by
  rw [compare_taggedVersion_right (.plain ht) ht, compare_taggedVersion_left (.plain hs) ht,
    ok_cmp_ne_gt_iff, ok_cmp_ne_gt_iff, compare_texts, hlt.cmp_eq_gt]
  exact ⟨le_rfl, hle, rfl⟩

/-- Two texts are ordered as texts and all other pairs as versions, so the orders mix in a triple with
just two texts. Comparison is transitive there if the two orders agree on them, and only then whatever the
third value is. -/
theorem compare_mixed_transitive :
    (∀ a b c u v w, HoldsVersion a u → HoldsVersion b v → HoldsVersion c w →
      (∃ r s t, a = .text r ∧ b = .text s ∧ c = .text t) ∨
        (TextsAgree a b ∧ TextsAgree b c ∧ TextsAgree a c) →
      builtins.compare a b ≠ .ok .gt → builtins.compare b c ≠ .ok .gt →
      builtins.compare a c ≠ .ok .gt) ∧
    ∀ s t, (Version.parse s).isSome → (Version.parse t).isSome → ¬ TextsAgree (.text s) (.text t) →
      ∃ a b c u, ((a, c) = (.text s, .text t) ∨ (a, c) = (.text t, .text s)) ∧ HoldsVersion b u ∧
        builtins.compare a b ≠ .ok .gt ∧ builtins.compare b c ≠ .ok .gt ∧
        builtins.compare a c = .ok .gt := by
  refine ⟨fun a b c u v w ha hb hc hagree ↦ ?_, fun s t hs ht hdisagree ↦ ?_⟩
  · obtain ⟨r, s, t, rfl, rfl, rfl⟩ | ⟨hab, hbc, hac⟩ := hagree
    · rw [compare_texts, compare_texts, compare_texts, ok_cmp_ne_gt_iff, ok_cmp_ne_gt_iff,
        ok_cmp_ne_gt_iff]
      exact le_trans
    · rw [ha.compare_eq hb hab, hb.compare_eq hc hbc, ha.compare_eq hc hac, ok_cmp_ne_gt_iff,
        ok_cmp_ne_gt_iff, ok_cmp_ne_gt_iff]
      exact le_trans
  · obtain ⟨v, hv⟩ := Option.isSome_iff_exists.1 hs
    obtain ⟨w, hw⟩ := Option.isSome_iff_exists.1 ht
    have hne : cmp s t ≠ cmp v.components w.components := fun h ↦ hdisagree ((textsAgree_iff hv hw).2 h)
    -- the chain that breaks starts at the text that is the later text but not the later version
    rcases lt_trichotomy s t with hlt | rfl | hgt
    · have hle : w.components ≤ v.components :=
        le_of_not_gt fun h ↦ hne (hlt.cmp_eq_lt.trans h.cmp_eq_lt.symm)
      exact ⟨_, _, _, w, .inr rfl, holdsVersion_taggedVersion hw, chain_breaks hv hw hlt hle⟩
    · cases hv.symm.trans hw
      exact absurd ((cmp_self_eq_eq s).trans (cmp_self_eq_eq v.components).symm) hne
    · have hle : v.components ≤ w.components :=
        le_of_not_gt fun h ↦ hne (hgt.cmp_eq_gt.trans h.cmp_eq_gt.symm)
      exact ⟨_, _, _, v, .inl rfl, holdsVersion_taggedVersion hv, chain_breaks hw hv hgt hle⟩

theorem compare_mixed_transitive_between :
    let a := Value.text "1.2"
    let b := taggedVersion "1.2.7.rc-1"
    let c := Value.text "1.3"
    TextsAgree a c ∧ builtins.compare a b ≠ .ok .gt ∧ builtins.compare b c ≠ .ok .gt ∧
      builtins.compare a c ≠ .ok .gt := by
  intro a b c
  have hlow : Version.parse "1.2" = some ⟨1, 2, 0, "", 0⟩ := by cbv
  have hmid : Version.parse "1.2.7.rc-1" = some ⟨1, 2, 7, "rc", 1⟩ := by cbv
  have hhigh : Version.parse "1.3" = some ⟨1, 3, 0, "", 0⟩ := by cbv
  have hagree : TextsAgree a c := (textsAgree_iff hlow hhigh).2 (by decide)
  have hab : builtins.compare a b ≠ .ok .gt := by
    rw [compare_taggedVersion_right (.plain hlow) hmid, ok_cmp_ne_gt_iff]
    decide
  have hbc : builtins.compare b c ≠ .ok .gt := by
    rw [compare_taggedVersion_left (.plain hhigh) hmid, ok_cmp_ne_gt_iff]
    decide
  have hobject : TextsAgree a b ∧ TextsAgree b c ∧ TextsAgree a c :=
    ⟨textsAgree_taggedVersion_right a _, textsAgree_taggedVersion_left _ c, hagree⟩
  exact ⟨hagree, hab, hbc, compare_mixed_transitive.1 a b c _ _ _ (.plain hlow)
    (holdsVersion_taggedVersion hmid) (.plain hhigh) (.inr hobject) hab hbc⟩

/-- `1.9`, the same version in an object, and `1.10`, which is a later version but an earlier text. -/
theorem compare_mixed_not_transitive :
    ¬ ∀ a b c u v w, HoldsVersion a u → HoldsVersion b v → HoldsVersion c w →
      builtins.compare a b ≠ .ok .gt → builtins.compare b c ≠ .ok .gt →
      builtins.compare a c ≠ .ok .gt := by
  intro h
  have hearly : Version.parse "1.9" = some ⟨1, 9, 0, "", 0⟩ := by cbv
  have hlate : Version.parse "1.10" = some ⟨1, 10, 0, "", 0⟩ := by cbv
  have hle : (⟨1, 9, 0, "", 0⟩ : Version).components ≤ (⟨1, 10, 0, "", 0⟩ : Version).components := by
    decide
  obtain ⟨hab, hbc, hac⟩ := chain_breaks hlate hearly (by decide) hle
  exact h _ _ _ _ _ _ (.plain hearly) (holdsVersion_taggedVersion hearly) (.plain hlate) hab hbc hac

end CloutQuery.Host
