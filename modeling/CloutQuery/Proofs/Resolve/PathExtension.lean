import CloutQuery.Proofs.Resolve.NestedValue

namespace CloutQuery

def Selection.extend (sel : Selection) (more : List Segment) : Selection :=
  { sel with path := sel.path ++ more }

namespace Resolver

open Segment (Leads)

variable {r : Resolver} {n : Vertex} {noun node plural : String} {sel : Selection}

/-- The vertex whose value a path is read from, the member of it that is read, and the looked-up key
with everything behind it. -/
inductive ReadsAt (r : Resolver) (context : CallContext) (plural : String) :
    List Segment → Vertex → Owner → List Segment → Prop
  | intro {entity : Segment} {path keys : List Segment} {n : Vertex} {owner : Owner}
      {mapping : Option Value} (entity_eq : r.resolveNamedEntity context entity.text = .ok n)
      (source : r.Source n plural path ⟨owner, mapping, keys⟩) :
      ReadsAt r context plural (entity :: path) n owner keys

theorem Source.append {second third : Segment} {rest : List Segment}
    (h : r.Source n plural (second :: third :: rest) sel) (more : List Segment) :
    r.Source n plural (second :: third :: (rest ++ more)) (sel.extend more) := by
  cases h with
  | capability has => exact .capability has
  | relationship none occurs => exact .relationship none occurs
  | node no_capability no_relationship =>
    apply Source.node
    · intro name path c h
      obtain ⟨rfl, -⟩ := List.cons.inj h
      exact no_capability name _ c rfl
    · intro name place path e h
      obtain ⟨rfl, htail⟩ := List.cons.inj h
      obtain ⟨rfl, -⟩ := List.cons.inj htail
      exact no_relationship name place _ e rfl

theorem follow_append {done : List Segment} {v : Value} (path more : List Segment) :
    follow noun node done v (path ++ more) =
      (follow noun node done v path).bind fun w ↦ follow noun node (done ++ path) w more := by
  induction path generalizing done v with
  | nil =>
    rw [List.append_nil]
    rfl
  | cons s rest ih =>
    rw [List.cons_append, follow, follow]
    cases s.descend? v with
    | none => rfl
    | some w =>
      dsimp only
      rw [ih, List.append_assoc]
      rfl

theorem readSelection_extend (hpath : sel.path ≠ []) (args args' more : List Segment) :
    r.readSelection noun node args' (sel.extend more) =
      (r.readSelection noun node args sel).bind fun v ↦ follow noun node sel.path v more := by
  obtain ⟨owner, mapping, path⟩ := sel
  obtain ⟨key, rest, rfl⟩ := List.exists_cons_of_ne_nil hpath
  change r.readSelection noun node args' ⟨owner, mapping, key :: (rest ++ more)⟩ = _
  unfold readSelection
  dsimp only
  cases mapping.bind key.descend? with
  | none => rfl
  | some found =>
    dsimp only
    cases r.host.coerce found with
    | error e => rfl
    | ok coerced => exact follow_append rest more

theorem readSelection_of_nil (hpath : sel.path = []) (args : List Segment) :
    r.readSelection noun node args sel =
      .error (.notFound (.valueName noun node (Segment.dotted args))) := by
  unfold readSelection
  rw [hpath]

theorem nestedValue_of_source {context : CallContext} {singular : String} {entity second : Segment}
    {rest : List Segment} (hn : r.resolveNamedEntity context entity.text = .ok n)
    (hsource : r.Source n plural (second :: rest) sel) :
    r.nestedValue context singular plural (entity :: second :: rest) =
      r.readSelection (sel.owner.noun singular) (n.name?.getD "") (entity :: second :: rest) sel := by
  rw [nestedValue_of_ok hn, ← hsource.eq_select]

/-- What a longer path leads to: to the same failure, if there is no entity; or, unless the path ends
where a key should come, to where the longer path leads from its value. -/
theorem nestedValue_append_cases (r : Resolver) (context : CallContext) (singular plural : String)
    (entity second third : Segment) (rest more : List Segment) :
    let short := r.nestedValue context singular plural (entity :: second :: third :: rest)
    let long := r.nestedValue context singular plural (entity :: second :: third :: (rest ++ more))
    (∃ e, short = .error e ∧ long = .error e) ∨
      (∃ noun node path, short = .error (.notFound (.valueName noun node path))) ∨
      ∃ n owner keys, r.ReadsAt context plural (entity :: second :: third :: rest) n owner keys ∧
        long = short.bind fun v ↦ follow (owner.noun singular) (n.name?.getD "") keys v more := by
  intro short long
  cases hn : r.resolveNamedEntity context entity.text with
  | error e => exact .inl ⟨e, nestedValue_of_error hn, nestedValue_of_error hn⟩
  | ok n =>
    have hsource := r.source_select n plural (second :: third :: rest)
    generalize r.select n plural (second :: third :: rest) = sel at hsource
    have hshort : short = _ := nestedValue_of_source hn hsource
    have hlong : long = _ := nestedValue_of_source hn (hsource.append more)
    by_cases hpath : sel.path = []
    · rw [readSelection_of_nil hpath] at hshort
      exact .inr (.inl ⟨_, _, _, hshort⟩)
    · refine .inr (.inr ⟨n, sel.owner, sel.path, .intro hn hsource, ?_⟩)
      rw [hlong, hshort]
      exact readSelection_extend hpath _ _ more

theorem follow_of_not_leads {done path : List Segment} {v : Value} (h : ∀ w, ¬ Leads v path w) :
    ∃ passed dead later u, path = passed ++ dead :: later ∧ Leads v passed u ∧
      (∀ w, ¬ dead.Step u w) ∧ follow noun node done v path =
        .error (.notFound (.nested noun (Segment.dotted (done ++ passed ++ [dead])) node)) := by
  cases hfollow : follow noun node done v path with
  | ok w => exact absurd (follow_eq_ok_iff.1 hfollow) (h w)
  | error e =>
    obtain ⟨passed, dead, later, u, hpath, hleads, hstuck, rfl⟩ := follow_eq_error_iff.1 hfollow
    exact ⟨passed, dead, later, u, hpath, hleads, hstuck, rfl⟩

theorem nestedValue_append (r : Resolver) (context : CallContext) (singular plural : String)
    (p s : List Segment) (hp : 3 ≤ p.length) :
    (∀ v, r.nestedValue context singular plural p = .ok v →
      (∀ w, r.nestedValue context singular plural (p ++ s) = .ok w ↔ Leads v s w) ∧
      ((∀ w, ¬ Leads v s w) → ∃ n owner keys passed dead later u,
        r.ReadsAt context plural p n owner keys ∧ s = passed ++ dead :: later ∧ Leads v passed u ∧
        (∀ w, ¬ dead.Step u w) ∧ r.nestedValue context singular plural (p ++ s) =
          .error (.notFound (.nested (owner.noun singular)
            (Segment.dotted (keys ++ passed ++ [dead])) (n.name?.getD ""))))) ∧
    ∀ e, r.nestedValue context singular plural p = .error e →
      (∀ noun node path, e ≠ .notFound (.valueName noun node path)) →
      r.nestedValue context singular plural (p ++ s) = .error e := by
  match p, hp with
  | entity :: second :: third :: rest, _ =>
    -- there is no entity, or the path ends at its selector, or both paths look up one key
    obtain ⟨e, hshort, hlong⟩ | ⟨_, _, _, hshort⟩ | ⟨n, owner, keys, hreads, hlong⟩ :=
      r.nestedValue_append_cases context singular plural entity second third rest s
    · refine ⟨fun v hv ↦ ?_, fun e' he' _ ↦ ?_⟩
      · rw [hshort] at hv
        cases hv
      · rw [hshort] at he'
        cases he'
        exact hlong
    · refine ⟨fun v hv ↦ ?_, fun e he hother ↦ ?_⟩
      · rw [hshort] at hv
        cases hv
      · rw [hshort] at he
        cases he
        exact absurd rfl (hother _ _ _)
    · refine ⟨fun v hv ↦ ?_, fun e he _ ↦ ?_⟩
      · have hfollow : r.nestedValue context singular plural (entity :: second :: third :: rest ++ s) =
            follow (owner.noun singular) (n.name?.getD "") keys v s :=
          hlong.trans (congrArg (Except.bind · _) hv)
        refine ⟨fun w ↦ ?_, fun hnot ↦ ?_⟩
        · rw [hfollow, follow_eq_ok_iff]
        · obtain ⟨passed, dead, later, u, hs, hleads, hstuck, herror⟩ := follow_of_not_leads hnot
          exact ⟨n, owner, keys, passed, dead, later, u, hreads, hs, hleads, hstuck,
            hfollow.trans herror⟩
      · exact hlong.trans (congrArg (Except.bind · _) he)

open LinkedWeb in
/-- Behind the second relationship `cache` the item `limits.cpu.1` is there and `limits.cpu.gpu.x` fails
at `gpu`; and a missing `quota` stays missing whatever is asked of it. -/
theorem nestedValue_append_web :
    let cache (path : List Segment) : List Segment := .key "SELF" :: .key "cache" :: .index 1 :: path
    let read (path : List Segment) := resolver.nestedValue context "property" "properties" (cache path)
    let noun := (Owner.relationship "cache").noun "property"
    read [.key "limits", .key "cpu", .index 1] = .ok (.text "four") ∧
    read [.key "limits", .key "cpu", .key "gpu", .key "x"] =
      .error (.notFound (.nested noun "limits.cpu.gpu" "web")) ∧
    read [.key "quota", .key "cpu"] = .error (.notFound (.value noun "quota" "web")) := by
  intro cache read noun
  have hcpu := nestedValue_append resolver context "property" "properties" (cache [.key "limits", .key "cpu"])
  have hquota := nestedValue_append resolver context "property" "properties" (cache [.key "quota"])
    [.key "cpu"] (by decide)
  have hv : read [.key "limits", .key "cpu"] = .ok (.array [.text "two", .text "four"]) := by rfl
  refine ⟨?_, ?_, ?_⟩
  · exact (((hcpu [.index 1] (by decide)).1 _ hv).1 _).2 (.step (.item rfl) (.here _))
  · have hstuck : ∀ w, ¬ (Segment.key "gpu").Step (.array [.text "two", .text "four"]) w := by
      rw [← Segment.descend?_eq_none_iff]
      rfl
    have hnot : ∀ w, ¬ Leads (.array [.text "two", .text "four"]) [.key "gpu", .key "x"] w := by
      intro w h
      cases h with
      | step first => exact hstuck _ first
    obtain ⟨n, owner, keys, passed, dead, later, u, ⟨hn, hsource⟩, hs, hpassed, -, herror⟩ :=
      ((hcpu [.key "gpu", .key "x"] (by decide)).1 _ hv).2 hnot
    obtain rfl := Except.ok.inj (self_eq.symm.trans hn)
    cases hsource.eq_select
    cases hpassed with
    | here =>
      cases hs
      exact herror
    | step first =>
      obtain ⟨rfl, -⟩ := List.cons.inj hs
      exact absurd first (hstuck _)
  · exact hquota.2 _ rfl nofun

end Resolver

end CloutQuery
