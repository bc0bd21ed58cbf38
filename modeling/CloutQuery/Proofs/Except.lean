import Mathlib.Data.List.Forall2
import Mathlib.Data.Option.Basic

namespace CloutQuery

variable {ε α β σ : Type}

theorem bind_eq_ok_iff {x : Except ε α} {f : α → Except ε β} {b : β} :
    x >>= f = .ok b ↔ ∃ a, x = .ok a ∧ f a = .ok b := by
  constructor
  · intro h
    cases x with
    | error e => cases h
    | ok a => exact ⟨a, rfl, h⟩
  · rintro ⟨a, rfl, h⟩
    exact h

theorem bind_eq_error_iff {x : Except ε α} {f : α → Except ε β} {e : ε} :
    x >>= f = .error e ↔ x = .error e ∨ ∃ a, x = .ok a ∧ f a = .error e := by
  constructor
  · intro h
    cases x with
    | error e' =>
      cases h
      exact .inl rfl
    | ok a => exact .inr ⟨a, rfl, h⟩
  · rintro (rfl | ⟨a, rfl, h⟩)
    · rfl
    · exact h

theorem map_eq_ok_iff {x : Except ε α} {f : α → β} {b : β} :
    x.map f = .ok b ↔ ∃ a, x = .ok a ∧ f a = b := by
  constructor
  · intro h
    cases x with
    | error e => cases h
    | ok a => exact ⟨a, rfl, Except.ok.inj h⟩
  · rintro ⟨a, rfl, rfl⟩
    rfl

theorem map_eq_error_iff {x : Except ε α} {f : α → β} {e : ε} : x.map f = .error e ↔ x = .error e := by
  cases x <;> simp [Except.map]

theorem map_map_eq {γ : Type} (x : Except ε α) (f : α → β) (g : β → γ) :
    (x.map f).map g = x.map (g ∘ f) := by
  cases x <;> rfl

theorem map_eq_map_cases {γ : Type} {x : Except ε α} {y : Except ε β} {f : α → γ} {g : β → γ}
    (h : x.map f = y.map g) :
    (∃ e, x = .error e ∧ y = .error e) ∨ ∃ a b, x = .ok a ∧ y = .ok b ∧ f a = g b := by
  cases x with
  | error e =>
    cases y with
    | error e' => exact .inl ⟨e, rfl, congrArg Except.error (Except.error.inj h).symm⟩
    | ok b => cases h
  | ok a =>
    cases y with
    | error e' => cases h
    | ok b => exact .inr ⟨a, b, rfl, rfl, Except.ok.inj h⟩

/-- Reasons for each answer and for each failure are exact if there always is one. -/
theorem exact_of_reason {x : Except ε α} {P : α → Prop} {Q : ε → Prop} (hok : ∀ a, P a → x = .ok a)
    (herror : ∀ e, Q e → x = .error e) (hreason : (∃ a, P a) ∨ ∃ e, Q e) :
    (∀ a, x = .ok a ↔ P a) ∧ ∀ e, x = .error e ↔ Q e := by
  obtain ⟨a, ha⟩ | ⟨e, he⟩ := hreason
  · obtain rfl := hok a ha
    refine ⟨fun b ↦ ⟨?_, hok b⟩, fun e ↦ ⟨fun h ↦ (by cases h), herror e⟩⟩
    rintro ⟨⟩
    exact ha
  · obtain rfl := herror e he
    refine ⟨fun a ↦ ⟨fun h ↦ (by cases h), hok a⟩, fun e' ↦ ⟨?_, herror e'⟩⟩
    rintro ⟨⟩
    exact he

theorem foldlM_keeps {P : σ → Prop} {step : σ → α → Except ε σ}
    (hstep : ∀ s a s', P s → step s a = .ok s' → P s') {l : List α} {s s' : σ} (hs : P s)
    (h : l.foldlM step s = .ok s') : P s' := by
  induction l generalizing s with
  | nil =>
    cases h
    exact hs
  | cons a l ih =>
    obtain ⟨t, ht, hrest⟩ := bind_eq_ok_iff.1 h
    exact ih (hstep _ _ _ hs ht) hrest

/-- A loop fails at the first step that does, if it is up to what a step is given whether it fails and not
up to the state that it finds. -/
theorem foldlM_eq_error_iff {P : σ → Prop} {step : σ → α → Except ε σ} {Fails : α → ε → Prop}
    {l : List α} (hkeeps : ∀ s, ∀ a ∈ l, ∀ s', P s → step s a = .ok s' → P s')
    (hfails : ∀ s, ∀ a ∈ l, ∀ e, P s → (step s a = .error e ↔ Fails a e)) {s : σ} (hs : P s) {e : ε} :
    l.foldlM step s = .error e ↔ ∃ before a after, l = before ++ a :: after ∧
      (∀ b ∈ before, ∀ e', ¬ Fails b e') ∧ Fails a e := by
  induction l generalizing s with
  | nil =>
    refine ⟨fun h ↦ (by cases h), ?_⟩
    rintro ⟨before, a, after, h, -⟩
    cases before <;> cases h
  | cons a l ih =>
    have hfirst := hfails s a List.mem_cons_self
    -- the first step ends the loop, or leaves a state that has kept `P`
    cases ha : step s a with
    | error e' =>
      have hfold : (a :: l).foldlM step s = .error e' := bind_eq_error_iff.2 (.inl ha)
      rw [hfold]
      constructor
      · rintro ⟨⟩
        exact ⟨[], a, l, rfl, nofun, (hfirst e hs).1 ha⟩
      · rintro ⟨before, b, after, hl, hbefore, hb⟩
        cases before with
        | nil =>
          cases hl
          rw [← ha, (hfirst e hs).2 hb]
        | cons c before =>
          cases hl
          exact absurd ((hfirst e' hs).1 ha) (hbefore a List.mem_cons_self e')
    | ok s' =>
      have hnot (e' : ε) : ¬ Fails a e' := by
        intro hfail
        have := (hfirst e' hs).2 hfail
        rw [ha] at this
        cases this
      have hlater := ih (fun t b hb ↦ hkeeps t b (List.mem_cons_of_mem a hb))
        (fun t b hb ↦ hfails t b (List.mem_cons_of_mem a hb))
        (hkeeps s a List.mem_cons_self s' hs ha)
      rw [List.foldlM_cons, bind_eq_error_iff, ha]
      constructor
      · rintro (⟨⟨⟩⟩ | ⟨_, ⟨⟩, hrest⟩)
        obtain ⟨before, b, after, rfl, hbefore, hb⟩ := hlater.1 hrest
        exact ⟨a :: before, b, after, rfl, List.forall_mem_cons.2 ⟨hnot, hbefore⟩, hb⟩
      · rintro ⟨before, b, after, hl, hbefore, hb⟩
        cases before with
        | nil =>
          cases hl
          exact absurd hb (hnot e)
        | cons c before =>
          cases hl
          exact .inr ⟨s', rfl, hlater.2 ⟨before, b, after, rfl,
            (List.forall_mem_cons.1 hbefore).2, hb⟩⟩

theorem foldlM_option_keeps {P : σ → Prop} {step : σ → α → Option σ} {l : List α}
    (hstep : ∀ s, ∀ a ∈ l, ∀ s', P s → step s a = some s' → P s') {s s' : σ} (hs : P s)
    (h : l.foldlM step s = some s') : P s' := by
  induction l generalizing s with
  | nil =>
    cases h
    exact hs
  | cons a l ih =>
    obtain ⟨t, ht, hrest⟩ := Option.bind_eq_some_iff.1 h
    exact ih (fun s b hb ↦ hstep s b (List.mem_cons_of_mem a hb))
      (hstep _ a List.mem_cons_self _ hs ht) hrest

theorem foldlM_perm {step : σ → α → Option σ} {l l' : List α} (hperm : l.Perm l')
    (hcomm : ∀ a ∈ l, ∀ b ∈ l, ∀ s, (step s a).bind (step · b) = (step s b).bind (step · a)) (s : σ) :
    l.foldlM step s = l'.foldlM step s := by
  induction hperm generalizing s with
  | nil => rfl
  | cons a _ ih =>
    rw [List.foldlM_cons, List.foldlM_cons]
    congr 1
    funext t
    exact ih (fun b hb c hc ↦ hcomm b (List.mem_cons_of_mem a hb) c (List.mem_cons_of_mem a hc)) t
  | swap a b l =>
    have hswap := hcomm b List.mem_cons_self a (List.mem_cons_of_mem b List.mem_cons_self) s
    have h := congrArg (Option.bind · fun t ↦ l.foldlM step t) hswap
    rwa [Option.bind_assoc, Option.bind_assoc] at h
  | trans hperm _ ih ih' =>
    refine (ih hcomm s).trans (ih' (fun a ha b hb ↦ ?_) s)
    exact hcomm a (hperm.mem_iff.2 ha) b (hperm.mem_iff.2 hb)

theorem mapM_eq_some_iff {f : α → Option β} {l : List α} {l' : List β} :
    l.mapM f = some l' ↔ l.map f = l'.map some := by
  induction l generalizing l' with
  | nil => cases l' <;> simp
  | cons a l ih =>
    rw [List.mapM_cons, List.map_cons]
    constructor
    · intro h
      obtain ⟨b, hb, h⟩ := Option.bind_eq_some_iff.1 h
      obtain ⟨bs, hbs, h⟩ := Option.bind_eq_some_iff.1 h
      cases h
      rw [List.map_cons, hb, ih.1 hbs]
    · intro h
      cases l' with
      | nil => cases h
      | cons b bs =>
        obtain ⟨hb, hbs⟩ := List.cons.inj h
        rw [hb, ih.2 hbs]
        rfl

theorem forall₂_of_mapM {f : α → Option β} {R : α → β → Prop} {l : List α} {l' : List β}
    (h : l.mapM f = some l') (hread : ∀ a ∈ l, ∀ b, f a = some b → R a b) : List.Forall₂ R l l' := by
  have hmapped : List.Forall₂ (fun a b ↦ f a = some b) l l' := by
    rw [← List.forall₂_map_right_iff, ← List.forall₂_map_left_iff, List.forall₂_eq_eq_eq]
    exact mapM_eq_some_iff.1 h
  have hboth := (List.forall₂_and_left l l').2 ⟨hread, hmapped⟩
  exact hboth.imp fun a b hab ↦ hab.1 b hab.2

theorem isSome_mapM_iff {f : α → Option β} {l : List α} :
    (l.mapM f).isSome ↔ ∀ a ∈ l, (f a).isSome := by
  induction l with
  | nil => simp
  | cons a l ih =>
    rw [List.mapM_cons, List.forall_mem_cons, ← ih]
    cases f a <;> cases l.mapM f <;> simp

theorem mapM_ite {P : α → Prop} [DecidablePred P] (f : α → β) (l : List α) :
    (l.mapM fun a ↦ if P a then some (f a) else none) =
      if ∀ a ∈ l, P a then some (l.map f) else none := by
  induction l with
  | nil => rfl
  | cons a l ih =>
    rw [List.mapM_cons, ih]
    by_cases ha : P a
    · by_cases hl : ∀ b ∈ l, P b
      · rw [if_pos ha, if_pos hl, if_pos (List.forall_mem_cons.2 ⟨ha, hl⟩)]
        rfl
      · rw [if_pos ha, if_neg hl, if_neg fun h ↦ hl (List.forall_mem_cons.1 h).2]
        rfl
    · rw [if_neg ha, if_neg fun h ↦ ha (List.forall_mem_cons.1 h).1]
      rfl

theorem exists_first {α : Type} {D : α → Prop} {l : List α} (h : ∃ a ∈ l, D a) :
    ∃ before a after, l = before ++ a :: after ∧ (∀ b ∈ before, ¬ D b) ∧ D a := by
  classical
  have hfound : (l.find? (decide <| D ·)).isSome := List.find?_isSome.2 (by simpa using h)
  obtain ⟨a, ha⟩ := Option.isSome_iff_exists.1 hfound
  obtain ⟨hD, before, after, horder, hbefore⟩ := List.find?_eq_some_iff_append.1 ha
  exact ⟨before, a, after, horder, by simpa using hbefore, by simpa using hD⟩

theorem first_iff_least {α : Type} {R : α → α → Prop} (hasymm : ∀ a b, R a b → ¬ R b a) {l : List α}
    (hl : l.Pairwise R) {D F : α → Prop} :
    (∃ before a after, l = before ++ a :: after ∧ (∀ b ∈ before, ¬ D b) ∧ F a) ↔
      ∃ a ∈ l, F a ∧ ∀ b ∈ l, D b → ¬ R b a := by
  constructor
  · rintro ⟨before, a, after, rfl, hbefore, ha⟩
    have hafter := (List.pairwise_cons.1 (List.pairwise_append.1 hl).2.1).1
    refine ⟨a, List.mem_append_right _ List.mem_cons_self, ha, fun b hb hD ↦ ?_⟩
    rcases List.mem_append.1 hb with hb | hb
    · exact absurd hD (hbefore b hb)
    · rcases List.mem_cons.1 hb with rfl | hb
      · exact fun h ↦ hasymm _ _ h h
      · exact hasymm _ _ (hafter b hb)
  · rintro ⟨a, ha, hF, hleast⟩
    obtain ⟨before, after, rfl⟩ := List.append_of_mem ha
    refine ⟨before, a, after, rfl, fun b hb hD ↦ ?_, hF⟩
    have hlt := (List.pairwise_append.1 hl).2.2 b hb a List.mem_cons_self
    exact hleast b (List.mem_append_left _ hb) hD hlt

end CloutQuery
