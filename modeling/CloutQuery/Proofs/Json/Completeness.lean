import CloutQuery.Proofs.Json.Outcome
import CloutQuery.Proofs.Json.Tree

namespace CloutQuery.Json

variable {α σ : Type}

def Lexeme.Sound (l : Lexeme α) : Prop := ∀ x, l.value = .ok x → l.skipped = .ok ()

def Token.Sound : Token → Prop
  | .number l => l.Sound
  | .string l => l.Sound
  | _ => True

theorem Token.Sound.eq_ofText {l : Lexeme String} {s : String} (h : (Token.string l).Sound)
    (hs : l.value = .ok s) : Token.string l = .ofText s := by
  obtain ⟨value, skipped⟩ := l
  obtain rfl : value = .ok s := hs
  obtain rfl : skipped = .ok () := h s rfl
  rfl

def Reader.ReadsTrees (one : Reader Value) : Prop :=
  ∀ ⦃ts v r⦄, (∀ t ∈ ts, t.Sound) → outcome (one ts) = some (v, r) →
    ∃ w : Tree, w.value = v ∧ ts = w.tokens ++ r

namespace Tree

theorem exists_of_moreItems {one : Reader Value} (hone : one.ReadsTrees)
    {ts : List Token} {vs : List Value} {r : List Token} (hts : ∀ t ∈ ts, t.Sound)
    (h : outcome (Reader.moreItems one ts) = some (vs, r)) : ∃ w ws, (w :: ws).map value = vs ∧
      ts = separated .closeArray ((w :: ws).map tokens) ++ r := by
  induction hn : ts.length using Nat.strong_induction_on generalizing ts vs with
  | _ n ih =>
    rw [Reader.outcome_moreItems] at h
    obtain ⟨⟨v, rest⟩, hread, hnext⟩ := Option.bind_eq_some_iff.1 h
    obtain ⟨w, rfl, rfl⟩ := hone hts hread
    split at hnext
    · rename_i heq
      cases heq
      obtain ⟨⟨vs', r'⟩, hlater, heq⟩ := Option.map_eq_some_iff.1 hnext
      cases heq
      rw [List.forall_mem_append, List.forall_mem_cons] at hts
      obtain ⟨w', ws, rfl, hws⟩ := ih _ (by simp [← hn]; omega) hts.2.2 hlater rfl
      refine ⟨w, w' :: ws, rfl, ?_⟩
      rw [List.map_cons, separated_cons (by simp), List.append_assoc, List.cons_append, ← hws]
    · rename_i heq
      cases heq
      cases hnext
      refine ⟨w, [], rfl, ?_⟩
      rw [List.map_singleton, separated, List.append_assoc]
      rfl
    · cases hnext

theorem exists_of_moreMembers {member : σ → Lexeme String → Except Fault (Reader σ)}
    (step : σ → String × Tree → σ)
    (hmember : ∀ {s key ts s' r}, (∀ t ∈ ts, t.Sound) →
      outcome ((member s key).bind fun read ↦ read ts) = some (s', r) →
      ∃ k w, key.value = .ok k ∧ s' = step s (k, w) ∧ ts = w.tokens ++ r)
    {s s' : σ} {ts r : List Token} (hts : ∀ t ∈ ts, t.Sound)
    (h : outcome (Reader.moreMembers member s ts) = some (s', r)) : ∃ m ms,
      s' = (m :: ms).foldl step s ∧
      ts = separated .closeObject ((m :: ms).map fun m ↦ keyed m.1 m.2.tokens) ++ r := by
  induction hn : ts.length using Nat.strong_induction_on generalizing ts s with
  | _ n ih =>
    obtain ⟨key, ts, rfl⟩ := Reader.exists_key_of_moreMembers h
    rw [Reader.outcome_moreMembers] at h
    obtain ⟨⟨s₁, rest⟩, hread, hnext⟩ := Option.bind_eq_some_iff.1 h
    rw [List.forall_mem_cons, List.forall_mem_cons] at hts
    obtain ⟨k, w, hk, rfl, rfl⟩ := hmember hts.2.2 hread
    rw [hts.1.eq_ofText hk]
    split at hnext
    · rename_i heq
      cases heq
      rw [List.forall_mem_append, List.forall_mem_cons] at hts
      obtain ⟨m, ms, rfl, hms⟩ := ih _ (by simp [← hn]; omega) hts.2.2.2.2 hnext rfl
      refine ⟨(k, w), m :: ms, rfl, ?_⟩
      rw [List.map_cons, separated_cons (by simp), List.append_assoc, List.cons_append, ← hms]
      rfl
    · rename_i heq
      cases heq
      cases hnext
      refine ⟨(k, w), [], rfl, ?_⟩
      rw [List.map_singleton, separated, List.append_assoc]
      rfl
    · cases hnext

theorem exists_of_items {one : Reader Value} (hone : one.ReadsTrees)
    {ts : List Token} {vs : List Value} {r : List Token} (hts : ∀ t ∈ ts, t.Sound)
    (h : outcome (Reader.items one ts) = some (vs, r)) :
    ∃ ws : List Tree, ws.map value = vs ∧ ts = separated .closeArray (ws.map tokens) ++ r := by
  unfold Reader.items at h
  split at h
  · cases h
    exact ⟨[], rfl, rfl⟩
  · obtain ⟨w, ws, hvs, hts⟩ := exists_of_moreItems hone hts h
    exact ⟨w :: ws, hvs, hts⟩

theorem exists_of_table {one : Reader Value} (hone : one.ReadsTrees)
    {ts : List Token} {t : Table Value} {r : List Token} (hts : ∀ t ∈ ts, t.Sound)
    (h : outcome (Reader.table one ts) = some (t, r)) : ∃ ms : List (String × Tree),
      t = Table.ofList (ms.map fun m ↦ (m.1, m.2.value)) ∧
      ts = separated .closeObject (ms.map fun m ↦ keyed m.1 m.2.tokens) ++ r := by
  unfold Reader.table Reader.members at h
  split at h
  · cases h
    exact ⟨[], rfl, rfl⟩
  · have hmember {s : Table Value} {key : Lexeme String} {ts : List Token} {s' : Table Value}
        {r : List Token} (hts : ∀ t ∈ ts, t.Sound)
        (hread : outcome ((key.value.map fun k ts ↦ (one ts).map fun (x, r) ↦ (s.insert k x, r)).bind
          fun read ↦ read ts) = some (s', r)) :
        ∃ k, ∃ w : Tree, key.value = .ok k ∧ s' = s.insert k w.value ∧ ts = w.tokens ++ r := by
      cases hkey : key.value with
      | error =>
        rw [hkey] at hread
        cases hread
      | ok k =>
        rw [hkey] at hread
        have hmap := outcome_map (one ts) (s.insert k) (g := fun (x, r) ↦ (s.insert k x, r)) fun _ ↦ rfl
        obtain ⟨⟨v, r'⟩, hv, heq⟩ := Option.map_eq_some_iff.1 (hmap.symm.trans hread)
        cases heq
        obtain ⟨w, rfl, rfl⟩ := hone hts hv
        exact ⟨k, w, rfl, rfl, rfl⟩
    obtain ⟨m, ms, rfl, hts⟩ := exists_of_moreMembers (fun s m ↦ s.insert m.1 m.2.value) hmember hts h
    refine ⟨m :: ms, ?_, hts⟩
    rw [Table.ofList, List.foldl_map]
    rfl

theorem readsTrees_value (room : ℕ) : (Reader.value room).ReadsTrees := by
  intro ts v r hts h
  -- on the room, since what stands inside brackets is read with room for one less
  induction room using Nat.strong_induction_on generalizing ts r v with
  | _ room ih =>
    rcases ts with _ | ⟨t, ts⟩
    · cases room <;> cases h
    rw [List.forall_mem_cons] at hts
    cases t with
    | openArray =>
      cases room with
      | zero => cases h
      | succ room =>
        rw [Reader.outcome_value_array] at h
        obtain ⟨⟨vs, r'⟩, hread, heq⟩ := Option.map_eq_some_iff.1 h
        cases heq
        obtain ⟨ws, rfl, rfl⟩ := exists_of_items (ih room (Nat.lt_succ_self _)) hts.2 hread
        exact ⟨.array ws, by rw [value], by rw [tokens]; rfl⟩
    | openObject =>
      cases room with
      | zero => cases h
      | succ room =>
        rw [Reader.outcome_value_object] at h
        obtain ⟨⟨t, r'⟩, hread, heq⟩ := Option.map_eq_some_iff.1 h
        cases heq
        obtain ⟨ms, rfl, rfl⟩ := exists_of_table (ih room (Nat.lt_succ_self _)) hts.2 hread
        exact ⟨.object ms, by rw [value], by rw [tokens]; rfl⟩
    | null =>
      cases room <;> cases h <;> exact ⟨.null, by rw [value], by rw [tokens]; rfl⟩
    | boolean flag =>
      cases room <;> cases h <;> exact ⟨.boolean flag, by rw [value], by rw [tokens]; rfl⟩
    | number l =>
      obtain ⟨_ | n, skipped⟩ := l
      · cases room <;> cases h
      · obtain rfl : skipped = .ok () := hts.1 n rfl
        cases room <;> cases h <;> exact ⟨.number n, by rw [value], by rw [tokens]; rfl⟩
    | string l =>
      obtain ⟨_ | s, skipped⟩ := l
      · cases room <;> cases h
      · obtain rfl : skipped = .ok () := hts.1 s rfl
        cases room <;> cases h <;> exact ⟨.text s, by rw [value], by rw [tokens]; rfl⟩
    | _ => cases room <;> cases h

end Tree

end CloutQuery.Json
