import CloutQuery.Proofs.Except
import CloutQuery.Proofs.Json.Outcome
import CloutQuery.Proofs.Json.Tree

namespace CloutQuery.Json

variable {α β σ : Type}

namespace Reader

theorem outcome_moreItems_separated {one : Reader α} {part : β → List Token} {f : β → Option α} {b : β}
    {bs : List β}
    (h : ∀ c ∈ b :: bs, ∀ rest, outcome (one (part c ++ rest)) = (f c).map (·, rest))
    (rest : List Token) :
    outcome (moreItems one (separated .closeArray ((b :: bs).map part) ++ rest)) =
      ((b :: bs).mapM f).map (·, rest) := by
  induction bs generalizing b with
  | nil =>
    rw [List.map_singleton, separated, List.append_assoc, outcome_moreItems, h b List.mem_cons_self,
      List.mapM_cons]
    cases f b <;> rfl
  | cons c bs ih =>
    have hlater := ih fun d hd ↦ h d (List.mem_cons_of_mem b hd)
    rw [List.map_cons, separated_cons (by simp), List.append_assoc, List.cons_append,
      outcome_moreItems, h b List.mem_cons_self, List.mapM_cons]
    cases f b with
    | none => rfl
    | some x =>
      dsimp only [Option.map_some, Option.bind_some, bind]
      rw [hlater]
      cases (c :: bs).mapM f <;> rfl

theorem outcome_items {one : Reader α} {part : β → List Token} {f : β → Option α} {bs : List β}
    (hpart : ∀ b ∈ bs, ∃ t r, part b = t :: r ∧ t ≠ .closeArray)
    (h : ∀ b ∈ bs, ∀ rest, outcome (one (part b ++ rest)) = (f b).map (·, rest)) (rest : List Token) :
    outcome (items one (separated .closeArray (bs.map part) ++ rest)) = (bs.mapM f).map (·, rest) := by
  cases bs with
  | nil => rfl
  | cons b bs =>
    obtain ⟨first, part_rest, hfirst, hne⟩ := hpart b List.mem_cons_self
    obtain ⟨later, hlater⟩ := separated_of_cons .closeArray first part_rest (bs.map part)
    rw [← hfirst, ← List.map_cons] at hlater
    rw [← outcome_moreItems_separated h, hlater, List.cons_append, items]
    intro _ heq
    exact hne (List.cons.inj heq).1

theorem outcome_moreMembers_separated {member : σ → Lexeme String → Except Fault (Reader σ)}
    {part : β → List Token} {step : σ → String × β → Option σ} {m : String × β}
    {ms : List (String × β)}
    (h : ∀ s, ∀ n ∈ m :: ms, ∀ rest,
      outcome ((member s ⟨.ok n.1, .ok ()⟩).bind fun read ↦ read (part n.2 ++ rest)) =
        (step s n).map (·, rest)) (s : σ) (rest : List Token) :
    outcome (moreMembers member s
      (separated .closeObject ((m :: ms).map fun n ↦ keyed n.1 (part n.2)) ++ rest)) =
      ((m :: ms).foldlM step s).map (·, rest) := by
  induction ms generalizing m s with
  | nil =>
    rw [List.map_singleton, separated, keyed, Token.ofText, List.append_assoc, List.cons_append,
      List.cons_append, outcome_moreMembers, h s m List.mem_cons_self, List.foldlM_cons]
    cases step s m <;> rfl
  | cons n ms ih =>
    have hlater := ih fun s o ho ↦ h s o (List.mem_cons_of_mem m ho)
    rw [List.map_cons, separated_cons (by simp), List.append_assoc, List.cons_append, keyed,
      Token.ofText, List.cons_append, List.cons_append, outcome_moreMembers,
      h s m List.mem_cons_self, List.foldlM_cons]
    cases step s m with
    | none => rfl
    | some s' => exact hlater s'

theorem outcome_members {member : σ → Lexeme String → Except Fault (Reader σ)}
    {part : β → List Token} {step : σ → String × β → Option σ} {ms : List (String × β)}
    (h : ∀ s, ∀ m ∈ ms, ∀ rest,
      outcome ((member s ⟨.ok m.1, .ok ()⟩).bind fun read ↦ read (part m.2 ++ rest)) =
        (step s m).map (·, rest)) (s : σ) (rest : List Token) :
    outcome (members member s
      (separated .closeObject (ms.map fun m ↦ keyed m.1 (part m.2)) ++ rest)) =
      (ms.foldlM step s).map (·, rest) := by
  cases ms with
  | nil => rfl
  | cons m ms =>
    rw [← outcome_moreMembers_separated h]
    cases ms <;> rfl

theorem foldlM_insert (f : β → Option α) (ms : List (String × β)) (t : Table α) :
    ms.foldlM (fun t m ↦ (f m.2).map (t.insert m.1)) t =
      (ms.mapM fun m ↦ (f m.2).map (m.1, ·)).map fun entries ↦
        entries.foldl (fun t e ↦ t.insert e.1 e.2) t := by
  induction ms generalizing t with
  | nil => rfl
  | cons m ms ih =>
    rw [List.foldlM_cons, List.mapM_cons]
    cases f m.2 with
    | none => rfl
    | some x =>
      refine (ih (t.insert m.1 x)).trans ?_
      dsimp only [Option.map_some, bind, Option.bind_some]
      cases ms.mapM fun m ↦ (f m.2).map (m.1, ·) <;> rfl

theorem outcome_table {one : Reader α} {part : β → List Token} {f : β → Option α}
    {ms : List (String × β)}
    (h : ∀ m ∈ ms, ∀ rest, outcome (one (part m.2 ++ rest)) = (f m.2).map (·, rest))
    (rest : List Token) :
    outcome (table one (separated .closeObject (ms.map fun m ↦ keyed m.1 (part m.2)) ++ rest)) =
      ((ms.mapM fun m ↦ (f m.2).map (m.1, ·)).map Table.ofList).map (·, rest) := by
  have hstep (t : Table α) (m : String × β) (hm : m ∈ ms) (rest : List Token) :
      outcome ((one (part m.2 ++ rest)).map fun (x, r) ↦ (t.insert m.1 x, r)) =
        ((f m.2).map (t.insert m.1)).map (·, rest) := by
    refine (outcome_map _ (t.insert m.1) fun _ ↦ rfl).trans ?_
    rw [h m hm rest]
    cases f m.2 <;> rfl
  exact (outcome_members hstep ∅ rest).trans (congrArg (Option.map (·, rest)) (foldlM_insert f ms ∅))

end Reader

namespace Tree

open Classical in
/-- The tokens of a tree are read as its value just if there is room for its brackets. -/
theorem outcome_value (t : Tree) (room : ℕ) (rest : List Token) :
    outcome (Reader.value room (t.tokens ++ rest)) =
      if t.Fits room then some (t.value, rest) else none := by
  induction t generalizing room rest with
  | null | boolean | number | text =>
    rw [tokens, value, Fits, if_pos trivial]
    cases room <;> rfl
  | array items ih =>
    rw [tokens, value, Fits, List.cons_append]
    cases room with
    | zero => simp [Reader.value]
    | succ room =>
      have hread (t : Tree) (ht : t ∈ items) (rest : List Token) :
          outcome (Reader.value room (t.tokens ++ rest)) =
            (if t.Fits room then some t.value else none).map (·, rest) := by
        rw [ih t ht]
        split_ifs <;> rfl
      rw [Reader.outcome_value_array, Reader.outcome_items (fun t _ ↦ t.tokens_ne_closeArray) hread,
        mapM_ite]
      by_cases hfits : ∀ t ∈ items, t.Fits room
      · rw [if_pos hfits, if_pos ⟨room, rfl, hfits⟩]
        rfl
      · rw [if_neg hfits, if_neg (by simpa using hfits)]
        rfl
  | object members ih =>
    rw [tokens, value, Fits, List.cons_append]
    cases room with
    | zero => simp [Reader.value]
    | succ room =>
      have hread (m : String × Tree) (hm : m ∈ members) (rest : List Token) :
          outcome (Reader.value room (m.2.tokens ++ rest)) =
            (if m.2.Fits room then some m.2.value else none).map (·, rest) := by
        rw [ih m hm]
        split_ifs <;> rfl
      have hentry (m : String × Tree) : (if m.2.Fits room then some m.2.value else none).map (m.1, ·) =
          if m.2.Fits room then some (m.1, m.2.value) else none := by
        split_ifs <;> rfl
      rw [Reader.outcome_value_object,
        Reader.outcome_table (f := fun t ↦ if t.Fits room then some t.value else none) hread,
        funext hentry, mapM_ite]
      by_cases hfits : ∀ m ∈ members, m.2.Fits room
      · rw [if_pos hfits, if_pos ⟨room, rfl, hfits⟩]
        rfl
      · rw [if_neg hfits, if_neg (by simpa using hfits)]
        rfl

theorem outcome_skipWithin {t : Tree} {room : ℕ} (h : t.Fits room) (rest : List Token) :
    outcome (Reader.skipWithin room (t.tokens ++ rest)) = some ((), rest) := by
  induction t generalizing room rest with
  | null | boolean | number | text =>
    rw [tokens]
    cases room <;> rfl
  | array items ih =>
    rw [Fits] at h
    obtain ⟨room, rfl, hitems⟩ := h
    have hread (t : Tree) (ht : t ∈ items) (rest : List Token) :
        outcome (Reader.skipWithin room (t.tokens ++ rest)) = (some ()).map (·, rest) :=
      ih t ht (hitems t ht) rest
    rw [tokens, List.cons_append, Reader.outcome_skipWithin_array,
      Reader.outcome_items (fun t _ ↦ t.tokens_ne_closeArray) hread,
      show items.mapM (fun _ ↦ some ()) = _ from List.mapM_pure]
    rfl
  | object members ih =>
    rw [Fits] at h
    obtain ⟨room, rfl, hmembers⟩ := h
    have hread (_ : Unit) (m : String × Tree) (hm : m ∈ members) (rest : List Token) :
        outcome (Reader.skipWithin room (m.2.tokens ++ rest)) = (some ()).map (·, rest) :=
      ih m hm (hmembers m hm) rest
    have hpassed : outcome (Reader.members
        (fun _ key ↦ key.skipped.map fun _ ↦ Reader.skipWithin room) ()
        (separated .closeObject (members.map fun m ↦ keyed m.1 m.2.tokens) ++ rest)) =
        (members.foldlM (fun _ _ ↦ some ()) ()).map (·, rest) :=
      Reader.outcome_members hread () rest
    rw [tokens, List.cons_append, Reader.outcome_skipWithin_object, hpassed,
      show members.foldlM (fun _ _ ↦ some ()) () = _ from List.foldlM_pure]
    rfl

/-- What is to be passed over never lacks room. -/
theorem outcome_skip (t : Tree) (rest : List Token) :
    outcome (Reader.skip (t.tokens ++ rest)) = some ((), rest) := by
  refine outcome_skipWithin (t.fits_length.mono ?_) rest
  rw [List.length_append]
  exact Nat.le_add_right _ _

end Tree

end CloutQuery.Json
