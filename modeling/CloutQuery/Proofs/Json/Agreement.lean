import CloutQuery.Proofs.Json.Writing

namespace CloutQuery.Json

variable {α σ : Type}

/-- Reading the writing of a tree and reading its value come to the same, if the tree is not too deep
for a value and repeats no key. -/
def Decoder.Agrees (d : Decoder α) : Prop :=
  ∀ ⦃room : ℕ⦄ ⦃w : Tree⦄, w.Fits room → w.Distinct → ∀ rest,
    outcome (d.ofTokens room (w.tokens ++ rest)) = (d.ofValue w.value).map (·, rest)

def RecordField.Agrees (f : RecordField σ) : Prop :=
  ∀ ⦃room : ℕ⦄ ⦃w : Tree⦄, w.Fits room → w.Distinct → ∀ s rest,
    outcome (f.ofTokens s room (w.tokens ++ rest)) = (f.ofValue s w.value).map (·, rest)

/-- Either may be read before the other, and neither counts as set because the other is. -/
structure RecordField.Apart (f g : RecordField σ) : Prop where
  comm (s : σ) (v w : Value) :
    (f.ofValue s v).bind (g.ofValue · w) = (g.ofValue s w).bind (f.ofValue · v)
  isSet_right {s s' : σ} {v : Value} : f.ofValue s v = some s' → g.isSet s' = g.isSet s
  isSet_left {s s' : σ} {v : Value} : g.ofValue s v = some s' → f.isSet s' = f.isSet s

instance : Std.Symm (RecordField.Apart (σ := σ)) where
  symm _ _ h := ⟨fun s v w ↦ (h.comm s w v).symm, h.isSet_left, h.isSet_right⟩

namespace Decoder

theorem agrees_text : text.Agrees := by
  intro room w _ _ rest
  cases w <;> rw [Tree.tokens, Tree.value] <;> rfl

theorem agrees_field {name : String} {d : Decoder α} (hd : d.Agrees) (get : σ → Option α)
    (set : σ → α → σ) : (field name d get set).Agrees := by
  intro room w hfits hdistinct s rest
  refine (outcome_map _ (set s) fun _ ↦ rfl).trans ?_
  rw [hd hfits hdistinct rest]
  change _ = ((d.ofValue w.value).map (set s)).map (·, rest)
  cases d.ofValue w.value <;> rfl

theorem apart_field {β : Type} {name name' : String} {d : Decoder α} {d' : Decoder β}
    {get : σ → Option α} {get' : σ → Option β} {set : σ → α → σ} {set' : σ → β → σ}
    (hcomm : ∀ s x y, set' (set s x) y = set (set' s y) x) (hget' : ∀ s x, get' (set s x) = get' s)
    (hget : ∀ s y, get (set' s y) = get s) :
    (field name d get set).Apart (field name' d' get' set') where
  comm s v w := by
    change ((d.ofValue v).map (set s)).bind (fun t ↦ (d'.ofValue w).map (set' t)) =
      ((d'.ofValue w).map (set' s)).bind fun t ↦ (d.ofValue v).map (set t)
    cases d.ofValue v <;> cases d'.ofValue w <;> simp [hcomm]
  isSet_right h := by
    obtain ⟨x, -, rfl⟩ := Option.map_eq_some_iff.1 h
    exact congrArg Option.isSome (hget' _ x)
  isSet_left h := by
    obtain ⟨y, -, rfl⟩ := Option.map_eq_some_iff.1 h
    exact congrArg Option.isSome (hget _ y)

theorem agrees_list {d : Decoder α} (hd : d.Agrees) : (list d).Agrees := by
  intro room w hfits hdistinct rest
  cases w with
  | array items =>
    rw [Tree.Fits] at hfits
    rw [Tree.Distinct] at hdistinct
    obtain ⟨inner, rfl, hfits⟩ := hfits
    have hread (t : Tree) (ht : t ∈ items) (rest : List Token) :
        outcome (d.ofTokens inner (t.tokens ++ rest)) = (d.ofValue t.value).map (·, rest) :=
      hd (hfits t ht) (hdistinct t ht) rest
    rw [Tree.tokens, Tree.value, List.cons_append, outcome_list_array,
      Reader.outcome_items (f := d.ofValue ∘ Tree.value) (fun t _ ↦ t.tokens_ne_closeArray) hread,
      ← List.mapM_map]
    rfl
  | _ =>
    rw [Tree.tokens, Tree.value]
    rfl

theorem outcome_table_ofTokens {d : Decoder α} {f : Tree → Option α} {room : ℕ}
    {members : List (String × Tree)}
    (h : ∀ m ∈ members, ∀ rest,
      outcome (d.ofTokens room (m.2.tokens ++ rest)) = (f m.2).map (·, rest)) (rest : List Token) :
    outcome ((table d).ofTokens (room + 1) ((Tree.object members).tokens ++ rest)) =
      ((members.mapM fun m ↦ (f m.2).map (m.1, ·)).map Table.ofList).map (·, rest) := by
  rw [Tree.tokens, List.cons_append, outcome_table_object, Reader.outcome_table h]

theorem agrees_payload : payload.Agrees := by
  intro room w hfits _ rest
  cases w with
  | object members =>
    rw [Tree.Fits] at hfits
    obtain ⟨inner, rfl, hfits⟩ := hfits
    have hread (m : String × Tree) (hm : m ∈ members) (rest : List Token) :
        outcome (Reader.value inner (m.2.tokens ++ rest)) = (some m.2.value).map (·, rest) := by
      rw [Tree.outcome_value, if_pos (hfits m hm)]
      rfl
    have hentries : members.mapM (fun m ↦ (some m.2.value).map (m.1, ·)) =
        some (members.map fun m ↦ (m.1, m.2.value)) := List.mapM_pure
    have htable := outcome_table_ofTokens (d := ⟨Reader.value, some⟩) (f := some ∘ Tree.value) hread rest
    simp only [Function.comp_apply, hentries] at htable
    rw [Tree.value]
    exact htable
  | _ =>
    rw [Tree.tokens, Tree.value]
    rfl

theorem table_ofValue (d : Decoder α) {entries : List (String × Value)}
    (h : (entries.map Prod.fst).Nodup) : (table d).ofValue (.object (Table.ofList entries)) =
      (entries.mapM fun e ↦ (d.ofValue e.2).map (e.1, ·)).map Table.ofList := by
  have hperm := Table.entries_ofList_perm h
  have hkeys := (hperm.map Prod.fst).nodup_iff.2 h
  refine (Reader.foldlM_insert d.ofValue _ ∅).symm.trans
    ((foldlM_perm hperm (fun e he f hf t ↦ ?_) ∅).trans (Reader.foldlM_insert d.ofValue _ ∅))
  by_cases hkey : e.1 = f.1
  · rw [Table.entry_eq_of_key_eq hkeys he hf hkey]
  · cases d.ofValue e.2 <;> cases d.ofValue f.2 <;> simp [Table.insert_comm t hkey]

theorem agrees_table {d : Decoder α} (hd : d.Agrees) : (table d).Agrees := by
  intro room w hfits hdistinct rest
  cases w with
  | object members =>
    rw [Tree.Fits] at hfits
    rw [Tree.Distinct] at hdistinct
    obtain ⟨inner, rfl, hfits⟩ := hfits
    have hread (m : String × Tree) (hm : m ∈ members) (rest : List Token) :
        outcome (d.ofTokens inner (m.2.tokens ++ rest)) = (d.ofValue m.2.value).map (·, rest) :=
      hd (hfits m hm) (hdistinct.2 m hm) rest
    rw [outcome_table_ofTokens (f := d.ofValue ∘ Tree.value) hread, Tree.value, table_ofValue,
      List.mapM_map]
    · rfl
    · rw [List.map_map]
      exact hdistinct.1
  | _ =>
    rw [Tree.tokens, Tree.value]
    rfl

section Record

variable {fields : List (RecordField σ)}

theorem record_ofValue_object (fields : List (RecordField σ)) (start : σ) (finish : σ → Option α)
    (t : Table Value) : (record fields start finish).ofValue (.object t) =
      (t.entries.foldlM (memberOfValue fields) start).bind finish := rfl

theorem find?_eq_some {k : String} {f : RecordField σ} (h : fields.find? (·.name = k) = some f) :
    f ∈ fields ∧ f.name = k :=
  ⟨List.mem_of_find?_eq_some h, by simpa using List.find?_some h⟩

section Apart

variable (hapart : fields.Pairwise RecordField.Apart)
include hapart

theorem memberOfValue_isSet {f : RecordField σ} (hf : f ∈ fields) {s s' : σ} {e : String × Value}
    (hne : e.1 ≠ f.name) (h : memberOfValue fields s e = some s') : f.isSet s' = f.isSet s := by
  unfold memberOfValue at h
  split at h
  · cases h
    rfl
  · rename_i g hg
    obtain ⟨hmem, hname⟩ := find?_eq_some hg
    have hgf : g ≠ f := by
      rintro rfl
      exact hne hname.symm
    exact (hapart.forall hmem hf hgf).isSet_right h

theorem memberOfValue_comm {e e' : String × Value} (hne : e.1 ≠ e'.1) (s : σ) :
    (memberOfValue fields s e).bind (memberOfValue fields · e') =
      (memberOfValue fields s e').bind (memberOfValue fields · e) := by
  unfold memberOfValue
  cases h : fields.find? (·.name = e.1) with
  | none => cases fields.find? (·.name = e'.1) <;> simp
  | some f =>
    cases h' : fields.find? (·.name = e'.1) with
    | none => simp
    | some f' =>
      obtain ⟨hf, hname⟩ := find?_eq_some h
      obtain ⟨hf', hname'⟩ := find?_eq_some h'
      have hff' : f ≠ f' := by
        rintro rfl
        exact hne (hname.symm.trans hname')
      exact (hapart.forall hf hf' hff').comm s e.2 e'.2

theorem foldlM_memberOfValue_perm {l l' : List (String × Value)} (hperm : l.Perm l')
    (hkeys : (l.map Prod.fst).Nodup) (s : σ) :
    l.foldlM (memberOfValue fields) s = l'.foldlM (memberOfValue fields) s := by
  refine foldlM_perm hperm (fun e he e' he' s ↦ ?_) s
  by_cases hkey : e.1 = e'.1
  · rw [Table.entry_eq_of_key_eq hkeys he he' hkey]
  · exact memberOfValue_comm hapart hkey s

end Apart

/-- As a member of a value is read, but for a field that is set already. -/
def memberOnce (fields : List (RecordField σ)) (s : σ) (e : String × Value) : Option σ :=
  match fields.find? (·.name = e.1) with
  | none => some s
  | some f => if f.isSet s then none else f.ofValue s e.2

theorem foldlM_memberOnce (hapart : fields.Pairwise RecordField.Apart) {l : List (String × Value)}
    (hkeys : (l.map Prod.fst).Nodup) {s : σ}
    (hunset : ∀ f ∈ fields, f.name ∈ l.map Prod.fst → f.isSet s = false) :
    l.foldlM (memberOnce fields) s = l.foldlM (memberOfValue fields) s := by
  induction l generalizing s with
  | nil => rfl
  | cons e l ih =>
    rw [List.map_cons, List.nodup_cons] at hkeys
    have hfirst : memberOnce fields s e = memberOfValue fields s e := by
      unfold memberOnce memberOfValue
      cases h : fields.find? (·.name = e.1) with
      | none => rfl
      | some f =>
        obtain ⟨hf, hname⟩ := find?_eq_some h
        have hs := hunset f hf (by rw [hname]; exact List.mem_cons_self)
        simp [hs]
    rw [List.foldlM_cons, List.foldlM_cons, hfirst]
    refine Option.bind_congr fun s' hs' ↦ ih hkeys.2 fun f hf hmem ↦ ?_
    have hne : e.1 ≠ f.name := fun heq ↦ hkeys.1 (heq ▸ hmem)
    rw [memberOfValue_isSet hapart hf hne hs']
    exact hunset f hf (List.mem_cons_of_mem e.1 hmem)

variable (hagrees : ∀ f ∈ fields, f.Agrees) {room : ℕ}
include hagrees

theorem outcome_member {w : Tree} (hfits : w.Fits room) (hdistinct : w.Distinct) (s : σ)
    (key : String) (rest : List Token) :
    outcome ((member fields room s ⟨.ok key, .ok ()⟩).bind fun read ↦ read (w.tokens ++ rest)) =
      (memberOnce fields s (key, w.value)).map (·, rest) := by
  unfold member memberOnce
  dsimp only [Except.bind]
  cases h : fields.find? (·.name = key) with
  | none =>
    refine (outcome_map _ (fun _ ↦ s) fun _ ↦ rfl).trans ?_
    rw [Tree.outcome_skip]
    rfl
  | some f =>
    dsimp only
    cases f.isSet s with
    | true => rfl
    | false => exact hagrees f (find?_eq_some h).1 hfits hdistinct s rest

theorem outcome_morePositions_separated {t : Tree} {items : List Tree}
    (hfits : ∀ u ∈ t :: items, u.Fits room) (hdistinct : ∀ u ∈ t :: items, u.Distinct) (s : σ)
    (rest : List Token) :
    outcome (morePositions fields room s
      (separated .closeArray ((t :: items).map Tree.tokens) ++ rest)) =
      if (t :: items).length ≤ fields.length then
        ((fields.zip ((t :: items).map Tree.value)).foldlM positionOfValue s).map (·, rest)
      else none := by
  induction fields generalizing t items s with
  | nil =>
    rw [if_neg (by simp)]
    rfl
  | cons f later ih =>
    have hread := hagrees f List.mem_cons_self (hfits t List.mem_cons_self)
      (hdistinct t List.mem_cons_self) s
    rw [List.map_cons (f := Tree.value), List.zip_cons_cons, List.foldlM_cons]
    cases items with
    | nil =>
      rw [List.map_singleton, separated, List.append_assoc, outcome_morePositions, hread,
        if_pos (by simp), positionOfValue]
      cases f.ofValue s t.value <;> simp
    | cons u items =>
      have hlater := ih (fun g hg ↦ hagrees g (List.mem_cons_of_mem f hg))
        (fun v hv ↦ hfits v (List.mem_cons_of_mem t hv))
        fun v hv ↦ hdistinct v (List.mem_cons_of_mem t hv)
      rw [List.map_cons, separated_cons (by simp), List.append_assoc, List.cons_append,
        outcome_morePositions, hread, positionOfValue]
      cases f.ofValue s t.value with
      | none => simp
      | some s' =>
        refine (hlater s').trans ?_
        simp only [List.length_cons, Nat.add_le_add_iff_right]
        rfl

theorem outcome_positions {items : List Tree} (hfits : ∀ u ∈ items, u.Fits room)
    (hdistinct : ∀ u ∈ items, u.Distinct) (s : σ) (rest : List Token) :
    outcome (positions fields room s (separated .closeArray (items.map Tree.tokens) ++ rest)) =
      if items.length ≤ fields.length then
        ((fields.zip (items.map Tree.value)).foldlM positionOfValue s).map (·, rest)
      else none := by
  cases items with
  | nil =>
    rw [if_pos (by simp), List.map_nil, List.map_nil, List.zip_nil_right]
    rfl
  | cons t items =>
    obtain ⟨first, tokens_rest, hfirst, hne⟩ := t.tokens_ne_closeArray
    obtain ⟨later, hlater⟩ := separated_of_cons .closeArray first tokens_rest (items.map Tree.tokens)
    rw [← hfirst, ← List.map_cons] at hlater
    rw [← outcome_morePositions_separated hagrees hfits hdistinct, hlater, List.cons_append, positions]
    intro _ heq
    exact hne (List.cons.inj heq).1

theorem agrees_record (hapart : fields.Pairwise RecordField.Apart) {start : σ}
    (hstart : ∀ f ∈ fields, f.isSet start = false) (finish : σ → Option α) :
    (record fields start finish).Agrees := by
  intro room w hfits hdistinct rest
  cases w with
  | object members =>
    rw [Tree.Fits] at hfits
    rw [Tree.Distinct] at hdistinct
    obtain ⟨inner, rfl, hfits⟩ := hfits
    have hkeys : ((members.map fun m ↦ (m.1, m.2.value)).map Prod.fst).Nodup := by
      rw [List.map_map]
      exact hdistinct.1
    have hread (s : σ) (m : String × Tree) (hm : m ∈ members) (rest : List Token) :=
      outcome_member hagrees (hfits m hm) (hdistinct.2 m hm) s m.1 rest
    -- the value has the members in key order, the tokens as they are written
    have hvalue : (Table.ofList (members.map fun m ↦ (m.1, m.2.value))).entries.foldlM
        (memberOfValue fields) start =
        members.foldlM (fun s m ↦ memberOnce fields s (m.1, m.2.value)) start := by
      rw [← foldlM_memberOfValue_perm hapart (Table.entries_ofList_perm hkeys).symm hkeys,
        ← foldlM_memberOnce hapart hkeys fun f hf _ ↦ hstart f hf, List.foldlM_map]
    rw [Tree.tokens, Tree.value, List.cons_append, outcome_record_object,
      Reader.outcome_members hread, record_ofValue_object, hvalue, Option.bind_map, Option.map_bind]
    rfl
  | array items =>
    rw [Tree.Fits] at hfits
    rw [Tree.Distinct] at hdistinct
    obtain ⟨inner, rfl, hfits⟩ := hfits
    rw [Tree.tokens, Tree.value, List.cons_append, outcome_record_array,
      outcome_positions hagrees hfits hdistinct]
    simp only [record, List.length_map]
    split_ifs
    · rw [Option.bind_map, Option.map_bind]
      rfl
    · rfl
  | _ =>
    rw [Tree.tokens, Tree.value]
    rfl

end Record

end Decoder

end CloutQuery.Json
