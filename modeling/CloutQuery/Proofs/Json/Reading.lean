import CloutQuery.Json.Decoder
import CloutQuery.Proofs.Except
import CloutQuery.Proofs.Table

namespace CloutQuery.Json

variable {α σ : Type} {P : σ → Prop}

namespace Reader

variable {member : σ → Lexeme String → Except Fault (Reader σ)} {s s' : σ} {ts : List Token}
  {r : Rest ts}

theorem moreMembers_keeps
    (hstep : ∀ s key read ts s' r, P s → member s key = .ok read → read ts = .ok (s', r) → P s')
    (hs : P s) (h : moreMembers member s ts = .ok (s', r)) : P s' := by
  fun_induction moreMembers member s ts
  case case4 =>
    cases h
    rename_i hm _ _ _ hread _ ih hrest
    exact ih (hstep _ _ _ _ _ _ hs hm hread) hrest
  case case5 =>
    cases h
    rename_i hm _ _ hread
    exact hstep _ _ _ _ _ _ hs hm hread
  all_goals cases h

theorem members_keeps
    (hstep : ∀ s key read ts s' r, P s → member s key = .ok read → read ts = .ok (s', r) → P s')
    (hs : P s) (h : members member s ts = .ok (s', r)) : P s' := by
  unfold members at h
  split at h
  · cases h
    exact hs
  · exact moreMembers_keeps hstep hs h

theorem table_sorted {one : Reader α} {t : Table α} (h : Reader.table one ts = .ok (t, r)) :
    t.Sorted := by
  refine members_keeps (P := Table.Sorted) (fun t key read ts t' r ht hmember hread ↦ ?_)
    Table.sorted_empty h
  obtain ⟨k, -, rfl⟩ := map_eq_ok_iff.1 hmember
  obtain ⟨⟨x, r'⟩, -, heq⟩ := map_eq_ok_iff.1 hread
  cases heq
  exact Table.sorted_insert ht k x

end Reader

/-- One of the things that a decoder makes of texts and values. -/
def Decoder.Yields (d : Decoder α) (x : α) : Prop :=
  (∃ room ts r, d.ofTokens room ts = .ok (x, r)) ∨ ∃ v, d.ofValue v = some x

structure RecordField.Keeps (f : RecordField σ) (P : σ → Prop) : Prop where
  ofTokens {s s' : σ} {room : ℕ} {ts : List Token} {r : Rest ts} :
    P s → f.ofTokens s room ts = .ok (s', r) → P s'
  ofValue {s s' : σ} {v : Value} : P s → f.ofValue s v = some s' → P s'

namespace Decoder

theorem yields_of_parse {d : Decoder α} {text : String} {x : α} (h : d.parse text = .ok x) :
    d.Yields x := by
  unfold parse Reader.run at h
  split at h
  · cases h
  · rename_i y _ hread
    cases h
    exact .inl ⟨_, _, _, hread⟩
  · cases h

theorem within_eq_ok {room : ℕ} {opening : Token} {rest : List Token} {read : ℕ → Reader α} {x : α}
    {r : Rest (opening :: rest)} (h : within room opening rest read = .ok (x, r)) :
    ∃ room r', read room rest = .ok (x, r') := by
  unfold within at h
  split at h
  · cases h
  · obtain ⟨⟨y, r'⟩, hread, heq⟩ := map_eq_ok_iff.1 h
    cases heq
    exact ⟨_, r', hread⟩

theorem yields_table_sorted {d : Decoder α} {t : Table α} (h : (table d).Yields t) : t.Sorted := by
  rcases h with ⟨room, ts, r, h⟩ | ⟨v, h⟩
  · unfold table at h
    dsimp only at h
    split at h
    · obtain ⟨_, _, hread⟩ := within_eq_ok h
      exact Reader.table_sorted hread
    · cases h
  · unfold table at h
    dsimp only at h
    split at h
    · obtain ⟨entries, -, rfl⟩ := Option.map_eq_some_iff.1 h
      exact Table.sorted_ofList entries
    · cases h

theorem field_keeps {name : String} {d : Decoder α} {get : σ → Option α} {set : σ → α → σ}
    (h : ∀ s x, P s → d.Yields x → P (set s x)) : (field name d get set).Keeps P where
  ofTokens hs hread := by
    obtain ⟨⟨x, r'⟩, hx, heq⟩ := map_eq_ok_iff.1 hread
    cases heq
    exact h _ x hs (.inl ⟨_, _, _, hx⟩)
  ofValue hs hread := by
    obtain ⟨x, hx, rfl⟩ := Option.map_eq_some_iff.1 hread
    exact h _ x hs (.inr ⟨_, hx⟩)

theorem finished_eq_ok {finish : σ → Option α} {ts : List Token} {p : σ × Rest ts} {x : α}
    {r : Rest ts} (h : finished finish p = .ok (x, r)) : finish p.1 = some x := by
  unfold finished at h
  split at h
  · rename_i hfinish
    cases h
    exact hfinish
  · cases h

section Record

variable {fields : List (RecordField σ)} (hfields : ∀ f ∈ fields, f.Keeps P)

include hfields

theorem member_keeps {room : ℕ} (s : σ) (key : Lexeme String) (read : Reader σ) (ts : List Token)
    (s' : σ) (r : Rest ts) (hs : P s) (hmember : member fields room s key = .ok read)
    (hread : read ts = .ok (s', r)) : P s' := by
  unfold member at hmember
  obtain ⟨name, -, hmember⟩ := bind_eq_ok_iff.1 hmember
  split at hmember
  · cases hmember
    obtain ⟨⟨_, r'⟩, -, heq⟩ := map_eq_ok_iff.1 hread
    cases heq
    exact hs
  · rename_i f hf
    split at hmember
    · cases hmember
    · cases hmember
      exact (hfields f (List.mem_of_find?_eq_some hf)).ofTokens hs hread

theorem morePositions_keeps {room : ℕ} {s s' : σ} {ts : List Token} {r : Rest ts} (hs : P s)
    (h : morePositions fields room s ts = .ok (s', r)) : P s' := by
  fun_induction morePositions fields room s ts
  case case3 =>
    cases h
    rename_i f _ _ _ hread
    exact (hfields f List.mem_cons_self).ofTokens hs hread
  case case5 =>
    rename_i f _ _ _ _ hread _ ih
    obtain ⟨⟨s', r'⟩, hrest, heq⟩ := map_eq_ok_iff.1 h
    cases heq
    exact ih (fun f' hf' ↦ hfields f' (List.mem_cons_of_mem f hf'))
      ((hfields f List.mem_cons_self).ofTokens hs hread) hrest
  all_goals cases h

theorem positions_keeps {room : ℕ} {s s' : σ} {ts : List Token} {r : Rest ts} (hs : P s)
    (h : positions fields room s ts = .ok (s', r)) : P s' := by
  unfold positions at h
  split at h
  · cases h
    exact hs
  · exact morePositions_keeps hfields hs h

theorem memberOfValue_keeps {s s' : σ} {entry : String × Value} (hs : P s)
    (h : memberOfValue fields s entry = some s') : P s' := by
  unfold memberOfValue at h
  split at h
  · cases h
    exact hs
  · rename_i f hf
    exact (hfields f (List.mem_of_find?_eq_some hf)).ofValue hs h

theorem yields_record {start : σ} {finish : σ → Option α} {x : α} (hstart : P start)
    (h : (record fields start finish).Yields x) : ∃ s, P s ∧ finish s = some x := by
  rcases h with ⟨room, ts, r, h⟩ | ⟨v, h⟩
  · unfold record at h
    dsimp only at h
    split at h
    · obtain ⟨⟨s, r'⟩, hread, hfinish⟩ := bind_eq_ok_iff.1 h
      obtain ⟨_, _, hmembers⟩ := within_eq_ok hread
      exact ⟨s, Reader.members_keeps (member_keeps hfields) hstart hmembers,
        finished_eq_ok hfinish⟩
    · obtain ⟨⟨s, r'⟩, hread, hfinish⟩ := bind_eq_ok_iff.1 h
      obtain ⟨_, _, hpositions⟩ := within_eq_ok hread
      exact ⟨s, positions_keeps hfields hstart hpositions, finished_eq_ok hfinish⟩
    · cases h
  · unfold record at h
    dsimp only at h
    split at h
    · obtain ⟨s, hread, hfinish⟩ := Option.bind_eq_some_iff.1 h
      exact ⟨s, foldlM_option_keeps (fun _ _ _ _ ↦ memberOfValue_keeps hfields) hstart hread, hfinish⟩
    · split_ifs at h
      obtain ⟨s, hread, hfinish⟩ := Option.bind_eq_some_iff.1 h
      refine ⟨s, foldlM_option_keeps (fun _ entry hentry _ hs hstep ↦ ?_) hstart hread, hfinish⟩
      exact (hfields _ (List.of_mem_zip hentry).1).ofValue hs hstep
    · cases h

end Record

theorem bind_finished {ts : List Token} (x : Except Fault (σ × Rest ts)) (finish : σ → Option α) :
    x.bind (finished finish) = (x.bind (finished some)).bind fun (s, r) ↦
      match finish s with
      | some y => .ok (y, r)
      | none => .error .mismatched := by
  cases x <;> rfl

theorem record_eq_refine (fields : List (RecordField σ)) (start : σ) (finish : σ → Option α) :
    record fields start finish = (record fields start some).refine finish := by
  unfold record refine
  congr 1
  · funext room ts
    dsimp only
    split
    · exact bind_finished _ finish
    · exact bind_finished _ finish
    · rfl
  · funext v
    dsimp only
    split
    · rw [Option.bind_fun_some]
    · split_ifs
      · rw [Option.bind_fun_some]
      · rfl
    · rfl

theorem refine_parse_eq_ok {β : Type} {d : Decoder α} {f : α → Option β} {text : String} {y : β}
    (h : (d.refine f).parse text = .ok y) : ∃ x, d.parse text = .ok x ∧ f x = some y := by
  unfold parse Reader.run refine at h
  dsimp only at h
  split at h
  · cases h
  · rename_i y' _ hread
    cases h
    obtain ⟨⟨x, r⟩, hx, hf⟩ := bind_eq_ok_iff.1 hread
    dsimp only at hf
    split at hf
    · rename_i hy
      cases hf
      refine ⟨x, ?_, hy⟩
      unfold parse Reader.run
      rw [hx]
    · cases hf
  · cases h

/-- The members of a value that stands for a record. An array gives fields in their order. -/
def recordMembers? (fields : List (RecordField σ)) : Value → Option (List (String × Value))
  | .object ⟨entries⟩ => some entries
  | .array items =>
    if items.length ≤ fields.length then some ((fields.map (·.name)).zip items) else none
  | _ => none

theorem find?_name_eq_some {fields : List (RecordField σ)} (hnodup : (fields.map (·.name)).Nodup)
    {f : RecordField σ} (hf : f ∈ fields) : fields.find? (·.name = f.name) = some f := by
  induction fields with
  | nil => cases hf
  | cons g rest ih =>
    rw [List.map_cons, List.nodup_cons] at hnodup
    rcases List.mem_cons.1 hf with rfl | hmem
    · exact List.find?_cons_of_pos (by simp)
    · rw [List.find?_cons_of_neg, ih hnodup.2 hmem]
      simp only [decide_eq_true_eq]
      exact fun heq ↦ hnodup.1 (heq ▸ List.mem_map_of_mem hmem)

theorem foldlM_positionOfValue {fields taken : List (RecordField σ)}
    (hnodup : (fields.map (·.name)).Nodup) (htaken : ∀ f ∈ taken, f ∈ fields) (items : List Value)
    (s : σ) : (taken.zip items).foldlM positionOfValue s =
      ((taken.map (·.name)).zip items).foldlM (memberOfValue fields) s := by
  induction taken generalizing items s with
  | nil => rfl
  | cons f rest ih =>
    cases items with
    | nil => rfl
    | cons v items =>
      have hstep : memberOfValue fields s (f.name, v) = positionOfValue s (f, v) := by
        rw [memberOfValue, find?_name_eq_some hnodup (htaken f List.mem_cons_self)]
        rfl
      rw [List.map_cons, List.zip_cons_cons, List.zip_cons_cons, List.foldlM_cons,
        List.foldlM_cons, hstep]
      congr 1
      funext t
      exact ih (fun g hg ↦ htaken g (List.mem_cons_of_mem f hg)) items t

theorem record_ofValue {fields : List (RecordField σ)} (hnodup : (fields.map (·.name)).Nodup)
    (start : σ) (finish : σ → Option α) (v : Value) :
    (record fields start finish).ofValue v = (recordMembers? fields v).bind fun members ↦
      (members.foldlM (memberOfValue fields) start).bind finish := by
  cases v with
  | object => rfl
  | array items =>
    simp only [record, recordMembers?]
    split_ifs
    · rw [foldlM_positionOfValue hnodup fun _ hf ↦ hf]
      rfl
    · rfl
  | null | boolean | number | text => rfl

end Decoder

/-- The field is read by `d` into a part of the state if it has this name, and leaves that part as
it is otherwise. -/
def RecordField.Reads (f : RecordField σ) (name : String) (d : Decoder α) (get : σ → Option α) :
    Prop :=
  ∀ s v s', f.ofValue s v = some s' →
    if name = f.name then ∃ x, d.ofValue v = some x ∧ get s' = some x else get s' = get s

namespace Decoder

theorem memberOfValue_get {fields : List (RecordField σ)} {name k : String} {d : Decoder α}
    {get : σ → Option α} (hfields : ∀ f ∈ fields, f.Reads name d get)
    (hname : ∃ f ∈ fields, f.name = name) {v : Value} {s t : σ}
    (h : memberOfValue fields s (k, v) = some t) :
    if name = k then ∃ x, d.ofValue v = some x ∧ get t = some x else get t = get s := by
  unfold memberOfValue at h
  split at h
  · rename_i hnone
    cases h
    obtain ⟨f, hf, rfl⟩ := hname
    have hne : f.name ≠ k := by simpa using List.find?_eq_none.1 hnone f hf
    rw [if_neg hne]
  · rename_i f hf
    have hk : f.name = k := by simpa using List.find?_some hf
    have hread := hfields f (List.mem_of_find?_eq_some hf) _ _ _ h
    rwa [hk] at hread

theorem foldlM_memberOfValue_get {fields : List (RecordField σ)} {name : String} {d : Decoder α}
    {get : σ → Option α} (hfields : ∀ f ∈ fields, f.Reads name d get)
    (hname : ∃ f ∈ fields, f.name = name) {members : List (String × Value)}
    (hnodup : (members.map Prod.fst).Nodup) {s s' : σ}
    (h : members.foldlM (memberOfValue fields) s = some s') :
    match members.lookup name with
    | none => get s' = get s
    | some v => ∃ x, d.ofValue v = some x ∧ get s' = some x := by
  induction members generalizing s with
  | nil =>
    cases h
    rfl
  | cons entry rest ih =>
    obtain ⟨k, v⟩ := entry
    rw [List.map_cons, List.nodup_cons] at hnodup
    obtain ⟨t, hstep, hrest⟩ := Option.bind_eq_some_iff.1 h
    have hfirst := memberOfValue_get hfields hname hstep
    have hlater := ih hnodup.2 hrest
    rw [Table.lookup_cons_eq_ite]
    by_cases hn : name = k
    · have hlookup : rest.lookup name = none := by
        rw [List.lookup_eq_none_iff, hn]
        intro e he
        have hmem : e.1 ∈ rest.map Prod.fst := List.mem_map_of_mem he
        exact bne_iff_ne.2 fun heq ↦ hnodup.1 (heq ▸ hmem)
      rw [hlookup] at hlater
      rw [if_pos hn] at hfirst ⊢
      obtain ⟨x, hx, hget⟩ := hfirst
      exact ⟨x, hx, hlater.trans hget⟩
    · rw [if_neg hn] at hfirst ⊢
      rw [← hfirst]
      exact hlater

theorem foldlM_memberOfValue_start {fields : List (RecordField σ)} {name : String} {d : Decoder α}
    {get : σ → Option α} (hfields : ∀ f ∈ fields, f.Reads name d get)
    (hname : ∃ f ∈ fields, f.name = name) {members : List (String × Value)}
    (hnodup : (members.map Prod.fst).Nodup) {start s : σ} (hstart : get start = none)
    (h : members.foldlM (memberOfValue fields) start = some s) :
    (members.lookup name).map d.ofValue = (get s).map some := by
  have hget := foldlM_memberOfValue_get hfields hname hnodup h
  cases hlookup : members.lookup name with
  | none =>
    rw [hlookup] at hget
    rw [hget, hstart]
    rfl
  | some v =>
    rw [hlookup] at hget
    obtain ⟨x, hx, hs⟩ := hget
    rw [hs, Option.map_some, Option.map_some, hx]

theorem field_name (name : String) (d : Decoder α) (get : σ → Option α) (set : σ → α → σ) :
    (field name d get set).name = name := rfl

theorem field_reads {name : String} {d : Decoder α} {get : σ → Option α} {set : σ → α → σ}
    (h : ∀ s x, get (set s x) = some x) : (field name d get set).Reads name d get := by
  intro s v s' hread
  obtain ⟨x, hx, rfl⟩ := Option.map_eq_some_iff.1 hread
  rw [field_name, if_pos rfl]
  exact ⟨x, hx, h s x⟩

theorem field_reads_other {β : Type} {name name' : String} {d : Decoder α} {d' : Decoder β}
    {get : σ → Option α} {get' : σ → Option β} {set' : σ → β → σ} (hne : name ≠ name')
    (h : ∀ s y, get (set' s y) = get s) : (field name' d' get' set').Reads name d get := by
  intro s v s' hread
  obtain ⟨y, -, rfl⟩ := Option.map_eq_some_iff.1 hread
  rw [field_name, if_neg hne]
  exact h s y

end Decoder

end CloutQuery.Json
