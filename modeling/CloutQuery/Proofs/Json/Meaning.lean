import CloutQuery.Proofs.Value.Path
import CloutQuery.Proofs.Value.Sorted

namespace CloutQuery.Json

variable {α σ : Type}

/-- The members of a record. An array states the first of its fields, in their order. -/
inductive IsRecord (names : List String) : Value → List (String × Value) → Prop
  | object (members : Table Value) : IsRecord names (.object members) members.entries
  | array {items : List Value} (fits : items.length ≤ names.length) :
      IsRecord names (.array items) (names.zip items)

/-- What a member means; where there is none of its name, what is assumed. -/
inductive States (members : List (String × Value)) (name : String) (Means : Value → α → Prop)
    (assumed : α) : α → Prop
  | given {v : Value} {x : α} (member : members.lookup name = some v) (means : Means v x) :
      States members name Means assumed x
  | missing (none : members.lookup name = none) : States members name Means assumed assumed

def ListMeans (Means : Value → α → Prop) (v : Value) (xs : List α) : Prop :=
  ∃ items, v = .array items ∧ List.Forall₂ Means items xs

/-- The entries of an object, each under its key. -/
def TableMeans (Means : Value → α → Prop) (v : Value) (t : Table α) : Prop :=
  ∃ members : Table Value, v = .object members ∧
    List.Forall₂ (fun e f ↦ e.1 = f.1 ∧ Means e.2 f.2) members.entries t.entries

namespace IsRecord

variable {names : List String} {v : Value} {members : List (String × Value)}

theorem nodup (h : IsRecord names v members) (hnames : names.Nodup) (hv : v.Sorted) :
    (members.map Prod.fst).Nodup := by
  cases h with
  | object members => exact hv.1.nodup
  | @array items fits =>
    have hfirst : (names.zip items).map Prod.fst = names.take items.length := by
      rw [List.zip_eq_zip_take_min, Nat.min_eq_right fits, List.take_length,
        List.map_fst_zip (by rw [List.length_take]; exact Nat.min_le_left _ _)]
    rw [hfirst]
    exact hnames.sublist (List.take_sublist _ _)

theorem sorted (h : IsRecord names v members) (hv : v.Sorted) : ∀ e ∈ members, e.2.Sorted := by
  cases h with
  | object members => exact Value.sortedEntries_iff.1 hv.2
  | array fits => exact fun e he ↦ Value.sortedItems_iff.1 hv e.2 (List.of_mem_zip he).2

end IsRecord

namespace Decoder

variable {fields : List (RecordField σ)} {start s : σ} {v : Value} {members : List (String × Value)}

theorem isRecord_of_recordMembers? (h : recordMembers? fields v = some members) :
    IsRecord (fields.map (·.name)) v members := by
  cases v with
  | object t =>
    cases h
    exact .object t
  | array items =>
    rw [recordMembers?] at h
    split_ifs at h with hfits
    cases h
    exact .array (by rwa [List.length_map])
  | null | boolean | number | text => cases h

/-- The members of a record, which is a value with its keys in order, and what reading them leaves in the
state. -/
structure ReadInto (fields : List (RecordField σ)) (start : σ) (v : Value)
    (members : List (String × Value)) (s : σ) : Prop where
  record : IsRecord (fields.map (·.name)) v members
  nodup : (members.map Prod.fst).Nodup
  sorted : ∀ e ∈ members, e.2.Sorted
  read : members.foldlM (memberOfValue fields) start = some s

theorem exists_readInto {finish : σ → Option α} {x : α} (hnodup : (fields.map (·.name)).Nodup)
    (hv : v.Sorted) (h : (record fields start finish).ofValue v = some x) :
    ∃ members s, ReadInto fields start v members s ∧ finish s = some x := by
  rw [record_ofValue hnodup] at h
  obtain ⟨members, hmembers, h⟩ := Option.bind_eq_some_iff.1 h
  obtain ⟨s, hs, hx⟩ := Option.bind_eq_some_iff.1 h
  have hrecord := isRecord_of_recordMembers? hmembers
  exact ⟨members, s, ⟨hrecord, hrecord.nodup hnodup hv, hrecord.sorted hv, hs⟩, hx⟩

/-- What the decoder reads a value as is what the value means. -/
def Tells (d : Decoder α) (Means : Value → α → Prop) : Prop :=
  ∀ v x, v.Sorted → d.ofValue v = some x → Means v x

variable {name : String} {d : Decoder α} {Means : Value → α → Prop}

theorem tells_text : text.Tells fun v s ↦ v = .text s :=
  fun _ _ _ h ↦ Value.text?_eq_some_iff.1 h

theorem tells_payload : payload.Tells fun v members ↦ v = .object members :=
  fun _ _ _ h ↦ Value.object?_eq_some_iff.1 h

theorem tells_list (h : d.Tells Means) : d.list.Tells (ListMeans Means) := by
  intro v xs hv hread
  cases v with
  | array items =>
    exact ⟨items, rfl, forall₂_of_mapM hread fun w hw x ↦ h w x (Value.sortedItems_iff.1 hv w hw)⟩
  | null | boolean | number | text | object => cases hread

theorem tells_table (h : d.Tells Means) : d.table.Tells (TableMeans Means) := by
  intro v t hv hread
  cases v with
  | object members =>
    obtain ⟨entries, hentries, rfl⟩ := Option.map_eq_some_iff.1 hread
    have hmeans : List.Forall₂ (fun e f ↦ e.1 = f.1 ∧ Means e.2 f.2) members.entries entries := by
      refine forall₂_of_mapM hentries fun e he f hf ↦ ?_
      obtain ⟨x, hx, rfl⟩ := Option.map_eq_some_iff.1 hf
      exact ⟨rfl, h e.2 x (Value.sortedEntries_iff.1 hv.2 e he) hx⟩
    have hkeys : members.entries.map Prod.fst = entries.map Prod.fst := by
      rw [← List.forall₂_eq_eq_eq, List.forall₂_map_left_iff, List.forall₂_map_right_iff]
      exact hmeans.imp fun _ _ h ↦ h.1
    refine ⟨members, rfl, ?_⟩
    rwa [Table.entries_ofList_of_sorted (hkeys ▸ hv.1)]
  | null | boolean | number | text | array => cases hread

namespace ReadInto

variable {get : σ → Option α} (h : ReadInto fields start v members s)
  (hfields : ∀ f ∈ fields, f.Reads name d get) (hname : name ∈ fields.map (·.name))
  (hstart : get start = none) (htells : d.Tells Means)

include h hfields hname hstart

theorem lookup_eq : (members.lookup name).map d.ofValue = (get s).map some :=
  foldlM_memberOfValue_start hfields (List.mem_map.1 hname) h.nodup hstart h.read

include htells

theorem given {x : α} (hget : get s = some x) : ∃ w, members.lookup name = some w ∧ Means w x := by
  have hread := h.lookup_eq hfields hname hstart
  rw [hget] at hread
  obtain ⟨w, hw, hx⟩ := Option.map_eq_some_iff.1 hread
  have hmem : (name, w) ∈ members := Table.mem_of_get? (t := ⟨members⟩) hw
  exact ⟨w, hw, htells w x (h.sorted _ hmem) hx⟩

theorem states (assumed : α) : States members name Means assumed ((get s).getD assumed) := by
  cases hget : get s with
  | none =>
    have hread := h.lookup_eq hfields hname hstart
    rw [hget] at hread
    exact .missing (Option.map_eq_none_iff.1 hread)
  | some x =>
    obtain ⟨w, hw, hx⟩ := h.given hfields hname hstart htells hget
    exact .given hw hx

end ReadInto

end Decoder

end CloutQuery.Json
