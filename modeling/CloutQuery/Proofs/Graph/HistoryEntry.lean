import CloutQuery.Graph.Load
import CloutQuery.Proofs.Except
import CloutQuery.Proofs.Json.Reading
import CloutQuery.Proofs.Value.Path

namespace CloutQuery

open Json

namespace HistoryEntry

def TellsTime (v : Value) : Prop := ∃ s t, v = .text s ∧ Timestamp.parse s = some t

def IsText (v : Value) : Prop := ∃ s, v = .text s

def Given (members : List (String × Value)) (name : String) (fine : Value → Prop) : Prop :=
  (∃ v, (name, v) ∈ members) ∧ ∀ v, (name, v) ∈ members → fine v

/-- The values that stand for an entry. An object may have other members besides. -/
inductive Stated : Value → Prop
  | members {entries : List (String × Value)} (timestamp : Given entries "timestamp" TellsTime)
      (description : Given entries "description" IsText) : Stated (.object ⟨entries⟩)
  | pair {timestamp description : Value} (tells : TellsTime timestamp) (text : IsText description) :
      Stated (.array [timestamp, description])

theorem isSome_timestampDecoder_iff {v : Value} : (timestampDecoder.ofValue v).isSome ↔ TellsTime v := by
  change ((v.text?).bind Timestamp.parse).isSome ↔ _
  simp only [Option.isSome_iff_exists, Option.bind_eq_some_iff, Value.text?_eq_some_iff, TellsTime]
  exact exists_comm

theorem isSome_text_iff {v : Value} : (Decoder.text.ofValue v).isSome ↔ IsText v := by
  change v.text?.isSome ↔ _
  simp only [Option.isSome_iff_exists, Value.text?_eq_some_iff, IsText]

/-- A part of an entry is given if it was set before or a member sets it, and no member spoils it. -/
def Filled (set : Bool) (members : List (String × Value)) (name : String) (fine : Value → Prop) : Prop :=
  (set ∨ ∃ v, (name, v) ∈ members) ∧ ∀ v, (name, v) ∈ members → fine v

theorem filled_cons_same {set : Bool} {members : List (String × Value)} {name : String}
    {fine : Value → Prop} {v : Value} :
    Filled set ((name, v) :: members) name fine ↔ fine v ∧ Filled true members name fine := by
  simp only [Filled, List.mem_cons, Prod.mk.injEq, true_and, true_or]
  constructor
  · rintro ⟨-, hfine⟩
    exact ⟨hfine v (.inl rfl), fun w hw ↦ hfine w (.inr hw)⟩
  · rintro ⟨hv, hfine⟩
    refine ⟨.inr ⟨v, .inl rfl⟩, ?_⟩
    rintro w (rfl | hw)
    · exact hv
    · exact hfine w hw

theorem filled_cons_other {set : Bool} {members : List (String × Value)} {name k : String}
    {fine : Value → Prop} {v : Value} (hne : name ≠ k) :
    Filled set ((k, v) :: members) name fine ↔ Filled set members name fine := by
  simp [Filled, hne]

theorem memberOfValue_other {s : Draft} {k : String} {v : Value} (ht : k ≠ "timestamp")
    (hd : k ≠ "description") : Decoder.memberOfValue fields s (k, v) = some s := by
  have hnone : fields.find? (·.name = k) = none := by
    simp [fields, Decoder.field_name, ht.symm, hd.symm]
  rw [Decoder.memberOfValue, hnone]

theorem isSome_members_iff {members : List (String × Value)} {s : Draft} :
    ((members.foldlM (Decoder.memberOfValue fields) s).bind Draft.finish).isSome ↔
      Filled s.timestamp.isSome members "timestamp" TellsTime ∧
      Filled s.description.isSome members "description" IsText := by
  induction members generalizing s with
  | nil =>
    obtain ⟨timestamp, description⟩ := s
    cases timestamp <;> cases description <;> simp [Draft.finish, Filled]
  | cons entry rest ih =>
    obtain ⟨k, v⟩ := entry
    rw [List.foldlM_cons]
    by_cases ht : k = "timestamp"
    · subst ht
      have hstep : Decoder.memberOfValue fields s ("timestamp", v) =
        (timestampDecoder.ofValue v).map fun t ↦ { s with timestamp := some t } := rfl
      rw [hstep, filled_cons_same, filled_cons_other (by decide), ← isSome_timestampDecoder_iff]
      cases timestampDecoder.ofValue v with
      | none => simp
      | some t => exact ih.trans (by simp)
    · by_cases hd : k = "description"
      · subst hd
        have hstep : Decoder.memberOfValue fields s ("description", v) =
          (Decoder.text.ofValue v).map fun x ↦ { s with description := some x } := rfl
        rw [hstep, filled_cons_same, filled_cons_other (by decide), ← isSome_text_iff]
        cases Decoder.text.ofValue v with
        | none => simp
        | some x => exact ih.trans (by simp)
      · rw [memberOfValue_other ht hd, filled_cons_other (Ne.symm ht), filled_cons_other (Ne.symm hd)]
        exact ih

theorem stated_object_iff {entries : List (String × Value)} : Stated (.object ⟨entries⟩) ↔
    Given entries "timestamp" TellsTime ∧ Given entries "description" IsText := by
  constructor
  · rintro ⟨ht, hd⟩
    exact ⟨ht, hd⟩
  · rintro ⟨ht, hd⟩
    exact .members ht hd

theorem stated_array_iff {items : List Value} :
    Stated (.array items) ↔ ∃ t d, items = [t, d] ∧ TellsTime t ∧ IsText d := by
  constructor
  · intro h
    cases h with
    | pair ht hd => exact ⟨_, _, rfl, ht, hd⟩
  · rintro ⟨t, d, rfl, ht, hd⟩
    exact .pair ht hd

theorem isSome_decoder_iff {v : Value} : (decoder.ofValue v).isSome ↔ Stated v := by
  have hmembers {members : List (String × Value)} : ((members.foldlM (Decoder.memberOfValue fields)
      ⟨none, none⟩).bind Draft.finish).isSome ↔
      Given members "timestamp" TellsTime ∧ Given members "description" IsText := by
    rw [isSome_members_iff]
    simp [Filled, Given]
  rw [decoder, Decoder.record_ofValue (by decide)]
  cases v with
  | object members =>
    rw [Decoder.recordMembers?, Option.bind_some, hmembers]
    exact stated_object_iff.symm
  | array items =>
    rw [stated_array_iff, Decoder.recordMembers?]
    split_ifs with hlength
    · rw [Option.bind_some, hmembers]
      -- at most two items are left, under the names of the two fields
      rcases items with _ | ⟨t, _ | ⟨d, _ | ⟨x, rest⟩⟩⟩
      · simp [Given]
      · simp [Given, fields, Decoder.field_name]
      · simp [Given, fields, Decoder.field_name]
      · simp [fields] at hlength
    · have htwo : ¬ ∃ t d, items = [t, d] ∧ TellsTime t ∧ IsText d := by
        rintro ⟨t, d, rfl, -⟩
        exact hlength le_rfl
      simpa using htwo
  | null | boolean | number | text => exact ⟨fun h ↦ (by cases h), fun h ↦ (by cases h)⟩

end HistoryEntry

namespace Graph

def IsHistory (v : Value) : Prop := ∃ items, v = .array items ∧ ∀ item ∈ items, HistoryEntry.Stated item

def BadHistory (metadata : Payload) : Prop := ∃ v, metadata.get? "history" = some v ∧ ¬ IsHistory v

theorem isSome_history_iff {v : Value} :
    ((Decoder.list HistoryEntry.decoder).ofValue v).isSome ↔ IsHistory v := by
  cases v with
  | array items =>
    change (items.mapM HistoryEntry.decoder.ofValue).isSome ↔ _
    simp [isSome_mapM_iff, HistoryEntry.isSome_decoder_iff, IsHistory]
  | null | boolean | number | text | object => simp [Decoder.list, IsHistory]

theorem historyOf_eq_error_iff {metadata : Payload} {e : GraphError} :
    historyOf metadata = .error e ↔ BadHistory metadata ∧ e = .unreadable .mismatched := by
  unfold historyOf BadHistory
  cases hv : metadata.get? "history" with
  | none => simp
  | some v =>
    have hread := isSome_history_iff (v := v)
    dsimp only
    cases hentries : (Decoder.list HistoryEntry.decoder).ofValue v with
    | some entries =>
      rw [hentries] at hread
      simp [hread.1 rfl]
    | none =>
      rw [hentries] at hread
      have hbad : ¬ IsHistory v := fun h ↦ (by cases hread.2 h)
      simp [hbad, eq_comm]

end Graph

end CloutQuery
