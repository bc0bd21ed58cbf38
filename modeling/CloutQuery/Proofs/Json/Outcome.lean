import CloutQuery.Json.Decoder
import Mathlib.Data.Nat.Notation

namespace CloutQuery.Json

variable {α β γ σ : Type} {p q : List β → Prop}

/-- The thing read and what is left behind it; none for any fault. -/
def outcome (x : Except Fault (α × { rest // p rest })) : Option (α × List β) :=
  match x with
  | .ok (a, r) => some (a, r.1)
  | .error _ => none

@[simp] theorem outcome_ok (a : α) (r : { rest // p rest }) :
    outcome (.ok (a, r)) = some (a, r.1) := rfl

@[simp] theorem outcome_error (f : Fault) :
    outcome (.error f : Except Fault (α × { rest // p rest })) = none := rfl

theorem outcome_eq_some_iff {x : Except Fault (α × { rest // p rest })} {a : α} {r : List β} :
    outcome x = some (a, r) ↔ ∃ h, x = .ok (a, ⟨r, h⟩) := by
  constructor
  · intro hx
    rcases x with f | ⟨b, s, h⟩
    · cases hx
    · cases hx
      exact ⟨h, rfl⟩
  · rintro ⟨h, rfl⟩
    rfl

theorem outcome_map (x : Except Fault (α × { rest // p rest })) (f : α → γ)
    {g : α × { rest // p rest } → γ × { rest // q rest }}
    (hg : ∀ y, ((g y).1, (g y).2.1) = (f y.1, y.2.1)) :
    outcome (x.map g) = (outcome x).map fun y ↦ (f y.1, y.2) := by
  rcases x with fault | y
  · rfl
  · exact congrArg some (hg y)

namespace Reader

theorem outcome_moreItems (one : Reader α) (ts : List Token) :
    outcome (moreItems one ts) = (outcome (one ts)).bind fun
      | (x, .comma :: rest) => (outcome (moreItems one rest)).map fun y ↦ (x :: y.1, y.2)
      | (x, .closeArray :: rest) => some ([x], rest)
      | _ => none := by
  rw [moreItems]
  rcases one ts with f | ⟨x, rest, h⟩
  · rfl
  · rcases rest with _ | ⟨t, rest⟩
    · rfl
    · cases t with
      | comma =>
        dsimp only [outcome_ok, Option.bind_some]
        cases moreItems one rest <;> rfl
      | _ => rfl

theorem outcome_moreMembers (member : σ → Lexeme String → Except Fault (Reader σ)) (s : σ)
    (key : Lexeme String) (ts : List Token) :
    outcome (moreMembers member s (.string key :: .colon :: ts)) =
      (outcome ((member s key).bind fun read ↦ read ts)).bind fun
        | (s', .comma :: rest) => outcome (moreMembers member s' rest)
        | (s', .closeObject :: rest) => some (s', rest)
        | _ => none := by
  rw [moreMembers]
  cases member s key with
  | error => rfl
  | ok read =>
    dsimp only [Except.bind]
    rcases read ts with f | ⟨s', rest, h⟩
    · rfl
    · rcases rest with _ | ⟨t, rest⟩
      · rfl
      · cases t with
        | comma =>
          dsimp only [outcome_ok, Option.bind_some]
          cases moreMembers member s' rest <;> rfl
        | _ => rfl

/-- What an object is read from begins with a key and a colon, unless it is empty. -/
theorem exists_key_of_moreMembers {member : σ → Lexeme String → Except Fault (Reader σ)} {s : σ}
    {ts : List Token} {y : σ × List Token} (h : outcome (moreMembers member s ts) = some y) :
    ∃ key rest, ts = .string key :: .colon :: rest := by
  rw [moreMembers.eq_def] at h
  rcases ts with _ | ⟨t, ts⟩
  · cases h
  · cases t with
    | string key =>
      dsimp only at h
      cases hmember : member s key with
      | error =>
        rw [hmember] at h
        cases h
      | ok =>
        rw [hmember] at h
        rcases ts with _ | ⟨u, ts⟩
        · cases h
        · cases u with
          | colon => exact ⟨key, ts, rfl⟩
          | _ => cases h
    | _ => cases h

theorem outcome_value_array (room : ℕ) (rest : List Token) :
    outcome (value (room + 1) (.openArray :: rest)) =
      (outcome (items (value room) rest)).map fun y ↦ (.array y.1, y.2) := by
  rw [value]
  exact outcome_map _ Value.array fun _ ↦ rfl

theorem outcome_value_object (room : ℕ) (rest : List Token) :
    outcome (value (room + 1) (.openObject :: rest)) =
      (outcome (table (value room) rest)).map fun y ↦ (.object y.1, y.2) := by
  rw [value]
  exact outcome_map _ Value.object fun _ ↦ rfl

theorem outcome_skipWithin_array (room : ℕ) (rest : List Token) :
    outcome (skipWithin (room + 1) (.openArray :: rest)) =
      (outcome (items (skipWithin room) rest)).map fun y ↦ ((), y.2) := by
  rw [skipWithin]
  exact outcome_map _ (fun _ ↦ ()) fun _ ↦ rfl

theorem outcome_skipWithin_object (room : ℕ) (rest : List Token) :
    outcome (skipWithin (room + 1) (.openObject :: rest)) =
      (outcome (members (fun _ key ↦ key.skipped.map fun _ ↦ skipWithin room) () rest)).map
        fun y ↦ ((), y.2) := by
  rw [skipWithin]
  exact outcome_map _ (fun _ ↦ ()) fun _ ↦ rfl

end Reader

namespace Decoder

theorem outcome_within (room : ℕ) (opening : Token) (rest : List Token) (read : ℕ → Reader α) :
    outcome (within (room + 1) opening rest read) = outcome (read room rest) := by
  rw [within]
  cases read room rest <;> rfl

theorem outcome_morePositions (f : RecordField σ) (later : List (RecordField σ)) (room : ℕ) (s : σ)
    (ts : List Token) :
    outcome (morePositions (f :: later) room s ts) = (outcome (f.ofTokens s room ts)).bind fun
      | (s', .comma :: rest) => outcome (morePositions later room s' rest)
      | (s', .closeArray :: rest) => some (s', rest)
      | _ => none := by
  rw [morePositions]
  rcases f.ofTokens s room ts with e | ⟨s', rest, h⟩
  · rfl
  · rcases rest with _ | ⟨t, rest⟩
    · rfl
    · cases t with
      | comma =>
        cases later with
        | nil => cases rest <;> rfl
        | cons g later =>
          dsimp only [outcome_ok, Option.bind_some, List.isEmpty_cons]
          cases morePositions (g :: later) room s' rest <;> rfl
      | _ => rfl

theorem outcome_finished (finish : σ → Option α) {ts : List Token} (x : Except Fault (σ × Rest ts)) :
    outcome (x.bind (finished finish)) = (outcome x).bind fun y ↦ (finish y.1).map (·, y.2) := by
  rcases x with f | ⟨s, r⟩
  · rfl
  · cases h : finish s <;> simp [Except.bind, finished, h]

theorem outcome_list_array (d : Decoder α) (room : ℕ) (rest : List Token) :
    outcome ((list d).ofTokens (room + 1) (.openArray :: rest)) =
      outcome (Reader.items (d.ofTokens room) rest) :=
  outcome_within room _ rest fun room ↦ Reader.items (d.ofTokens room)

theorem outcome_table_object (d : Decoder α) (room : ℕ) (rest : List Token) :
    outcome ((table d).ofTokens (room + 1) (.openObject :: rest)) =
      outcome (Reader.table (d.ofTokens room) rest) :=
  outcome_within room _ rest fun room ↦ Reader.table (d.ofTokens room)

section Record

variable (fields : List (RecordField σ)) (start : σ) (finish : σ → Option α) (room : ℕ)
  (rest : List Token)

theorem outcome_record_object :
    outcome ((record fields start finish).ofTokens (room + 1) (.openObject :: rest)) =
      (outcome (Reader.members (member fields room) start rest)).bind
        fun y ↦ (finish y.1).map (·, y.2) :=
  (outcome_finished finish _).trans (congrArg (Option.bind · _) (outcome_within room _ rest
    fun room ↦ Reader.members (member fields room) start))

theorem outcome_record_array :
    outcome ((record fields start finish).ofTokens (room + 1) (.openArray :: rest)) =
      (outcome (positions fields room start rest)).bind fun y ↦ (finish y.1).map (·, y.2) :=
  (outcome_finished finish _).trans (congrArg (Option.bind · _) (outcome_within room _ rest
    fun room ↦ positions fields room start))

end Record

end Decoder

end CloutQuery.Json
