import CloutQuery.Proofs.Table
import CloutQuery.Value.Basic

namespace CloutQuery

def Apart (p q : List String) : Prop := ¬ p <+: q ∧ ¬ q <+: p

theorem Apart.symm {p q : List String} (h : Apart p q) : Apart q p := ⟨h.2, h.1⟩

theorem Apart.tail {key : String} {p q : List String} (h : Apart (key :: p) (key :: q)) : Apart p q :=
  ⟨fun hpq ↦ h.1 (List.cons_prefix_cons.2 ⟨rfl, hpq⟩),
    fun hqp ↦ h.2 (List.cons_prefix_cons.2 ⟨rfl, hqp⟩)⟩

/-- Paths that are apart have a first key each, and are apart from there on if it is the same. -/
theorem Apart.cases {p q : List String} (h : Apart p q) :
    ∃ j k p' q', p = j :: p' ∧ q = k :: q' ∧ (j = k → Apart p' q') := by
  rcases p with _ | ⟨j, p⟩
  · exact absurd List.nil_prefix h.1
  · rcases q with _ | ⟨k, q⟩
    · exact absurd List.nil_prefix h.2
    · refine ⟨j, k, p, q, rfl, rfl, ?_⟩
      rintro rfl
      exact h.tail

namespace Value

variable {v w x y : Value}

theorem object?_eq_some_iff {v : Value} {members : Payload} :
    v.object? = some members ↔ v = .object members := by
  cases v <;> simp [object?]

theorem text?_eq_some_iff {v : Value} {s : String} : v.text? = some s ↔ v = .text s := by
  cases v <;> simp [text?]

def members (v : Value) : Payload := v.object?.getD ∅

def valueAt? : Value → List String → Option Value
  | v, [] => some v
  | v, key :: path => (v.get? key).bind (valueAt? · path)

/-- The value with another at the end of a path. Objects are made where the path finds none. -/
def putAt : Value → List String → Value → Value
  | _, [], x => x
  | v, key :: path, x => .object (v.members.insert key (putAt ((v.get? key).getD .null) path x))

theorem members_get? (v : Value) (key : String) : v.members.get? key = v.get? key := by
  cases v <;> rfl

theorem get?_putAt (v : Value) (key : String) (path : List String) (x : Value) (j : String) :
    (v.putAt (key :: path) x).get? j =
      if j = key then some (putAt ((v.get? key).getD .null) path x) else v.get? j := by
  change (v.members.insert key _).get? j = _
  rw [Table.get?_insert, members_get?]

theorem valueAt?_putAt_append (v : Value) (path rest : List String) (x : Value) :
    (v.putAt (path ++ rest) x).valueAt? path =
      some (((v.valueAt? path).getD .null).putAt rest x) := by
  induction path generalizing v with
  | nil => rfl
  | cons key path ih =>
    rw [List.cons_append, valueAt?, get?_putAt, if_pos rfl, Option.bind_some, ih, valueAt?]
    cases v.get? key with
    | some w => rfl
    | none =>
      -- no path leads anywhere from a value that has no members
      cases path with
      | nil => rfl
      | cons k path => rfl

theorem valueAt?_putAt_of_apart {p q : List String} (h : Apart p q) (v x : Value) :
    (v.putAt p x).valueAt? q = v.valueAt? q := by
  induction p generalizing v q with
  | nil => exact absurd List.nil_prefix h.1
  | cons key path ih =>
    obtain ⟨j, k, p', q', hp, rfl, htail⟩ := h.cases
    obtain ⟨rfl, rfl⟩ := List.cons.inj hp
    rw [valueAt?, valueAt?, get?_putAt]
    by_cases hk : k = key
    · subst hk
      rw [if_pos rfl, Option.bind_some, ih (htail rfl)]
      cases v.get? k with
      | some w => rfl
      | none =>
        obtain ⟨j, k, _, _, -, rfl, -⟩ := (htail rfl).cases
        rfl
    · rw [if_neg hk]

theorem putAt_cons_putAt_cons (v : Value) (j k : String) (p q : List String) (x y : Value) :
    (v.putAt (j :: p) x).putAt (k :: q) y =
      .object ((v.members.insert j (putAt ((v.get? j).getD .null) p x)).insert k
        (putAt ((if k = j then some (putAt ((v.get? j).getD .null) p x) else v.get? k).getD .null)
          q y)) := by
  rw [← get?_putAt]
  rfl

theorem putAt_putAt (v : Value) (path : List String) (x y : Value) :
    (v.putAt path x).putAt path y = v.putAt path y := by
  induction path generalizing v with
  | nil => rfl
  | cons key path ih =>
    rw [putAt_cons_putAt_cons, if_pos rfl, Option.getD_some, ih, Table.insert_insert, putAt]

theorem putAt_comm {p q : List String} (h : Apart p q) (v x y : Value) :
    (v.putAt p x).putAt q y = (v.putAt q y).putAt p x := by
  induction p generalizing v q with
  | nil => exact absurd List.nil_prefix h.1
  | cons key path ih =>
    obtain ⟨j, k, p', q', hp, rfl, htail⟩ := h.cases
    obtain ⟨rfl, rfl⟩ := List.cons.inj hp
    rw [putAt_cons_putAt_cons, putAt_cons_putAt_cons]
    by_cases hk : k = key
    · subst hk
      rw [if_pos rfl, if_pos rfl, Option.getD_some, Option.getD_some, Table.insert_insert,
        Table.insert_insert, ih (htail rfl)]
    · rw [if_neg hk, if_neg (Ne.symm hk), Table.insert_comm _ (Ne.symm hk)]

end Value

end CloutQuery
