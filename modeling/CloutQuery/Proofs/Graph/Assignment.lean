import CloutQuery.Proofs.Graph.Steps
import CloutQuery.Proofs.Value.Path

namespace CloutQuery

namespace OutputType

def name : OutputType → String
  | boolean => "boolean"
  | integer => "integer"
  | float => "float"

theorem ofName?_eq_some_iff {s : String} {t : OutputType} : ofName? s = some t ↔ s = t.name := by
  constructor
  · intro h
    unfold ofName? at h
    split at h <;> cases h <;> rfl
  · rintro rfl
    cases t <;> rfl

def Declares (output : Payload) (t : OutputType) : Prop :=
  (Value.object output).valueAt? ["$type", "type", "name"] = some (.text t.name)

/-- The output takes the text as a value: as its type has it, or as it is if it has none. -/
def Takes (output : Payload) (text : String) (v : Value) : Prop :=
  (∃ t, Declares output t ∧ t.coerce text = some v) ∨ (∀ t, ¬ Declares output t) ∧ v = .text text

theorem declared?_eq (output : Payload) :
    declared? output =
      (((Value.object output).valueAt? ["$type", "type", "name"]).bind Value.text?).bind ofName? := by
  unfold declared?
  simp only [Value.valueAt?, Value.get?, Value.object?, Option.bind_eq_bind, Option.bind_some,
    Option.bind_assoc]

theorem declared?_eq_some_iff {output : Payload} {t : OutputType} :
    declared? output = some t ↔ Declares output t := by
  simp only [declared?_eq, Option.bind_assoc, Option.bind_eq_some_iff, ofName?_eq_some_iff, Declares]
  constructor
  · rintro ⟨v, hv, s, hs, rfl⟩
    cases v with
    | text => exact hv.trans (congrArg (some ∘ Value.text) (Option.some.inj hs))
    | null | boolean | number | array | object => cases hs
  · intro h
    exact ⟨_, h, _, rfl, rfl⟩

theorem assigned?_eq_some_iff {output : Payload} {text : String} {v : Value} :
    assigned? output text = some v ↔ Takes output text v := by
  unfold assigned? Takes
  simp only [← declared?_eq_some_iff]
  cases declared? output with
  | none => simp [eq_comm]
  | some t => simp

theorem assigned?_isSome_iff {output : Payload} {text : String} :
    (assigned? output text).isSome ↔ ∀ t, Declares output t → ∃ v, t.coerce text = some v := by
  unfold assigned?
  simp only [← declared?_eq_some_iff, ← Option.isSome_iff_exists]
  cases declared? output with
  | none => simp
  | some t => simp

theorem assigned?_insert_value (output : Payload) (v : Value) (text : String) :
    assigned? (output.insert "$value" v) text = assigned? output text := by
  have hdeclared : declared? (output.insert "$value" v) = declared? output := by
    unfold declared?
    rw [Table.get?_insert, if_neg (by decide)]
  unfold assigned?
  rw [hdeclared]

end OutputType

namespace Graph

open OutputType (assigned? Declares Takes)

variable {g : Graph} {name text : String}

def outputPath (name : String) : List String := ["tosca", "outputs", name]

def valuePath (name : String) : List String := outputPath name ++ ["$value"]

def withValueAt (g : Graph) (path : List String) (v : Value) : Graph :=
  { g with properties := ((Value.object g.properties).putAt path v).members }

/-- What an assignment of the text puts into the output, if there is one that takes it. -/
def valueFor? (g : Graph) (name text : String) : Option Value :=
  (g.output? name).bind (assigned? · text)

theorem output?_eq (g : Graph) (name : String) :
    g.output? name = ((Value.object g.properties).valueAt? (outputPath name)).bind Value.object? := by
  unfold output? outputPath
  simp only [Value.valueAt?, Value.get?, Value.object?, Option.bind_eq_bind, Option.bind_some,
    Option.bind_assoc]

theorem object_withValueAt (g : Graph) (name : String) (v : Value) :
    Value.object (g.withValueAt (valuePath name) v).properties =
      (Value.object g.properties).putAt (valuePath name) v := rfl

theorem withValueAt_eq {tosca outputs output : Payload}
    (htosca : g.properties.get? "tosca" = some (.object tosca))
    (houtputs : tosca.get? "outputs" = some (.object outputs))
    (houtput : outputs.get? name = some (.object output)) (v : Value) :
    g.withValueAt (valuePath name) v =
      { g with properties := g.properties.insert "tosca" (.object (tosca.insert "outputs"
        (.object (outputs.insert name (.object (output.insert "$value" v)))))) } := by
  simp [withValueAt, valuePath, outputPath, Value.putAt, Value.members, Value.get?, Value.object?,
    htosca, houtputs, houtput]

/-- The reader and the writer of outputs go the same way through the properties. -/
theorem setOutput?_eq (g : Graph) (name text : String) :
    g.setOutput? name text = (g.valueFor? name text).map (g.withValueAt (valuePath name)) := by
  simp only [setOutput?, valueFor?, output?, Value.get?, Option.bind_eq_bind, Option.map_eq_bind,
    Option.bind_assoc]
  refine Option.bind_congr fun v htosca ↦ Option.bind_congr fun tosca hv ↦ ?_
  refine Option.bind_congr fun w houtputs ↦ Option.bind_congr fun outputs hw ↦ ?_
  refine Option.bind_congr fun x houtput ↦ Option.bind_congr fun output hx ↦ ?_
  obtain rfl := Value.object?_eq_some_iff.1 hv
  obtain rfl := Value.object?_eq_some_iff.1 hw
  obtain rfl := Value.object?_eq_some_iff.1 hx
  refine Option.bind_congr fun value _ ↦ ?_
  exact congrArg some (withValueAt_eq htosca houtputs houtput value).symm

theorem apart_valuePath {a b : String} (h : a ≠ b) : Apart (valuePath a) (valuePath b) := by
  simp [Apart, valuePath, outputPath, List.cons_prefix_cons, h, h.symm]

theorem apart_outputPath {a b : String} (h : a ≠ b) : Apart (valuePath a) (outputPath b) := by
  simp [Apart, valuePath, outputPath, List.cons_prefix_cons, h, h.symm]

theorem output?_withValueAt {output : Payload} (h : g.output? name = some output) (v : Value) :
    (g.withValueAt (valuePath name) v).output? name = some (output.insert "$value" v) := by
  rw [output?_eq] at h ⊢
  obtain ⟨w, hw, hobject⟩ := Option.bind_eq_some_iff.1 h
  obtain rfl := Value.object?_eq_some_iff.1 hobject
  rw [object_withValueAt, valuePath, Value.valueAt?_putAt_append, hw]
  rfl

theorem output?_withValueAt_of_ne {other : String} (h : other ≠ name) (v : Value) :
    (g.withValueAt (valuePath name) v).output? other = g.output? other := by
  rw [output?_eq, output?_eq, object_withValueAt,
    Value.valueAt?_putAt_of_apart (apart_outputPath h.symm)]

def assign (g : Graph) (name : String) : Option Value → Graph
  | some v => g.withValueAt (valuePath name) v
  | none => g

theorem assignOutput_run_eq (g : Graph) (name text : String) :
    (assignOutput name text).run g =
      (if (g.valueFor? name text).isSome then .done else .notAssigned,
        g.assign name (g.valueFor? name text)) := by
  rw [assignOutput_run, setOutput?_eq]
  cases g.valueFor? name text <;> rfl

theorem valueFor?_assign (g : Graph) (name text other t : String) :
    (g.assign name (g.valueFor? name text)).valueFor? other t = g.valueFor? other t := by
  cases h : g.valueFor? name text with
  | none => rfl
  | some x =>
    obtain ⟨output, houtput, -⟩ := Option.bind_eq_some_iff.1 h
    unfold assign valueFor?
    by_cases hother : other = name
    · subst hother
      rw [output?_withValueAt houtput, houtput, Option.bind_some, Option.bind_some,
        OutputType.assigned?_insert_value]
    · rw [output?_withValueAt_of_ne hother]

theorem assign_assign (g : Graph) (name : String) (x : Option Value) (y : Value) :
    (g.assign name x).assign name (some y) = g.assign name (some y) := by
  cases x with
  | none => rfl
  | some x =>
    have hput := Value.putAt_putAt (.object g.properties) (valuePath name) x y
    rw [← object_withValueAt] at hput
    exact congrArg (fun v ↦ { g with properties := Value.members v }) hput

theorem assign_comm {a b : String} (h : a ≠ b) (g : Graph) (x y : Option Value) :
    (g.assign a x).assign b y = (g.assign b y).assign a x := by
  cases x with
  | none => rfl
  | some x =>
    cases y with
    | none => rfl
    | some y =>
      have hput := Value.putAt_comm (apart_valuePath h) (.object g.properties) x y
      rw [← object_withValueAt, ← object_withValueAt] at hput
      exact congrArg (fun v ↦ { g with properties := Value.members v }) hput

theorem assignOutput_done_iff {g' : Graph} :
    (assignOutput name text).run g = (.done, g') ↔
      ∃ v, g.valueFor? name text = some v ∧ g' = g.assign name (some v) := by
  rw [assignOutput_run_eq]
  cases g.valueFor? name text with
  | none => exact iff_of_false nofun nofun
  | some v =>
    constructor
    · rintro ⟨⟩
      exact ⟨v, rfl, rfl⟩
    · rintro ⟨_, ⟨⟩, rfl⟩
      rfl

theorem valueFor?_isSome_iff : (g.valueFor? name text).isSome ↔ ∃ output, g.output? name = some output ∧
    ∀ t, Declares output t → ∃ v, t.coerce text = some v := by
  simp only [← OutputType.assigned?_isSome_iff, valueFor?]
  cases g.output? name <;> simp

theorem assignOutput_fst_eq_done_iff :
    ((assignOutput name text).run g).1 = .done ↔ (g.valueFor? name text).isSome := by
  rw [assignOutput_run_eq]
  cases g.valueFor? name text <;> simp

theorem assignOutput_twice_iff {g' : Graph} (s t : String) :
    (assignOutput name t).run ((assignOutput name s).run g).2 = (.done, g') ↔
      (assignOutput name t).run g = (.done, g') := by
  rw [assignOutput_done_iff, assignOutput_done_iff, assignOutput_run_eq g]
  simp only [valueFor?_assign, assign_assign]

theorem assignOutput_again (g : Graph) (name text : String) :
    (assignOutput name text).run ((assignOutput name text).run g).2 =
      (assignOutput name text).run g := by
  simp only [assignOutput_run_eq, valueFor?_assign]
  cases g.valueFor? name text with
  | none => rfl
  | some v => rw [assign_assign]

theorem assignOutput_comm {a b : String} (h : a ≠ b) (s t : String) :
    (do
      let x ← assignOutput a s
      let y ← assignOutput b t
      return (x, y) : StateM Graph (Outcome × Outcome)) =
    do
      let y ← assignOutput b t
      let x ← assignOutput a s
      return (x, y) := by
  funext g
  change (fun p : Outcome × Graph ↦ (fun q : Outcome × Graph ↦ ((p.1, q.1), q.2))
      ((assignOutput b t).run p.2)) ((assignOutput a s).run g) =
    (fun q : Outcome × Graph ↦ (fun p : Outcome × Graph ↦ ((p.1, q.1), p.2))
      ((assignOutput a s).run q.2)) ((assignOutput b t).run g)
  simp only [assignOutput_run_eq, valueFor?_assign, assign_comm h]

theorem assignOutput_exact :
    (∀ (g : Graph) name text,
      (((assignOutput name text).run g).1 = .done ↔ ∃ output, g.output? name = some output ∧
        ∀ t, Declares output t → ∃ v, t.coerce text = some v) ∧
      (((assignOutput name text).run g).1 ≠ .done →
        (assignOutput name text).run g = (.notAssigned, g)) ∧
      ∀ g', (assignOutput name text).run g = (.done, g') →
        g' = { g with properties := g'.properties } ∧
        (∃ output v, g.output? name = some output ∧ Takes output text v ∧
          g'.output? name = some (output.insert "$value" v)) ∧
        (∀ other ≠ name, g'.output? other = g.output? other) ∧
        ∀ path, Apart path (valuePath name) →
          (Value.object g'.properties).valueAt? path = (Value.object g.properties).valueAt? path) ∧
    (∀ g g' name s t, (assignOutput name t).run ((assignOutput name s).run g).2 = (.done, g') →
      (assignOutput name t).run g = (.done, g')) ∧
    (∀ g name text, (assignOutput name text).run ((assignOutput name text).run g).2 =
      (assignOutput name text).run g) ∧
    ∀ a b s t, a ≠ b →
      (do
        let x ← assignOutput a s
        let y ← assignOutput b t
        return (x, y) : StateM Graph (Outcome × Outcome)) =
      do
        let y ← assignOutput b t
        let x ← assignOutput a s
        return (x, y) := by
  refine ⟨fun g name text ↦ ⟨assignOutput_fst_eq_done_iff.trans valueFor?_isSome_iff, fun hne ↦ ?_,
      fun g' h ↦ ?_⟩, fun g g' name s t ↦ (assignOutput_twice_iff s t).1, assignOutput_again,
    fun a b s t h ↦ assignOutput_comm h s t⟩
  · rw [assignOutput_run_eq] at hne ⊢
    cases hv : g.valueFor? name text with
    | none => rfl
    | some v => exact absurd (by rw [hv]; rfl) hne
  · obtain ⟨v, hv, rfl⟩ := assignOutput_done_iff.1 h
    obtain ⟨output, houtput, htakes⟩ := Option.bind_eq_some_iff.1 hv
    refine ⟨rfl, ⟨output, v, houtput, OutputType.assigned?_eq_some_iff.1 htakes,
      output?_withValueAt houtput v⟩, fun other hother ↦ output?_withValueAt_of_ne hother v,
      fun path hpath ↦ ?_⟩
    exact Value.valueAt?_putAt_of_apart hpath.symm _ _

/-- A number of replicas takes the text it begins with and refuses another, and a label beside it stays
as it is and may be set before or after. -/
theorem assignOutput_exact_replicas :
    let typed : Value := .object ⟨[("$type", .object ⟨[("type", .object ⟨[("name", .text "integer")]⟩)]⟩)]⟩
    let outputs : Value := .object ⟨[("label", .object ∅), ("replicas", typed)]⟩
    let g : Graph := { empty "1.0" with
      properties := ⟨[("stage", .text "test"), ("tosca", .object ⟨[("outputs", outputs)]⟩)]⟩ }
    (assignOutput "replicas" "many").run g = (.notAssigned, g) ∧
    (∃ g', (assignOutput "replicas" "3 of 4").run g = (.done, g') ∧
      g'.output? "label" = some ∅ ∧
      (Value.object g'.properties).valueAt? ["stage"] = some (.text "test") ∧
      (assignOutput "replicas" "3 of 4").run ((assignOutput "replicas" "5").run g).2 = (.done, g')) ∧
    (do
      let x ← assignOutput "replicas" "3 of 4"
      let y ← assignOutput "label" "blue"
      return (x, y) : StateM Graph (Outcome × Outcome)) =
    do
      let y ← assignOutput "label" "blue"
      let x ← assignOutput "replicas" "3 of 4"
      return (x, y) := by
  intro typed outputs g
  obtain ⟨hone, htwice, -, hcomm⟩ := assignOutput_exact
  obtain ⟨-, hmany, -⟩ := hone g "replicas" "many"
  obtain ⟨-, -, hthree⟩ := hone g "replicas" "3 of 4"
  have hafter : (assignOutput "replicas" "3 of 4").run ((assignOutput "replicas" "5").run g).2 =
    (.done, g.assign "replicas" (some (.number (.integer 3 (by decide))))) := by rfl
  have hrun := htwice _ _ _ _ _ hafter
  obtain ⟨-, -, hother, hpath⟩ := hthree _ hrun
  refine ⟨hmany nofun, ⟨_, hrun, ?_, ?_, hafter⟩, hcomm _ _ _ _ (by decide)⟩
  · exact hother "label" (by decide)
  · exact hpath ["stage"] (by simp [Apart, valuePath, outputPath])

end Graph

end CloutQuery
