import CloutQuery.Proofs.Json.Agreement
import CloutQuery.Proofs.Json.Scanning

namespace CloutQuery.Json

variable {α : Type}

def WrittenAs (text : String) (w : Tree) : Prop := Token.scan text.toList = w.tokens

def DistinctKeys (text : String) : Prop := ∀ w, WrittenAs text w → w.Distinct

/-- The texts differ in the blanks between their tokens or in the order of members only. The second
case has room for blanks, too, which no token knows of. -/
def Rearranged (text text' : String) : Prop :=
  withoutBlanks text = withoutBlanks text' ∨
    ∃ w w', WrittenAs text w ∧ WrittenAs text' w' ∧ w.Reordered w'

theorem run_eq_ok_iff {read : Reader α} {text : String} {x : α} :
    read.run text = .ok x ↔ outcome (read (Token.scan text.toList)) = some (x, []) := by
  unfold Reader.run
  rcases read (Token.scan text.toList) with f | ⟨y, _ | ⟨t, r⟩, h⟩
  · simp
  · simp
  · simp

theorem WrittenAs.unique {text : String} {w w' : Tree} (h : WrittenAs text w)
    (h' : WrittenAs text w') : w = w' := by
  have htokens : w.tokens ++ [] = w'.tokens ++ [] := by
    rw [List.append_nil, List.append_nil, ← h, h']
  exact (Tree.tokens_append_inj htokens).1

theorem parse_eq_ok_iff {text : String} {v : Value} : parse text = .ok v ↔
    ∃ w, WrittenAs text w ∧ w.Fits Reader.depthLimit ∧ w.value = v := by
  unfold parse
  rw [run_eq_ok_iff]
  constructor
  · intro h
    obtain ⟨w, rfl, htokens⟩ := Tree.readsTrees_value _ (Token.sound_scan _) h
    rw [htokens, Tree.outcome_value] at h
    split_ifs at h with hfits
    exact ⟨w, htokens.trans (List.append_nil _), hfits, rfl⟩
  · rintro ⟨w, htokens, hfits, rfl⟩
    rw [htokens, ← List.append_nil w.tokens, Tree.outcome_value, if_pos hfits]

theorem Decoder.Agrees.parse_eq_ok_iff {d : Decoder α} (hd : d.Agrees) {text : String} {w : Tree}
    (hw : WrittenAs text w) (hfits : w.Fits Reader.depthLimit) (hdistinct : w.Distinct) {x : α} :
    d.parse text = .ok x ↔ d.ofValue w.value = some x := by
  rw [Decoder.parse, run_eq_ok_iff, hw, ← List.append_nil w.tokens, hd hfits hdistinct]
  cases d.ofValue w.value <;> simp

theorem WrittenAs.legible {text : String} {w : Tree} (h : WrittenAs text w) :
    Token.Legible (Token.scan text.toList) := by
  have hlegible : Token.Legible (w.tokens ++ []) := w.legible (by simp) trivial
  rwa [List.append_nil, ← h] at hlegible

theorem WrittenAs.of_withoutBlanks {text text' : String} {w w' : Tree} (h : WrittenAs text w)
    (h' : WrittenAs text' w') (hblanks : withoutBlanks text = withoutBlanks text') :
    WrittenAs text' w := by
  have hsqueeze : squeeze false text.toList = squeeze false text'.toList :=
    String.ofList_injective hblanks
  have hscan := Token.scan_squeeze h.legible
  rw [hsqueeze, Token.scan_squeeze h'.legible] at hscan
  exact hscan.trans h

theorem Rearranged.exists_trees {text text' : String} {v v' : Value} (h : Rearranged text text')
    (hparse : parse text = .ok v) (hparse' : parse text' = .ok v') :
    ∃ w w', WrittenAs text w ∧ WrittenAs text' w' ∧ w.Reordered w' := by
  rcases h with hblanks | htrees
  · obtain ⟨w, hw, -, -⟩ := parse_eq_ok_iff.1 hparse
    obtain ⟨w', hw', -, -⟩ := parse_eq_ok_iff.1 hparse'
    exact ⟨w, w, hw, hw.of_withoutBlanks hw' hblanks, .refl w⟩
  · exact htrees

end CloutQuery.Json
