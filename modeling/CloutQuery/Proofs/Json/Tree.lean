import CloutQuery.Json.Reader
import CloutQuery.Proofs.Table

namespace CloutQuery.Json

inductive Tree where
  | null
  | boolean (flag : Bool)
  | number (n : Number)
  | text (s : String)
  | array (items : List Tree)
  | object (members : List (String × Tree))

def Token.ofText (s : String) : Token := .string ⟨.ok s, .ok ()⟩

def keyed (key : String) (part : List Token) : List Token := .ofText key :: .colon :: part

/-- Parts with commas between them, and the closing bracket behind the last. -/
def separated (close : Token) : List (List Token) → List Token
  | [] => [close]
  | [part] => part ++ [close]
  | part :: parts => part ++ .comma :: separated close parts

theorem separated_cons {close : Token} {part : List Token} {parts : List (List Token)}
    (h : parts ≠ []) : separated close (part :: parts) = part ++ .comma :: separated close parts := by
  cases parts with
  | nil => exact absurd rfl h
  | cons => rfl

theorem separated_of_cons (close first : Token) (rest : List Token) (parts : List (List Token)) :
    ∃ rest', separated close ((first :: rest) :: parts) = first :: rest' := by
  cases parts <;> exact ⟨_, rfl⟩

theorem length_le_separated (close : Token) {parts : List (List Token)} {part : List Token}
    (h : part ∈ parts) : part.length ≤ (separated close parts).length := by
  induction parts with
  | nil => cases h
  | cons first parts ih =>
    cases parts with
    | nil =>
      rw [List.mem_singleton.1 h, separated, List.length_append]
      exact Nat.le_add_right _ _
    | cons second parts =>
      rw [separated_cons (List.cons_ne_nil _ _), List.length_append, List.length_cons]
      rcases List.mem_cons.1 h with rfl | h
      · exact Nat.le_add_right _ _
      · have := ih h
        omega

theorem separated_append_cases (close : Token) (part : List Token) (parts : List (List Token))
    (r : List Token) : ∃ behind, separated close (part :: parts) ++ r = part ++ behind ∧
      (parts = [] ∧ behind = close :: r ∨
        parts ≠ [] ∧ behind = .comma :: (separated close parts ++ r)) := by
  cases parts with
  | nil => exact ⟨close :: r, by simp [separated], .inl ⟨rfl, rfl⟩⟩
  | cons second parts =>
    refine ⟨_, ?_, .inr ⟨List.cons_ne_nil _ _, rfl⟩⟩
    rw [separated_cons (List.cons_ne_nil _ _), List.append_assoc]
    rfl

/-- Separated parts can be told apart if the parts can, and none of them begins as the end does. -/
theorem separated_inj {β : Type} {part : β → List Token} {close : Token} (hclose : close ≠ .comma)
    (hpart : ∀ b, ∃ first rest, part b = first :: rest ∧ first ≠ close) {bs bs' : List β}
    (hinj : ∀ b ∈ bs, ∀ b' r r', part b ++ r = part b' ++ r' → b = b' ∧ r = r') {r r' : List Token}
    (h : separated close (bs.map part) ++ r = separated close (bs'.map part) ++ r') :
    bs = bs' ∧ r = r' := by
  have hempty (c : β) (cs : List β) (s s' : List Token) :
      close :: s ≠ separated close ((c :: cs).map part) ++ s' := by
    obtain ⟨first, rest, hfirst, hne⟩ := hpart c
    obtain ⟨later, hlater⟩ := separated_of_cons close first rest (cs.map part)
    rw [List.map_cons, hfirst, hlater]
    exact fun heq ↦ hne (List.cons.inj heq).1.symm
  induction bs generalizing bs' with
  | nil =>
    cases bs' with
    | nil => exact ⟨rfl, (List.cons.inj h).2⟩
    | cons c cs => exact absurd h (hempty c cs r r')
  | cons b bs ih =>
    cases bs' with
    | nil => exact absurd h.symm (hempty b bs r' r)
    | cons b' bs' =>
      obtain ⟨behind, hb, hcases⟩ := separated_append_cases close (part b) (bs.map part) r
      obtain ⟨behind', hb', hcases'⟩ := separated_append_cases close (part b') (bs'.map part) r'
      rw [List.map_cons, List.map_cons, hb, hb'] at h
      obtain ⟨rfl, rfl⟩ := hinj b List.mem_cons_self _ _ _ h
      rcases hcases with ⟨hnil, rfl⟩ | ⟨-, rfl⟩ <;> rcases hcases' with ⟨hnil', heq⟩ | ⟨-, heq⟩
      · rw [List.map_eq_nil_iff.1 hnil, List.map_eq_nil_iff.1 hnil']
        exact ⟨rfl, (List.cons.inj heq).2⟩
      · exact absurd (List.cons.inj heq).1 hclose
      · exact absurd (List.cons.inj heq).1.symm hclose
      · obtain ⟨rfl, rfl⟩ := ih (fun c hc ↦ hinj c (List.mem_cons_of_mem b hc)) (List.cons.inj heq).2
        exact ⟨rfl, rfl⟩

namespace Tree

theorem sizeOf_member_lt {members : List (String × Tree)} {m : String × Tree} (h : m ∈ members) :
    sizeOf m.2 < sizeOf (object members) := by
  have hm := List.sizeOf_lt_of_mem h
  have hpart : sizeOf m = 1 + sizeOf m.1 + sizeOf m.2 := by cases m; rfl
  rw [object.sizeOf_spec]
  omega

def tokens : Tree → List Token
  | .null => [.null]
  | .boolean flag => [.boolean flag]
  | .number n => [.number ⟨.ok n, .ok ()⟩]
  | .text s => [.ofText s]
  | .array items => .openArray :: separated .closeArray (items.map tokens)
  | .object members =>
    .openObject :: separated .closeObject (members.map fun m ↦ keyed m.1 m.2.tokens)
decreasing_by
  · decreasing_tactic
  · exact sizeOf_member_lt ‹_›

/-- What the tree stands for; of members with one key the last counts. -/
def value : Tree → Value
  | .null => .null
  | .boolean flag => .boolean flag
  | .number n => .number n
  | .text s => .text s
  | .array items => .array (items.map value)
  | .object members => .object (Table.ofList (members.map fun m ↦ (m.1, m.2.value)))
decreasing_by
  · decreasing_tactic
  · exact sizeOf_member_lt ‹_›

def Distinct : Tree → Prop
  | .array items => ∀ t ∈ items, t.Distinct
  | .object members => (members.map Prod.fst).Nodup ∧ ∀ m ∈ members, m.2.Distinct
  | .null | .boolean _ | .number _ | .text _ => True
decreasing_by
  · decreasing_tactic
  · exact sizeOf_member_lt ‹_›

/-- No more than so many brackets are open at one place. -/
def Fits : Tree → ℕ → Prop
  | .array items, room => ∃ inner, room = inner + 1 ∧ ∀ t ∈ items, t.Fits inner
  | .object members, room => ∃ inner, room = inner + 1 ∧ ∀ m ∈ members, m.2.Fits inner
  | .null, _ | .boolean _, _ | .number _, _ | .text _, _ => True
termination_by t => t
decreasing_by
  · decreasing_tactic
  · exact sizeOf_member_lt ‹_›

/-- The same tree but for the order in which objects, at any depth, have their members. -/
inductive Reordered : Tree → Tree → Prop where
  | refl (t : Tree) : Reordered t t
  | trans {t u v : Tree} : Reordered t u → Reordered u v → Reordered t v
  | members {ms ms' : List (String × Tree)} : ms.Perm ms' → Reordered (.object ms) (.object ms')
  | item {t u : Tree} (before after : List Tree) : Reordered t u →
    Reordered (.array (before ++ t :: after)) (.array (before ++ u :: after))
  | member {t u : Tree} (key : String) (before after : List (String × Tree)) : Reordered t u →
    Reordered (.object (before ++ (key, t) :: after)) (.object (before ++ (key, u) :: after))

@[elab_as_elim, induction_eliminator]
theorem induction {motive : Tree → Prop} (null : motive .null)
    (boolean : ∀ flag, motive (.boolean flag)) (number : ∀ n, motive (.number n))
    (text : ∀ s, motive (.text s))
    (array : ∀ items, (∀ t ∈ items, motive t) → motive (.array items))
    (object : ∀ members, (∀ m ∈ members, motive m.2) → motive (.object members)) :
    ∀ t : Tree, motive t
  | .null => null
  | .boolean flag => boolean flag
  | .number n => number n
  | .text s => text s
  | .array items => array items fun t _ ↦ induction null boolean number text array object t
  | .object members => object members fun m _ ↦ induction null boolean number text array object m.2
decreasing_by
  · decreasing_tactic
  · exact sizeOf_member_lt ‹_›

theorem tokens_ne_closeArray (t : Tree) :
    ∃ first rest, t.tokens = first :: rest ∧ first ≠ .closeArray := by
  cases t <;> exact ⟨_, _, by rw [tokens], by simp [Token.ofText]⟩

theorem tokens_append_inj {w w' : Tree} {r r' : List Token} (h : w.tokens ++ r = w'.tokens ++ r') :
    w = w' ∧ r = r' := by
  induction w generalizing w' r r' with
  | null | boolean | number | text =>
    cases w' <;> simp_all [tokens, Token.ofText]
  | array items ih =>
    cases w' with
    | array items' =>
      rw [tokens, tokens] at h
      obtain ⟨rfl, hr⟩ := separated_inj (by simp) tokens_ne_closeArray (fun t ht _ _ _ ↦ ih t ht)
        (List.cons.inj h).2
      exact ⟨rfl, hr⟩
    | _ => simp [tokens, Token.ofText] at h
  | object members ih =>
    cases w' with
    | object members' =>
      rw [tokens, tokens] at h
      have hstart (m : String × Tree) :
          ∃ first rest, keyed m.1 m.2.tokens = first :: rest ∧ first ≠ .closeObject :=
        ⟨_, _, rfl, by simp [Token.ofText]⟩
      have hmember (m : String × Tree) (hm : m ∈ members) (m' : String × Tree) (s s' : List Token)
          (hs : keyed m.1 m.2.tokens ++ s = keyed m'.1 m'.2.tokens ++ s') : m = m' ∧ s = s' := by
        simp only [keyed, Token.ofText, List.cons_append, List.cons.injEq, Token.string.injEq,
          Lexeme.mk.injEq, Except.ok.injEq, true_and, and_true] at hs
        obtain ⟨hvalue, hrest⟩ := ih m hm hs.2
        exact ⟨Prod.ext hs.1 hvalue, hrest⟩
      obtain ⟨rfl, hr⟩ := separated_inj (by simp) hstart hmember (List.cons.inj h).2
      exact ⟨rfl, hr⟩
    | _ => simp [tokens, Token.ofText] at h

theorem Fits.succ {t : Tree} {room : ℕ} (h : t.Fits room) : t.Fits (room + 1) := by
  induction t generalizing room with
  | null | boolean | number | text => simp [Fits]
  | array items ih =>
    rw [Fits] at h ⊢
    obtain ⟨inner, rfl, hitems⟩ := h
    exact ⟨inner + 1, rfl, fun t ht ↦ ih t ht (hitems t ht)⟩
  | object members ih =>
    rw [Fits] at h ⊢
    obtain ⟨inner, rfl, hmembers⟩ := h
    exact ⟨inner + 1, rfl, fun m hm ↦ ih m hm (hmembers m hm)⟩

theorem Fits.mono {t : Tree} {room room' : ℕ} (h : t.Fits room) (hle : room ≤ room') :
    t.Fits room' := by
  induction hle with
  | refl => exact h
  | step _ ih => exact ih.succ

theorem fits_length (t : Tree) : t.Fits t.tokens.length := by
  induction t with
  | null | boolean | number | text => simp [Fits]
  | array items ih =>
    rw [Fits, tokens]
    exact ⟨_, rfl, fun t ht ↦ (ih t ht).mono (length_le_separated .closeArray (List.mem_map_of_mem ht))⟩
  | object members ih =>
    rw [Fits, tokens]
    refine ⟨_, rfl, fun m hm ↦ (ih m hm).mono ?_⟩
    have hpart := length_le_separated .closeObject
      (List.mem_map_of_mem (f := fun m ↦ keyed m.1 m.2.tokens) hm)
    rw [keyed, List.length_cons, List.length_cons] at hpart
    omega

namespace Reordered

variable {t u : Tree}

theorem distinct (h : t.Reordered u) (ht : t.Distinct) : u.Distinct := by
  induction h with
  | refl => exact ht
  | trans _ _ ih ih' => exact ih' (ih ht)
  | members hperm =>
    rw [Distinct] at ht ⊢
    exact ⟨(hperm.map Prod.fst).nodup_iff.1 ht.1, fun m hm ↦ ht.2 m (hperm.mem_iff.2 hm)⟩
  | item before after _ ih =>
    rw [Distinct, List.forall_mem_append, List.forall_mem_cons] at ht ⊢
    exact ⟨ht.1, ih ht.2.1, ht.2.2⟩
  | member key before after _ ih =>
    rw [Distinct, List.forall_mem_append, List.forall_mem_cons, List.map_append, List.map_cons] at ht ⊢
    exact ⟨ht.1, ht.2.1, ih ht.2.2.1, ht.2.2.2⟩

theorem value_eq (h : t.Reordered u) (ht : t.Distinct) : t.value = u.value := by
  induction h with
  | refl => rfl
  | trans h _ ih ih' => exact (ih ht).trans (ih' (h.distinct ht))
  | @members ms ms' hperm =>
    rw [Distinct] at ht
    have hkeys : ((ms.map fun m ↦ (m.1, m.2.value)).map Prod.fst).Nodup := by
      rw [List.map_map]
      exact ht.1
    rw [value, value, Table.ofList_perm (hperm.map _) hkeys]
  | item before after _ ih =>
    rw [Distinct, List.forall_mem_append, List.forall_mem_cons] at ht
    simp only [value, List.map_append, List.map_cons, ih ht.2.1]
  | member key before after _ ih =>
    rw [Distinct, List.forall_mem_append, List.forall_mem_cons] at ht
    simp only [value, List.map_append, List.map_cons, ih ht.2.2.1]

end Reordered

end Tree

end CloutQuery.Json
