import Mathlib.Data.String.Basic
import Mathlib.Tactic

namespace CloutQuery.Text

def bytes (s : String) : List UInt8 := s.toUTF8.data.toList

theorem bytes_ofList (cs : List Char) :
    bytes (String.ofList cs) = cs.flatMap String.utf8EncodeChar := by
  rw [bytes, String.toUTF8_eq_toByteArray, String.toByteArray_ofList, List.utf8Encode,
    List.toList_data_toByteArray]

theorem byte_lt_iff {m n : ℕ} (hm : m < 256) (hn : n < 256) : UInt8.ofNat m < UInt8.ofNat n ↔ m < n := by
  rw [UInt8.lt_iff_toNat_lt, UInt8.toNat_ofNat', UInt8.toNat_ofNat', Nat.mod_eq_of_lt hm,
    Nat.mod_eq_of_lt hn]

/-- Bytes in front decide unless they are the same. -/
theorem cons_byte_lt {m n : ℕ} {l l' : List UInt8} (hm : m < 256) (hn : n < 256) (hle : m ≤ n)
    (htail : m = n → l < l') : UInt8.ofNat m :: l < UInt8.ofNat n :: l' := by
  rw [List.cons_lt_cons_iff, byte_lt_iff hm hn]
  rcases hle.lt_or_eq with hlt | rfl
  · exact .inl hlt
  · exact .inr ⟨rfl, htail rfl⟩

theorem toNat_lt_of_char (c : Char) : c.val.toNat < 0x110000 := by
  rcases c.valid with h | h
  · exact h.trans (by decide)
  · exact h.2

theorem encodeChar_append_lt {c d : Char} (h : c.val.toNat < d.val.toNat) (l l' : List UInt8) :
    String.utf8EncodeChar c ++ l < String.utf8EncodeChar d ++ l' := by
  have hd := toNat_lt_of_char d
  unfold String.utf8EncodeChar
  dsimp only
  generalize c.val.toNat = m at *
  generalize d.val.toNat = n at *
  -- of different lengths, the first bytes differ; of one length, the bytes are compared in turn
  by_cases hm₁ : m ≤ 0x7f
  · rw [if_pos hm₁]
    split_ifs <;> exact cons_byte_lt (by omega) (by omega) (by omega) (by omega)
  rw [if_neg hm₁, if_neg (by omega : ¬ n ≤ 0x7f)]
  by_cases hm₂ : m ≤ 0x7ff
  · rw [if_pos hm₂]
    split_ifs
    · refine cons_byte_lt (by omega) (by omega) (by omega) fun h₁ ↦ ?_
      exact cons_byte_lt (by omega) (by omega) (by omega) (by omega)
    all_goals exact cons_byte_lt (by omega) (by omega) (by omega) (by omega)
  rw [if_neg hm₂, if_neg (by omega : ¬ n ≤ 0x7ff)]
  by_cases hm₃ : m ≤ 0xffff
  · rw [if_pos hm₃]
    split_ifs
    · refine cons_byte_lt (by omega) (by omega) (by omega) fun h₁ ↦ ?_
      refine cons_byte_lt (by omega) (by omega) (by omega) fun h₂ ↦ ?_
      exact cons_byte_lt (by omega) (by omega) (by omega) (by omega)
    · exact cons_byte_lt (by omega) (by omega) (by omega) (by omega)
  rw [if_neg hm₃, if_neg (by omega : ¬ n ≤ 0xffff)]
  refine cons_byte_lt (by omega) (by omega) (by omega) fun h₁ ↦ ?_
  refine cons_byte_lt (by omega) (by omega) (by omega) fun h₂ ↦ ?_
  refine cons_byte_lt (by omega) (by omega) (by omega) fun h₃ ↦ ?_
  exact cons_byte_lt (by omega) (by omega) (by omega) (by omega)

theorem flatMap_encodeChar_lt {cs ds : List Char} (h : cs < ds) :
    cs.flatMap String.utf8EncodeChar < ds.flatMap String.utf8EncodeChar := by
  induction h with
  | @nil d ds =>
    obtain ⟨b, bs, hb⟩ := List.exists_cons_of_ne_nil (String.utf8EncodeChar_ne_nil (c := d))
    rw [List.flatMap_nil, List.flatMap_cons, hb]
    exact List.nil_lt_cons _ _
  | cons _ ih =>
    rw [List.flatMap_cons, List.flatMap_cons]
    exact List.append_left_lt ih
  | rel hlt =>
    rw [List.flatMap_cons, List.flatMap_cons]
    exact encodeChar_append_lt hlt _ _

theorem bytes_lt_of_lt {s t : String} (h : s < t) : bytes s < bytes t := by
  rw [← String.ofList_toList (s := s), ← String.ofList_toList (s := t), bytes_ofList, bytes_ofList]
  exact flatMap_encodeChar_lt (String.lt_iff_toList_lt.1 h)

theorem lt_iff_bytes_lt {s t : String} : s < t ↔ bytes s < bytes t := by
  refine ⟨bytes_lt_of_lt, fun h ↦ ?_⟩
  rcases lt_trichotomy s t with hlt | rfl | hgt
  · exact hlt
  · exact absurd h (List.lt_irrefl _)
  · exact absurd h (List.lt_asymm (bytes_lt_of_lt hgt))

end CloutQuery.Text
