import CloutQuery.Proofs.Text.ByteOrder

namespace CloutQuery.Text

variable {p : UInt8 → Bool}

def isByteOf (p : UInt8 → Bool) (c : Char) : Bool := c.toNat < 0x80 && p (UInt8.ofNat c.toNat)

theorem encodeChar_of_ascii {c : Char} (h : c.toNat < 0x80) :
    String.utf8EncodeChar c = [UInt8.ofNat c.toNat] :=
  if_pos (Nat.le_of_lt_succ h)

theorem length_flatMap_encodeChar {cs : List Char} (h : ∀ c ∈ cs, c.toNat < 0x80) :
    (cs.flatMap String.utf8EncodeChar).length = cs.length := by
  induction cs with
  | nil => rfl
  | cons c cs ih =>
    obtain ⟨hc, hcs⟩ := List.forall_mem_cons.1 h
    rw [List.flatMap_cons, encodeChar_of_ascii hc, List.singleton_append, List.length_cons, ih hcs,
      List.length_cons]

theorem encodeChar_of_not_ascii {c : Char} (h : 0x80 ≤ c.toNat) :
    ∃ b bs, String.utf8EncodeChar c = b :: bs ∧ 0x80 ≤ b := by
  change 0x80 ≤ c.val.toNat at h
  have hc := toNat_lt_of_char c
  have hbyte {n : ℕ} (hlow : 0x80 ≤ n) (hhigh : n < 256) : 0x80 ≤ UInt8.ofNat n := by
    rw [UInt8.le_iff_toNat_le, UInt8.toNat_ofNat', Nat.mod_eq_of_lt hhigh]
    exact hlow
  unfold String.utf8EncodeChar
  dsimp only
  rw [if_neg (by omega)]
  split_ifs <;> exact ⟨_, _, rfl, hbyte (by omega) (by omega)⟩

/-- The first byte of a character tells whether it is a byte of the kind. -/
theorem encodeChar_eq_cons (hp : ∀ b, p b = true → b < 0x80) (c : Char) :
    ∃ b bs, String.utf8EncodeChar c = b :: bs ∧ p b = isByteOf p c ∧
      (isByteOf p c = true → bs = []) := by
  rcases Nat.lt_or_ge c.toNat 0x80 with h | h
  · exact ⟨_, _, encodeChar_of_ascii h, by simp [isByteOf, h], fun _ ↦ rfl⟩
  · obtain ⟨b, bs, hc, hb⟩ := encodeChar_of_not_ascii h
    have hpb : p b = false := Bool.eq_false_iff.2 fun hpb ↦ absurd (hp b hpb) (UInt8.not_lt.2 hb)
    have hpc : isByteOf p c = false := by simp [isByteOf, Nat.not_lt.2 h]
    exact ⟨b, bs, hc, hpb.trans hpc.symm, fun h ↦ absurd h (by simp [hpc])⟩

theorem takeWhile_flatMap_encodeChar (hp : ∀ b, p b = true → b < 0x80) (cs : List Char) :
    (cs.flatMap String.utf8EncodeChar).takeWhile p =
      (cs.takeWhile (isByteOf p)).flatMap String.utf8EncodeChar := by
  induction cs with
  | nil => rfl
  | cons c cs ih =>
    obtain ⟨b, bs, hc, hb, hone⟩ := encodeChar_eq_cons hp c
    cases hk : isByteOf p c with
    | true =>
      obtain rfl := hone hk
      rw [List.takeWhile_cons_of_pos hk, List.flatMap_cons, List.flatMap_cons, hc, List.singleton_append,
        List.takeWhile_cons_of_pos (hb.trans hk), ih, List.singleton_append]
    | false =>
      rw [List.takeWhile_cons_of_neg (by simp [hk]), List.flatMap_cons, hc, List.cons_append,
        List.takeWhile_cons_of_neg (by simp [hb, hk]), List.flatMap_nil]

theorem any_head?_flatMap_encodeChar (hp : ∀ b, p b = true → b < 0x80) (cs : List Char) :
    (cs.flatMap String.utf8EncodeChar).head?.any p = cs.head?.any (isByteOf p) := by
  cases cs with
  | nil => rfl
  | cons c cs =>
    obtain ⟨b, bs, hc, hb, -⟩ := encodeChar_eq_cons hp c
    rw [List.flatMap_cons, hc]
    exact hb

theorem exists_pos_of_append (front rest : List Char) :
    ∃ p : (String.ofList (front ++ rest)).Pos,
      p.offset.byteIdx = (front.flatMap String.utf8EncodeChar).length ∧
        ((String.ofList (front ++ rest)).sliceTo p).copy = String.ofList front := by
  have happ : String.ofList (front ++ rest) = String.ofList front ++ String.ofList rest :=
    String.ofList_append
  have hvalid : (String.ofList front).rawEndPos.IsValid (String.ofList (front ++ rest)) := by
    rw [happ]
    exact String.Pos.Raw.isValid_rawEndPos.append_right _
  refine ⟨(String.ofList (front ++ rest)).pos _ hvalid, ?_, ?_⟩
  · rw [← bytes_ofList]
    rfl
  · exact String.copy_sliceTo_eq_iff_exists_splits.2 ⟨String.ofList rest, happ, rfl⟩

end CloutQuery.Text
