import ChainWatch.Text.Utf8

/-!
# Writing characters and reading them back

The bytes of a text are read as that text, so different texts have different bytes.
-/

namespace ChainWatch.Text

/-! ## The bytes of a text -/

theorem toList_loop_eq (bytes : ByteArray) (i : Nat) (before : List UInt8) :
    ByteArray.toList.loop bytes i before = before.reverse ++ bytes.data.toList.drop i := by
  fun_induction ByteArray.toList.loop bytes i before with
  | case1 i before hi ih =>
    have hi' : i < bytes.data.toList.length := by simpa using hi
    rw [ih, List.drop_eq_getElem_cons hi']
    simp [ByteArray.get!, hi]
  | case2 i before hi =>
    rw [List.drop_eq_nil_of_le (by simpa using Nat.le_of_not_lt hi)]
    simp

theorem utf8_eq_flatMap (s : String) : utf8 s = s.toList.flatMap String.utf8EncodeChar := by
  have hbytes : s.toUTF8 = (s.toList.flatMap String.utf8EncodeChar).toByteArray := by
    rw [String.toUTF8_eq_toByteArray, ← String.utf8Encode_toList]
    rfl
  rw [utf8, hbytes, ByteArray.toList, toList_loop_eq]
  simp

@[simp]
theorem utf8_append (s s' : String) : utf8 (s ++ s') = utf8 s ++ utf8 s' := by
  simp [utf8_eq_flatMap]

/-! ## One character -/

section Sequence

variable {n : Nat}

theorem ofNat_lt_iff (hn : n < 256) (b : UInt8) : UInt8.ofNat n < b ↔ n < b.toNat := by
  rw [UInt8.lt_iff_toNat_lt, UInt8.toNat_ofNat_of_lt' hn]

theorem ofNat_eq_iff (hn : n < 256) (b : UInt8) : UInt8.ofNat n = b ↔ n = b.toNat := by
  rw [← UInt8.toNat_inj, UInt8.toNat_ofNat_of_lt' hn]

theorem sequenceShape?_two (hlow : 0xc2 ≤ n) (hhigh : n < 0xe0) :
    sequenceShape? (UInt8.ofNat n) = some (1, 0x80, 0xbf) := by
  have hn : n < 256 := by omega
  simp only [sequenceShape?, ofNat_lt_iff hn, UInt8.reduceToNat]
  rw [if_neg (by omega), if_pos hhigh]

theorem sequenceShape?_three (hlow : 0xe0 ≤ n) (hhigh : n < 0xf0) :
    sequenceShape? (UInt8.ofNat n)
      = some (2, if n = 0xe0 then 0xa0 else 0x80, if n = 0xed then 0x9f else 0xbf) := by
  have hn : n < 256 := by omega
  simp only [sequenceShape?, ofNat_lt_iff hn, ofNat_eq_iff hn, UInt8.reduceToNat]
  rw [if_neg (by omega), if_neg (by omega)]
  split
  · rename_i he0
    rw [if_neg (by omega)]
  · split
    · rfl
    · rfl

theorem sequenceShape?_four (hlow : 0xf0 ≤ n) (hhigh : n ≤ 0xf4) :
    sequenceShape? (UInt8.ofNat n)
      = some (3, if n = 0xf0 then 0x90 else 0x80, if n = 0xf4 then 0x8f else 0xbf) := by
  have hn : n < 256 := by omega
  simp only [sequenceShape?, ofNat_lt_iff hn, ofNat_eq_iff hn, UInt8.reduceToNat]
  rw [if_neg (by omega), if_neg (by omega), if_neg (by omega), if_neg (by omega),
    if_neg (by omega)]
  split
  · rename_i hf0
    rw [if_neg (by omega)]
  · split
    · rename_i hlt
      rw [if_neg (by omega)]
    · rw [if_pos (by omega), if_pos (by omega)]

@[simp]
theorem continuation_zero (low high : UInt8) (rest : List UInt8) :
    continuation low high 0 rest = [] := by
  cases rest <;> rfl

theorem continuation_cons {low high : UInt8} (count : Nat) (rest : List UInt8)
    (hlow : low.toNat ≤ n) (hhigh : n ≤ high.toNat) :
    continuation low high (count + 1) (UInt8.ofNat n :: rest)
      = UInt8.ofNat n :: continuation 0x80 0xbf count rest := by
  have hn : n < 256 := Nat.lt_of_le_of_lt hhigh high.toNat_lt
  have hwithin : (low ≤ UInt8.ofNat n && UInt8.ofNat n ≤ high) = true := by
    rw [Bool.and_eq_true, decide_eq_true_eq, decide_eq_true_eq, UInt8.le_iff_toNat_le,
      UInt8.le_iff_toNat_le, UInt8.toNat_ofNat_of_lt' hn]
    exact ⟨hlow, hhigh⟩
  rw [continuation, if_pos hwithin]

/-- Six bits of a character continue any sequence after its second byte. -/
theorem continuation_low (count m : Nat) (rest : List UInt8) :
    continuation 0x80 0xbf (count + 1) (UInt8.ofNat (m % 64 + 0x80) :: rest)
      = UInt8.ofNat (m % 64 + 0x80) :: continuation 0x80 0xbf count rest := by
  apply continuation_cons
  · simp
  · simp only [UInt8.reduceToNat]
    omega

end Sequence

/-- The numbers of characters have two ranges, below the surrogates and above them. -/
theorem val_ranges (c : Char) :
    c.val.toNat < 0xd800 ∨ 0xdfff < c.val.toNat ∧ c.val.toNat < 0x110000 := c.valid

/-- The sequence of a character is the first piece of any bytes that it begins. -/
theorem firstPiece_utf8EncodeChar (c : Char) (rest : List UInt8) :
    ∃ b more, String.utf8EncodeChar c = b :: more ∧
      firstPiece b (more ++ rest) = (.char c, more.length + 1) := by
  have hranges := val_ranges c
  have hchar : Char.ofNat c.val.toNat = c := Char.ofNat_toNat c
  unfold String.utf8EncodeChar
  simp only
  generalize c.val.toNat = v at hranges hchar ⊢
  have hlow (m : Nat) : (UInt8.ofNat (m % 64 + 0x80)).toNat = m % 64 + 0x80 :=
    UInt8.toNat_ofNat_of_lt' (show m % 64 + 0x80 < 256 by omega)
  split
  · refine ⟨_, _, rfl, ?_⟩
    have hv : v < 256 := by omega
    simp only [firstPiece, ofNat_lt_iff hv, UInt8.reduceToNat]
    rw [if_pos (by omega), UInt8.toNat_ofNat_of_lt' hv, hchar]
    rfl
  split
  · refine ⟨_, _, rfl, ?_⟩
    have ha : v / 64 % 32 + 0xc0 < 256 := by omega
    simp only [firstPiece, ofNat_lt_iff ha, UInt8.reduceToNat]
    rw [if_neg (by omega), sequenceShape?_two (by omega) (by omega)]
    simp only [List.cons_append, List.nil_append, continuation_low, continuation_zero,
      List.length_cons, List.length_nil, if_true, sequenceChar, UInt8.toNat_ofNat_of_lt' ha, hlow]
    rw [← hchar]
    congr 3
    omega
  split
  · refine ⟨_, _, rfl, ?_⟩
    have ha : v / 4096 % 16 + 0xe0 < 256 := by omega
    simp only [firstPiece, ofNat_lt_iff ha, UInt8.reduceToNat]
    rw [if_neg (by omega), sequenceShape?_three (by omega) (by omega)]
    simp only [List.cons_append, List.nil_append]
    have hlower : (if v / 4096 % 16 + 0xe0 = 0xe0 then 0xa0 else 0x80 : UInt8).toNat
        ≤ v / 64 % 64 + 0x80 := by
      simp only [apply_ite UInt8.toNat, UInt8.reduceToNat]
      split <;> omega
    have hupper : v / 64 % 64 + 0x80
        ≤ (if v / 4096 % 16 + 0xe0 = 0xed then 0x9f else 0xbf : UInt8).toNat := by
      simp only [apply_ite UInt8.toNat, UInt8.reduceToNat]
      split <;> omega
    rw [continuation_cons _ _ hlower hupper]
    simp only [continuation_low, continuation_zero,
      List.length_cons, List.length_nil, if_true, sequenceChar, UInt8.toNat_ofNat_of_lt' ha, hlow]
    rw [← hchar]
    congr 3
    omega
  · refine ⟨_, _, rfl, ?_⟩
    have ha : v / 262144 % 8 + 0xf0 < 256 := by omega
    simp only [firstPiece, ofNat_lt_iff ha, UInt8.reduceToNat]
    rw [if_neg (by omega), sequenceShape?_four (by omega) (by omega)]
    simp only [List.cons_append, List.nil_append]
    have hlower : (if v / 262144 % 8 + 0xf0 = 0xf0 then 0x90 else 0x80 : UInt8).toNat
        ≤ v / 4096 % 64 + 0x80 := by
      simp only [apply_ite UInt8.toNat, UInt8.reduceToNat]
      split <;> omega
    have hupper : v / 4096 % 64 + 0x80
        ≤ (if v / 262144 % 8 + 0xf0 = 0xf4 then 0x8f else 0xbf : UInt8).toNat := by
      simp only [apply_ite UInt8.toNat, UInt8.reduceToNat]
      split <;> omega
    rw [continuation_cons _ _ hlower hupper]
    simp only [continuation_low, continuation_zero,
      List.length_cons, List.length_nil, if_true, sequenceChar, UInt8.toNat_ofNat_of_lt' ha, hlow]
    rw [← hchar]
    congr 3
    omega

/-! ## All characters -/

theorem utf8Pieces_utf8EncodeChar_append (c : Char) (rest : List UInt8) :
    utf8Pieces (String.utf8EncodeChar c ++ rest) = .char c :: utf8Pieces rest := by
  obtain ⟨b, more, hbytes, hpiece⟩ := firstPiece_utf8EncodeChar c rest
  rw [hbytes, List.cons_append, utf8Pieces, hpiece]
  simp

theorem utf8Pieces_utf8 (s : String) : utf8Pieces (utf8 s) = s.toList.map .char := by
  rw [utf8_eq_flatMap]
  induction s.toList with
  | nil => simp [utf8Pieces]
  | cons c rest ih => rw [List.flatMap_cons, utf8Pieces_utf8EncodeChar_append, ih, List.map_cons]

/-- The bytes of a text hold that text. -/
theorem utf8?_utf8 (s : String) : utf8? (utf8 s) = some s := by
  have hchars : (s.toList.map Utf8Piece.char).mapM Utf8Piece.char? = some s.toList := by
    induction s.toList with
    | nil => rfl
    | cons c rest ih => simp [ih, Utf8Piece.char?]
  rw [utf8?, utf8Pieces_utf8, hchars, Option.map_some, String.ofList_toList]

theorem utf8_injective {s s' : String} (h : utf8 s = utf8 s') : s = s' := by
  have hread : some s = some s' := by rw [← utf8?_utf8, h, utf8?_utf8]
  exact Option.some.inj hread

end ChainWatch.Text
