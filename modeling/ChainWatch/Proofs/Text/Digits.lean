import Mathlib.Algebra.Group.Int.Defs
import Mathlib.Algebra.Group.Nat.Defs
import ChainWatch.Hex

/-!
# Digits tell numbers apart

Different numbers have different decimal digits, and different hexadecimal ones where there are
enough of them for both. So different hashes have different texts, and no text of a hash is a
decimal number, since an `x` stands in it.
-/

namespace ChainWatch

theorem decimal_injective {n n' : Nat} (h : Nat.toDigits 10 n = Nat.toDigits 10 n') : n = n' := by
  rw [← Nat.ofDigitChars_ten_toDigits (n := n), h, Nat.ofDigitChars_ten_toDigits]

namespace Hex

theorem digit_injective {n n' : Nat} (h : n < 16) (h' : n' < 16) (heq : digit n = digit n') :
    n = n' := by
  have hall : ∀ m < 16, ∀ m' < 16, digit m = digit m' → m = m' := by decide
  exact hall n h n' h' heq

/-- Numbers that fit into the digits are told apart by them. -/
theorem fixed_injective {width n n' : Nat} (h : n < 16 ^ width) (h' : n' < 16 ^ width)
    (heq : fixed width n = fixed width n') : n = n' := by
  induction width generalizing n n' with
  | zero => rw [Nat.lt_one_iff.mp h, Nat.lt_one_iff.mp h']
  | succ width ih =>
    rw [Nat.pow_succ] at h h'
    obtain ⟨hrest, hlast⟩ := List.append_inj' heq rfl
    have hhigh : n / 16 = n' / 16 := ih (by omega) (by omega) hrest
    have hlow : n % 16 = n' % 16 :=
      digit_injective (Nat.mod_lt _ (by decide)) (Nat.mod_lt _ (by decide)) (List.cons.inj hlast).1
    omega

end Hex

namespace Hash

theorem toList_text (h : Hash) : h.text.toList = '0' :: 'x' :: Hex.fixed 64 h.value.toNat := by
  have hmark : "0x".toList = ['0', 'x'] := by decide
  rw [text, String.toList_append, hmark, String.toList_ofList, List.cons_append, List.cons_append,
    List.nil_append]

theorem text_injective {h h' : Hash} (heq : h.text = h'.text) : h = h' := by
  have hdigits := congrArg String.toList heq
  rw [toList_text, toList_text, List.cons.injEq, List.cons.injEq] at hdigits
  have hsize : Word.size = 16 ^ 64 := by decide
  have hvalue := Hex.fixed_injective (hsize ▸ h.value.toNat_lt) (hsize ▸ h'.value.toNat_lt)
    hdigits.2.2
  obtain ⟨⟨value, _⟩⟩ := h
  obtain ⟨⟨value', _⟩⟩ := h'
  cases hvalue
  rfl

/-- A hash never reads like a decimal number. -/
theorem text_ne_decimal (h : Hash) (n : Nat) : h.text ≠ toString n := by
  intro heq
  have hmem : 'x' ∈ (toString n).toList := by
    rw [← heq, toList_text]
    exact List.mem_cons_of_mem _ List.mem_cons_self
  rw [Nat.toString_eq_repr, Nat.toList_repr] at hmem
  exact absurd (Nat.isDigit_of_mem_toDigits (by decide) (by decide) hmem) (by decide)

end Hash

end ChainWatch
