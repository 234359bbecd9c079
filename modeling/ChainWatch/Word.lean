/-!
# Words: 256-bit unsigned amounts

Prices, gas limits and transaction nonces are unsigned 256-bit words. Sums and products stop at
the largest word instead of wrapping, so that a price that grows without bound ends at the top
and never turns cheap again.

The meaning of every operation is given by `Word.toNat`: `satAdd` and `satMul` are the exact
sum and product cut at `Word.last`.
-/

namespace ChainWatch

/-- The number of words, two to the 256th power. -/
abbrev Word.size : Nat := 0x10000000000000000000000000000000000000000000000000000000000000000

/-- An unsigned 256-bit number. -/
structure Word where
  toNat : Nat
  toNat_lt : toNat < Word.size
deriving DecidableEq

namespace Word

theorem size_pos : 0 < size := by decide

/-- The largest word. -/
def last : Word := ⟨size - 1, by decide⟩

/-- The word nearest to `n`: `n` itself where it fits, else the largest word. -/
def clamp (n : Nat) : Word := ⟨min n (size - 1), by have := size_pos; omega⟩

/-- The word with value `n`, if there is one. -/
def ofNat? (n : Nat) : Option Word := if h : n < size then some ⟨n, h⟩ else none

def zero : Word := ⟨0, by decide⟩

instance : Inhabited Word := ⟨zero⟩

instance : LE Word := ⟨fun a b => a.toNat ≤ b.toNat⟩

instance : LT Word := ⟨fun a b => a.toNat < b.toNat⟩

instance (a b : Word) : Decidable (a ≤ b) := inferInstanceAs (Decidable (a.toNat ≤ b.toNat))

instance (a b : Word) : Decidable (a < b) := inferInstanceAs (Decidable (a.toNat < b.toNat))

instance : Min Word := ⟨fun a b => if a ≤ b then a else b⟩

instance : Max Word := ⟨fun a b => if a ≤ b then b else a⟩

/-- Sum, cut at the largest word. -/
def satAdd (a b : Word) : Word := clamp (a.toNat + b.toNat)

/-- Product, cut at the largest word. -/
def satMul (a b : Word) : Word := clamp (a.toNat * b.toNat)

/-- Whole quotient by a positive constant. -/
def quotient (a : Word) (d : Nat) : Word :=
  ⟨a.toNat / d, Nat.lt_of_le_of_lt (Nat.div_le_self _ _) a.toNat_lt⟩

/-- The word as a decimal number. -/
def decimal (a : Word) : String := toString a.toNat

/-! ## Meaning of the operations -/

theorem le_def {a b : Word} : a ≤ b ↔ a.toNat ≤ b.toNat := Iff.rfl

theorem lt_def {a b : Word} : a < b ↔ a.toNat < b.toNat := Iff.rfl

protected theorem le_refl (a : Word) : a ≤ a := Nat.le_refl a.toNat

theorem not_le {a b : Word} : ¬ a ≤ b ↔ b < a := Nat.not_le

theorem toNat_inj {a b : Word} : a.toNat = b.toNat ↔ a = b := by
  cases a; cases b; simp

@[simp] theorem toNat_clamp (n : Nat) : (clamp n).toNat = min n (size - 1) := rfl

@[simp] theorem toNat_satAdd (a b : Word) :
    (a.satAdd b).toNat = min (a.toNat + b.toNat) (size - 1) := rfl

@[simp] theorem toNat_satMul (a b : Word) :
    (a.satMul b).toNat = min (a.toNat * b.toNat) (size - 1) := rfl

@[simp] theorem toNat_quotient (a : Word) (d : Nat) : (a.quotient d).toNat = a.toNat / d := rfl

theorem toNat_min (a b : Word) : (min a b).toNat = min a.toNat b.toNat := by
  show (if a ≤ b then a else b).toNat = _
  by_cases h : a ≤ b <;> simp [h] <;> rw [le_def] at h <;> omega

theorem toNat_max (a b : Word) : (max a b).toNat = max a.toNat b.toNat := by
  show (if a ≤ b then b else a).toNat = _
  by_cases h : a ≤ b <;> simp [h] <;> rw [le_def] at h <;> omega

/-! ## The operations keep the order -/

theorem clamp_mono {m n : Nat} (h : m ≤ n) : clamp m ≤ clamp n := by
  rw [le_def, toNat_clamp, toNat_clamp]
  omega

theorem satAdd_mono {a b c d : Word} (h : a ≤ b) (k : c ≤ d) : a.satAdd c ≤ b.satAdd d :=
  clamp_mono (Nat.add_le_add h k)

theorem satMul_mono {a b c d : Word} (h : a ≤ b) (k : c ≤ d) : a.satMul c ≤ b.satMul d :=
  clamp_mono (Nat.mul_le_mul h k)

theorem quotient_mono {a b : Word} (h : a ≤ b) (d : Nat) : a.quotient d ≤ b.quotient d :=
  Nat.div_le_div_right h

theorem max_mono {a b c d : Word} (h : a ≤ b) (k : c ≤ d) : max a c ≤ max b d := by
  rw [le_def] at h k ⊢
  rw [toNat_max, toNat_max]
  omega

theorem min_mono {a b c d : Word} (h : a ≤ b) (k : c ≤ d) : min a c ≤ min b d := by
  rw [le_def] at h k ⊢
  rw [toNat_min, toNat_min]
  omega

end Word

end ChainWatch
