import Mathlib.Data.List.Induction
import Mathlib.Data.String.Basic
import ChainWatch.Node.Value

/-!
# Numbers in hexadecimal texts

A number of 64 bits has room for eight bytes of digits, an amount and a hash for thirty-two. Longer
texts are refused, and two characters never give more than one byte, so what is read fits: the
readers of `Value` give the number that the digits stand for and cut nothing off
(`number64?_eq_some_iff`, `amount?_eq_some_iff`, `hash?_eq_some_iff`).
-/

namespace ChainWatch

theorem bigEndian_concat (bytes : List UInt8) (b : UInt8) :
    bigEndian (bytes ++ [b]) = bigEndian bytes * 256 + b.toNat := by
  unfold bigEndian
  rw [List.foldl_concat]

theorem bigEndian_lt (bytes : List UInt8) : bigEndian bytes < 256 ^ bytes.length := by
  induction bytes using List.reverseRecOn with
  | nil => exact Nat.one_pos
  | append_singleton bytes b ih =>
    rw [bigEndian_concat, List.length_append, List.length_singleton, Nat.pow_succ]
    have hb : b.toNat < 256 := b.toNat_lt
    omega

namespace Hex

/-- Two characters give at most one byte, the half that waits counted as one of them. -/
theorem length_pairLoosely {half : Option Nat} {cs : List Char} {bytes : List UInt8}
    (h : pairLoosely half cs = some bytes) :
    2 * bytes.length ≤ cs.length + half.toList.length := by
  induction cs generalizing half bytes with
  | nil =>
    cases h
    exact Nat.zero_le _
  | cons c rest ih =>
    rw [pairLoosely] at h
    by_cases hblank : isBlank c
    · rw [if_pos hblank] at h
      have hle := ih h
      rw [List.length_cons]
      omega
    · rw [if_neg hblank] at h
      obtain ⟨value, -, h⟩ := Option.bind_eq_some_iff.mp h
      cases half with
      | none =>
        -- the digit waits for its partner
        have hle := ih h
        have hone : (some value).toList.length = 1 := rfl
        rw [List.length_cons]
        omega
      | some high =>
        obtain ⟨others, hothers, heq⟩ := Option.bind_eq_some_iff.mp h
        have hle := ih hothers
        have hnone : (none : Option Nat).toList.length = 0 := rfl
        have hone : (some high).toList.length = 1 := rfl
        cases heq
        rw [List.length_cons, List.length_cons]
        omega

/-- A character takes at least a byte. -/
theorem length_le_utf8ByteSize (cs : List Char) : cs.length ≤ (String.ofList cs).utf8ByteSize := by
  rw [String.utf8ByteSize_ofList]
  induction cs with
  | nil => exact Nat.zero_le _
  | cons c rest ih =>
    have hc : 0 < c.utf8Size := c.utf8Size_pos
    rw [List.length_cons, String.utf8Len_cons]
    omega

/-- The half byte that an odd number of characters starts with. -/
theorem length_half (size : Nat) :
    (if size % 2 = 1 then some 0 else none : Option Nat).toList.length = size % 2 := by
  by_cases hodd : size % 2 = 1
  · rw [if_pos hodd, hodd]
    rfl
  · have heven : size % 2 = 0 := by omega
    rw [if_neg hodd, heven]
    rfl

/-- No more bytes are read than there is room for. -/
theorem length_read? {extent : Extent} {count : Nat} {s : String} {bytes : List UInt8}
    (room : ∀ size, extent.admits size → size ≤ 2 * count) (h : read? extent s = some bytes) :
    bytes.length ≤ count := by
  unfold read? at h
  have hdigits := length_le_utf8ByteSize (strip0x s.toList)
  by_cases hadmits : extent.admits (String.ofList (strip0x s.toList)).utf8ByteSize
  · have hsize := room _ hadmits
    simp only [if_pos hadmits] at h
    have hle := length_pairLoosely h
    rw [length_half] at hle
    omega
  · simp only [if_neg hadmits] at h
    cases h

theorem readNumber?_lt {count : Nat} {s : String} {n : Nat} (h : readNumber? count s = some n) :
    n < 256 ^ count := by
  obtain ⟨bytes, hbytes, rfl⟩ := Option.map_eq_some_iff.mp h
  have hlength : bytes.length ≤ count := by
    apply length_read? _ hbytes
    intro size hsize
    have hboth : 0 < size ∧ size ≤ 2 * count := by simpa [Extent.admits] using hsize
    exact hboth.2
  exact Nat.lt_of_lt_of_le (bigEndian_lt bytes) (Nat.pow_le_pow_right (by decide) hlength)

theorem length_readFixed? {count : Nat} {s : String} {bytes : List UInt8}
    (h : readFixed? count s = some bytes) : bytes.length = count := by
  obtain ⟨read, hread, rfl⟩ := Option.map_eq_some_iff.mp h
  have hlength : read.length ≤ count := by
    apply length_read? _ hread
    intro size hsize
    have hexact : size = 2 * count := by simpa [Extent.admits] using hsize
    exact Nat.le_of_eq hexact
  rw [List.length_append, List.length_replicate]
  omega

end Hex

namespace Node.Value

/-! ## What a value stands for -/

/-- The number that the digits of a value stand for, of at most so many bytes. -/
def quantity? (count : Nat) (v : Value) : Option Nat := v.text?.bind (Hex.readNumber? count)

/-- The value is the text of a number of 64 bits. -/
def TellsNumber (v : Value) (n : UInt64) : Prop := v.quantity? 8 = some n.toNat

/-- The value is the text of an amount. -/
def TellsAmount (v : Value) (w : Word) : Prop := v.quantity? 32 = some w.toNat

/-- The value is the text of a hash: its bytes are those of the hash. -/
def TellsHash (v : Value) (h : Hash) : Prop :=
  ∃ bytes, v.fixed? 32 = some bytes ∧ bigEndian bytes = h.value.toNat

theorem quantity?_lt {count : Nat} {v : Value} {n : Nat} (h : v.quantity? count = some n) :
    n < 256 ^ count := by
  obtain ⟨s, -, hs⟩ := Option.bind_eq_some_iff.mp h
  exact Hex.readNumber?_lt hs

theorem number64?_eq (v : Value) : v.number64? = (v.quantity? 8).map UInt64.ofNat := by
  unfold number64? quantity?
  cases v.text? with
  | none => rfl
  | some s => rfl

theorem amount?_eq (v : Value) : v.amount? = (v.quantity? 32).map Word.clamp := by
  unfold amount? quantity?
  cases v.text? with
  | none => rfl
  | some s => rfl

theorem hash?_eq (v : Value) : v.hash? = (v.fixed? 32).map Hash.ofBytes := by
  unfold hash? fixed?
  cases v.text? with
  | none => rfl
  | some s => rfl

theorem toNat_clamp_of_lt {n : Nat} (h : n < 256 ^ 32) : (Word.clamp n).toNat = n := by
  have hsize : Word.size = 256 ^ 32 := by decide
  rw [Word.toNat_clamp, hsize]
  omega

theorem number64?_eq_some_iff (v : Value) (n : UInt64) : v.number64? = some n ↔ v.TellsNumber n := by
  unfold TellsNumber
  rw [number64?_eq, Option.map_eq_some_iff]
  constructor
  · intro ⟨m, hm, hn⟩
    have hlt : m < UInt64.size := quantity?_lt hm
    rw [hm, ← hn, UInt64.toNat_ofNat_of_lt' hlt]
  · intro h
    exact ⟨n.toNat, h, UInt64.ofNat_toNat⟩

theorem amount?_eq_some_iff (v : Value) (w : Word) : v.amount? = some w ↔ v.TellsAmount w := by
  unfold TellsAmount
  rw [amount?_eq, Option.map_eq_some_iff]
  constructor
  · intro ⟨m, hm, hw⟩
    rw [hm, ← hw, toNat_clamp_of_lt (quantity?_lt hm)]
  · intro h
    exact ⟨w.toNat, h, Word.toNat_inj.mp (toNat_clamp_of_lt (quantity?_lt h))⟩

theorem hash?_eq_some_iff (v : Value) (h : Hash) : v.hash? = some h ↔ v.TellsHash h := by
  have hroom {bytes : List UInt8} (hbytes : v.fixed? 32 = some bytes) :
      (Hash.ofBytes bytes).value.toNat = bigEndian bytes := by
    obtain ⟨s, -, hs⟩ := Option.bind_eq_some_iff.mp hbytes
    apply toNat_clamp_of_lt
    rw [← Hex.length_readFixed? hs]
    exact bigEndian_lt bytes
  unfold TellsHash
  rw [hash?_eq, Option.map_eq_some_iff]
  constructor
  · intro ⟨bytes, hbytes, heq⟩
    exact ⟨bytes, hbytes, by rw [← hroom hbytes, heq]⟩
  · intro ⟨bytes, hbytes, heq⟩
    refine ⟨bytes, hbytes, ?_⟩
    have hvalue : (Hash.ofBytes bytes).value = h.value := by
      rw [← Word.toNat_inj, hroom hbytes, heq]
    obtain ⟨value⟩ := h
    exact congrArg Hash.mk hvalue

end Node.Value

end ChainWatch
