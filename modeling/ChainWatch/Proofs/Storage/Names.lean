import ChainWatch.Proofs.Text.Digits
import ChainWatch.Proofs.Text.Utf8
import ChainWatch.Storage.Store

/-!
# The names of files

A store derives the names of its files from names that callers choose: `a` for the record, `.a.tmp`
while it is being saved, `a.5` for a snapshot. Different records have different files, whatever
characters the names have, and no file of one kind is taken for one of another.
-/

namespace ChainWatch.Storage

/-- A name that every way takes as it is: not a dot, not two dots and not too long. -/
structure Plain (name : Name) : Prop where
  not_here : name ≠ [46]
  not_up : name ≠ [46, 46]
  short : name.length ≤ FileTree.longestName

/-- A name that may be given to a store and leaves room for what the store adds to it. -/
structure Fitting (name : String) : Prop where
  acceptable : acceptable name = true
  room : (Text.utf8 name).length ≤ 230

/-! ## Chosen names -/

variable {name name' : String}

theorem acceptable_ne_nil (h : acceptable name = true) : name.toList ≠ [] := by
  simp only [acceptable, Bool.and_eq_true] at h
  simpa using h.1.1.1

theorem acceptable_head (h : acceptable name = true) : name.toList.head? ≠ some '.' := by
  simp only [acceptable, Bool.and_eq_true] at h
  simpa using h.1.2

theorem utf8_dot : Text.utf8 "." = [46] := by
  rw [Text.utf8_eq_flatMap]
  decide

theorem utf8_dots : Text.utf8 ".." = [46, 46] := by
  rw [Text.utf8_eq_flatMap]
  decide

/-- What does not begin with a dot is neither a dot nor two. -/
theorem dotless_of_head (hhead : name.toList.head? ≠ some '.') :
    Text.utf8 name ≠ [46] ∧ Text.utf8 name ≠ [46, 46] := by
  rw [← utf8_dots, ← utf8_dot]
  constructor <;> intro heq <;> rw [Text.utf8_injective heq] at hhead <;> exact hhead rfl

theorem plain_of_head (hhead : name.toList.head? ≠ some '.')
    (hshort : (Text.utf8 name).length ≤ FileTree.longestName) : Plain (Text.utf8 name) :=
  ⟨(dotless_of_head hhead).1, (dotless_of_head hhead).2, hshort⟩

theorem Fitting.plain (h : Fitting name) : Plain (Text.utf8 name) :=
  plain_of_head (acceptable_head h.acceptable) (Nat.le_trans h.room (by decide))

theorem Area.name_eq (area : Area) :
    area.name = match area with
      | .current => [99, 117, 114, 114, 101, 110, 116]
      | .snapshot => [115, 110, 97, 112, 115, 104, 111, 116]
      | .archive => [97, 114, 99, 104, 105, 118, 101] := by
  cases area <;> rw [Area.name, Text.utf8_eq_flatMap] <;> rfl

theorem Area.plain (area : Area) : Plain area.name := by
  cases area <;> constructor <;> rw [Area.name_eq] <;> decide

theorem Area.name_injective {area area' : Area} (h : area.name = area'.name) : area = area' := by
  rw [Area.name_eq, Area.name_eq] at h
  cases area <;> cases area' <;> first | rfl | exact absurd h (by decide)

/-! ## Temporary files -/

theorem utf8_temporaryName (name : String) :
    Text.utf8 (temporaryName name) = 46 :: Text.utf8 name ++ Text.utf8 ".tmp" := by
  rw [temporaryName, Text.utf8_append, Text.utf8_append, utf8_dot]
  rfl

theorem length_temporaryName (name : String) :
    (Text.utf8 (temporaryName name)).length = (Text.utf8 name).length + 5 := by
  have htmp : (Text.utf8 ".tmp").length = 4 := by
    rw [Text.utf8_eq_flatMap]
    decide
  rw [utf8_temporaryName, List.length_append, List.length_cons, htmp]

theorem isTemporary_temporaryName (name : String) : isTemporary (temporaryName name) = true := by
  rw [isTemporary, utf8_temporaryName, Bool.and_eq_true]
  constructor
  · simp [temporaryName]
  · rw [List.isSuffixOf_iff_suffix]
    exact List.suffix_append _ _

theorem isTemporary_of_acceptable (h : acceptable name = true) : isTemporary name = false := by
  have hhead := acceptable_head h
  rw [isTemporary, Bool.and_eq_false_iff]
  exact .inl (by simpa using hhead)

/-- A record never has the name of a temporary file. -/
theorem temporaryName_ne (h : acceptable name' = true) : temporaryName name ≠ name' := by
  intro heq
  have htemporary := isTemporary_temporaryName name
  rw [heq, isTemporary_of_acceptable h] at htemporary
  exact Bool.false_ne_true htemporary

theorem Fitting.plain_temporaryName (h : Fitting name) :
    Plain (Text.utf8 (temporaryName name)) := by
  have hlength := length_temporaryName name
  have hroom := h.room
  constructor
  · intro hdot
    simp [hdot] at hlength
  · intro hdots
    simp [hdots] at hlength
  · rw [hlength, FileTree.longestName]
    omega

/-! ## Snapshots -/

theorem toList_suffix (suffix : Int) :
    (toString suffix).toList
      = (if 0 ≤ suffix then [] else ['-']) ++ Nat.toDigits 10 suffix.natAbs := by
  rw [Int.toString_eq_repr, Int.repr_eq_if]
  split
  · have habs : suffix.toNat = suffix.natAbs := by omega
    rw [Nat.toList_repr, habs, List.nil_append]
  · have habs : (-suffix).toNat = suffix.natAbs := by omega
    rw [String.toList_append, Nat.toList_repr, habs]
    rfl

/-- A suffix is written with digits, after a minus sign if it is negative. -/
theorem mem_suffix {suffix : Int} {c : Char} (h : c ∈ (toString suffix).toList) :
    c = '-' ∨ c.isDigit = true := by
  rw [toList_suffix, List.mem_append] at h
  rcases h with hsign | hdigit
  · split at hsign
    · exact absurd hsign (List.not_mem_nil)
    · exact .inl (List.mem_singleton.mp hsign)
  · exact .inr (Nat.isDigit_of_mem_toDigits (by decide) (by decide) hdigit)

theorem suffix_injective {suffix suffix' : Int}
    (h : (toString suffix).toList = (toString suffix').toList) : suffix = suffix' := by
  have hsign (n : Nat) : '-' ∉ Nat.toDigits 10 n := by
    intro hmem
    exact absurd (Nat.isDigit_of_mem_toDigits (by decide) (by decide) hmem) (by decide)
  rw [toList_suffix, toList_suffix] at h
  split at h <;> split at h
  · have habs := decimal_injective h
    omega
  · rw [List.nil_append] at h
    exact absurd (h ▸ List.mem_append_left _ List.mem_cons_self) (hsign suffix.natAbs)
  · rw [List.nil_append] at h
    exact absurd (h ▸ List.mem_append_left _ List.mem_cons_self) (hsign suffix'.natAbs)
  · have habs := decimal_injective (List.append_cancel_left h)
    omega

/-- The last separator parts equal lists in the same way. -/
theorem append_cons_inj_of_last {α : Type} {separator : α} {before before' after after' : List α}
    (hafter : separator ∉ after) (hafter' : separator ∉ after')
    (h : before ++ separator :: after = before' ++ separator :: after') :
    before = before' ∧ after = after' := by
  rcases List.append_eq_append_iff.mp h with ⟨more, hbefore, hrest⟩ | ⟨more, hbefore, hrest⟩
  · cases more with
    | nil => exact ⟨by simpa using hbefore.symm, (List.cons.inj hrest).2⟩
    | cons first more =>
      exact absurd ((List.cons.inj hrest).2 ▸ List.mem_append_right _ List.mem_cons_self) hafter
  · cases more with
    | nil => exact ⟨by simpa using hbefore, (List.cons.inj hrest).2.symm⟩
    | cons first more =>
      exact absurd ((List.cons.inj hrest).2 ▸ List.mem_append_right _ List.mem_cons_self) hafter'

/-- The last dot of a snapshot's name parts the record's name, which may have dots of its own, from
the suffix. -/
theorem snapshotName_injective {suffix suffix' : Int}
    (h : snapshotName name suffix = snapshotName name' suffix') :
    name = name' ∧ suffix = suffix' := by
  have hdot (k : Int) : '.' ∉ (toString k).toList := by
    intro hmem
    exact absurd (mem_suffix hmem) (by decide)
  have hlists : name.toList ++ '.' :: (toString suffix).toList
      = name'.toList ++ '.' :: (toString suffix').toList := by
    simpa [snapshotName] using congrArg String.toList h
  obtain ⟨hname, hsuffix⟩ := append_cons_inj_of_last (hdot suffix) (hdot suffix') hlists
  exact ⟨String.toList_inj.mp hname, suffix_injective hsuffix⟩

/-- A byte holds each character of a suffix, and twenty hold them all. -/
theorem length_suffix {suffix : Int} (hlow : -2 ^ 63 ≤ suffix) (hhigh : suffix < 2 ^ 63) :
    (Text.utf8 (toString suffix)).length ≤ 20 := by
  have hbyte : ∀ c ∈ (toString suffix).toList, (String.utf8EncodeChar c).length = 1 := by
    intro c hc
    rw [String.length_utf8EncodeChar, Char.utf8Size_eq_one_iff]
    rcases mem_suffix hc with rfl | hdigit
    · decide
    · rw [Char.isDigit, Bool.and_eq_true, decide_eq_true_eq, decide_eq_true_eq] at hdigit
      exact UInt32.le_trans hdigit.2 (by decide)
  have hbytes : (Text.utf8 (toString suffix)).length = (toString suffix).toList.length := by
    rw [Text.utf8_eq_flatMap, List.length_flatMap, List.map_congr_left hbyte, List.map_const',
      List.sum_replicate_nat, Nat.mul_one]
  have hdigits : (Nat.toDigits 10 suffix.natAbs).length ≤ 19 := by
    rw [Nat.length_toDigits_le_iff (by decide) (by decide)]
    omega
  rw [hbytes, toList_suffix, List.length_append]
  split
  · rw [List.length_nil]
    omega
  · rw [List.length_singleton]
    omega

theorem snapshotName_head (h : acceptable name = true) (suffix : Int) :
    (snapshotName name suffix).toList.head? ≠ some '.' := by
  have hhead := acceptable_head h
  obtain ⟨c, rest, hcs⟩ := List.exists_cons_of_ne_nil (acceptable_ne_nil h)
  rw [hcs] at hhead
  simpa [snapshotName, hcs] using hhead

theorem Fitting.plain_snapshotName {suffix : Int} (h : Fitting name) (hlow : -2 ^ 63 ≤ suffix)
    (hhigh : suffix < 2 ^ 63) : Plain (Text.utf8 (snapshotName name suffix)) := by
  apply plain_of_head (snapshotName_head h.acceptable suffix)
  have hroom := h.room
  have hsuffix := length_suffix hlow hhigh
  rw [snapshotName, Text.utf8_append, Text.utf8_append, utf8_dot, List.length_append,
    List.length_append, List.length_singleton, FileTree.longestName]
  omega

end ChainWatch.Storage
