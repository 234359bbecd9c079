import ChainWatch.Proofs.Storage.Housing
import Mathlib.Data.List.Basic
import Mathlib.Data.List.Induction

/-!
# How the paths of a store are written

The names on the way to a file are written one after the other, with slashes between them. No name
of a store has a slash in it, so different ways are written differently (`pathText_injective`), and
every name leads one directory down.
-/

namespace ChainWatch.Storage

/-- A name that an entry of a directory can have. -/
structure Entry (name : Name) : Prop where
  nonempty : name ≠ []
  not_here : name ≠ [46]
  not_up : name ≠ [46, 46]
  no_slash : 47 ∉ name
  no_nul : 0 ∉ name

section

variable {s : Store} {name : String} {names names' : List Name}

/-! ## The names of a store -/

/-- A byte below 128 is a character of its own. -/
theorem exists_of_mem_utf8 {b : UInt8} (hb : b.toNat < 128) (h : b ∈ Text.utf8 name) :
    ∃ c ∈ name.toList, c.toNat = b.toNat := by
  rw [Text.utf8_eq_flatMap, List.mem_flatMap] at h
  obtain ⟨c, hc, hbyte⟩ := h
  refine ⟨c, hc, ?_⟩
  change c.val.toNat = b.toNat
  have hvalue := Text.val_ranges c
  unfold String.utf8EncodeChar at hbyte
  simp only at hbyte
  generalize c.val.toNat = v at hvalue hbyte
  split at hbyte
  · rw [List.mem_singleton.mp hbyte, UInt8.toNat_ofNat_of_lt' (Nat.lt_of_le_of_lt ‹_› (by decide))]
  · -- all bytes of a longer sequence are high
    have hhigh (n : Nat) (hlow : 128 ≤ n) (hn : n < 256) : b ≠ UInt8.ofNat n := by
      rintro rfl
      rw [UInt8.toNat_ofNat_of_lt' hn] at hb
      omega
    exfalso
    split at hbyte
    · simp only [List.mem_cons, List.not_mem_nil, or_false] at hbyte
      rcases hbyte with heq | heq <;> exact hhigh _ (by omega) (by omega) heq
    · split at hbyte
      · simp only [List.mem_cons, List.not_mem_nil, or_false] at hbyte
        rcases hbyte with heq | heq | heq <;> exact hhigh _ (by omega) (by omega) heq
      · simp only [List.mem_cons, List.not_mem_nil, or_false] at hbyte
        rcases hbyte with heq | heq | heq | heq <;> exact hhigh _ (by omega) (by omega) heq

theorem entry_utf8 (hne : name.toList ≠ []) (hchars : ∀ c ∈ name.toList, c ≠ '/' ∧ c.toNat ≠ 0)
    (hhere : Text.utf8 name ≠ [46]) (hup : Text.utf8 name ≠ [46, 46]) :
    Entry (Text.utf8 name) := by
  refine ⟨?_, hhere, hup, fun hslash => ?_, fun hnul => ?_⟩
  · intro hempty
    have hname : name = "" := Text.utf8_injective (hempty.trans (by rw [Text.utf8_eq_flatMap]; rfl))
    exact hne (by rw [hname]; rfl)
  · obtain ⟨c, hc, hcode⟩ := exists_of_mem_utf8 (by decide) hslash
    exact (hchars c hc).1 (Char.toNat_inj.mp hcode)
  · obtain ⟨c, hc, hcode⟩ := exists_of_mem_utf8 (by decide) hnul
    exact (hchars c hc).2 hcode

theorem acceptable_chars (h : acceptable name = true) :
    ∀ c ∈ name.toList, c ≠ '/' ∧ c.toNat ≠ 0 := by
  simp only [acceptable, Bool.and_eq_true, List.all_eq_true] at h
  intro c hc
  have hchar := h.2 c hc
  simp at hchar
  exact ⟨hchar.1.1, hchar.2⟩

theorem entry_of_acceptable (h : acceptable name = true) : Entry (Text.utf8 name) :=
  entry_utf8 (acceptable_ne_nil h) (acceptable_chars h) (dotless_of_head (acceptable_head h)).1
    (dotless_of_head (acceptable_head h)).2

theorem entry_temporaryName (h : acceptable name = true) :
    Entry (Text.utf8 (temporaryName name)) := by
  have hlength := length_temporaryName name
  refine entry_utf8 (by simp [temporaryName]) (fun c hc => ?_) (fun hdot => ?_) (fun hdots => ?_)
  · simp only [temporaryName, String.toList_append, List.mem_append] at hc
    rcases hc with (hdot | hname) | htmp
    · obtain rfl : c = '.' := by simpa using hdot
      decide
    · exact acceptable_chars h c hname
    · simp at htmp
      rcases htmp with rfl | rfl | rfl | rfl <;> decide
  · simp [hdot] at hlength
  · simp [hdots] at hlength

theorem entry_snapshotName (h : acceptable name = true) (suffix : Int) :
    Entry (Text.utf8 (snapshotName name suffix)) := by
  have hhead := dotless_of_head (snapshotName_head h suffix)
  refine entry_utf8 (by simp [snapshotName]) (fun c hc => ?_) hhead.1 hhead.2
  simp only [snapshotName, String.toList_append, List.mem_append] at hc
  rcases hc with (hname | hdot) | hsuffix
  · exact acceptable_chars h c hname
  · obtain rfl : c = '.' := by simpa using hdot
    decide
  · rcases mem_suffix hsuffix with rfl | hdigit
    · decide
    · have hplain (c' : Char) (hc' : c'.isDigit = false) : c ≠ c' := fun heq =>
        Bool.false_ne_true ((heq ▸ hc').symm.trans hdigit)
      exact ⟨hplain '/' (by decide), fun hzero =>
        hplain (Char.ofNat 0) (by decide) (Char.toNat_inj.mp hzero)⟩

theorem Area.entry (area : Area) : Entry area.name := by
  cases area <;> constructor <;> rw [Area.name_eq] <;> decide

/-! ## Written ways -/

theorem pathText_concat (s : Store) (names : List Name) (name : Name) :
    s.pathText (names ++ [name]) =
      if s.pathText names = [] ∨ (s.pathText names).getLast? = some 47
      then s.pathText names ++ name else s.pathText names ++ 47 :: name := by
  simp [Store.pathText]

/-- What is written does not end with a slash once a name is. -/
theorem pathText_ends (s : Store) (init : List Name) {last : Name} (hlast : Entry last) :
    s.pathText (init ++ [last]) ≠ [] ∧ (s.pathText (init ++ [last])).getLast? ≠ some 47 := by
  obtain ⟨front, hfront⟩ : ∃ front, s.pathText (init ++ [last]) = front ++ last := by
    rw [pathText_concat]
    split
    · exact ⟨_, rfl⟩
    · exact ⟨s.pathText init ++ [47], by simp⟩
  rw [hfront, List.getLast?_append_of_ne_nil _ hlast.nonempty]
  exact ⟨by simp [hlast.nonempty], fun hslash => hlast.no_slash (List.mem_of_getLast? hslash)⟩

/-- Different ways of one length are written differently. -/
theorem pathText_injective (hnames : ∀ name ∈ names, Entry name)
    (hnames' : ∀ name ∈ names', Entry name) (hlength : names.length = names'.length)
    (h : s.pathText names = s.pathText names') : names = names' := by
  induction names using List.reverseRecOn generalizing names' with
  | nil => exact (List.length_eq_zero_iff.mp hlength.symm).symm
  | append_singleton init last ih =>
    obtain ⟨init', last', rfl⟩ : ∃ init' last', names' = init' ++ [last'] := by
      have hne : names' ≠ [] := by
        rintro rfl
        simp at hlength
      exact ⟨_, _, (List.dropLast_concat_getLast hne).symm⟩
    obtain ⟨hinit, hlast⟩ := List.forall_mem_append.mp hnames
    obtain ⟨hinit', hlast'⟩ := List.forall_mem_append.mp hnames'
    have hshorter : init.length = init'.length := by simpa using hlength
    rw [List.forall_mem_singleton] at hlast hlast'
    rcases List.eq_nil_or_concat' init with rfl | ⟨above, name, rfl⟩
    · -- only the last name is written below the data directory
      obtain rfl : init' = [] := List.length_eq_zero_iff.mp hshorter.symm
      rw [pathText_concat, pathText_concat] at h
      split at h
      · rw [List.append_cancel_left h]
      · rw [(List.cons.inj (List.append_cancel_left h)).2]
    · -- a slash stands before the last name, and none in it
      obtain ⟨above', name', rfl⟩ : ∃ above' name', init' = above' ++ [name'] := by
        have hne : init' ≠ [] := by
          rintro rfl
          simp at hshorter
        exact ⟨_, _, (List.dropLast_concat_getLast hne).symm⟩
      have hends := pathText_ends s above (hinit name (by simp))
      have hends' := pathText_ends s above' (hinit' name' (by simp))
      rw [pathText_concat s (above ++ [name]), if_neg (not_or.mpr hends),
        pathText_concat s (above' ++ [name']), if_neg (not_or.mpr hends')] at h
      obtain ⟨hfront, rfl⟩ := append_cons_inj_of_last hlast.no_slash hlast'.no_slash h
      rw [ih hinit hinit' hshorter hfront]

end

end ChainWatch.Storage
