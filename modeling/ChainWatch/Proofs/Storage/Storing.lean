import ChainWatch.Proofs.Storage.Copying

/-!
# Which names can be stored

A store counts the characters of a name, the system counts the bytes, and the files of a record have
longer names than the record: five bytes more while it is being saved, and a dot with a suffix more
for a copy. `Store.Reached.stored_iff` says which acceptable names can be saved, read and copied,
whatever was done in the store before: those for which the system takes all these names.
-/

namespace ChainWatch.Storage

open FileTree Program

section

variable {s : Store} {t : FileTree} {directory name : String}

/-- The longest name that a save makes is that of the temporary file. -/
theorem Save.storable_iff {c : Save} :
    c.Storable ↔ c.Named ∧ (Text.utf8 c.directory).length ≤ longestName ∧
      (Text.utf8 c.name).length + 5 ≤ longestName := by
  have hlength := length_temporaryName c.name
  constructor
  · intro h
    have htemporary := h.short (Text.utf8 (temporaryName c.name)) (by simp [Save.temporary])
    exact ⟨h.named, h.short _ (by simp [Save.temporary, Save.dir]), by omega⟩
  · rintro ⟨hnamed, hdirectory, hname⟩
    refine ⟨hnamed, fun name hmem => ?_⟩
    simp only [Save.temporary, Save.dir, List.mem_append, List.mem_cons, List.not_mem_nil,
      or_false] at hmem
    rcases hmem with (rfl | rfl) | rfl
    · exact Area.current.plain.short
    · exact hdirectory
    · omega

/-- A record that was saved is among those that can be read. -/
theorem Standing.read_saved (h : Standing s t) {c : Save}
    (hok : ((c.program s).run t).2 = .ok ()) :
    ∃ found, (s.readAll.run ((c.program s).run t).1).2 = .ok found ∧
      ⟨c.directory, c.name, c.data⟩ ∈ found := by
  obtain ⟨found, hrun, -, hmem⟩ := h.reads_saved hok
  refine ⟨found, by rw [hrun], (hmem _).mpr ?_⟩
  rw [Reference.update, if_pos ⟨rfl, rfl⟩]

/-- In a store that nothing disturbs, a record with acceptable names can be saved, read back and
copied exactly when the system takes the names of its directory, of its temporary file and of the
copy with the first free suffix, and there is such a suffix. -/
theorem Store.Reached.stored_iff {calls : List (Program Answer)} (h : s.Reached t calls)
    (hd : acceptable directory = true) (hn : acceptable name = true) (pieces : List Bytes)
    (clock : Int64) :
    ((((s.save pieces directory name).run t).2 = .ok () ∧
        ∃ found, (s.readAll.run ((s.save pieces directory name).run t).1).2 = .ok found ∧
          ⟨directory, name, pieces.flatten⟩ ∈ found) ∧
      ∃ path, ((s.snapshot clock.toInt pieces directory name).run t).2 = .ok path) ↔
    (Text.utf8 directory).length ≤ longestName ∧ (Text.utf8 name).length + 5 ≤ longestName ∧
      ∃ free, FirstFree (s.copyAt t directory name) clock.toInt free ∧ free < 2 ^ 63 ∧
        (Text.utf8 (snapshotName name free)).length ≤ longestName := by
  obtain ⟨hstanding, -⟩ := h.standing
  have hsave := hstanding.run_save_ok_iff (c := ⟨pieces, directory, name⟩)
  have hread := hstanding.read_saved (c := ⟨pieces, directory, name⟩)
  rw [hstanding.run_snapshot_ok_iff hd hn clock pieces]
  constructor
  · rintro ⟨⟨hok, -⟩, hdirectory, hcopied⟩
    obtain ⟨-, -, htemporary⟩ := Save.storable_iff.mp (hsave.mp hok)
    exact ⟨hdirectory, htemporary, hcopied⟩
  · rintro ⟨hdirectory, htemporary, hcopied⟩
    have hok := hsave.mpr (Save.storable_iff.mpr ⟨⟨hn, hd⟩, hdirectory, htemporary⟩)
    exact ⟨⟨hok, hread hok⟩, hdirectory, hcopied⟩

end

/-- A record is stored in a new data directory. -/
theorem stored_first_page :
    dataStore.Reached .empty [] ∧ acceptable "books" = true ∧ acceptable "a" = true ∧
      ((((dataStore.save [[65, 65]] "books" "a").run .empty).2 = .ok () ∧
          ∃ found, (dataStore.readAll.run
              ((dataStore.save [[65, 65]] "books" "a").run .empty).1).2 = .ok found ∧
            ⟨"books", "a", [65, 65]⟩ ∈ found) ∧
        ∃ path, ((dataStore.snapshot (5 : Int64).toInt [[65, 65]] "books" "a").run .empty).2
          = .ok path) := by
  have hreached : dataStore.Reached .empty [] := .start proper_empty (.inr missing_dataStore)
  have hunused : dataStore.copyAt .empty "books" "a" (5 : Int64).toInt = none :=
    missing_dataStore.contentAt (List.cons_ne_nil _ _)
  refine ⟨hreached, by decide, by decide,
    (hreached.stored_iff (by decide) (by decide) [[65, 65]] 5).mpr
      ⟨?_, ?_, 5, .here hunused, ?_, ?_⟩⟩
  · rw [Text.utf8_eq_flatMap]
    decide
  · rw [Text.utf8_eq_flatMap]
    decide
  · decide
  · cbv

/-- A name of so many characters of two bytes each. -/
def wideName (count : Nat) : String := String.ofList (List.replicate count 'é')

theorem length_wideName (count : Nat) : (Text.utf8 (wideName count)).length = count * 2 := by
  have hbytes : (String.utf8EncodeChar 'é').length = 2 := by decide
  rw [Text.utf8_eq_flatMap, wideName, String.toList_ofList, List.flatMap_replicate,
    List.length_flatten, List.map_replicate, hbytes, List.sum_replicate, smul_eq_mul]

theorem acceptable_wideName {count : Nat} (hlow : 0 < count) (hhigh : count ≤ longestRecordName) :
    acceptable (wideName count) = true := by
  have hne : count ≠ 0 := by omega
  simp [acceptable, wideName, List.head?_replicate, hne, hhigh]

/-- An acceptable name can be too long for the files of its record. -/
theorem wide_name_not_stored :
    dataStore.Reached .empty [] ∧ acceptable "d" = true ∧ acceptable (wideName 126) = true ∧
      ((dataStore.save [[120]] "d" (wideName 126)).run .empty).2 ≠ .ok () ∧
      ¬ ∃ path, ((dataStore.snapshot (1700000000000000000 : Int64).toInt [[120]] "d"
        (wideName 126)).run .empty).2 = .ok path := by
  have hreached : dataStore.Reached .empty [] := .start proper_empty (.inr missing_dataStore)
  obtain ⟨hstanding, -⟩ := hreached.standing
  have hname : acceptable (wideName 126) = true := acceptable_wideName (by decide) (by decide)
  have hlength := length_wideName 126
  refine ⟨hreached, by decide, hname, fun hok => ?_, ?_⟩
  · obtain ⟨-, -, hshort⟩ := Save.storable_iff.mp
      ((hstanding.run_save_ok_iff (c := ⟨[[120]], "d", wideName 126⟩)).mp hok)
    dsimp only at hshort
    rw [hlength] at hshort
    exact absurd hshort (by decide)
  · rw [hstanding.run_snapshot_ok_iff (by decide) hname]
    rintro ⟨-, free, hfirst, -, hshort⟩
    have hunused : dataStore.copyAt .empty "d" (wideName 126) (1700000000000000000 : Int64).toInt
        = none := missing_dataStore.contentAt (List.cons_ne_nil _ _)
    have hsuffix : (Text.utf8 (toString (1700000000000000000 : Int64).toInt)).length = 19 := by cbv
    rw [hfirst.eq_clock hunused, snapshotName, Text.utf8_append, Text.utf8_append,
      List.length_append, List.length_append, hlength, utf8_dot, hsuffix] at hshort
    exact absurd hshort (by decide)

end ChainWatch.Storage
