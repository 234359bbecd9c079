import ChainWatch.Proofs.Storage.Housing

/-!
# What a store with short names leaves below its data directory

Where all names leave room for what the store adds to them, `Stocked` says what stands below a data
directory. Every single step of such a store keeps it, also those between which a record is half
saved or a directory half archived.
-/

namespace ChainWatch.Storage

open FileTree

/-- The names that a store gives to files. -/
inductive FileName : Area → Name → Prop
  | record {area : Area} {name : String} :
    area ≠ .snapshot → Fitting name → FileName area (Text.utf8 name)
  | temporary {area : Area} {name : String} :
    area ≠ .snapshot → Fitting name → FileName area (Text.utf8 (temporaryName name))
  | copy {name : String} {suffix : Int} :
    Fitting name → -2 ^ 63 ≤ suffix → suffix < 2 ^ 63 →
      FileName .snapshot (Text.utf8 (snapshotName name suffix))

/-- What a store leaves below its data directory. -/
inductive Kept : Path → Item → Prop
  | area (area : Area) : Kept [area.name] .dir
  | directory (area : Area) {directory : String} :
    Fitting directory → Kept [area.name, Text.utf8 directory] .dir
  | file {area : Area} {directory : String} {file : Name} (number : Nat) :
    Fitting directory → FileName area file →
      Kept [area.name, Text.utf8 directory, file] (.file number)

theorem Kept.eq_dir {p : Path} {item : Item} (h : Kept p item) (hshallow : p.length ≤ 2) :
    item = .dir := by
  cases h with
  | area => rfl
  | directory => rfl
  | file => simp at hshallow

/-- A tree that differs from another only in what a store left below `q`. -/
structure Stocked (base : FileTree) (q : Path) (t : FileTree) : Prop where
  keyed : t.Keyed
  outside : ∀ x, (∀ p, p ≠ [] → x ≠ q ++ p) → t.item? x = base.item? x
  closed : t.Closed q
  kept : ∀ p item, p ≠ [] → t.item? (q ++ p) = some item → Kept p item
  held : ∀ p number, t.item? (q ++ p) = some (.file number) → number < t.contents.length
  apart : ∀ p p' number, t.item? (q ++ p) = some (.file number) →
    t.item? (q ++ p') = some (.file number) → p = p'

section

variable {s : Store} {base t t' : FileTree} {q p p' : Path} {name : Name} {item : Item}

theorem FileName.given {area : Area} {file : Name} (h : FileName area file) : Given area file := by
  cases h with
  | record harea hname => exact .record harea hname.acceptable
  | temporary harea hname => exact .temporary harea hname.acceptable
  | copy hname => exact .copy _ hname.acceptable

theorem FileName.plain {area : Area} {file : Name} (h : FileName area file) : Plain file := by
  cases h with
  | record _ hname => exact hname.plain
  | temporary _ hname => exact hname.plain_temporaryName
  | copy hname hlow hhigh => exact hname.plain_snapshotName hlow hhigh

theorem Kept.belongs {p : Path} {item : Item} (h : Kept p item) : Belongs p item := by
  cases h with
  | area area => exact .area area
  | directory area hd => exact .directory area hd.acceptable hd.plain
  | file number hd hfile => exact .file number hd.acceptable hd.plain hfile.given hfile.plain

theorem Stocked.rooted (h : Stocked base q t) : Rooted base q t :=
  ⟨h.keyed, h.outside, h.closed, h.held, h.apart⟩

theorem Rooted.stocked (h : Rooted base q t)
    (hkept : ∀ p item, p ≠ [] → t.item? (q ++ p) = some item → Kept p item) : Stocked base q t :=
  ⟨h.keyed, h.outside, h.closed, hkept, h.held, h.apart⟩

/-! ## Finding things -/

theorem Stocked.housed (h : Stocked base q t) (hhome : Home s base q) : Housed s base q t where
  home := hhome
  rooted := h.rooted
  belongs p item hp hitem := (h.kept p item hp hitem).belongs

/-- An empty data directory is a stocked one. -/
theorem Home.stocked (hhome : Home s base q) (hkeyed : base.Keyed) : Stocked base q base := by
  refine (hhome.housed hkeyed).rooted.stocked fun p item hp hitem => ?_
  rw [hhome.bare p hp] at hitem
  exact absurd hitem (by simp)

theorem Stocked.dir (h : Stocked base q t) (hhome : Home s base q) : t.item? q = some .dir :=
  h.rooted.dir hhome

section Ways

variable {followLast : Bool} (hhome : Home s base q) (h : Stocked base q t)
include hhome h

theorem Home.found (hplain : ∀ name' ∈ p ++ [name], Plain name')
    (hitem : t.item? (q ++ (p ++ [name])) = some item) :
    t.locate followLast mostLinks [] (s.path (p ++ [name])) = .found (q ++ (p ++ [name])) item :=
  (h.housed hhome).found hplain hitem

theorem Home.missing (hplain : ∀ name' ∈ p ++ [name], Plain name')
    (hdir : t.item? (q ++ p) = some .dir) (hnone : t.item? (q ++ (p ++ [name])) = none) :
    t.locate followLast mostLinks [] (s.path (p ++ [name])) = .missing (q ++ p) name :=
  (h.housed hhome).missing hplain hdir hnone

theorem Home.failed (hplain : ∀ name' ∈ p, Plain name') (hshallow : p.length ≤ 2)
    (hnone : t.item? (q ++ p) = none) :
    t.locate followLast mostLinks [] (s.path (p ++ [name])) = .failed .noEntry :=
  (h.housed hhome).failed hplain hshallow hnone

end Ways

/-! ## Changing one place -/

/-- A change of one place stays below the data directory if what is new there stands in a directory
and nothing is left below one that is taken away. -/
theorem Rooted.change (h : Rooted base q t) (new : Option Item) (hkeyed : t'.Keyed)
    (hlength : t.contents.length ≤ t'.contents.length)
    (hitem : ∀ x, t'.item? x = if x = q ++ (p ++ [name]) then new else t.item? x)
    (hparent : new ≠ none → t.item? (q ++ p) = some .dir)
    (hleaf : new ≠ some .dir → ∀ below, t.item? (q ++ (p ++ [name] ++ [below])) = none)
    (hfile : ∀ number, new = some (.file number) → number < t'.contents.length ∧
      ∀ p', t.item? (q ++ p') ≠ some (.file number)) : Rooted base q t' := by
  have hitem' : ∀ p', t'.item? (q ++ p') = if p' = p ++ [name] then new else t.item? (q ++ p') := by
    intro p'
    rw [hitem]
    simp only [List.append_cancel_left_eq]
  constructor
  · exact hkeyed
  · intro x hx
    rw [hitem, if_neg (hx _ (by simp))]
    exact h.outside x hx
  · intro p' name' hne
    rw [hitem'] at hne
    rw [hitem']
    split at hne
    · rename_i heq
      obtain ⟨rfl, -⟩ := List.append_inj' heq rfl
      rw [if_neg (by simp), hparent hne]
    · split
      · rename_i heq
        by_cases hnew : new = some .dir
        · exact hnew
        · rw [heq, hleaf hnew name'] at hne
          exact absurd rfl hne
      · exact h.closed p' name' hne
  · intro p' number hsome
    rw [hitem'] at hsome
    split at hsome
    · exact (hfile number hsome).1
    · exact Nat.lt_of_lt_of_le (h.held p' number hsome) hlength
  · intro p₁ p₂ number h₁ h₂
    rw [hitem'] at h₁ h₂
    split at h₁ <;> split at h₂
    · rename_i heq₁ heq₂
      rw [heq₁, heq₂]
    · exact absurd h₂ ((hfile number h₁).2 p₂)
    · exact absurd h₁ ((hfile number h₂).2 p₁)
    · exact h.apart p₁ p₂ number h₁ h₂

/-- What holds of everything below a path still does when one place changes to what it holds of. -/
theorem forall_of_change {K : Path → Item → Prop} {new : Option Item}
    (hitem : ∀ x, t'.item? x = if x = q ++ p then new else t.item? x)
    (hold : ∀ p' item, p' ≠ [] → t.item? (q ++ p') = some item → K p' item)
    (hnew : ∀ item, new = some item → K p item) :
    ∀ p' item, p' ≠ [] → t'.item? (q ++ p') = some item → K p' item := by
  intro p' item hp' hsome
  rw [hitem] at hsome
  split at hsome
  · rename_i heq
    rw [List.append_cancel_left heq]
    exact hnew item hsome
  · exact hold p' item hp' hsome

end

end ChainWatch.Storage
