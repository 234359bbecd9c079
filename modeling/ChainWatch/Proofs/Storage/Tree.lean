import ChainWatch.Proofs.Lookup
import ChainWatch.Storage.FileTree

/-!
# What stands where after a change

For each change of a file tree: what stands at every path afterwards. A tree is keyed if no path
is listed twice in it; every change keeps it so, and then the entries of a directory can be told
from what stands at their paths.
-/

namespace ChainWatch.Storage.FileTree

variable {t : FileTree} {p src dst : Path} {item : Item}

/-- No path is listed twice. -/
def Keyed (t : FileTree) : Prop := (t.items.map Prod.fst).Nodup

/-- What stands below a place stands in a directory. -/
def Closed (t : FileTree) (q : Path) : Prop :=
  ∀ p name, t.item? (q ++ (p ++ [name])) ≠ none → t.item? (q ++ p) = some .dir

/-- A keyed tree in which everything stands in a directory. -/
structure Proper (t : FileTree) : Prop where
  keyed : t.Keyed
  closed : t.Closed []

/-- What stands above something is a directory. -/
theorem Closed.above {q rest : Path} (h : t.Closed q) (hrest : rest ≠ [])
    (hitem : t.item? (q ++ (p ++ rest)) ≠ none) : t.item? (q ++ p) = some .dir := by
  induction rest generalizing p with
  | nil => exact absurd rfl hrest
  | cons name rest ih =>
    apply h p name
    by_cases hnil : rest = []
    · rwa [hnil] at hitem
    · rw [ih hnil (by simpa using hitem)]
      exact Option.some_ne_none _

/-- Nothing stands below what is not a directory. -/
theorem Closed.none_below {q rest : Path} (h : t.Closed q) (hdir : t.item? (q ++ p) ≠ some .dir)
    (hrest : rest ≠ []) : t.item? (q ++ (p ++ rest)) = none := by
  cases hitem : t.item? (q ++ (p ++ rest)) with
  | none => rfl
  | some item => exact absurd (h.above hrest (by rw [hitem]; exact Option.some_ne_none _)) hdir

theorem item?_of_ne_nil (hp : p ≠ []) : t.item? p = t.items.lookup p := if_neg hp

theorem mem_items_iff (h : t.Keyed) (hp : p ≠ []) :
    (p, item) ∈ t.items ↔ t.item? p = some item := by
  rw [item?_of_ne_nil hp, lookup_eq_some_iff_mem h]

/-! ## Putting and taking away -/

theorem item?_put (hp : p ≠ []) (item : Item) (x : Path) :
    (t.put p item).item? x = if x = p then some item else t.item? x := by
  by_cases hx : x = []
  · have hxp : x ≠ p := fun h => hp (h.symm.trans hx)
    rw [if_neg hxp, hx]
    rfl
  · rw [item?_of_ne_nil hx, item?_of_ne_nil hx, put, List.lookup_cons]
    by_cases hxp : x = p
    · simp only [hxp, beq_self_eq_true, if_true]
    · simp only [beq_eq_false_iff_ne.mpr hxp, if_neg hxp]
      rw [lookup_filter_ne, if_neg hxp]

theorem item?_erase (hp : p ≠ []) (x : Path) :
    (t.erase p).item? x = if x = p then none else t.item? x := by
  by_cases hx : x = []
  · have hxp : x ≠ p := fun h => hp (h.symm.trans hx)
    rw [if_neg hxp, hx]
    rfl
  · rw [item?_of_ne_nil hx, item?_of_ne_nil hx]
    exact lookup_filter_ne t.items p x

theorem Keyed.erase (h : t.Keyed) (p : Path) : (t.erase p).Keyed :=
  List.Nodup.sublist (List.filter_sublist.map Prod.fst) h

theorem Keyed.put (h : t.Keyed) (p : Path) (item : Item) : (t.put p item).Keyed := by
  refine List.nodup_cons.mpr ⟨?_, h.erase p⟩
  intro hmem
  obtain ⟨entry, hentry, hkey⟩ := List.mem_map.mp hmem
  exact absurd hkey (by simpa using (List.mem_filter.mp hentry).2)

/-! ## Moving -/

/-- Where a path leads when all below `src` goes below `dst`. -/
def moved (src dst p : Path) : Path := if src.isPrefixOf p then dst ++ p.drop src.length else p

theorem moved_append (src dst p : Path) : moved src dst (src ++ p) = dst ++ p := by
  simp [moved]

theorem moved_of_not_below (h : ¬ src <+: p) : moved src dst p = p := by
  rw [moved, if_neg (by rwa [List.isPrefixOf_iff_prefix])]

theorem moved_eq_append_iff (hp : ¬ dst <+: p) (y : Path) :
    moved src dst p = dst ++ y ↔ p = src ++ y := by
  by_cases hbelow : src <+: p
  · obtain ⟨z, rfl⟩ := hbelow
    rw [moved_append, List.append_cancel_left_eq, List.append_cancel_left_eq]
  · rw [moved_of_not_below hbelow]
    constructor
    · intro heq
      exact absurd ⟨y, heq.symm⟩ hp
    · intro heq
      exact absurd ⟨y, heq.symm⟩ hbelow

theorem moved_eq_iff {x : Path} (hdst : ¬ dst <+: x) (hsrc : ¬ src <+: x) :
    moved src dst p = x ↔ p = x := by
  by_cases hbelow : src <+: p
  · obtain ⟨z, rfl⟩ := hbelow
    rw [moved_append]
    constructor
    · intro heq
      exact absurd ⟨z, heq⟩ hdst
    · intro heq
      exact absurd ⟨z, heq⟩ hsrc
  · rw [moved_of_not_below hbelow]

theorem moved_inj {x : Path} (hp : ¬ dst <+: p) (hx : ¬ dst <+: x)
    (heq : moved src dst p = moved src dst x) : p = x := by
  by_cases hbelow : src <+: x
  · obtain ⟨y, rfl⟩ := hbelow
    rw [moved_append] at heq
    exact (moved_eq_append_iff hp y).mp heq
  · rw [moved_of_not_below hbelow] at heq
    exact (moved_eq_iff hx hbelow).mp heq

/-- Nothing is left at the old place. -/
theorem moved_ne {x : Path} (hdst : ¬ dst <+: x) (hsrc : src <+: x) : moved src dst p ≠ x := by
  intro heq
  by_cases hbelow : src <+: p
  · obtain ⟨z, rfl⟩ := hbelow
    rw [moved_append] at heq
    exact hdst ⟨z, heq⟩
  · rw [moved_of_not_below hbelow] at heq
    exact hbelow (heq ▸ hsrc)

theorem items_move (t : FileTree) (src dst : Path) :
    (t.move src dst).items = (t.items.filter fun entry => entry.1 ≠ dst).map fun entry =>
      (moved src dst entry.1, entry.2) := by
  unfold move moved
  refine List.map_congr_left fun entry _ => ?_
  dsimp only
  split <;> rfl

/-- Where nothing is below a path, a move to it leaves nothing of what was there. -/
theorem not_below_of_mem (h : t.Keyed) (hdst : dst ≠ [])
    (hbare : ∀ y, y ≠ [] → t.item? (dst ++ y) = none) :
    ∀ entry ∈ t.items.filter fun entry => entry.1 ≠ dst, ¬ dst <+: entry.1 := by
  rintro entry hmem ⟨y, hy⟩
  obtain ⟨hentry, hne⟩ := List.mem_filter.mp hmem
  have hy' : y ≠ [] := by
    rintro rfl
    exact absurd hy.symm (by simpa using hne)
  have hfound : t.item? (dst ++ y) = some entry.2 := by
    rw [← mem_items_iff h (by simp [hdst]), hy]
    exact hentry
  rw [hbare y hy'] at hfound
  exact absurd hfound (by simp)

/-- A move takes an item, with all below it, to a place that has nothing below it. -/
theorem item?_move (h : t.Keyed) (hsrc : src ≠ []) (hdst : dst ≠ []) (hapart : ¬ src <+: dst)
    (hbare : ∀ y, y ≠ [] → t.item? (dst ++ y) = none) (x : Path) :
    (t.move src dst).item? x =
      if dst <+: x then t.item? (src ++ x.drop dst.length)
      else if src <+: x then none else t.item? x := by
  by_cases hx : x = []
  · have hdst' : ¬ dst <+: x := by simpa [hx] using hdst
    have hsrc' : ¬ src <+: x := by simpa [hx] using hsrc
    rw [if_neg hdst', if_neg hsrc', hx]
    rfl
  have hkept := not_below_of_mem h hdst hbare
  rw [item?_of_ne_nil hx, items_move]
  split
  · -- what is below the new place now is what was below the old one
    rename_i hbelow
    obtain ⟨y, rfl⟩ := hbelow
    have hne : src ++ y ≠ dst := fun heq => hapart ⟨y, heq⟩
    rw [List.drop_left, item?_of_ne_nil (by simp [hsrc]),
      lookup_map_key (b := src ++ y), lookup_filter_ne, if_neg hne]
    exact fun entry hmem => moved_eq_append_iff (hkept entry hmem) y
  · rename_i hdst'
    split
    · -- nothing is left at the old place
      rename_i hsrc'
      apply lookup_eq_none_of_forall
      intro entry hmem
      obtain ⟨entry, -, rfl⟩ := List.mem_map.mp hmem
      exact moved_ne hdst' hsrc'
    · -- the rest stays
      rename_i hsrc'
      have hne : x ≠ dst := fun heq => hdst' (heq ▸ List.prefix_refl _)
      rw [item?_of_ne_nil hx, lookup_map_key (b := x), lookup_filter_ne, if_neg hne]
      exact fun entry _ => moved_eq_iff hdst' hsrc'

theorem Keyed.move (h : t.Keyed) (hdst : dst ≠ [])
    (hbare : ∀ y, y ≠ [] → t.item? (dst ++ y) = none) : (t.move src dst).Keyed := by
  have hkept := not_below_of_mem h hdst hbare
  have hfilter : ((t.items.filter fun entry => entry.1 ≠ dst).map Prod.fst).Nodup := h.erase dst
  rw [Keyed, items_move, List.map_map]
  rw [List.Nodup, List.pairwise_map] at hfilter ⊢
  refine hfilter.imp_of_mem ?_
  rintro ⟨x, _⟩ ⟨x', _⟩ hx hx' hne heq
  exact hne (moved_inj (hkept _ hx) (hkept _ hx') heq)

/-! ## The entries of a directory -/

/-- What the path of an item says about a directory's entries. -/
def entryOf? (p : Path) (entry : Path × Item) : Option (Name × Item) :=
  match entry.1.getLast? with
  | some name => if entry.1.dropLast = p then some (name, entry.2) else none
  | none => none

theorem entryOf?_eq_some_iff {entry : Path × Item} {name : Name} :
    entryOf? p entry = some (name, item) ↔ entry = (p ++ [name], item) := by
  obtain ⟨q, item'⟩ := entry
  constructor
  · intro hsome
    dsimp only [entryOf?] at hsome
    split at hsome
    · rename_i name' hlast
      split at hsome
      · rename_i hq
        obtain ⟨q', rfl⟩ := List.getLast?_eq_some_iff.mp hlast
        rw [List.dropLast_concat] at hq
        simp only [Option.some.injEq, Prod.mk.injEq] at hsome
        rw [hq, hsome.1, hsome.2]
      · exact absurd hsome (by simp)
    · exact absurd hsome (by simp)
  · intro heq
    simp only [Prod.mk.injEq] at heq
    simp [entryOf?, heq.1, heq.2]

theorem children_eq (t : FileTree) (p : Path) : t.children p = t.items.filterMap (entryOf? p) := rfl

theorem mem_children_iff (h : t.Keyed) {name : Name} :
    (name, item) ∈ t.children p ↔ t.item? (p ++ [name]) = some item := by
  rw [← mem_items_iff h (by simp), children_eq, List.mem_filterMap]
  constructor
  · rintro ⟨entry, hmem, hsome⟩
    rwa [entryOf?_eq_some_iff.mp hsome] at hmem
  · intro hmem
    exact ⟨_, hmem, entryOf?_eq_some_iff.mpr rfl⟩

theorem nodup_children (h : t.Keyed) (p : Path) : ((t.children p).map Prod.fst).Nodup := by
  rw [children_eq, List.Nodup, List.pairwise_map]
  refine List.Pairwise.filterMap _ ?_ (List.pairwise_map.mp h)
  rintro entry entry' hne ⟨name, item⟩ hname ⟨name', item'⟩ hname' rfl
  rw [entryOf?_eq_some_iff] at hname hname'
  exact hne (by rw [hname, hname'])

theorem children_eq_nil_iff (h : t.Keyed) :
    t.children p = [] ↔ ∀ name, t.item? (p ++ [name]) = none := by
  rw [List.eq_nil_iff_forall_not_mem]
  constructor
  · intro hnone name
    rw [Option.eq_none_iff_forall_ne_some]
    exact fun item hitem => hnone (name, item) ((mem_children_iff h).mpr hitem)
  · rintro hnone ⟨name, item⟩ hmem
    rw [mem_children_iff h, hnone name] at hmem
    exact absurd hmem (by simp)

/-- In whatever order it is, a listing names every entry of a directory once and tells whether it is
a directory. -/
theorem list_of_follow (h : t.Keyed) {path : Path} (hfollow : t.follow path = .found p .dir) :
    ∃ entries, t.list path = .ok entries ∧ (entries.map Prod.fst).Nodup ∧
      ∀ name isDir, (name, isDir) ∈ entries ↔
        ∃ item, t.item? (p ++ [name]) = some item ∧ (item == .dir) = isDir := by
  refine ⟨_, by rw [list, hfollow], ?_, fun name isDir => ?_⟩
  · rw [((t.order.perm _ _).map Prod.fst).nodup_iff, List.map_map]
    exact nodup_children h p
  · rw [(t.order.perm _ _).mem_iff, List.mem_map]
    constructor
    · rintro ⟨⟨name', item⟩, hmem, heq⟩
      simp only [Prod.mk.injEq] at heq
      rw [← heq.1, ← heq.2]
      exact ⟨item, (mem_children_iff h).mp hmem, rfl⟩
    · rintro ⟨item, hitem, rfl⟩
      exact ⟨(name, item), (mem_children_iff h).mpr hitem, rfl⟩

end ChainWatch.Storage.FileTree
