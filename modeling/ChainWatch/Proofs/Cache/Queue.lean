import Mathlib.Data.List.DropRight
import ChainWatch.Cache.Expiring
import ChainWatch.Proofs.Lookup

/-!
# The queue and the values of a cache

A cache keeps its keys in a queue and its values apart, and decides by the queue what has expired
and by the values what is stored. The two decide alike because they are in step: they hold the same
keys with the same times in the same order, no key twice, and the times rise from the old end to
the new one (`Sound`).

`sweep_eq` is what follows for sweeping: although it stops at the first entry that is alive, it
removes every dead one, and no other. Without the order of the times (`Paired`) a sweep still takes
the same entries out of both, but only those that stand behind every entry that is alive.
-/

namespace ChainWatch.Cache.Expiring

variable {K V : Type}

/-- An entry as the queue knows it. -/
def ticket (entry : K × V × Nat) : K × Nat := (entry.1, entry.2.2)

/-- Is an entry still alive? -/
def aliveAt (timespan now : Nat) (entry : K × V × Nat) : Bool := alive timespan entry.2.2 now

theorem aliveAt_iff (timespan now : Nat) (entry : K × V × Nat) :
    aliveAt timespan now entry = true ↔ now ≤ entry.2.2 + timespan := by
  simp only [aliveAt, alive, decide_eq_true_eq]
  omega

/-- The queue and the values hold the same entries in the same order, no key twice. -/
structure Paired (c : Expiring K V) : Prop where
  order_eq : c.order = c.values.map ticket
  nodup : (c.values.map Prod.fst).Nodup

theorem paired_empty (timespan : Nat) : Paired (empty timespan : Expiring K V) :=
  ⟨rfl, List.nodup_nil⟩

/-- The queue and the values are in step, and nothing was inserted later than `now`. -/
structure Sound (c : Expiring K V) (now : Nat) : Prop where
  order_eq : c.order = c.values.map ticket
  nodup : (c.values.map Prod.fst).Nodup
  sorted : c.values.Pairwise fun newer older => older.2.2 ≤ newer.2.2
  past : ∀ entry ∈ c.values, entry.2.2 ≤ now

theorem sound_empty (timespan now : Nat) : Sound (empty timespan : Expiring K V) now :=
  ⟨rfl, List.nodup_nil, List.Pairwise.nil, nofun⟩

theorem Sound.paired {c : Expiring K V} {now : Nat} (h : Sound c now) : Paired c :=
  ⟨h.order_eq, h.nodup⟩

theorem Sound.mono {c : Expiring K V} {now later : Nat} (h : Sound c now) (le : now ≤ later) :
    Sound c later :=
  ⟨h.order_eq, h.nodup, h.sorted, fun entry hentry => Nat.le_trans (h.past entry hentry) le⟩

/-! ## Sweeping -/

variable [DecidableEq K]

/-- From aligned lists, oldest first, the same entries are dropped, up to the first that is
alive. -/
theorem purgeOldest_aligned (timespan now : Nat) (entries : List (K × V × Nat))
    (nodup : (entries.map Prod.fst).Nodup) :
    purgeOldest timespan now (entries.map ticket) entries.reverse =
      ((entries.dropWhile fun e => !aliveAt timespan now e).map ticket,
        (entries.dropWhile fun e => !aliveAt timespan now e).reverse) := by
  induction entries with
  | nil => rfl
  | cons entry younger ih =>
    obtain ⟨hfresh, hnodup⟩ := List.nodup_cons.mp nodup
    rw [List.map_cons, ticket, purgeOldest]
    by_cases halive : alive timespan entry.2.2 now
    · rw [if_pos halive, List.dropWhile_cons_of_neg (by simpa [aliveAt] using halive)]
      rfl
    · -- the key is in no younger entry, so only this entry leaves the values
      have hfilter : (entry :: younger).reverse.filter (fun e => e.1 ≠ entry.1)
          = younger.reverse := by
        rw [List.reverse_cons, List.filter_append, List.filter_eq_self.mpr]
        · simp
        · intro e he
          have hmem : e.1 ∈ younger.map Prod.fst := List.mem_map_of_mem (List.mem_reverse.mp he)
          exact decide_eq_true fun heq => hfresh (heq ▸ hmem)
      rw [if_neg halive, hfilter, ih hnodup,
        List.dropWhile_cons_of_pos (by simpa [aliveAt] using halive)]

omit [DecidableEq K] in
/-- In a list that is sorted by time, oldest first, the dead entries come first. -/
theorem dropWhile_dead (timespan now : Nat) (entries : List (K × V × Nat))
    (sorted : entries.Pairwise fun older newer => older.2.2 ≤ newer.2.2) :
    entries.dropWhile (fun e => !aliveAt timespan now e) = entries.filter (aliveAt timespan now) := by
  induction entries with
  | nil => rfl
  | cons entry younger ih =>
    obtain ⟨hle, hsorted⟩ := List.pairwise_cons.mp sorted
    by_cases halive : aliveAt timespan now entry
    · have hall : ∀ e ∈ entry :: younger, aliveAt timespan now e := by
        intro e he
        rcases List.mem_cons.mp he with rfl | he
        · exact halive
        · have hentry := (aliveAt_iff timespan now entry).mp halive
          have hlater := hle e he
          exact (aliveAt_iff timespan now e).mpr (by omega)
      rw [List.dropWhile_cons_of_neg (by simpa using halive), List.filter_eq_self.mpr hall]
    · rw [List.dropWhile_cons_of_pos (by simpa using halive), List.filter_cons_of_neg halive, ih hsorted]

/-- Sweeping removes the dead entries at the old end of the queue, and the same ones from the
values. -/
theorem Paired.sweep_eq {c : Expiring K V} (h : Paired c) (now : Nat) :
    c.sweep now = ⟨c.timespan,
      (c.values.rdropWhile fun e => !aliveAt c.timespan now e).map ticket,
      c.values.rdropWhile fun e => !aliveAt c.timespan now e⟩ := by
  have hnodup : (c.values.reverse.map Prod.fst).Nodup := by
    rw [List.map_reverse]
    exact List.pairwise_reverse.mpr (h.nodup.imp Ne.symm)
  have hpurge := purgeOldest_aligned c.timespan now c.values.reverse hnodup
  rw [List.map_reverse, ← h.order_eq, List.reverse_reverse] at hpurge
  simp only [sweep, hpurge, List.rdropWhile, List.map_reverse]

/-- Sweeping removes every dead entry and no other, from the queue as from the values. -/
theorem sweep_eq {c : Expiring K V} {now : Nat} (h : Sound c now) :
    c.sweep now = ⟨c.timespan, (c.values.filter (aliveAt c.timespan now)).map ticket,
      c.values.filter (aliveAt c.timespan now)⟩ := by
  rw [h.paired.sweep_eq, List.rdropWhile, dropWhile_dead _ _ _ (List.pairwise_reverse.mpr h.sorted),
    List.filter_reverse, List.reverse_reverse]

theorem timespan_sweep (c : Expiring K V) (now : Nat) : (c.sweep now).timespan = c.timespan := rfl

theorem Paired.sweep {c : Expiring K V} (h : Paired c) (now : Nat) : Paired (c.sweep now) := by
  rw [h.sweep_eq]
  exact ⟨rfl, h.nodup.sublist ((List.rdropWhile_prefix _ _).sublist.map Prod.fst)⟩

theorem Sound.sweep {c : Expiring K V} {now : Nat} (h : Sound c now) : Sound (c.sweep now) now := by
  rw [sweep_eq h]
  exact ⟨rfl, h.nodup.sublist (List.filter_sublist.map Prod.fst), h.sorted.filter _,
    fun entry hentry => h.past entry (List.mem_filter.mp hentry).1⟩

/-- After a sweep a key is stored exactly if it is alive. -/
theorem stored?_sweep {c : Expiring K V} {now : Nat} (h : Sound c now) (key : K) :
    (c.sweep now).stored? key
      = (c.stored? key).filter fun entry => alive c.timespan entry.2 now := by
  rw [sweep_eq h]
  exact lookup_filter h.nodup _ key

/-! ## Adding -/

/-- Adding to a swept cache: a stored key changes nothing, any other one goes to the new end. -/
theorem add_eq (c : Expiring K V) (now : Nat) (key : K) (value : V) :
    c.add now key value =
      if ((c.sweep now).stored? key).isSome then (c.sweep now, false)
      else (⟨c.timespan, (key, now) :: (c.sweep now).order,
        (key, value, now) :: (c.sweep now).values⟩, true) := rfl

theorem timespan_add (c : Expiring K V) (now : Nat) (key : K) (value : V) :
    (c.add now key value).1.timespan = c.timespan := by
  rw [add_eq]
  split <;> rfl

/-- A key that is not stored stands nowhere among the values. -/
theorem Paired.fresh {c : Expiring K V} (h : Paired c) {key : K}
    (hstored : ¬ (c.stored? key).isSome) : key ∉ c.values.map Prod.fst := by
  intro hmem
  obtain ⟨⟨k, entry⟩, hentry, rfl⟩ := List.mem_map.mp hmem
  have hlookup := (lookup_eq_some_iff_mem h.nodup).mpr hentry
  exact hstored (Option.isSome_iff_exists.mpr ⟨entry, hlookup⟩)

theorem Paired.add {c : Expiring K V} (h : Paired c) (now : Nat) (key : K) (value : V) :
    Paired (c.add now key value).1 := by
  have hswept := h.sweep now
  rw [add_eq]
  by_cases hstored : ((c.sweep now).stored? key).isSome
  · rwa [if_pos hstored]
  · rw [if_neg hstored]
    constructor
    · simp only [List.map_cons, ← hswept.order_eq, ticket]
    · exact List.nodup_cons.mpr ⟨hswept.fresh hstored, hswept.nodup⟩

theorem Sound.add {c : Expiring K V} {now : Nat} (h : Sound c now) (key : K) (value : V) :
    Sound (c.add now key value).1 now := by
  have hswept := h.sweep
  have hpaired := h.paired.add now key value
  rw [add_eq] at hpaired ⊢
  by_cases hstored : ((c.sweep now).stored? key).isSome
  · rwa [if_pos hstored]
  · rw [if_neg hstored] at hpaired ⊢
    refine ⟨hpaired.order_eq, hpaired.nodup, ?_, ?_⟩
    · exact List.pairwise_cons.mpr ⟨hswept.past, hswept.sorted⟩
    · intro entry hentry
      rcases List.mem_cons.mp hentry with rfl | hentry
      · exact Nat.le_refl _
      · exact hswept.past entry hentry

end ChainWatch.Cache.Expiring
