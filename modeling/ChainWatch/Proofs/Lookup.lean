/-!
# Lookups without repeated keys

In a list of pairs in which no key stands twice, looking a key up finds a pair exactly if the list
has it. Caches and file trees are such lists.
-/

namespace ChainWatch

variable {α β : Type} [BEq α] [LawfulBEq α]

/-- Where no key stands twice, a lookup finds what the list has. -/
theorem lookup_eq_some_iff_mem {l : List (α × β)} (nodup : (l.map Prod.fst).Nodup) {a : α} {b : β} :
    l.lookup a = some b ↔ (a, b) ∈ l := by
  induction l with
  | nil => simp
  | cons entry rest ih =>
    obtain ⟨hfresh, hnodup⟩ := List.nodup_cons.mp nodup
    rw [List.lookup_cons, List.mem_cons]
    by_cases hkey : a = entry.1
    · have hrest : (a, b) ∉ rest := fun hmem => hfresh (hkey ▸ List.mem_map_of_mem hmem)
      simp only [hkey, beq_self_eq_true, or_iff_left (hkey ▸ hrest), Option.some.injEq]
      exact ⟨fun h => by rw [← h], fun h => by rw [← h]⟩
    · have hentry : (a, b) ≠ entry := fun h => hkey (by rw [← h])
      simp only [beq_eq_false_iff_ne.mpr hkey, or_iff_right hentry]
      exact ih hnodup

/-- A lookup in a part of such a list finds what it finds in the whole and belongs to the part. -/
theorem lookup_filter {l : List (α × β)} (nodup : (l.map Prod.fst).Nodup) (p : α × β → Bool)
    (a : α) : (l.filter p).lookup a = (l.lookup a).filter fun b => p (a, b) := by
  have hfilter : ((l.filter p).map Prod.fst).Nodup :=
    nodup.sublist (List.filter_sublist.map Prod.fst)
  apply Option.ext
  intro b
  rw [lookup_eq_some_iff_mem hfilter, List.mem_filter, Option.filter_eq_some_iff,
    lookup_eq_some_iff_mem nodup]

/-- Without the pairs of one key, the other keys are found as before. -/
theorem lookup_filter_ne [DecidableEq α] (l : List (α × β)) (a b : α) :
    (l.filter fun entry => entry.1 ≠ a).lookup b = if b = a then none else l.lookup b := by
  induction l with
  | nil => simp
  | cons entry rest ih =>
    rw [List.filter_cons, List.lookup_cons]
    by_cases hentry : entry.1 = a
    · rw [if_neg (by simpa using hentry), ih]
      by_cases hb : b = a
      · rw [if_pos hb, if_pos hb]
      · rw [if_neg hb, if_neg hb, beq_eq_false_iff_ne.mpr (hentry ▸ hb)]
    · rw [if_pos (by simpa using hentry), List.lookup_cons, ih]
      by_cases hkey : b = entry.1
      · simp only [hkey, beq_self_eq_true, if_neg hentry]
      · simp only [beq_eq_false_iff_ne.mpr hkey]

/-- If keys are changed so that exactly the key `b` becomes `a`, then `a` finds what `b` found. -/
theorem lookup_map_key {l : List (α × β)} {f : α → α} {a b : α}
    (hkey : ∀ entry ∈ l, f entry.1 = a ↔ entry.1 = b) :
    (l.map fun entry => (f entry.1, entry.2)).lookup a = l.lookup b := by
  induction l with
  | nil => rfl
  | cons entry rest ih =>
    have hrest := ih fun entry' hentry' => hkey entry' (List.mem_cons_of_mem _ hentry')
    have hfirst := hkey entry List.mem_cons_self
    rw [List.map_cons, List.lookup_cons, List.lookup_cons, hrest]
    by_cases hb : entry.1 = b
    · rw [hfirst.mpr hb, hb, beq_self_eq_true, beq_self_eq_true]
    · have ha : a ≠ f entry.1 := fun h => hb (hfirst.mp h.symm)
      rw [beq_eq_false_iff_ne.mpr ha, beq_eq_false_iff_ne.mpr (Ne.symm hb)]

theorem lookup_eq_none_of_forall {l : List (α × β)} {a : α} (h : ∀ entry ∈ l, entry.1 ≠ a) :
    l.lookup a = none := by
  rw [List.lookup_eq_none_iff]
  intro entry hentry
  exact bne_iff_ne.mpr (h entry hentry).symm

end ChainWatch
