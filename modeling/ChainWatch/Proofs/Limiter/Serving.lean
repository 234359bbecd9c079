import ChainWatch.Limiter.Callers

/-!
# Who is served

A limiter has some slots for those who wait, namely those that are not out. `Serves` says that it
has handed them to the first in the line and keeps the rest free. All operations of a limiter keep
it: each of them changes the line in one place, or the number of slots by one.
-/

namespace ChainWatch.Limiter

variable {p : Permits} {slots : Nat} {line : List Nat} {ticket : Nat}

/-- Of the slots that are not out, one each is handed to the first in the line; the others are
free, and the rest of the line queues up. -/
structure Serves (p : Permits) (slots : Nat) (line : List Nat) : Prop where
  free : p.free = slots - line.length
  handed : p.handed = line.take slots
  queue : p.queue = line.drop slots

/-! ## The line without one caller -/

theorem take_erase_of_mem (h : ticket ∈ line.take slots) :
    (line.erase ticket).take (slots - 1) = (line.take slots).erase ticket ∧
      (line.erase ticket).drop (slots - 1) = line.drop slots := by
  have hsplit : line.erase ticket = (line.take slots).erase ticket ++ line.drop slots := by
    rw [← List.erase_append_left _ h, List.take_append_drop]
  have hlength : ((line.take slots).erase ticket).length = min slots line.length - 1 := by
    rw [List.length_erase_of_mem h, List.length_take]
  rw [hsplit]
  by_cases hlong : slots ≤ line.length
  · have hpart : ((line.take slots).erase ticket).length = slots - 1 := by omega
    exact ⟨List.take_left' hpart, List.drop_left' hpart⟩
  · have hrest : line.drop slots = [] := List.drop_eq_nil_of_le (by omega)
    rw [hrest, List.append_nil]
    exact ⟨List.take_of_length_le (by omega), List.drop_eq_nil_of_le (by omega)⟩

theorem take_erase_of_not_mem (hmem : ticket ∈ line) (h : ticket ∉ line.take slots) :
    (line.erase ticket).take slots = line.take slots ∧
      (line.erase ticket).drop slots = (line.drop slots).erase ticket := by
  have hsplit : line.erase ticket = line.take slots ++ (line.drop slots).erase ticket := by
    rw [← List.erase_append_right _ h, List.take_append_drop]
  have hlong : slots ≤ line.length := by
    refine Nat.le_of_not_lt fun hshort => h ?_
    rwa [List.take_of_length_le (Nat.le_of_lt hshort)]
  have hpart : (line.take slots).length = slots := List.length_take_of_le hlong
  rw [hsplit]
  exact ⟨List.take_left' hpart, List.drop_left' hpart⟩

/-! ## The operations -/

/-- One slot more goes to the first who was not served. -/
theorem Serves.handOver (h : Serves p slots line) : Serves p.handOver (slots + 1) line := by
  have hqueue := h.queue
  unfold Permits.handOver
  split
  next hempty =>
    rw [hempty] at hqueue
    have hshort : line.length ≤ slots := List.drop_eq_nil_iff.mp hqueue.symm
    refine ⟨?_, ?_, ?_⟩
    · have hfree := h.free
      dsimp only
      omega
    · rw [List.take_of_length_le (by omega), ← List.take_of_length_le hshort]
      exact h.handed
    · rw [List.drop_eq_nil_of_le (by omega)]
      exact hempty
  next first rest hfirst =>
    rw [hfirst] at hqueue
    have hlong : slots < line.length := by
      refine Nat.lt_of_not_le fun hshort => ?_
      rw [List.drop_eq_nil_of_le hshort] at hqueue
      exact absurd hqueue (List.cons_ne_nil _ _)
    have hdrop := List.drop_eq_getElem_cons hlong
    rw [← hqueue, List.cons.injEq] at hdrop
    refine ⟨?_, ?_, hdrop.2⟩
    · have hfree := h.free
      dsimp only
      omega
    · rw [List.take_add_one, List.getElem?_eq_getElem hlong, ← hdrop.1, ← h.handed]
      rfl

/-- Where someone was handed a slot there is one. -/
theorem Serves.slots_pos (h : Serves p slots line) (hmem : ticket ∈ p.handed) : 0 < slots := by
  have hlength := List.length_pos_of_mem hmem
  rw [h.handed, List.length_take] at hlength
  omega

/-- A slot that was handed over leaves the line with its caller. -/
theorem Serves.eraseHanded (h : Serves p slots line) (hmem : ticket ∈ p.handed) :
    Serves { p with handed := p.handed.erase ticket } (slots - 1) (line.erase ticket) := by
  have hslots := h.slots_pos hmem
  rw [h.handed] at hmem
  obtain ⟨htake, hdrop⟩ := take_erase_of_mem hmem
  refine ⟨?_, ?_, ?_⟩
  · have hfree := h.free
    have hline := List.mem_of_mem_take hmem
    have hlength := List.length_erase_of_mem hline
    have hpos := List.length_pos_of_mem hline
    dsimp only
    omega
  · rw [htake, h.handed]
  · rw [hdrop, h.queue]

/-- Whoever takes its slot leaves the line with it. -/
theorem Serves.take (h : Serves p slots line) (hmem : ticket ∈ p.handed) :
    Serves (p.take ticket) (slots - 1) (line.erase ticket) :=
  ⟨(h.eraseHanded hmem).free, (h.eraseHanded hmem).handed, (h.eraseHanded hmem).queue⟩

/-- Whoever withdraws leaves the line, and all slots stay with the rest of it. -/
theorem Serves.withdraw (h : Serves p slots line) (hmem : ticket ∈ line) :
    Serves (p.withdraw ticket) slots (line.erase ticket) := by
  unfold Permits.withdraw
  split
  next hhanded =>
    -- the slot that was handed to the caller goes on to the next one who was not served
    have hslots := Nat.sub_add_cancel (h.slots_pos hhanded)
    have hpassed := (h.eraseHanded hhanded).handOver
    rwa [hslots] at hpassed
  next hwaits =>
    rw [h.handed] at hwaits
    obtain ⟨htake, hdrop⟩ := take_erase_of_not_mem hmem hwaits
    refine ⟨?_, ?_, ?_⟩
    · have hfree := h.free
      have hlength := List.length_erase_of_mem hmem
      have hlong : slots ≤ line.length - 1 := by
        have hlt : slots < line.length := by
          refine Nat.lt_of_not_le fun hshort => hwaits ?_
          rwa [List.take_of_length_le hshort]
        omega
      dsimp only
      omega
    · rw [htake]
      exact h.handed
    · rw [hdrop, ← h.queue]

/-- Whoever asks takes a free slot, or joins the end of the line if there is none. -/
theorem Serves.seek (h : Serves p slots line) (hlimit : p.limit ≠ 0) (ticket : Nat) :
    line.length < slots ∧ (p.seek ticket).2 = .permit ∧
        Serves (p.seek ticket).1 (slots - 1) line ∨
      slots ≤ line.length ∧ (p.seek ticket).2 = .queued ∧
        Serves (p.seek ticket).1 slots (line ++ [ticket]) := by
  have hfree := h.free
  unfold Permits.seek
  rw [if_neg hlimit]
  by_cases hsome : 0 < p.free
  · rw [if_pos hsome]
    have hshort : line.length < slots := by omega
    refine .inl ⟨hshort, rfl, ?_, ?_, ?_⟩
    · dsimp only
      omega
    · rw [List.take_of_length_le (by omega), ← List.take_of_length_le (Nat.le_of_lt hshort)]
      exact h.handed
    · rw [List.drop_eq_nil_of_le (by omega), ← List.drop_eq_nil_of_le (Nat.le_of_lt hshort)]
      exact h.queue
  · rw [if_neg hsome]
    have hlong : slots ≤ line.length := by omega
    refine .inr ⟨hlong, rfl, ?_, ?_, ?_⟩
    · rw [List.length_append]
      dsimp only
      omega
    · rw [List.take_append_of_le_length hlong]
      exact h.handed
    · rw [List.drop_append_of_le_length hlong, ← h.queue]

end ChainWatch.Limiter
