import ChainWatch.Proofs.Mining.Lookups
import Mathlib.Order.Bounds.Basic

/-!
# The pace of a check window

Lookups fall due a poll interval apart, and one lookup waits for the one before it. `lookupTime` is
the schedule that comes of the two rules, for as many lookups as one likes; it knows nothing of the
end of the window or of receipts.

A window makes its lookups at the times of the schedule (`lookUntil_getElem?`), and while no receipt
arrives it leaves out none that fits (`lookUntil_missed_iff`). So it is the deadline that ends a
window without a receipt, and never the number of lookups that it started out with. Where lookups
are answered at once, the schedule is that of the due times alone, and a receipt is found at the
first due time at which it is there (`window_first_due`).
-/

namespace ChainWatch.Mining

variable {answers : Nat → Node.Timed (Option Receipt)} {deadline poll : Nat}

/-! ## The schedule of lookups -/

/-- When the `k`-th lookup starts, counted from zero, should it come to that: when it is due, the
first one at `due` and each further one a poll later, or at once where the waiter was not free by
then. It is free for the first one at `now`, and for each further one when the one before it is
answered. -/
def lookupTime (answers : Nat → Node.Timed (Option Receipt)) (poll due now index : Nat) :
    Nat → Nat
  | 0 => max now due
  | k + 1 =>
    max (lookupTime answers poll due now index k + (answers (index + k)).delay)
      (due + (k + 1) * poll)

/-- The schedule from the second lookup on is a schedule of its own. -/
theorem lookupTime_succ (due now index k : Nat) :
    lookupTime answers poll due now index (k + 1) =
      lookupTime answers poll (due + poll) (max now due + (answers index).delay) (index + 1) k := by
  induction k with
  | zero => rw [lookupTime, lookupTime, lookupTime, Nat.zero_add, Nat.one_mul, Nat.add_zero]
  | succ k ih =>
    have hdue : due + (k + 1 + 1) * poll = due + poll + (k + 1) * poll := by
      rw [Nat.succ_mul (k + 1)]
      omega
    have hindex : index + (k + 1) = index + 1 + k := by omega
    rw [lookupTime, ih, hdue, hindex]
    rfl

/-- No lookup starts before it is due. -/
theorem due_le_lookupTime (answers : Nat → Node.Timed (Option Receipt))
    (poll due now index k : Nat) :
    due + k * poll ≤ lookupTime answers poll due now index k := by
  cases k with
  | zero =>
    rw [lookupTime, Nat.zero_mul]
    exact Nat.le_max_right _ _
  | succ k => exact Nat.le_max_right _ _

/-- No lookup starts before the one before it is answered. -/
theorem answered_le_lookupTime (answers : Nat → Node.Timed (Option Receipt))
    (poll due now index k : Nat) :
    lookupTime answers poll due now index k + (answers (index + k)).delay
      ≤ lookupTime answers poll due now index (k + 1) :=
  Nat.le_max_left _ _

theorem lookupTime_zero_le (answers : Nat → Node.Timed (Option Receipt))
    (poll due now index k : Nat) :
    max now due ≤ lookupTime answers poll due now index k := by
  induction k with
  | zero => exact Nat.le_refl _
  | succ k ih =>
    have hnext := answered_le_lookupTime answers poll due now index k
    omega

/-- A lookup starts when it is due if those before it were answered at once. -/
theorem lookupTime_instant {due now index k : Nat} (free : now ≤ due)
    (instant : ∀ j < k, (answers (index + j)).delay = 0) :
    lookupTime answers poll due now index k = due + k * poll := by
  induction k with
  | zero => rw [lookupTime, Nat.max_eq_right free, Nat.zero_mul, Nat.add_zero]
  | succ k ih =>
    rw [lookupTime, ih fun j hj => instant j (Nat.lt_succ_of_lt hj), instant k (Nat.lt_succ_self k),
      Nat.add_zero, Nat.succ_mul]
    omega

/-! ## A window keeps to the schedule -/

/-- The lookups of a window start at the times of the schedule, and none after the deadline. -/
theorem lookUntil_getElem? {left due now index k time : Nat}
    (h : (lookUntil answers deadline poll left due now index).lookups[k]? = some time) :
    time = lookupTime answers poll due now index k ∧ time ≤ deadline := by
  induction left generalizing due now index k with
  | zero => simp [lookUntil] at h
  | succ left ih =>
    have hcases := lookUntil_cases answers deadline poll left due now index
    generalize lookUntil answers deadline poll (left + 1) due now index = result at h hcases
    cases k with
    | zero =>
      cases hcases with
      | closed late => cases h
      | dropped started late =>
        cases h
        exact ⟨rfl, started⟩
      | found arrived answer =>
        cases h
        exact ⟨rfl, by omega⟩
      | missed arrived answer rest =>
        cases h
        exact ⟨rfl, by omega⟩
    | succ k =>
      cases hcases with
      | closed late => cases h
      | dropped started late => cases h
      | found arrived answer => cases h
      | missed arrived answer rest =>
        subst rest
        rw [lookupTime_succ]
        exact ih h

/-- A window without a receipt makes every lookup that the schedule has by the deadline, given that
it started out with enough of them. -/
theorem lookUntil_missed_iff {left due now index : Nat} (room : deadline < due + left * poll)
    (h : (lookUntil answers deadline poll left due now index).found = none) (k : Nat) :
    k < (lookUntil answers deadline poll left due now index).lookups.length ↔
      lookupTime answers poll due now index k ≤ deadline := by
  induction left generalizing due now index k with
  | zero =>
    -- the next due time is behind the deadline, and so is the whole schedule
    have hdue := due_le_lookupTime answers poll due now index k
    simp only [lookUntil, List.length_nil, Nat.not_lt_zero, false_iff]
    omega
  | succ left ih =>
    have hcases := lookUntil_cases answers deadline poll left due now index
    generalize lookUntil answers deadline poll (left + 1) due now index = result at h hcases ⊢
    have hfirst := lookupTime_zero_le answers poll due now index k
    cases hcases with
    | closed late =>
      simp only [List.length_nil, Nat.not_lt_zero, false_iff]
      omega
    | dropped started late =>
      cases k with
      | zero => simp [lookupTime, started]
      | succ k =>
        -- the answer that is dropped would keep the waiter until after the deadline
        have hnext := lookupTime_zero_le answers poll (due + poll)
          (max now due + (answers index).delay) (index + 1) k
        rw [lookupTime_succ]
        simp only [List.length_singleton]
        omega
    | found arrived answer => cases h
    | missed arrived answer rest =>
      subst rest
      cases k with
      | zero =>
        simp only [List.length_cons, Nat.zero_lt_succ, true_iff, lookupTime]
        omega
      | succ k =>
        have hroom : deadline < due + poll + left * poll := by
          rw [Nat.succ_mul] at room
          omega
        rw [List.length_cons, Nat.succ_lt_succ_iff, lookupTime_succ]
        exact ih hroom h k

/-! ## Windows with and without a receipt -/

theorem eq_take_append_getElem? {α : Type} {l : List α} {k : Nat} {a : α} (h : l[k]? = some a) :
    l = l.take k ++ a :: l.drop (k + 1) ∧ (l.take k).length = k := by
  obtain ⟨hlt, rfl⟩ := List.getElem?_eq_some_iff.mp h
  refine ⟨?_, List.length_take_of_le hlt.le⟩
  rw [← List.drop_eq_getElem_cons hlt, List.take_append_drop]

/-- A lookup of a window whose answer arrives in time and is a receipt is the last one, and the
window comes to that receipt. -/
theorem lookUntil_timely {left due now index k time : Nat} {receipt : Receipt}
    (h : (lookUntil answers deadline poll left due now index).lookups[k]? = some time)
    (answer : (answers (index + k)).answer = .ok (some receipt))
    (arrived : time + (answers (index + k)).delay ≤ deadline) :
    (lookUntil answers deadline poll left due now index).lookups.length = k + 1 ∧
      (lookUntil answers deadline poll left due now index).found
        = some (receipt, time + (answers (index + k)).delay) := by
  obtain ⟨hsplit, hlength⟩ := eq_take_append_getElem? h
  rw [← hlength] at answer arrived
  obtain ⟨hrest, hfound⟩ := lookUntil_receipt hsplit answer arrived
  rw [hlength] at hfound
  refine ⟨?_, hfound⟩
  rw [hrest] at hsplit
  have hcount := congrArg List.length hsplit
  rwa [List.length_append, hlength, List.length_singleton] at hcount

/-- The receipt that a window comes to is the first one on the schedule. -/
theorem lookUntil_found_first {left due now index time : Nat} {receipt : Receipt}
    (h : (lookUntil answers deadline poll left due now index).found = some (receipt, time)) :
    ∃ k, (lookUntil answers deadline poll left due now index).lookups.length = k + 1 ∧
      time = lookupTime answers poll due now index k + (answers (index + k)).delay ∧
      time ≤ deadline ∧ (answers (index + k)).answer = .ok (some receipt) ∧
      ∀ j < k, ∀ other, (answers (index + j)).answer ≠ .ok (some other) := by
  obtain ⟨earlier, start, hlookups, hanswer, htime, hle⟩ := lookUntil_found h
  have hlength : (lookUntil answers deadline poll left due now index).lookups.length
      = earlier.length + 1 := by
    rw [hlookups, List.length_append, List.length_singleton]
  have hlast : (lookUntil answers deadline poll left due now index).lookups[earlier.length]?
      = some start := by
    rw [hlookups, List.getElem?_append_right (Nat.le_refl _), Nat.sub_self]
    rfl
  refine ⟨earlier.length, hlength, ?_, hle, hanswer, ?_⟩
  · rw [← (lookUntil_getElem? hlast).1, htime]
  · intro j hj other hother
    -- the lookup before another one is answered in time, so a receipt would have been the last
    have hjlt : j < (lookUntil answers deadline poll left due now index).lookups.length := by omega
    have hnext : j + 1 < (lookUntil answers deadline poll left due now index).lookups.length := by
      omega
    obtain ⟨hjtime, -⟩ := lookUntil_getElem? (List.getElem?_eq_getElem hjlt)
    obtain ⟨hnexttime, hnextle⟩ := lookUntil_getElem? (List.getElem?_eq_getElem hnext)
    have hanswered := answered_le_lookupTime answers poll due now index j
    have hcount := (lookUntil_timely (List.getElem?_eq_getElem hjlt) hother (by omega)).1
    omega

/-- A window comes to nothing exactly if none of its lookups brings a receipt in time. -/
theorem lookUntil_found_eq_none_iff {left due now index : Nat} :
    (lookUntil answers deadline poll left due now index).found = none ↔
      ∀ k time receipt,
        (lookUntil answers deadline poll left due now index).lookups[k]? = some time →
        time + (answers (index + k)).delay ≤ deadline →
        (answers (index + k)).answer ≠ .ok (some receipt) := by
  constructor
  · intro hnone k time receipt hlookup harrived hanswer
    have hfound := (lookUntil_timely hlookup hanswer harrived).2
    rw [hnone] at hfound
    cases hfound
  · intro hmissed
    cases hfound : (lookUntil answers deadline poll left due now index).found with
    | none => rfl
    | some found =>
      obtain ⟨k, hlength, htime, hle, hanswer, -⟩ := lookUntil_found_first hfound
      have hk : k < (lookUntil answers deadline poll left due now index).lookups.length := by omega
      have hstart := (lookUntil_getElem? (List.getElem?_eq_getElem hk)).1
      exact absurd hanswer
        (hmissed k _ found.1 (List.getElem?_eq_getElem hk) (by rw [hstart, ← htime]; exact hle))

/-! ## Windows of a given length -/

section

variable {length start index : Nat}

/-- A window starts out with enough lookups for its length. -/
theorem deadline_lt_lastDue (hpoll : 0 < poll) (start length : Nat) :
    start + length < start + (length / poll + 1) * poll := by
  have hlength := Nat.lt_div_mul_add hpoll (a := length)
  rw [Nat.succ_mul]
  omega

/-- Lookups due by the end of a window are those of the whole polls that its length holds. -/
theorem due_le_deadline_iff (hpoll : 0 < poll) (k : Nat) :
    start + k * poll ≤ start + length ↔ k ≤ length / poll := by
  rw [Nat.le_div_iff_mul_le hpoll]
  omega

/-- A window has no more lookups than its length holds due times: one at its start, and one for
each whole poll. -/
theorem length_window_le (hpoll : 0 < poll) :
    (window answers length poll start index).lookups.length ≤ length / poll + 1 := by
  by_contra hmore
  -- otherwise there were a lookup at a due time behind the end of the window
  have hlt : length / poll + 1 < (window answers length poll start index).lookups.length := by omega
  obtain ⟨htime, hle⟩ := lookUntil_getElem? (List.getElem?_eq_getElem hlt)
  have hdue := due_le_lookupTime answers poll start start index
    (length / poll + 1)
  have hdeadline := deadline_lt_lastDue hpoll start length
  omega

/-- Where lookups are answered at once, a window without a receipt has one at every due time. -/
theorem length_window_instant (hpoll : 0 < poll)
    (instant : ∀ k < (window answers length poll start index).lookups.length,
      (answers (index + k)).delay = 0)
    (h : (window answers length poll start index).found = none) :
    (window answers length poll start index).lookups.length = length / poll + 1 := by
  refine Nat.le_antisymm (length_window_le hpoll) (Nat.le_of_not_lt fun hfewer => ?_)
  -- otherwise the next lookup would have been due in time
  have hnext := lookUntil_missed_iff (deadline_lt_lastDue hpoll _ _) h
    (window answers length poll start index).lookups.length
  rw [lookupTime_instant (Nat.le_refl start) instant, due_le_deadline_iff hpoll] at hnext
  exact absurd (hnext.mpr (Nat.le_of_lt_succ hfewer)) (Nat.lt_irrefl _)

/-- Where lookups are answered at once and the receipt is there from `since` on, a window that is
long enough comes to it at the first due time from then on. -/
theorem window_first_due {since : Nat} {receipt : Receipt} (hpoll : 0 < poll)
    (instant : ∀ k < (window answers length poll start index).lookups.length,
      (answers (index + k)).delay = 0)
    (within : since ≤ poll * (length / poll))
    (available : ∀ k, k * poll ≤ length → ∀ found,
      (answers (index + k)).answer = .ok (some found) ↔ since ≤ k * poll ∧ found = receipt) :
    ∃ first, IsLeast {time | poll ∣ time ∧ since ≤ time} first ∧
      (window answers length poll start index).found = some (receipt, start + first) := by
  -- some lookup finds the receipt, at the latest the one that is due last
  have hsome : (window answers length poll start index).found ≠ none := by
    intro hnone
    have hlast : length / poll < (window answers length poll start index).lookups.length := by
      rw [length_window_instant hpoll instant hnone]
      exact Nat.lt_succ_self _
    have hle := (lookUntil_getElem? (List.getElem?_eq_getElem hlast)).2
    have hanswer := (available _ (Nat.div_mul_le_self _ _) receipt).mpr
      ⟨Nat.mul_comm poll _ ▸ within, rfl⟩
    refine lookUntil_found_eq_none_iff.mp hnone (length / poll) _ receipt
      (List.getElem?_eq_getElem hlast) ?_ hanswer
    rwa [instant _ hlast, Nat.add_zero]
  obtain ⟨⟨found, time⟩, hfound⟩ := Option.ne_none_iff_exists'.mp hsome
  obtain ⟨k, hlength, htime, hle, hanswer, hfirst⟩ := lookUntil_found_first hfound
  have hk : k < (window answers length poll start index).lookups.length :=
    hlength.symm ▸ Nat.lt_succ_self k
  rw [lookupTime_instant (Nat.le_refl start) fun j hj => instant j (hj.trans hk), instant k hk,
    Nat.add_zero] at htime
  have hin : k * poll ≤ length := by omega
  obtain ⟨hsince, rfl⟩ := (available k hin found).mp hanswer
  refine ⟨k * poll, ⟨⟨Nat.dvd_mul_left _ _, hsince⟩, ?_⟩, hfound.trans (by rw [htime])⟩
  -- a lookup at an earlier multiple of the poll would have brought the receipt before
  rintro multiple ⟨⟨j, rfl⟩, hmultiple⟩
  rw [Nat.mul_comm] at hmultiple
  rw [Nat.mul_comm poll]
  refine Nat.mul_le_mul_right _ (Nat.le_of_not_lt fun hj => ?_)
  have hjin : j * poll ≤ length := Nat.le_trans (Nat.mul_le_mul_right _ hj.le) hin
  exact hfirst j hj found ((available j hjin found).mpr ⟨hmultiple, rfl⟩)

end

end ChainWatch.Mining
