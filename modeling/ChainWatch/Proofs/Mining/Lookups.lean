import ChainWatch.Mining.Window

/-!
# Which lookup ends a window

A lookup that is due either falls behind the end of the window, or its answer does, or it brings a
receipt, or the window goes on without one: `LookupEnd` lists these four ways, and `lookUntil_cases`
says that there are no others.

A window thus ends early for one reason only. `lookUntil_found` reads it from the result and
`lookUntil_receipt` from the lookups, and together they say that the first lookup that brings a
receipt in time is the window's last one.
-/

namespace ChainWatch.Mining

variable {answers : Nat → Node.Timed (Option Receipt)} {deadline poll : Nat}

/-- The ways the next lookup of a window can come out. -/
inductive LookupEnd (answers : Nat → Node.Timed (Option Receipt)) (deadline poll : Nat)
    (left due now index : Nat) : WindowResult → Prop where
  | closed (late : deadline < max now due) :
      LookupEnd answers deadline poll left due now index ⟨[], none⟩
  | dropped (started : max now due ≤ deadline)
      (late : deadline < max now due + (answers index).delay) :
      LookupEnd answers deadline poll left due now index ⟨[max now due], none⟩
  | found {receipt : Receipt} (arrived : max now due + (answers index).delay ≤ deadline)
      (answer : (answers index).answer = .ok (some receipt)) :
      LookupEnd answers deadline poll left due now index
        ⟨[max now due], some (receipt, max now due + (answers index).delay)⟩
  | missed {later : WindowResult} (arrived : max now due + (answers index).delay ≤ deadline)
      (answer : ∀ receipt, (answers index).answer ≠ .ok (some receipt))
      (rest : later = lookUntil answers deadline poll left (due + poll)
        (max now due + (answers index).delay) (index + 1)) :
      LookupEnd answers deadline poll left due now index
        ⟨max now due :: later.lookups, later.found⟩

theorem lookUntil_cases (answers : Nat → Node.Timed (Option Receipt))
    (deadline poll left due now index : Nat) :
    LookupEnd answers deadline poll left due now index
      (lookUntil answers deadline poll (left + 1) due now index) := by
  simp only [lookUntil]
  by_cases hstart : deadline < max now due
  · rw [if_pos hstart]
    exact .closed hstart
  · rw [if_neg hstart]
    by_cases harrival : deadline < max now due + (answers index).delay
    · rw [if_pos harrival]
      exact .dropped (Nat.le_of_not_lt hstart) harrival
    · rw [if_neg harrival]
      have harrived := Nat.le_of_not_lt harrival
      split
      · next receipt hanswer => exact .found harrived hanswer
      · next hother => exact .missed harrived hother rfl

/-- A receipt that a window came to is the answer to its last lookup, arrived in time. -/
theorem lookUntil_found {left due now index time : Nat} {receipt : Receipt}
    (h : (lookUntil answers deadline poll left due now index).found = some (receipt, time)) :
    ∃ earlier start,
      (lookUntil answers deadline poll left due now index).lookups = earlier ++ [start] ∧
      (answers (index + earlier.length)).answer = .ok (some receipt) ∧
      start + (answers (index + earlier.length)).delay = time ∧ time ≤ deadline := by
  -- on the lookups that are left; answers are numbered from the window's first lookup
  induction left generalizing due now index with
  | zero => cases h
  | succ left ih =>
    have hcases := lookUntil_cases answers deadline poll left due now index
    generalize lookUntil answers deadline poll (left + 1) due now index = result at h hcases ⊢
    cases hcases with
    | closed late => cases h
    | dropped started late => cases h
    | found arrived answer =>
      cases h
      exact ⟨[], max now due, rfl, answer, rfl, arrived⟩
    | missed arrived answer rest =>
      subst rest
      obtain ⟨earlier, start, hlookups, hanswer, htime, hle⟩ := ih h
      refine ⟨max now due :: earlier, start, ?_, ?_, ?_, hle⟩
      · rw [hlookups, List.cons_append]
      · rwa [List.length_cons, show index + (earlier.length + 1) = index + 1 + earlier.length by
          omega]
      · rwa [List.length_cons, show index + (earlier.length + 1) = index + 1 + earlier.length by
          omega]

/-- A lookup whose answer arrives in time and is a receipt ends the window. -/
theorem lookUntil_receipt {left due now index start : Nat} {earlier rest : List Nat}
    {receipt : Receipt}
    (h : (lookUntil answers deadline poll left due now index).lookups = earlier ++ start :: rest)
    (answer : (answers (index + earlier.length)).answer = .ok (some receipt))
    (arrived : start + (answers (index + earlier.length)).delay ≤ deadline) :
    rest = [] ∧ (lookUntil answers deadline poll left due now index).found
      = some (receipt, start + (answers (index + earlier.length)).delay) := by
  induction left generalizing due now index earlier with
  | zero => simp [lookUntil] at h
  | succ left ih =>
    have hcases := lookUntil_cases answers deadline poll left due now index
    generalize lookUntil answers deadline poll (left + 1) due now index = result at h hcases ⊢
    cases earlier with
    | nil =>
      -- the lookup in question is the next one
      rw [List.nil_append] at h
      rw [List.length_nil, Nat.add_zero] at answer arrived ⊢
      cases hcases with
      | closed late => cases h
      | dropped started late =>
        cases h
        omega
      | found harrived hanswer =>
        cases h
        rw [hanswer] at answer
        cases answer
        exact ⟨rfl, rfl⟩
      | missed harrived hanswer hrest => exact absurd answer (hanswer receipt)
    | cons time earlier =>
      rw [List.cons_append] at h
      rw [List.length_cons, show index + (earlier.length + 1) = index + 1 + earlier.length by
        omega] at answer arrived ⊢
      cases hcases with
      | closed late => cases h
      | dropped started late => simp at h
      | found harrived hanswer => simp at h
      | missed harrived hanswer hrest =>
        subst hrest
        exact ih (List.cons.inj h).2 answer arrived

end ChainWatch.Mining
