import ChainWatch.Proofs.Cache.Ledger

/-!
# The two structures of a cache

A cache keeps the order of its keys in a queue and their values elsewhere, and changes both by
hand. `InStep` is what this needs: both hold the same keys, each once and with the same time, and
the queue has the newest first. It follows from the order in which the entries stand (`Sound`), and
every request keeps it (`Clocked.sound_after`).

So a purge takes exactly the dead entries out of both, and a key that was inserted again stays until
its new time is over, whatever the cache is asked meanwhile (`Clocked.kept_after`).
-/

namespace ChainWatch.Cache

variable {K V : Type} [DecidableEq K]

namespace Expiring

/-- The queue and the values hold the same keys, each once and with the same time, and the queue
has the newest first. -/
structure InStep (c : Expiring K V) : Prop where
  queued_once : (c.order.map Prod.fst).Nodup
  valued_once : (c.values.map Prod.fst).Nodup
  queued_iff : ∀ key time, (key, time) ∈ c.order ↔ ∃ value, c.stored? key = some (value, time)
  newest_first : c.order.Pairwise fun newer older => older.2 ≤ newer.2

namespace Sound

variable {c : Expiring K V} {now : Nat}

theorem inStep (h : Sound c now) : c.InStep := by
  refine ⟨?_, h.nodup, ?_, ?_⟩
  · rw [h.order_eq, List.map_map]
    exact h.nodup
  · intro key time
    rw [h.order_eq]
    constructor
    · intro hmem
      obtain ⟨⟨k, value, insertedAt⟩, hentry, hticket⟩ := List.mem_map.mp hmem
      obtain ⟨rfl, rfl⟩ := Prod.mk.inj hticket
      exact ⟨value, (lookup_eq_some_iff_mem h.nodup).mpr hentry⟩
    · intro ⟨value, hstored⟩
      exact List.mem_map.mpr ⟨_, (lookup_eq_some_iff_mem h.nodup).mp hstored, rfl⟩
  · rw [h.order_eq]
    exact List.pairwise_map.mpr h.sorted

/-- A purge takes the expired keys out of the queue. -/
theorem order_sweep (h : Sound c now) :
    (c.sweep now).order = c.order.filter fun ticket => now ≤ ticket.2 + c.timespan := by
  rw [sweep_eq h, h.order_eq, List.filter_map]
  apply congrArg (List.map ticket)
  apply List.filter_congr
  intro entry _
  rw [Bool.eq_iff_iff, aliveAt_iff]
  show now ≤ entry.2.2 + c.timespan ↔ decide (now ≤ entry.2.2 + c.timespan) = true
  rw [decide_eq_true_eq]

/-- A purge takes the expired keys out of the values. -/
theorem values_sweep (h : Sound c now) (key : K) :
    (c.sweep now).stored? key
      = (c.stored? key).filter fun entry => now ≤ entry.2 + c.timespan := by
  rw [stored?_sweep h]
  congr 1
  ext entry
  rw [alive, decide_eq_decide]
  omega

end Sound

end Expiring

/-! ## Requests -/

namespace Clocked

theorem now_le_serve (s : Clocked K V) (request : Request K V) : s.now ≤ (s.serve request).1.now := by
  cases request with
  | advance nanos => exact Nat.le_add_right s.now nanos
  | _ => exact Nat.le_refl s.now

theorem now_le_after (s : Clocked K V) (requests : List (Request K V)) :
    s.now ≤ (s.after requests).now := by
  induction requests generalizing s with
  | nil => exact Nat.le_refl s.now
  | cons request rest ih => exact Nat.le_trans (s.now_le_serve request) (ih (s.serve request).1)

theorem timespan_serve (s : Clocked K V) (request : Request K V) :
    (s.serve request).1.cache.timespan = s.cache.timespan := by
  cases request with
  | add key value => exact s.cache.timespan_add s.now key value
  | _ => rfl

theorem timespan_after (s : Clocked K V) (requests : List (Request K V)) :
    (s.after requests).cache.timespan = s.cache.timespan := by
  induction requests generalizing s with
  | nil => rfl
  | cons request rest ih => exact (ih (s.serve request).1).trans (s.timespan_serve request)

/-- Every request leaves the queue and the values in step. -/
theorem sound_serve {s : Clocked K V} (h : s.cache.Sound s.now) (request : Request K V) :
    (s.serve request).1.cache.Sound (s.serve request).1.now := by
  cases request with
  | add key value => exact h.add key value
  | sweep => exact h.sweep
  | advance nanos => exact h.mono (Nat.le_add_right s.now nanos)
  | _ => exact h

theorem sound_after {s : Clocked K V} (h : s.cache.Sound s.now) (requests : List (Request K V)) :
    (s.after requests).cache.Sound (s.after requests).now := by
  induction requests generalizing s with
  | nil => exact h
  | cons request rest ih => exact ih (sound_serve h request)

variable {key : K} {value : V} {time : Nat}

/-- A sweep leaves an entry that is alive. -/
theorem kept_sweep {s : Clocked K V} (h : s.cache.Sound s.now)
    (stored : s.cache.stored? key = some (value, time)) (live : s.now ≤ time + s.cache.timespan) :
    (s.cache.sweep s.now).stored? key = some (value, time) := by
  rw [h.values_sweep, stored, Option.filter_some_pos]
  exact decide_eq_true live

/-- No request touches an entry that is alive: a sweep leaves it, and its key is not accepted
again. -/
theorem kept_serve {s : Clocked K V} (h : s.cache.Sound s.now)
    (stored : s.cache.stored? key = some (value, time)) (live : s.now ≤ time + s.cache.timespan)
    (request : Request K V) :
    (s.serve request).1.cache.stored? key = some (value, time) := by
  have hswept := kept_sweep h stored live
  cases request with
  | add other new =>
    show (s.cache.add s.now other new).1.stored? key = some (value, time)
    rw [Expiring.add_eq]
    by_cases hother : ((s.cache.sweep s.now).stored? other).isSome
    · rwa [if_pos hother]
    · have hne : key ≠ other := by
        intro heq
        rw [← heq, hswept] at hother
        exact hother rfl
      rw [if_neg hother]
      show List.lookup key ((other, new, s.now) :: (s.cache.sweep s.now).values) = some (value, time)
      rw [List.lookup_cons, beq_eq_false_iff_ne.mpr hne]
      exact hswept
  | sweep => exact hswept
  | _ => exact stored

theorem kept_after {s : Clocked K V} (h : s.cache.Sound s.now)
    (stored : s.cache.stored? key = some (value, time)) (requests : List (Request K V))
    (live : (s.after requests).now ≤ time + s.cache.timespan) :
    (s.after requests).cache.stored? key = some (value, time) := by
  induction requests generalizing s with
  | nil => exact stored
  | cons request rest ih =>
    have hnow : s.now ≤ time + s.cache.timespan :=
      Nat.le_trans (s.now_le_after (request :: rest)) live
    apply ih (sound_serve h request) (kept_serve h stored hnow request)
    rw [s.timespan_serve request]
    exact live

/-- An accepted insertion is stored with the time it was made at. -/
theorem stored_of_accepted {s : Clocked K V} (h : (s.cache.add s.now key value).2 = true) :
    (s.serve (.add key value)).1.cache.stored? key = some (value, s.now) := by
  show (s.cache.add s.now key value).1.stored? key = some (value, s.now)
  rw [Expiring.add_eq] at h ⊢
  by_cases hstored : ((s.cache.sweep s.now).stored? key).isSome
  · rw [if_pos hstored] at h
    cases h
  · rw [if_neg hstored]
    exact List.lookup_cons_self

end Clocked

/-- After any requests the queue and the values of a cache are in step. A purge, then or later,
takes exactly the entries that are older than the timespan out of both. Whenever a key is accepted,
for the first time or again, it stays with its value and time until they expire, whatever is asked
meanwhile. -/
theorem structures_in_step (timespan now : Nat) (requests : List (Request K V)) (wait : Nat) :
    let s := (Clocked.start timespan now).after requests
    let purged := s.cache.sweep (s.now + wait)
    s.cache.InStep ∧
    purged.order = s.cache.order.filter (fun ticket => s.now + wait ≤ ticket.2 + timespan) ∧
    (∀ key, purged.stored? key
      = (s.cache.stored? key).filter fun entry => s.now + wait ≤ entry.2 + timespan) ∧
    ∀ key value, (s.cache.add s.now key value).2 = true → ∀ later,
      let t := (s.serve (.add key value)).1.after later
      t.now ≤ s.now + timespan → t.cache.stored? key = some (value, s.now) := by
  intro s purged
  have hsound : s.cache.Sound s.now :=
    Clocked.sound_after (Expiring.sound_empty timespan now) requests
  have hlater : s.cache.Sound (s.now + wait) := hsound.mono (Nat.le_add_right s.now wait)
  have htimespan : s.cache.timespan = timespan := (Clocked.start timespan now).timespan_after requests
  refine ⟨hsound.inStep, ?_, ?_, ?_⟩
  · rw [← htimespan]
    exact hlater.order_sweep
  · intro key
    rw [← htimespan]
    exact hlater.values_sweep key
  · intro key value haccepted later t hlive
    have hstored := Clocked.stored_of_accepted haccepted
    apply Clocked.kept_after (Clocked.sound_serve hsound (.add key value)) hstored later
    rw [s.timespan_serve, htimespan]
    exact hlive

/-- A key that is inserted again after it has expired stays through a purge at the end of its new
time. -/
theorem structures_in_step_inserted_again :
    let s := (Clocked.start 10 0).after [.add 1 "old", .add 2 "other", .advance 11]
    let t := (s.serve (.add 1 "new")).1.after [.advance 10, .sweep]
    (s.cache.add s.now 1 "new").2 = true ∧ t.now ≤ s.now + 10 ∧
      t.cache.stored? 1 = some ("new", 11) := by
  intro s t
  have haccepted : (s.cache.add s.now 1 "new").2 = true := by decide
  have hlive : t.now ≤ s.now + 10 := by decide
  obtain ⟨-, -, -, hkept⟩ := structures_in_step 10 0 [.add 1 "old", .add 2 "other", .advance 11] 0
  exact ⟨haccepted, hlive, hkept 1 "new" haccepted [.advance 10, .sweep] hlive⟩

end ChainWatch.Cache
