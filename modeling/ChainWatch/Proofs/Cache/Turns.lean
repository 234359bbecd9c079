import ChainWatch.Cache.Crowd
import ChainWatch.Proofs.Cache.Queue

/-!
# Turns at a cache

In whatever order the callers of a cache have their turns, the queue and the values stay in step
(`Crowd.paired_run`). The times in the queue need not rise, though: they are those of the readings,
and the queue is in the order of the turns. A sweep stops at the first entry that is alive, so a
dead entry stays if one that is alive stands behind it (`Shielded`), and `expired_accepted_iff` says
that it stays and is refused in no other case. If turns come in the order of the readings that
never happens.
-/

namespace ChainWatch.Cache

variable {K V : Type} [DecidableEq K]

/-! ## What stands behind an entry -/

/-- What is left when a list loses the end that passes a test: each element with somebody at or
behind it that fails the test. -/
theorem mem_rdropWhile_iff {α : Type} {p : α → Bool} {l : List α} {a : α} :
    a ∈ l.rdropWhile p ↔ ∃ behind, a :: behind <:+ l ∧ ∃ b ∈ a :: behind, p b = false := by
  induction l using List.reverseRecOn with
  | nil => simp
  | append_singleton rest last ih =>
    by_cases hlast : p last
    · -- the last element goes, and nobody fails the test because of it
      rw [List.rdropWhile_concat_pos _ _ _ hlast, ih]
      constructor
      · intro ⟨behind, hsuffix, b, hb, hfails⟩
        refine ⟨behind ++ [last], ?_, b, List.mem_append_left [last] hb, hfails⟩
        exact List.suffix_concat_iff.mpr (.inr ⟨a :: behind, rfl, hsuffix⟩)
      · intro ⟨behind, hsuffix, b, hb, hfails⟩
        rcases List.suffix_concat_iff.mp hsuffix with hnil | ⟨front, hfront, hrest⟩
        · cases hnil
        · rw [hfront] at hb
          rcases List.mem_append.mp hb with hb | hb
          · cases front with
            | nil => cases hb
            | cons head behind' =>
              obtain ⟨rfl, -⟩ := List.cons.inj hfront
              exact ⟨behind', hrest, b, hb, hfails⟩
          · rw [List.mem_singleton.mp hb, hlast] at hfails
            cases hfails
    · -- the last element stays, and everybody with it
      rw [List.rdropWhile_concat_neg _ _ _ hlast]
      constructor
      · intro hmem
        obtain ⟨front, behind, heq⟩ := List.append_of_mem hmem
        refine ⟨behind, ⟨front, heq.symm⟩, last, ?_, Bool.eq_false_iff.mpr hlast⟩
        have hsuffix : a :: behind <:+ rest ++ [last] := ⟨front, heq.symm⟩
        rcases List.suffix_concat_iff.mp hsuffix with hnil | ⟨middle, hmiddle, -⟩
        · cases hnil
        · rw [hmiddle]
          exact List.mem_append_right middle List.mem_cons_self
      · intro ⟨behind, hsuffix, _⟩
        exact hsuffix.subset List.mem_cons_self

namespace Expiring

/-- The key has expired, but behind it in the queue stands one that has not: one whose turn came
earlier although it read the clock later. -/
def Shielded (c : Expiring K V) (now : Nat) (key : K) : Prop :=
  ∃ time behind, (key, time) :: behind <:+ c.order ∧ time + c.timespan < now ∧
    ∃ ticket ∈ behind, now ≤ ticket.2 + c.timespan

namespace Paired

variable {c : Expiring K V}

theorem stored?_eq_some_iff (h : Paired c) {key : K} {entry : V × Nat} :
    c.stored? key = some entry ↔ (key, entry) ∈ c.values :=
  lookup_eq_some_iff_mem h.nodup

omit [DecidableEq K] in
/-- The part of the queue from a key on belongs to the part of the values from it on. -/
theorem exists_suffix (h : Paired c) {key : K} {time : Nat} {behind : List (K × Nat)}
    (hsuffix : (key, time) :: behind <:+ c.order) :
    ∃ value entries, (key, value, time) :: entries <:+ c.values ∧
      entries.map ticket = behind := by
  obtain ⟨front, heq⟩ := hsuffix
  rw [h.order_eq] at heq
  obtain ⟨newer, rest, hvalues, -, hrest⟩ := List.map_eq_append_iff.mp heq.symm
  obtain ⟨⟨k, value, insertedAt⟩, entries, rfl, hentry, hentries⟩ := List.map_eq_cons_iff.mp hrest
  obtain ⟨rfl, rfl⟩ := Prod.mk.inj hentry
  exact ⟨value, entries, ⟨newer, hvalues.symm⟩, hentries⟩

/-- A sweep leaves the entries that are alive and the shielded ones. -/
theorem stored?_sweep_iff (h : Paired c) (now : Nat) (key : K) (entry : V × Nat) :
    (c.sweep now).stored? key = some entry ↔
      c.stored? key = some entry ∧ (now ≤ entry.2 + c.timespan ∨ c.Shielded now key) := by
  rw [(h.sweep now).stored?_eq_some_iff, h.stored?_eq_some_iff, h.sweep_eq, mem_rdropWhile_iff]
  have halive (e : K × V × Nat) :
      (!aliveAt c.timespan now e) = false ↔ now ≤ e.2.2 + c.timespan := by
    rw [Bool.not_eq_false', aliveAt_iff]
  constructor
  · intro ⟨behind, hsuffix, e, he, hfails⟩
    refine ⟨hsuffix.subset List.mem_cons_self, ?_⟩
    by_cases hle : now ≤ entry.2 + c.timespan
    · exact .inl hle
    · -- the entry is dead, so the one that is alive stands behind it
      rcases List.mem_cons.mp he with rfl | he
      · exact absurd ((halive _).mp hfails) hle
      · right
        refine ⟨entry.2, behind.map ticket, ?_, by omega, ticket e, List.mem_map_of_mem he,
          (halive e).mp hfails⟩
        rw [h.order_eq]
        exact hsuffix.map ticket
  · intro ⟨hmem, hcases⟩
    rcases hcases with hle | ⟨time, behind, hsuffix, -, e, he, hle⟩
    · obtain ⟨front, behind, heq⟩ := List.append_of_mem hmem
      exact ⟨behind, ⟨front, heq.symm⟩, _, List.mem_cons_self, (halive _).mpr hle⟩
    · obtain ⟨value, entries, hentries, rfl⟩ := h.exists_suffix hsuffix
      have hsame : c.stored? key = some (value, time) :=
        h.stored?_eq_some_iff.mpr (hentries.subset List.mem_cons_self)
      rw [h.stored?_eq_some_iff.mpr hmem, Option.some.injEq] at hsame
      subst hsame
      obtain ⟨other, hother, rfl⟩ := List.mem_map.mp he
      exact ⟨entries, hentries, other, List.mem_cons_of_mem _ hother, (halive other).mpr hle⟩

theorem stored?_sweep_of_none (h : Paired c) (now : Nat) {key : K}
    (hnone : c.stored? key = none) : (c.sweep now).stored? key = none := by
  apply Option.eq_none_iff_forall_ne_some.mpr
  intro entry hentry
  rw [((h.stored?_sweep_iff now key entry).mp hentry).1] at hnone
  cases hnone

/-- An expired entry goes exactly if it is not shielded. -/
theorem stored?_sweep_of_expired (h : Paired c) {now : Nat} {key : K} {entry : V × Nat}
    (hstored : c.stored? key = some entry) (hdead : entry.2 + c.timespan < now) :
    (c.sweep now).stored? key = none ↔ ¬ c.Shielded now key := by
  constructor
  · intro hgone hshielded
    rw [(h.stored?_sweep_iff now key entry).mpr ⟨hstored, .inr hshielded⟩] at hgone
    cases hgone
  · intro hshielded
    apply Option.eq_none_iff_forall_ne_some.mpr
    intro other hother
    obtain ⟨hsame, halive⟩ := (h.stored?_sweep_iff now key other).mp hother
    rw [hstored, Option.some.injEq] at hsame
    subst hsame
    rcases halive with hle | halive
    · omega
    · exact hshielded halive

/-- A shielded key is stored. -/
theorem stored?_of_shielded (h : Paired c) {now : Nat} {key : K} (hshielded : c.Shielded now key) :
    ∃ value time, c.stored? key = some (value, time) ∧ time + c.timespan < now := by
  obtain ⟨time, behind, hsuffix, hdead, -⟩ := hshielded
  obtain ⟨value, entries, hentries, -⟩ := h.exists_suffix hsuffix
  exact ⟨value, time, h.stored?_eq_some_iff.mpr (hentries.subset List.mem_cons_self), hdead⟩

end Paired

omit [DecidableEq K] in
/-- Where the times in the queue rise from the old end to the new one nobody is shielded. -/
theorem Sound.not_shielded {c : Expiring K V} {time : Nat} (h : Sound c time) (now : Nat)
    (key : K) : ¬ c.Shielded now key := by
  intro ⟨insertedAt, behind, hsuffix, hdead, ticket, hticket, halive⟩
  have hsorted : c.order.Pairwise fun newer older => older.2 ≤ newer.2 := by
    rw [h.order_eq]
    exact List.pairwise_map.mpr h.sorted
  have hle := (List.pairwise_cons.mp (hsorted.sublist hsuffix.sublist)).1 ticket hticket
  have hle' : ticket.2 ≤ insertedAt := hle
  omega

/-- An insertion is accepted exactly if a sweep leaves nothing of its key. -/
theorem add_accepted_iff (c : Expiring K V) (now : Nat) (key : K) (value : V) :
    (c.add now key value).2 = true ↔ (c.sweep now).stored? key = none := by
  rw [add_eq]
  by_cases hstored : ((c.sweep now).stored? key).isSome
  · rw [if_pos hstored]
    obtain ⟨entry, hentry⟩ := Option.isSome_iff_exists.mp hstored
    simp [hentry]
  · rw [if_neg hstored]
    simpa using hstored

end Expiring

/-! ## Turns in any order -/

theorem Caller.paired_turn (caller : Caller K V) {c : Expiring K V} (h : c.Paired) :
    (caller.turn c).1.Paired := by
  unfold turn
  cases caller.errand with
  | add key value => exact h.add caller.reading key value
  | sweep => exact h.sweep caller.reading

theorem Caller.timespan_turn (caller : Caller K V) (c : Expiring K V) :
    (caller.turn c).1.timespan = c.timespan := by
  unfold turn
  cases caller.errand with
  | add key value => exact c.timespan_add caller.reading key value
  | sweep => rfl

theorem Caller.sound_turn (caller : Caller K V) {c : Expiring K V} (h : c.Sound caller.reading) :
    (caller.turn c).1.Sound caller.reading := by
  unfold turn
  cases caller.errand with
  | add key value => exact h.add key value
  | sweep => exact h.sweep

namespace Crowd

/-- Whoever has the next turn, the queue and the values stay in step. -/
theorem paired_step {c : Crowd K V} (h : c.cache.Paired) (happening : Happening K V) :
    (c.step happening).cache.Paired := by
  cases happening with
  | pass nanos => exact h
  | arrive errand => exact h
  | turn i =>
    unfold step
    cases hcaller : c.waiting[i]? with
    | some caller =>
      simp only [hcaller]
      exact caller.paired_turn h
    | none =>
      simp only [hcaller]
      exact h

theorem timespan_step (c : Crowd K V) (happening : Happening K V) :
    (c.step happening).cache.timespan = c.cache.timespan := by
  cases happening with
  | pass nanos => rfl
  | arrive errand => rfl
  | turn i =>
    unfold step
    cases hcaller : c.waiting[i]? with
    | some caller => simp only [hcaller, caller.timespan_turn]
    | none => simp only [hcaller]

theorem paired_run {c : Crowd K V} (h : c.cache.Paired) (happenings : List (Happening K V)) :
    (c.run happenings).cache.Paired := by
  induction happenings generalizing c with
  | nil => exact h
  | cons happening rest ih => exact ih (paired_step h happening)

theorem timespan_run (c : Crowd K V) (happenings : List (Happening K V)) :
    (c.run happenings).cache.timespan = c.cache.timespan := by
  induction happenings generalizing c with
  | nil => rfl
  | cons happening rest ih => exact (ih (c.step happening)).trans (c.timespan_step happening)

/-! ## Turns in the order of the readings -/

/-- Those that wait stand in the order of their readings, and what is stored was inserted before
any of them read the clock. -/
structure Punctual (c : Crowd K V) : Prop where
  sound : c.cache.Sound c.now
  past : ∀ caller ∈ c.waiting, caller.reading ≤ c.now
  sorted : c.waiting.Pairwise fun first second => first.reading ≤ second.reading
  before : ∀ caller ∈ c.waiting, c.cache.Sound caller.reading

omit [DecidableEq K] in
theorem punctual_start (timespan now : Nat) : (start timespan now : Crowd K V).Punctual :=
  ⟨Expiring.sound_empty timespan now, nofun, List.Pairwise.nil, nofun⟩

/-- If the turn is that of the one that read the clock first, all stays so. -/
theorem Punctual.step {c : Crowd K V} (h : c.Punctual) {happening : Happening K V}
    (first : ∀ i, happening = .turn i → i = 0) : (c.step happening).Punctual := by
  cases happening with
  | pass nanos =>
    have hle : c.now ≤ c.now + nanos := Nat.le_add_right c.now nanos
    exact ⟨h.sound.mono hle, fun caller hcaller => Nat.le_trans (h.past caller hcaller) hle,
      h.sorted, h.before⟩
  | arrive errand =>
    refine ⟨h.sound, ?_, ?_, ?_⟩
    · intro caller hcaller
      rcases List.mem_append.mp hcaller with hcaller | hcaller
      · exact h.past caller hcaller
      · rw [List.mem_singleton.mp hcaller]
        exact Nat.le_refl _
    · apply List.pairwise_append.mpr
      refine ⟨h.sorted, List.pairwise_singleton _ _, ?_⟩
      intro caller hcaller newcomer hnewcomer
      rw [List.mem_singleton.mp hnewcomer]
      exact h.past caller hcaller
    · intro caller hcaller
      rcases List.mem_append.mp hcaller with hcaller | hcaller
      · exact h.before caller hcaller
      · rw [List.mem_singleton.mp hcaller]
        exact h.sound
  | turn i =>
    cases first i rfl
    obtain ⟨cache, now, waiting⟩ := c
    cases waiting with
    | nil => exact h
    | cons caller rest =>
      obtain ⟨hfirst, hsorted⟩ := List.pairwise_cons.mp h.sorted
      have hserved := caller.sound_turn (h.before caller List.mem_cons_self)
      exact ⟨hserved.mono (h.past caller List.mem_cons_self),
        fun other hother => h.past other (List.mem_cons_of_mem caller hother), hsorted,
        fun other hother => hserved.mono (hfirst other hother)⟩

theorem Punctual.run {c : Crowd K V} (h : c.Punctual) {happenings : List (Happening K V)}
    (first : ∀ i, Happening.turn i ∈ happenings → i = 0) : (c.run happenings).Punctual := by
  induction happenings generalizing c with
  | nil => exact h
  | cons happening rest ih =>
    apply ih
    · apply h.step
      intro i hi
      exact first i (hi ▸ List.mem_cons_self)
    · intro i hi
      exact first i (List.mem_cons_of_mem happening hi)

end Crowd

/-! ## Expired keys -/

/-- In whatever order the callers have their turns: an insertion that finds no entry of its key is
accepted, one that finds an expired entry is accepted exactly if the entry is not shielded, and a
sweep leaves no expired entry exactly if none is shielded. Nobody is ever shielded if turns come in
the order of the readings. -/
theorem expired_accepted_iff (timespan now : Nat) (happenings : List (Happening K V)) :
    let crowd := (Crowd.start timespan now).run happenings
    (∀ key value reading, ⟨.add key value, reading⟩ ∈ crowd.waiting →
      let accepted := (Caller.turn ⟨.add key value, reading⟩ crowd.cache).2 = some true
      (crowd.cache.stored? key = none → accepted) ∧
      (∀ old time, crowd.cache.stored? key = some (old, time) → time + timespan < reading →
        (accepted ↔ ¬ crowd.cache.Shielded reading key))) ∧
    (∀ reading, ⟨.sweep, reading⟩ ∈ crowd.waiting →
      let swept := (Caller.turn ⟨.sweep, reading⟩ crowd.cache).1
      ((∀ key value time, swept.stored? key = some (value, time) → reading ≤ time + timespan) ↔
        ∀ key, ¬ crowd.cache.Shielded reading key)) ∧
    ((∀ i, Happening.turn i ∈ happenings → i = 0) →
      ∀ reading key, ¬ crowd.cache.Shielded reading key) := by
  intro crowd
  have hpaired : crowd.cache.Paired := Crowd.paired_run (Expiring.paired_empty timespan) happenings
  have htimespan : crowd.cache.timespan = timespan := Crowd.timespan_run _ happenings
  refine ⟨?_, ?_, ?_⟩
  · intro key value reading _ accepted
    have haccepted : accepted ↔ (crowd.cache.sweep reading).stored? key = none := by
      show some (crowd.cache.add reading key value).2 = some true ↔ _
      rw [Option.some.injEq, Expiring.add_accepted_iff]
    rw [haccepted]
    refine ⟨hpaired.stored?_sweep_of_none reading, ?_⟩
    intro old time hstored hdead
    rw [← htimespan] at hdead
    exact hpaired.stored?_sweep_of_expired hstored hdead
  · intro reading _ swept
    constructor
    · intro hall key hshielded
      obtain ⟨value, time, hstored, hdead⟩ := hpaired.stored?_of_shielded hshielded
      have hleft := hall key value time
        ((hpaired.stored?_sweep_iff reading key (value, time)).mpr ⟨hstored, .inr hshielded⟩)
      rw [htimespan] at hdead
      omega
    · intro hnone key value time hleft
      rcases ((hpaired.stored?_sweep_iff reading key (value, time)).mp hleft).2 with hle | hshielded
      · rwa [htimespan] at hle
      · exact absurd hshielded (hnone key)
  · intro hfirst reading key
    exact ((Crowd.punctual_start timespan now).run hfirst).sound.not_shielded reading key

/-- An insertion that comes back after its entry has expired, everybody served at once. -/
theorem expired_accepted_in_order :
    let happenings : List (Happening Nat Unit) :=
      [.arrive (.add 1 ()), .turn 0, .pass 11, .arrive (.add 1 ())]
    let crowd := (Crowd.start 10 0).run happenings
    crowd.cache.stored? 1 = some ((), 0) ∧
      (Caller.turn ⟨.add 1 (), 11⟩ crowd.cache).2 = some true := by
  intro happenings crowd
  have hstored : crowd.cache.stored? 1 = some ((), 0) := by decide
  have hfirst : ∀ i, Happening.turn i ∈ happenings → i = 0 := by
    intro i hi
    simpa [happenings] using hi
  obtain ⟨hadd, -, hclear⟩ := expired_accepted_iff 10 0 happenings
  have haccepted := (hadd 1 () 11 (by decide)).2 () 0 hstored (by decide)
  exact ⟨hstored, haccepted.mpr (hclear hfirst 11 1)⟩

/-- Two insertions of which the one that read the clock second is served first. -/
def overtaking : List (Happening Nat Unit) :=
  [.arrive (.add 1 ()), .pass 5, .arrive (.add 2 ()), .turn 1, .turn 0, .pass 10, .arrive .sweep,
    .arrive (.add 1 ())]

/-- The overtaken key expires after ten nanoseconds; five later a sweep leaves it, and to add it
again is refused. -/
theorem overtaken_key_refused :
    let crowd := (Crowd.start 10 0).run overtaking
    crowd.waiting = [⟨.sweep, 15⟩, ⟨.add 1 (), 15⟩] ∧
      crowd.cache.stored? 1 = some ((), 0) ∧ 0 + 10 < 15 ∧
      (Caller.turn ⟨.sweep, 15⟩ crowd.cache).1.stored? 1 = some ((), 0) ∧
      (Caller.turn ⟨.add 1 (), 15⟩ crowd.cache).2 = some false := by
  decide

end ChainWatch.Cache
