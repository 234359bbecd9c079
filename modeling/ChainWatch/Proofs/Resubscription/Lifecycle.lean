import ChainWatch.Proofs.Resubscription.Course
import ChainWatch.Subscription.Handle

/-!
# The subscriptions of a supervisor

Seen from outside, a supervisor asks for subscriptions, is given some of them, unsubscribes them,
and ends; and the subscriptions that it was given come to their own ends. `history` writes all of
this down for any run: whatever happens in whatever order, the telling and the heeding of it
included.

`lifecycle_orderly` says what can be found in a history. At every moment at most one of the
subscriptions is live. When the supervisor asks for another one, and when it ends, it has
unsubscribed each of them once and no more than once. It does not end before each of them has
ended. And the holder of the handle learns of the end of the supervisor, and not of anything
earlier.
-/

namespace ChainWatch.Resubscription

/-- What can be seen of a supervisor and its subscriptions, which are numbered from 1 on. -/
inductive Mark where
  /-- The supervisor asks for a subscription. -/
  | asked
  /-- It is given one. -/
  | established (number : Nat)
  | unsubscribed (number : Nat)
  /-- The subscription has ended, and the supervisor has seen it. -/
  | gone (number : Nat)
  | ended (error : Option ChainError)
deriving DecidableEq

namespace Supervisor

/-- Does a happening give the supervisor a subscription? -/
def gains (s : Supervisor) : Happening → Bool
  | .established _ => s.phase = .subscribing
  | _ => false

/-- Does a happening end the subscription that the supervisor has? -/
def seesEnd (s : Supervisor) : Happening → Bool
  | .lost .. => s.phase = .live
  | .closed => s.phase = .closing
  | _ => false

/-- What a supervisor does, as it can be seen; it has no subscription but the latest one. -/
def actMark? (number : Nat) : Act → Option Mark
  | .ask => some .asked
  | .unsubscribe => some (.unsubscribed number)
  | .count _ | .notify _ => none

/-- Does the supervisor end in a step from one phase to another? -/
def endMarks : Phase → Phase → List Mark
  | .ended _, _ => []
  | _, .ended error => [.ended error]
  | _, _ => []

/-- What can be seen of a happening, where so many subscriptions were given before. -/
def marks (s : Supervisor) (number : Nat) (h : Happening) : List Mark :=
  (if s.gains h then [.established (number + 1)] else [])
    ++ (if s.seesEnd h then [.gone number] else [])
    ++ ((s.step h).log.drop s.log.length).filterMap (actMark? number)
    ++ endMarks s.phase (s.step h).phase

/-- How many subscriptions were given after a happening. -/
def numberAfter (s : Supervisor) (number : Nat) (h : Happening) : Nat :=
  if s.gains h then number + 1 else number

/-- What can be seen of a run, where so many subscriptions were given before. -/
def history (s : Supervisor) : (number : Nat) → List Happening → List Mark
  | _, [] => []
  | number, h :: rest => s.marks number h ++ (s.step h).history (s.numberAfter number h) rest

/-- The handle of a supervised subscription, before anyone has looked at its end. -/
def handle (s : Supervisor) : Subscription.Handle :=
  ⟨s.told, match s.phase with
    | .ended none => .ended .finished
    | .ended (some error) => .ended (.failed error)
    | _ => .running⟩

end Supervisor

/-! ## Orderly histories -/

/-- The subscription was given and has not been unsubscribed. -/
def Live (marks : List Mark) (number : Nat) : Prop :=
  .established number ∈ marks ∧ .unsubscribed number ∉ marks

/-- The mark of a supervisor that is done with what it was given before. -/
def Mark.isTurn : Mark → Bool
  | asked | ended _ => true
  | established _ | unsubscribed _ | gone _ => false

/-- A history that keeps the rules of a supervised subscription. -/
structure Orderly (marks : List Mark) : Prop where
  /-- At every moment at most one subscription is live. -/
  one_live : ∀ earlier, earlier <+: marks → ∀ j k, Live earlier j → Live earlier k → j = k
  /-- Before the supervisor asks again or ends, it has unsubscribed once what it was given. -/
  unsubscribed_once : ∀ earlier mark later, marks = earlier ++ mark :: later → mark.isTurn →
    ∀ k, .established k ∈ earlier → earlier.count (.unsubscribed k) = 1
  /-- It unsubscribes nothing that it was not given, and nothing twice. -/
  unsubscribed_given : ∀ earlier k later, marks = earlier ++ .unsubscribed k :: later →
    .established k ∈ earlier
  count_unsubscribed : ∀ k, marks.count (.unsubscribed k) ≤ 1
  /-- What it was given has ended before it ends. -/
  gone_before_end : ∀ earlier error later, marks = earlier ++ .ended error :: later →
    ∀ k, .established k ∈ earlier → .gone k ∈ earlier

theorem orderly_nil : Orderly [] := by
  refine ⟨?_, ?_, ?_, fun k => Nat.zero_le 1, ?_⟩
  · intro earlier hprefix j k hj
    rw [List.prefix_nil.mp hprefix] at hj
    exact absurd hj.1 List.not_mem_nil
  · intro earlier mark later heq
    exact absurd heq.symm (by simp)
  · intro earlier k later heq
    exact absurd heq.symm (by simp)
  · intro earlier error later heq
    exact absurd heq.symm (by simp)

/-- A mark in a longer history is the new one, or it was there before. -/
theorem snoc_eq_append_cons {marks earlier later : List Mark} {new mark : Mark}
    (h : marks ++ [new] = earlier ++ mark :: later) :
    (earlier = marks ∧ mark = new) ∨ ∃ later', marks = earlier ++ mark :: later' := by
  rcases List.eq_nil_or_concat later with rfl | ⟨later', last, rfl⟩
  · obtain ⟨hmarks, hnew⟩ := List.append_inj' h rfl
    exact .inl ⟨hmarks.symm, (List.cons.inj hnew).1.symm⟩
  · rw [List.concat_eq_append, ← List.cons_append, ← List.append_assoc] at h
    exact .inr ⟨later', (List.append_inj' h rfl).1⟩

/-- One more mark, if it finds what it needs, leaves a history orderly. -/
theorem Orderly.snoc {marks : List Mark} {new : Mark} (h : Orderly marks)
    (live : ∀ j k, Live (marks ++ [new]) j → Live (marks ++ [new]) k → j = k)
    (turn : new.isTurn → ∀ k, .established k ∈ marks → marks.count (.unsubscribed k) = 1)
    (given : ∀ k, new = .unsubscribed k → .established k ∈ marks)
    (once : ∀ k, (marks ++ [new]).count (.unsubscribed k) ≤ 1)
    (gone : ∀ error, new = .ended error → ∀ k, .established k ∈ marks → .gone k ∈ marks) :
    Orderly (marks ++ [new]) := by
  refine ⟨?_, ?_, ?_, once, ?_⟩
  · intro earlier hprefix
    rcases List.prefix_concat_iff.mp hprefix with rfl | hprefix
    · exact live
    · exact h.one_live earlier hprefix
  · intro earlier mark later heq hturn
    rcases snoc_eq_append_cons heq with ⟨rfl, rfl⟩ | ⟨later', hmarks⟩
    · exact turn hturn
    · exact h.unsubscribed_once earlier mark later' hmarks hturn
  · intro earlier k later heq
    rcases snoc_eq_append_cons heq with ⟨rfl, hnew⟩ | ⟨later', hmarks⟩
    · exact given k hnew.symm
    · exact h.unsubscribed_given earlier k later' hmarks
  · intro earlier error later heq
    rcases snoc_eq_append_cons heq with ⟨rfl, hnew⟩ | ⟨later', hmarks⟩
    · exact gone error hnew.symm
    · exact h.gone_before_end earlier error later' hmarks

/-! ## Counting subscriptions -/

/-- A history of the first so many subscriptions: those that were given, those that were
unsubscribed, and those that are over. -/
structure Numbered (marks : List Mark) (given unsubscribed gone : Nat) : Prop where
  mem_established : ∀ k, .established k ∈ marks ↔ 0 < k ∧ k ≤ given
  count_unsubscribed : ∀ k,
    marks.count (.unsubscribed k) = if 0 < k ∧ k ≤ unsubscribed then 1 else 0
  mem_gone : ∀ k, .gone k ∈ marks ↔ 0 < k ∧ k ≤ gone

namespace Numbered

variable {marks : List Mark} {given unsubscribed gone : Nat}

/-- The live subscriptions are those that were given and not yet counted as unsubscribed. -/
theorem live_iff (h : Numbered marks given unsubscribed gone) (k : Nat) :
    Live marks k ↔ unsubscribed < k ∧ k ≤ given := by
  unfold Live
  rw [h.mem_established, ← List.count_eq_zero, h.count_unsubscribed]
  split <;> omega

theorem established (h : Numbered marks given unsubscribed gone) :
    Numbered (marks ++ [.established (given + 1)]) (given + 1) unsubscribed gone := by
  refine ⟨fun k => ?_, fun k => ?_, fun k => ?_⟩
  · have hk := h.mem_established k
    simp only [List.mem_append, List.mem_singleton, Mark.established.injEq, hk]
    omega
  · rw [List.count_append, h.count_unsubscribed]
    simp
  · simp [h.mem_gone]

theorem unsubscribe (h : Numbered marks given unsubscribed gone) :
    Numbered (marks ++ [.unsubscribed (unsubscribed + 1)]) given (unsubscribed + 1) gone := by
  refine ⟨fun k => ?_, fun k => ?_, fun k => ?_⟩
  · simp [h.mem_established]
  · rw [List.count_append, h.count_unsubscribed, List.count_singleton]
    by_cases hk : k = unsubscribed + 1
    · subst hk
      simp
    · simp only [beq_iff_eq, Mark.unsubscribed.injEq, Ne.symm hk, if_false]
      split <;> split <;> omega
  · simp [h.mem_gone]

theorem finish (h : Numbered marks given unsubscribed gone) :
    Numbered (marks ++ [.gone (gone + 1)]) given unsubscribed (gone + 1) := by
  refine ⟨fun k => ?_, fun k => ?_, fun k => ?_⟩
  · simp [h.mem_established]
  · rw [List.count_append, h.count_unsubscribed]
    simp
  · have hk := h.mem_gone k
    simp only [List.mem_append, List.mem_singleton, Mark.gone.injEq, hk]
    omega

theorem turn (h : Numbered marks given unsubscribed gone) {mark : Mark} (turn : mark.isTurn) :
    Numbered (marks ++ [mark]) given unsubscribed gone := by
  refine ⟨fun k => ?_, fun k => ?_, fun k => ?_⟩
  · rw [List.mem_append, h.mem_established, List.mem_singleton]
    exact or_iff_left (fun heq => by subst heq; cases turn)
  · have hne : .unsubscribed k ∉ [mark] := by
      intro hk
      rw [← List.mem_singleton.mp hk] at turn
      cases turn
    rw [List.count_append, h.count_unsubscribed, List.count_eq_zero.mpr hne, Nat.add_zero]
  · rw [List.mem_append, h.mem_gone, List.mem_singleton]
    exact or_iff_left (fun heq => by subst heq; cases turn)

end Numbered

/-- An orderly history of so many subscriptions. -/
structure Tally (marks : List Mark) (given unsubscribed gone : Nat) : Prop
    extends Numbered marks given unsubscribed gone where
  orderly : Orderly marks

theorem tally_nil : Tally [] 0 0 0 :=
  ⟨⟨fun k => by simp; omega, fun k => by simp; omega, fun k => by simp; omega⟩, orderly_nil⟩

/-- One more mark leaves a history orderly if at most one subscription is then live, if all that
are then unsubscribed were given, if all are unsubscribed at a turn, and all are over at the end. -/
theorem Tally.snoc {marks : List Mark} {new : Mark} {g u o g' u' o' : Nat} (h : Tally marks g u o)
    (numbered : Numbered (marks ++ [new]) g' u' o') (bound : g' ≤ u' + 1) (given : u' ≤ g)
    (turn : new.isTurn → g ≤ u) (gone : ∀ error, new = .ended error → g ≤ o) :
    Tally (marks ++ [new]) g' u' o' := by
  refine ⟨numbered, h.orderly.snoc ?_ ?_ ?_ ?_ ?_⟩
  · intro j k hj hk
    rw [numbered.live_iff] at hj hk
    omega
  · intro hturn k hk
    have hgiven := (h.mem_established k).mp hk
    rw [h.count_unsubscribed, if_pos ⟨hgiven.1, Nat.le_trans hgiven.2 (turn hturn)⟩]
  · intro k hnew
    have hcount : 0 < (marks ++ [new]).count (.unsubscribed k) :=
      List.count_pos_iff.mpr (by simp [hnew])
    rw [numbered.count_unsubscribed] at hcount
    rw [h.mem_established]
    split at hcount <;> omega
  · intro k
    rw [numbered.count_unsubscribed]
    split <;> omega
  · intro error hnew k hk
    have hgiven := (h.mem_established k).mp hk
    exact (h.mem_gone k).mpr ⟨hgiven.1, Nat.le_trans hgiven.2 (gone error hnew)⟩

section

variable {marks : List Mark} {n u o : Nat}

theorem Tally.ask (h : Tally marks n n n) : Tally (marks ++ [.asked]) n n n :=
  h.snoc (h.turn rfl) (Nat.le_succ n) (Nat.le_refl n) (fun _ => Nat.le_refl n) nofun

theorem Tally.establish (h : Tally marks n n n) :
    Tally (marks ++ [.established (n + 1)]) (n + 1) n n :=
  h.snoc h.established (Nat.le_refl _) (Nat.le_refl n) nofun nofun

theorem Tally.unsubscribeLast (h : Tally marks (u + 1) u o) :
    Tally (marks ++ [.unsubscribed (u + 1)]) (u + 1) (u + 1) o :=
  h.snoc h.unsubscribe (Nat.le_succ _) (Nat.le_refl _) nofun nofun

theorem Tally.finishLast (h : Tally marks (o + 1) u o) (lower : o ≤ u) (upper : u ≤ o + 1) :
    Tally (marks ++ [.gone (o + 1)]) (o + 1) u (o + 1) :=
  h.snoc h.finish (Nat.succ_le_succ lower) upper nofun nofun

theorem Tally.conclude (h : Tally marks n n n) (error : Option ChainError) :
    Tally (marks ++ [.ended error]) n n n :=
  h.snoc (h.turn rfl) (Nat.le_succ n) (Nat.le_refl n) (fun _ => Nat.le_refl n)
    (fun _ _ => Nat.le_refl n)

end

/-! ## What a step adds -/

/-- How many subscriptions were unsubscribed, and how many are over, in a phase. -/
def Phase.Settles : Phase → (given unsubscribed gone : Nat) → Prop
  | live, g, u, o => g = u + 1 ∧ g = o + 1
  | closing, g, u, o => g = u ∧ g = o + 1
  | ready, g, u, o | subscribing, g, u, o | pausing _ _, g, u, o | ended _, g, u, o =>
    g = u ∧ g = o

namespace Supervisor

theorem endMarks_self (phase : Phase) : endMarks phase phase = [] := by
  cases phase <;> rfl

theorem gains_of_ignores {s : Supervisor} {h : Happening} (ignores : s.Ignores h) :
    s.gains h = false := by
  cases h with
  | established clock => exact decide_eq_false ignores
  | _ => rfl

theorem seesEnd_of_ignores {s : Supervisor} {h : Happening} (ignores : s.Ignores h) :
    s.seesEnd h = false := by
  cases h with
  | lost error clock pause => exact decide_eq_false ignores
  | closed => exact decide_eq_false ignores
  | _ => rfl

/-- Nothing about an alert can be seen in the history. -/
theorem filterMap_alertActs (s : Supervisor) (time number : Nat) :
    (s.alertActs time).filterMap (actMark? number) = [] := by
  unfold alertActs
  split
  · rfl
  · split <;> rfl

/-- A failure leaves nothing that is live or not over. -/
theorem tally_fails {s : Supervisor} {earlier : List Mark} {g u o : Nat} {h : Happening}
    {acts : List Act} {clock pause : Nat} (fails : Fails s.phase h acts clock pause)
    (tally : Tally earlier g u o) (settles : s.phase.Settles g u o) :
    s.gains h = false ∧
      Tally (earlier ++ ((if s.seesEnd h then [.gone g] else []) ++ acts.filterMap (actMark? g)))
        g g g := by
  generalize hphase : s.phase = phase at fails settles
  cases fails with
  | refused =>
    obtain ⟨rfl, rfl⟩ := settles
    refine ⟨rfl, ?_⟩
    show Tally (earlier ++ []) g g g
    rwa [List.append_nil]
  | lost =>
    -- the subscription is over first, and is unsubscribed then
    obtain ⟨rfl, hgone⟩ := settles
    cases hgone
    have hboth := (tally.finishLast (Nat.le_refl _) (Nat.le_succ _)).unsubscribeLast
    simpa [gains, seesEnd, actMark?, hphase] using hboth

/-- Every step adds marks that its phase leaves room for. -/
theorem tally_step {s : Supervisor} {earlier : List Mark} {g u o : Nat} (h : Happening)
    (tally : Tally earlier g u o) (settles : s.phase.Settles g u o) :
    ∃ u' o', Tally (earlier ++ s.marks g h) (s.numberAfter g h) u' o' ∧
      (s.step h).phase.Settles (s.numberAfter g h) u' o' := by
  have hcases := s.step_cases h
  unfold marks numberAfter
  generalize s.step h = next at hcases
  cases hcases with
  | ignored ignores =>
    rw [gains_of_ignores ignores, seesEnd_of_ignores ignores, endMarks_self, List.drop_length]
    simp only [Bool.false_eq_true, if_false, List.filterMap_nil, List.append_nil]
    exact ⟨u, o, tally, settles⟩
  | told =>
    simp only [gains, seesEnd, endMarks_self, List.drop_length, Bool.false_eq_true, if_false,
      List.filterMap_nil, List.append_nil]
    exact ⟨u, o, tally, settles⟩
  | asked phase =>
    rw [phase] at settles ⊢
    obtain ⟨rfl, rfl⟩ := settles
    simp only [gains, seesEnd, Bool.false_eq_true, if_false, act, List.drop_left,
      List.filterMap_append, filterMap_alertActs, endMarks, List.nil_append, List.append_nil]
    exact ⟨g, g, tally.ask, rfl, rfl⟩
  | established phase =>
    rw [phase] at settles ⊢
    obtain ⟨rfl, rfl⟩ := settles
    simp only [gains, seesEnd, phase, decide_true, if_true, Bool.false_eq_true, if_false,
      List.drop_length, endMarks, List.filterMap_nil, List.append_nil]
    exact ⟨g, g, tally.establish, rfl, rfl⟩
  | @paused h acts clock pause fails allowed =>
    obtain ⟨hgains, htally⟩ := tally_fails fails tally settles
    have hend : endMarks s.phase (.pausing pause s.told) = [] := by
      generalize s.phase = phase
      cases phase <;> rfl
    simp only [hgains, Bool.false_eq_true, if_false, act, List.append_assoc, List.drop_left,
      List.filterMap_append, hend, List.nil_append, List.append_nil]
    have hcount : [Act.count .resubscription].filterMap (actMark? g) = [] := rfl
    rw [hcount, List.append_nil]
    exact ⟨g, g, htally, rfl, rfl⟩
  | @gaveUp h acts clock pause fails exceeded =>
    obtain ⟨hgains, htally⟩ := tally_fails fails tally settles
    have hend : endMarks s.phase (.ended (some .resubscriptionExhausted))
        = [.ended (some .resubscriptionExhausted)] := by
      generalize s.phase = phase at fails
      cases fails <;> rfl
    simp only [hgains, Bool.false_eq_true, if_false, act, List.drop_left, hend, List.nil_append]
    rw [← List.append_assoc]
    exact ⟨g, g, htally.conclude _, rfl, rfl⟩
  | @rested length wasTold phase free =>
    rw [phase] at settles ⊢
    simp only [gains, seesEnd, Bool.false_eq_true, if_false, List.drop_length, endMarks,
      List.filterMap_nil, List.append_nil]
    exact ⟨u, o, tally, settles⟩
  | stopped told phase =>
    have hend : endMarks s.phase (.ended none) = [.ended none] ∧ g = u ∧ g = o := by
      rcases phase with phase | ⟨length, wasTold, phase⟩ <;> rw [phase] at settles ⊢ <;>
        exact ⟨rfl, settles⟩
    obtain ⟨hend, rfl, rfl⟩ := hend
    simp only [gains, seesEnd, Bool.false_eq_true, if_false, List.drop_length, hend,
      List.filterMap_nil, List.nil_append]
    exact ⟨g, g, tally.conclude none, rfl, rfl⟩
  | unsubscribed told phase =>
    rw [phase] at settles ⊢
    obtain ⟨rfl, hgone⟩ := settles
    cases hgone
    simp only [gains, seesEnd, Bool.false_eq_true, if_false, act, List.drop_left, endMarks,
      List.nil_append, List.append_nil]
    exact ⟨u + 1, u, tally.unsubscribeLast, rfl, rfl⟩
  | closed phase =>
    rw [phase] at settles ⊢
    obtain ⟨rfl, hgone⟩ := settles
    cases hgone
    simp only [gains, seesEnd, phase, decide_true, if_true, Bool.false_eq_true, if_false,
      List.drop_length, endMarks, List.filterMap_nil, List.nil_append, List.append_nil]
    have hended := (tally.finishLast (Nat.le_succ _) (Nat.le_refl _)).conclude none
    rw [List.append_assoc] at hended
    exact ⟨_, _, hended, rfl, rfl⟩

/-- A run adds marks that its phases leave room for. -/
theorem settles_run {s : Supervisor} {earlier : List Mark} {g u o : Nat} (hs : List Happening)
    (tally : Tally earlier g u o) (settles : s.phase.Settles g u o) :
    ∃ g' u' o', Tally (earlier ++ s.history g hs) g' u' o' ∧
      (s.run hs).phase.Settles g' u' o' := by
  induction hs generalizing s earlier g u o with
  | nil =>
    rw [history, List.append_nil]
    exact ⟨g, u, o, tally, settles⟩
  | cons h rest ih =>
    obtain ⟨u', o', hstep, hsettles⟩ := tally_step h tally settles
    rw [history, ← List.append_assoc]
    exact ih hstep hsettles

/-- A run keeps its history orderly. -/
theorem tally_run {s : Supervisor} {earlier : List Mark} {g u o : Nat} (hs : List Happening)
    (tally : Tally earlier g u o) (settles : s.phase.Settles g u o) :
    Orderly (earlier ++ s.history g hs) := by
  obtain ⟨g', u', o', htally, -⟩ := settles_run hs tally settles
  exact htally.orderly

/-- A supervisor that has ended has unsubscribed all that it was given, and has seen it end. -/
theorem settled_of_ended {s : Supervisor} {hs : List Happening} {error : Option ChainError}
    (fresh : s.phase = .ready) (ended : (s.run hs).phase = .ended error) {k : Nat}
    (given : .established k ∈ s.history 0 hs) :
    .unsubscribed k ∈ s.history 0 hs ∧ .gone k ∈ s.history 0 hs := by
  have hsettles : s.phase.Settles 0 0 0 := by
    rw [fresh]
    exact ⟨rfl, rfl⟩
  obtain ⟨g, u, o, htally, hend⟩ := settles_run hs tally_nil hsettles
  rw [List.nil_append] at htally
  rw [ended] at hend
  obtain ⟨rfl, rfl⟩ := hend
  have hk := (htally.mem_established k).mp given
  refine ⟨List.count_pos_iff.mp ?_, (htally.mem_gone k).mpr hk⟩
  rw [htally.count_unsubscribed, if_pos hk]
  exact Nat.one_pos

/-! ## The end of the supervisor, and what the holder of its handle sees -/

theorem mem_endMarks {phase next : Phase} {error : Option ChainError}
    (goesOn : ∀ e, phase ≠ .ended e) : .ended error ∈ endMarks phase next ↔ next = .ended error := by
  cases phase with
  | ended e => exact absurd rfl (goesOn e)
  | _ => cases next <;> simp [endMarks, eq_comm]

/-- A step can be seen as the end only where the supervisor ends in it. -/
theorem ended_mem_marks (s : Supervisor) (number : Nat) (h : Happening)
    (error : Option ChainError) :
    .ended error ∈ s.marks number h ↔ .ended error ∈ endMarks s.phase (s.step h).phase := by
  have hact : ∀ act, actMark? number act ≠ some (.ended error) := by
    intro act
    cases act <;> simp [actMark?]
  unfold marks
  simp only [List.mem_append, List.mem_filterMap]
  constructor
  · rintro (((hmem | hmem) | ⟨act, -, hmem⟩) | hmem)
    · split at hmem <;> simp at hmem
    · split at hmem <;> simp at hmem
    · exact absurd hmem (hact act)
    · exact hmem
  · exact .inr

theorem ended_notMem_history {s : Supervisor} {last : Option ChainError} (ended : s.phase = .ended last)
    (number : Nat) (hs : List Happening) (error : Option ChainError) :
    .ended error ∉ s.history number hs := by
  induction hs generalizing s number with
  | nil => exact List.not_mem_nil
  | cons h rest ih =>
    rw [history, List.mem_append, ended_mem_marks, ended]
    exact fun hmem => hmem.elim List.not_mem_nil (ih (phase_step_of_ended ended h) _)

/-- The end of the supervisor stands in the history exactly if it has ended, with its error. -/
theorem ended_mem_history {s : Supervisor} (goesOn : ∀ e, s.phase ≠ .ended e) (number : Nat)
    (hs : List Happening) (error : Option ChainError) :
    .ended error ∈ s.history number hs ↔ (s.run hs).phase = .ended error := by
  induction hs generalizing s number with
  | nil => exact ⟨fun hmem => absurd hmem List.not_mem_nil, fun heq => absurd heq (goesOn error)⟩
  | cons h rest ih =>
    rw [history, List.mem_append, ended_mem_marks, mem_endMarks goesOn]
    by_cases hstep : ∃ e, (s.step h).phase = .ended e
    · -- whatever it ended with stays, and is not written down again
      obtain ⟨e, he⟩ := hstep
      have hrun : (s.run (h :: rest)).phase = .ended e := phase_run_of_ended he rest
      rw [or_iff_left (ended_notMem_history he _ rest error), he, hrun]
    · have hgoesOn : ∀ e, (s.step h).phase ≠ .ended e := fun e he => hstep ⟨e, he⟩
      rw [or_iff_right (hgoesOn error)]
      exact ih hgoesOn _

/-- The holder of a handle learns of an end exactly if the supervisor has ended. -/
theorem handle_poll (s : Supervisor) (error : Option ChainError) :
    s.handle.poll.1 = some error ↔ s.phase = .ended error := by
  unfold handle Subscription.Handle.poll
  cases hphase : s.phase with
  | ended e => cases e <;> simp [Subscription.Ending.error?]
  | _ => simp

/-- Whatever happens to a supervisor, in whatever order: its history is orderly. The holder of its
handle tells it to stop by unsubscribing, and learns of an end exactly if that is in the history. -/
theorem lifecycle_orderly (policy : Policy) (clock : Nat) (hs : List Happening) :
    Orderly ((start policy clock).history 0 hs) ∧
      (((start policy clock).run hs).step .told).handle
        = ((start policy clock).run hs).handle.unsubscribe ∧
      ∀ error, ((start policy clock).run hs).handle.poll.1 = some error ↔
        .ended error ∈ (start policy clock).history 0 hs := by
  refine ⟨tally_run hs tally_nil ⟨rfl, rfl⟩, rfl, fun error => ?_⟩
  rw [handle_poll, ended_mem_history (fun e he => by cases he)]

/-- A subscription that is up when the supervisor heeds that it was told to stop. -/
example : (start (.of 10 0) 0).history 0 [.turn 0, .established 0, .told, .heeded, .closed]
    = [.asked, .established 1, .unsubscribed 1, .gone 1, .ended none] := by decide

end Supervisor

end ChainWatch.Resubscription
