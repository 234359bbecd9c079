import ChainWatch.HeadFeed.Feed

/-!
# Heads on their way

`Feed.Did` says once what a move of a feed can do. Everything else is read off it: heads are passed
on in the order in which the node tells them, none twice and none left out (`Sound.run`), a feed
that is left alone ends only when everything has been delivered, and every move that the feed makes
by itself brings it nearer to the point where there is nothing left to do (`work_step`).
-/

namespace ChainWatch.HeadFeed

/-- The head that a forwarder holds. -/
def Phase.held : Phase → List Header
  | .holding head => [head]
  | _ => []

/-- Does a move come from outside, from the one who receives the heads? -/
def Move.isOutside : Move → Bool
  | .dropReceiver | .unsubscribe => true
  | _ => false

/-- The receiver stays and nothing is cancelled. -/
def Undisturbed (moves : List Move) : Prop := ∀ move ∈ moves, move.isOutside = false

namespace Feed

variable {f g : Feed} {move : Move} {moves : List Move} {heads : List Header}

theorem run_nil (f : Feed) : f.run [] = f := rfl

theorem run_cons (f : Feed) (move : Move) (rest : List Move) :
    f.run (move :: rest) = (f.step move).run rest := rfl

theorem run_append (f : Feed) (moves more : List Move) :
    f.run (moves ++ more) = (f.run moves).run more :=
  List.foldl_append

theorem step_receive {head : Header} {forwarder : Forwarder}
    (htaken : f.forwarder.receive? = some (head, forwarder)) :
    f.step .receive
      = { f with forwarder := forwarder, received := f.received ++ [head] } := by
  rw [step, htaken]

/-! ## What a move can do -/

/-- What becomes of a feed in a move that is possible. -/
inductive Did (f : Feed) : Move → Feed → Prop
  | opened {id : Word} : f.answer = none → f.reply.subscription = .ok id →
      Did f .answer { f with answer := some (.ok ()) }
  | refused {e : ChainError} : f.answer = none → f.reply.subscription = .error e →
      Did f .answer
        { f with answer := some (.error e), forwarder := { f.forwarder with phase := .ended none } }
  | heard {head : Header} {rest : List (Option Header)} : f.isOpen = true →
      f.forwarder.phase = .listening → f.notices = some head :: rest →
      Did f .hear
        { f with notices := rest, forwarder := { f.forwarder with phase := .holding head } }
  | skipped {rest : List (Option Header)} : f.isOpen = true → f.forwarder.phase = .listening →
      f.notices = none :: rest → Did f .hear { f with notices := rest }
  | lost : f.isOpen = true → f.forwarder.phase = .listening → f.notices = [] → f.ends = true →
      Did f .lose
        { f with forwarder := { f.forwarder with phase := .ended (some .subscriptionClosed) } }
  | passed {head : Header} : f.forwarder.phase = .holding head → f.forwarder.receiverGone = false →
      f.forwarder.sink.length < f.forwarder.capacity →
      Did f .passOn { f with
        forwarder := { f.forwarder with sink := f.forwarder.sink ++ [head], phase := .listening } }
  | bounced {head : Header} : f.forwarder.phase = .holding head → f.forwarder.receiverGone = true →
      Did f .passOn { f with forwarder := { f.forwarder with phase := .ended none } }
  | heeded : f.isOpen = true → f.forwarder.phase = .listening → f.forwarder.cancelled = true →
      Did f .heed { f with forwarder := { f.forwarder with phase := .ended none } }
  | took {head : Header} {rest : List Header} : f.forwarder.sink = head :: rest →
      Did f .receive
        { f with forwarder := { f.forwarder with sink := rest }, received := f.received ++ [head] }
  | left : Did f .dropReceiver
      { f with forwarder := { f.forwarder with receiverGone := true, sink := [] } }
  | told : f.isOpen = true →
      Did f .unsubscribe { f with forwarder := { f.forwarder with cancelled := true } }

theorem Did.step_eq (h : Did f move g) : f.step move = g := by
  cases h with
  | opened hnone hreply => rw [step, hnone, hreply]
  | refused hnone hreply => rw [step, hnone, hreply]
  | heard hopen hphase hnotices =>
    rw [step, hnotices]
    dsimp only
    rw [if_pos ⟨hopen, hphase⟩, Option.elim_some, Forwarder.hear, hphase]
  | skipped hopen hphase hnotices =>
    rw [step, hnotices]
    dsimp only
    rw [if_pos ⟨hopen, hphase⟩, Option.elim_none]
  | lost hopen hphase hnotices hends =>
    rw [step, if_pos ⟨hopen, hnotices, hends⟩, Forwarder.lose, hphase]
  | passed hphase hhere hroom =>
    rw [step, Forwarder.passOn, hphase]
    dsimp only
    rw [if_neg (Bool.eq_false_iff.mp hhere), if_pos hroom]
  | bounced hphase hgone =>
    rw [step, Forwarder.passOn, hphase]
    dsimp only
    rw [if_pos hgone]
  | heeded hopen hphase hcancelled =>
    rw [step, if_pos hopen, Forwarder.heed, hphase]
    dsimp only
    rw [if_pos hcancelled]
  | took hsink => rw [step, Forwarder.receive?, hsink]
  | left => rfl
  | told hopen => rw [step, if_pos hopen, Forwarder.unsubscribe]

/-- A move is possible, or nothing happens. -/
theorem step_cases (f : Feed) (move : Move) : f.step move = f ∨ Did f move (f.step move) := by
  have hdid {g : Feed} (h : Did f move g) : f.step move = f ∨ Did f move (f.step move) :=
    .inr (h.step_eq ▸ h)
  cases move with
  | answer =>
    cases hanswer : f.answer with
    | some answer => exact .inl (by rw [step, hanswer])
    | none =>
      cases hreply : f.reply.subscription with
      | ok id => exact hdid (.opened hanswer hreply)
      | error e => exact hdid (.refused hanswer hreply)
  | hear =>
    cases hnotices : f.notices with
    | nil => exact .inl (by rw [step, hnotices])
    | cons notice rest =>
      by_cases hready : f.isOpen ∧ f.forwarder.phase = .listening
      · cases notice with
        | some head => exact hdid (.heard hready.1 hready.2 hnotices)
        | none => exact hdid (.skipped hready.1 hready.2 hnotices)
      · refine .inl ?_
        rw [step, hnotices]
        exact if_neg hready
  | lose =>
    by_cases hready : f.isOpen ∧ f.notices = [] ∧ f.ends
    · cases hphase : f.forwarder.phase with
      | listening => exact hdid (.lost hready.1 hphase hready.2.1 hready.2.2)
      | holding head => exact .inl (by rw [step, if_pos hready, Forwarder.lose, hphase])
      | ended error => exact .inl (by rw [step, if_pos hready, Forwarder.lose, hphase])
    · exact .inl (if_neg hready)
  | passOn =>
    cases hphase : f.forwarder.phase with
    | listening => exact .inl (by rw [step, Forwarder.passOn, hphase])
    | holding head =>
      cases hgone : f.forwarder.receiverGone with
      | true => exact hdid (.bounced hphase hgone)
      | false =>
        by_cases hroom : f.forwarder.sink.length < f.forwarder.capacity
        · exact hdid (.passed hphase hgone hroom)
        · refine .inl ?_
          rw [step, Forwarder.passOn, hphase]
          dsimp only
          rw [if_neg (Bool.eq_false_iff.mp hgone), if_neg hroom]
    | ended error => exact .inl (by rw [step, Forwarder.passOn, hphase])
  | heed =>
    by_cases hopen : f.isOpen = true
    · cases hphase : f.forwarder.phase with
      | listening =>
        by_cases hcancelled : f.forwarder.cancelled = true
        · exact hdid (.heeded hopen hphase hcancelled)
        · refine .inl ?_
          rw [step, if_pos hopen, Forwarder.heed, hphase]
          dsimp only
          rw [if_neg hcancelled]
      | holding head => exact .inl (by rw [step, if_pos hopen, Forwarder.heed, hphase])
      | ended error => exact .inl (by rw [step, if_pos hopen, Forwarder.heed, hphase])
    · exact .inl (if_neg hopen)
  | receive =>
    cases hsink : f.forwarder.sink with
    | nil => exact .inl (by rw [step, Forwarder.receive?, hsink])
    | cons head rest => exact hdid (.took hsink)
  | dropReceiver => exact hdid .left
  | unsubscribe =>
    by_cases hopen : f.isOpen = true
    · exact hdid (.told hopen)
    · exact .inl (if_neg hopen)

/-! ## In order -/

/-- What holds of a feed whose node tells these heads altogether. -/
structure Sound (f : Feed) (heads : List Header) : Prop where
  /-- Heads are received, in the sink, held or still to come, in this order. -/
  inOrder : f.forwarder.receiverGone = false →
    f.received ++ f.forwarder.sink ++ f.forwarder.phase.held ++ f.notices.filterMap id = heads
  gone : f.forwarder.receiverGone = true → f.forwarder.sink = [] ∧ f.received <+: heads
  failed : ∀ e, f.forwarder.phase = .ended (some e) →
    e = .subscriptionClosed ∧ f.notices = [] ∧ f.ends = true
  finished : f.forwarder.phase = .ended none →
    f.forwarder.receiverGone = true ∨ f.forwarder.cancelled = true ∨ f.isOpen = false
  /-- Before the call is answered nothing happens, and a refused one has no forwarder. -/
  unopened : f.isOpen = false → f.received = [] ∧ f.forwarder.sink = [] ∧
    f.forwarder.phase = if f.answer.isNone then .listening else .ended none
  answered : ∀ answer, f.answer = some answer → f.reply.subscription.map (fun _ => ()) = answer

namespace Sound

theorem start (reply : Node.Reply) (notices : List (Option Header)) (ends : Bool) (capacity : Nat) :
    (start reply notices ends capacity).Sound (notices.filterMap id) :=
  ⟨fun _ => rfl, nofun, nofun, nofun, fun _ => ⟨rfl, rfl, rfl⟩, nofun⟩

theorem received_prefix (hf : f.Sound heads) : f.received <+: heads := by
  cases hgone : f.forwarder.receiverGone with
  | true => exact (hf.gone hgone).2
  | false =>
    rw [← hf.inOrder hgone, List.append_assoc, List.append_assoc]
    exact List.prefix_append _ _

theorem waiting (hf : f.Sound heads) (hnone : f.answer = none) :
    f.forwarder.phase = .listening := by
  have hphase := (hf.unopened (by rw [isOpen, hnone])).2.2
  rw [hnone] at hphase
  exact hphase

theorem open_of_holding (hf : f.Sound heads) {head : Header}
    (hphase : f.forwarder.phase = .holding head) : f.isOpen = true := by
  refine Decidable.byContradiction fun hclosed => ?_
  have hunopened := (hf.unopened (Bool.eq_false_iff.mpr hclosed)).2.2
  rw [hphase] at hunopened
  split at hunopened <;> cases hunopened

/-- Every possible move is sound. -/
theorem did (hf : f.Sound heads) (h : Did f move g) : g.Sound heads := by
  have hnever {α : Prop} (hopen : f.isOpen = true) (hclosed : f.isOpen = false) : α :=
    absurd (hclosed.symm.trans hopen) Bool.false_ne_true
  cases h with
  | opened hnone hreply =>
    refine ⟨hf.inOrder, hf.gone, hf.failed, fun hended => ?_, nofun, ?_⟩
    · exact nomatch (hf.waiting hnone).symm.trans hended
    · rintro answer ⟨⟩
      show f.reply.subscription.map _ = _
      rw [hreply]
      rfl
  | refused hnone hreply =>
    have hlistening := hf.waiting hnone
    obtain ⟨hreceived, hsink, -⟩ := hf.unopened (by rw [isOpen, hnone])
    refine ⟨fun hhere => ?_, hf.gone, nofun, fun _ => .inr (.inr rfl),
      fun _ => ⟨hreceived, hsink, rfl⟩, ?_⟩
    · have horder := hf.inOrder hhere
      rwa [hlistening] at horder
    · rintro answer ⟨⟩
      show f.reply.subscription.map _ = _
      rw [hreply]
      rfl
  | heard hopen hphase hnotices =>
    -- the first head to come is the next one to be held
    refine ⟨fun hhere => ?_, hf.gone, nofun, nofun, hnever hopen, hf.answered⟩
    have horder := hf.inOrder hhere
    rw [hphase, hnotices] at horder
    rw [← horder]
    simp [Phase.held]
  | skipped hopen hphase hnotices =>
    refine ⟨fun hhere => ?_, hf.gone, fun e hended => ?_, hf.finished, hnever hopen, hf.answered⟩
    · have horder := hf.inOrder hhere
      rw [hnotices] at horder
      exact horder
    · exact nomatch hphase.symm.trans hended
  | lost hopen hphase hnotices hends =>
    refine ⟨fun hhere => ?_, hf.gone, ?_, nofun, hnever hopen, hf.answered⟩
    · have horder := hf.inOrder hhere
      rwa [hphase] at horder
    · rintro e ⟨⟩
      exact ⟨rfl, hnotices, hends⟩
  | passed hphase hhere hroom =>
    -- the head that was held is the last one in the sink
    refine ⟨fun _ => ?_, fun hgone => ?_, nofun, nofun, hnever (hf.open_of_holding hphase),
      hf.answered⟩
    · have horder := hf.inOrder hhere
      rw [hphase] at horder
      rw [← horder]
      simp [Phase.held]
    · exact absurd (hhere.symm.trans hgone) Bool.false_ne_true
  | bounced hphase hgone =>
    refine ⟨fun hhere => ?_, hf.gone, nofun, fun _ => .inl hgone,
      hnever (hf.open_of_holding hphase), hf.answered⟩
    exact absurd (hhere.symm.trans hgone) Bool.false_ne_true
  | heeded hopen hphase hcancelled =>
    refine ⟨fun hhere => ?_, hf.gone, nofun, fun _ => .inr (.inl hcancelled), hnever hopen,
      hf.answered⟩
    have horder := hf.inOrder hhere
    rwa [hphase] at horder
  | took hsink =>
    -- the first head in the sink is the last one received
    refine ⟨fun hhere => ?_, fun hgone => ?_, hf.failed, hf.finished, fun hclosed => ?_,
      hf.answered⟩
    · have horder := hf.inOrder hhere
      rw [hsink] at horder
      rw [← horder]
      simp
    · exact nomatch hsink.symm.trans (hf.gone hgone).1
    · exact nomatch hsink.symm.trans (hf.unopened hclosed).2.1
  | left =>
    exact ⟨nofun, fun _ => ⟨rfl, hf.received_prefix⟩, hf.failed, fun _ => .inl rfl,
      fun hclosed => ⟨(hf.unopened hclosed).1, rfl, (hf.unopened hclosed).2.2⟩, hf.answered⟩
  | told hopen =>
    exact ⟨hf.inOrder, hf.gone, hf.failed, fun _ => .inr (.inl rfl), hf.unopened, hf.answered⟩

theorem run (hf : f.Sound heads) (moves : List Move) : (f.run moves).Sound heads := by
  induction moves generalizing f with
  | nil => exact hf
  | cons move rest ih =>
    rw [run_cons]
    rcases f.step_cases move with hsame | hdid
    · rw [hsame]
      exact ih hf
    · exact ih (hf.did hdid)

end Sound

/-! ## To the end -/

/-- How much there is to do before nothing more can happen in a feed that is left alone. -/
def work (f : Feed) : Nat :=
  f.answer.isNone.toNat + 3 * f.notices.length + 2 * f.forwarder.phase.held.length
    + f.forwarder.sink.length + (!f.forwarder.hasEnded).toNat

theorem Did.work_lt (h : Did f move g) (hinside : move.isOutside = false) : g.work < f.work := by
  cases h with
  | opened hnone hreply => simp [work, hnone]
  | refused hnone hreply =>
    simp only [work, hnone, Forwarder.hasEnded, Phase.held, List.length_nil, Option.isNone_none,
      Option.isNone_some, Bool.not_true, Bool.toNat_true, Bool.toNat_false]
    omega
  | heard hopen hphase hnotices =>
    simp only [work, hnotices, hphase, Forwarder.hasEnded, Phase.held, List.length_cons]
    omega
  | skipped hopen hphase hnotices =>
    simp only [work, hnotices, List.length_cons]
    omega
  | lost hopen hphase hnotices hends =>
    simp [work, hphase, Forwarder.hasEnded, Phase.held]
  | passed hphase hhere hroom =>
    simp only [work, hphase, Forwarder.hasEnded, Phase.held, List.length_append, List.length_cons,
      List.length_nil]
    omega
  | bounced hphase hgone =>
    simp only [work, hphase, Forwarder.hasEnded, Phase.held, List.length_cons, List.length_nil,
      Bool.not_true, Bool.not_false, Bool.toNat_true, Bool.toNat_false]
    omega
  | heeded hopen hphase hcancelled =>
    simp [work, hphase, Forwarder.hasEnded, Phase.held]
  | took hsink =>
    simp only [work, hsink, Forwarder.hasEnded, List.length_cons]
    omega
  | left => cases hinside
  | told hopen => cases hinside

/-- Whatever a feed does by itself, there is less to do afterwards. -/
theorem work_step (f : Feed) (hinside : move.isOutside = false) :
    f.step move = f ∨ (f.step move).work < f.work :=
  (f.step_cases move).imp_right fun hdid => hdid.work_lt hinside

/-- A feed in which nothing more happens by itself. -/
def Quiet (f : Feed) : Prop := ∀ move : Move, move.isOutside = false → f.step move = f

theorem Quiet.not_did (hquiet : f.Quiet) (hinside : move.isOutside = false) : ¬ Did f move g := by
  intro hdid
  have hsame : g = f := hdid.step_eq.symm.trans (hquiet move hinside)
  have hless := hdid.work_lt hinside
  rw [hsame] at hless
  exact Nat.lt_irrefl _ hless

theorem exists_quiet (f : Feed) : ∃ moves, Undisturbed moves ∧ (f.run moves).Quiet := by
  -- as long as something can happen there is a move after which less is left to do
  induction hwork : f.work using Nat.strongRecOn generalizing f with
  | ind work ih =>
    by_cases hquiet : f.Quiet
    · exact ⟨[], fun _ hmem => absurd hmem List.not_mem_nil, hquiet⟩
    · obtain ⟨move, hmove⟩ := Classical.not_forall.mp hquiet
      obtain ⟨hinside, hmoves⟩ := Classical.not_imp.mp hmove
      have hless := (f.work_step hinside).resolve_left hmoves
      obtain ⟨moves, hundisturbed, hend⟩ := ih _ (hwork ▸ hless) (f.step move) rfl
      exact ⟨move :: moves, List.forall_mem_cons.mpr ⟨hinside, hundisturbed⟩, hend⟩

/-- What was asked for stays as it is. -/
theorem same_step (f : Feed) (move : Move) :
    (f.step move).forwarder.capacity = f.forwarder.capacity ∧ (f.step move).reply = f.reply ∧
      (f.step move).ends = f.ends := by
  rcases f.step_cases move with hsame | hdid
  · rw [hsame]
    exact ⟨rfl, rfl, rfl⟩
  · generalize f.step move = g at hdid ⊢
    cases hdid <;> exact ⟨rfl, rfl, rfl⟩

theorem same_run (f : Feed) (moves : List Move) :
    (f.run moves).forwarder.capacity = f.forwarder.capacity ∧ (f.run moves).reply = f.reply ∧
      (f.run moves).ends = f.ends := by
  induction moves generalizing f with
  | nil => exact ⟨rfl, rfl, rfl⟩
  | cons move rest ih =>
    obtain ⟨hcapacity, hreply, hends⟩ := f.same_step move
    rw [run_cons, ← hcapacity, ← hreply, ← hends]
    exact ih _

/-- A feed that nobody disturbs has its receiver and has not been cancelled. -/
theorem alone_run (hmoves : Undisturbed moves) (hhere : f.forwarder.receiverGone = false)
    (hkept : f.forwarder.cancelled = false) :
    (f.run moves).forwarder.receiverGone = false ∧ (f.run moves).forwarder.cancelled = false := by
  induction moves generalizing f with
  | nil => exact ⟨hhere, hkept⟩
  | cons move rest ih =>
    obtain ⟨hinside, hrest⟩ := List.forall_mem_cons.mp hmoves
    rw [run_cons]
    rcases f.step_cases move with hsame | hdid
    · rw [hsame]
      exact ih hrest hhere hkept
    · generalize f.step move = g at hdid ⊢
      cases hdid with
      | left => cases hinside
      | told hopen => cases hinside
      | _ => exact ih hrest hhere hkept

namespace Quiet

variable (hquiet : f.Quiet)
include hquiet

theorem answer_ne_none : f.answer ≠ none := by
  intro hnone
  cases hreply : f.reply.subscription with
  | ok id => exact hquiet.not_did rfl (.opened hnone hreply)
  | error e => exact hquiet.not_did rfl (.refused hnone hreply)

theorem sink_eq_nil : f.forwarder.sink = [] := by
  cases hsink : f.forwarder.sink with
  | nil => rfl
  | cons head rest => exact absurd (.took hsink) (hquiet.not_did rfl)

theorem not_holding (hroom : 0 < f.forwarder.capacity) (head : Header) :
    f.forwarder.phase ≠ .holding head := by
  intro hphase
  cases hgone : f.forwarder.receiverGone with
  | true => exact hquiet.not_did rfl (.bounced hphase hgone)
  | false =>
    refine hquiet.not_did rfl (.passed hphase hgone ?_)
    rw [hquiet.sink_eq_nil]
    exact hroom

/-- A forwarder listens on only when the node tells nothing more and does not stop. -/
theorem of_listening (hopen : f.isOpen = true) (hphase : f.forwarder.phase = .listening) :
    f.notices = [] ∧ f.ends = false ∧ f.forwarder.cancelled = false := by
  have hnotices : f.notices = [] := by
    cases hnotices : f.notices with
    | nil => rfl
    | cons notice rest =>
      cases notice with
      | some head => exact absurd (.heard hopen hphase hnotices) (hquiet.not_did rfl)
      | none => exact absurd (.skipped hopen hphase hnotices) (hquiet.not_did rfl)
  refine ⟨hnotices, Bool.eq_false_iff.mpr fun hends => ?_, Bool.eq_false_iff.mpr fun htold => ?_⟩
  · exact hquiet.not_did rfl (.lost hopen hphase hnotices hends)
  · exact hquiet.not_did rfl (.heeded hopen hphase htold)

end Quiet

namespace Sound

variable {id : Word}

theorem answer_of_accepted (hf : f.Sound heads) (hreply : f.reply.subscription = .ok id)
    (hanswered : f.answer ≠ none) : f.answer = some (.ok ()) := by
  obtain ⟨answer, hanswer⟩ := Option.ne_none_iff_exists'.mp hanswered
  have hsame := hf.answered answer hanswer
  rw [hreply] at hsame
  rw [hanswer, ← hsame]
  rfl

/-- A forwarder that is left alone ends only when everything has been delivered. -/
theorem ending (hf : f.Sound heads) (hreply : f.reply.subscription = .ok id)
    (hhere : f.forwarder.receiverGone = false) (hkept : f.forwarder.cancelled = false)
    {error : Option ChainError} (hended : f.forwarder.phase = .ended error) :
    error = some .subscriptionClosed ∧ f.received ++ f.forwarder.sink = heads := by
  cases error with
  | none =>
    -- an end without an error has a reason, and none of them is given here
    have hanswered : f.answer ≠ none := by
      intro hnone
      exact nomatch (hf.waiting hnone).symm.trans hended
    have hopen : f.isOpen = true := by rw [isOpen, hf.answer_of_accepted hreply hanswered]
    have hwhy := hf.finished hended
    rw [hhere, hkept, hopen] at hwhy
    simp at hwhy
  | some e =>
    obtain ⟨rfl, hnotices, -⟩ := hf.failed e hended
    have horder := hf.inOrder hhere
    rw [hended, hnotices] at horder
    rw [← horder]
    simp [Phase.held]

/-- When nothing more can happen in it, everything has been received. -/
theorem delivered (hf : f.Sound heads) (hreply : f.reply.subscription = .ok id)
    (hhere : f.forwarder.receiverGone = false) (hkept : f.forwarder.cancelled = false)
    (hroom : 0 < f.forwarder.capacity) (hquiet : f.Quiet) :
    f.received = heads ∧ f.answer = some (.ok ()) ∧
      (f.ends = true → f.forwarder.phase = .ended (some .subscriptionClosed)) := by
  have hanswer := hf.answer_of_accepted hreply hquiet.answer_ne_none
  have hsink := hquiet.sink_eq_nil
  cases hphase : f.forwarder.phase with
  | listening =>
    obtain ⟨hnotices, hends, -⟩ := hquiet.of_listening (by rw [isOpen, hanswer]) hphase
    have horder := hf.inOrder hhere
    rw [hphase, hnotices, hsink] at horder
    refine ⟨?_, hanswer, fun hyes => absurd (hends.symm.trans hyes) Bool.false_ne_true⟩
    rw [← horder]
    simp [Phase.held]
  | holding head => exact absurd hphase (hquiet.not_holding hroom head)
  | ended error =>
    obtain ⟨rfl, hall⟩ := hf.ending hreply hhere hkept hphase
    rw [hsink, List.append_nil] at hall
    exact ⟨hall, hanswer, fun _ => rfl⟩

/-- A refusal is the answer of the call, and nothing is sent. -/
theorem refused (hf : f.Sound heads) {e : ChainError} (hreply : f.reply.subscription = .error e) :
    (∀ answer, f.answer = some answer → answer = .error e) ∧ f.received = [] ∧
      f.forwarder.sink = [] := by
  have hanswer : ∀ answer, f.answer = some answer → answer = .error e := by
    intro answer hanswer
    have hsame := hf.answered answer hanswer
    rw [hreply] at hsame
    exact hsame.symm
  have hclosed : f.isOpen = false := by
    rw [isOpen]
    cases hopen : f.answer with
    | none => rfl
    | some answer => rw [hanswer answer hopen]
  obtain ⟨hreceived, hsink, -⟩ := hf.unopened hclosed
  exact ⟨hanswer, hreceived, hsink⟩

end Sound

namespace Quiet

variable (hquiet : f.Quiet)
include hquiet

/-- When nothing more can happen a forwarder has ended, unless the node tells nothing more without
stopping and nobody has told the forwarder to stop. -/
theorem hasEnded_or (hroom : 0 < f.forwarder.capacity) (hf : f.Sound heads) :
    f.forwarder.hasEnded = true ∨
      f.notices = [] ∧ f.ends = false ∧ f.forwarder.cancelled = false := by
  cases hphase : f.forwarder.phase with
  | listening =>
    refine .inr (hquiet.of_listening ?_ hphase)
    -- a refused call would have ended it
    refine Decidable.byContradiction fun hclosed => ?_
    have hunopened := (hf.unopened (Bool.eq_false_iff.mpr hclosed)).2.2
    rw [if_neg (by simpa using hquiet.answer_ne_none), hphase] at hunopened
    cases hunopened
  | holding head => exact absurd hphase (hquiet.not_holding hroom head)
  | ended error => exact .inl (by rw [Forwarder.hasEnded, hphase])

end Quiet

/-! ## Endings -/

/-- How the forwarder of a feed can end. -/
inductive EndsBy (f : Feed) : Move → Option ChainError → Prop
  /-- The node refuses. -/
  | refused {e : ChainError} : f.answer = none → f.reply.subscription = .error e →
      EndsBy f .answer none
  /-- A head finds the receiver gone. -/
  | gone {head : Header} : f.forwarder.phase = .holding head → f.forwarder.receiverGone = true →
      EndsBy f .passOn none
  /-- It was told to stop and notices it while it listens. -/
  | told : f.isOpen = true → f.forwarder.phase = .listening → f.forwarder.cancelled = true →
      EndsBy f .heed none
  /-- The node tells nothing more. -/
  | lost : f.isOpen = true → f.forwarder.phase = .listening → f.notices = [] → f.ends = true →
      EndsBy f .lose (some .subscriptionClosed)

theorem ended_step_iff (hrunning : f.forwarder.hasEnded = false) (move : Move)
    (error : Option ChainError) :
    (f.step move).forwarder.phase = .ended error ↔ EndsBy f move error := by
  have hphase : f.forwarder.phase ≠ .ended error := by
    intro hended
    rw [Forwarder.hasEnded, hended] at hrunning
    cases hrunning
  constructor
  · intro hended
    rcases f.step_cases move with hsame | hdid
    · rw [hsame] at hended
      exact absurd hended hphase
    · generalize f.step move = g at hdid hended
      cases hdid with
      | refused hnone hreply =>
        obtain rfl := Phase.ended.inj hended
        exact .refused hnone hreply
      | lost hopen hlistening hnotices hends =>
        obtain rfl := Phase.ended.inj hended
        exact .lost hopen hlistening hnotices hends
      | bounced hholding hgone =>
        obtain rfl := Phase.ended.inj hended
        exact .gone hholding hgone
      | heeded hopen hlistening hcancelled =>
        obtain rfl := Phase.ended.inj hended
        exact .told hopen hlistening hcancelled
      | heard => cases hended
      | passed => cases hended
      | _ => exact absurd hended hphase
  · intro hends
    cases hends with
    | refused hnone hreply => rw [(Did.refused hnone hreply).step_eq]
    | gone hholding hgone => rw [(Did.bounced hholding hgone).step_eq]
    | told hopen hlistening hcancelled => rw [(Did.heeded hopen hlistening hcancelled).step_eq]
    | lost hopen hlistening hnotices hends =>
      rw [(Did.lost hopen hlistening hnotices hends).step_eq]

end Feed

end ChainWatch.HeadFeed
