import ChainWatch.Limiter.Client
import ChainWatch.Proofs.Limiter.Accounting

/-!
# Single moves of calls

A move of a call changes two things: what the limiter knows of its callers, and what the node was
asked. `Tracks` ties the first to the stages of the calls: whoever waits for the limiter is a call
that waits, and whose permit is out is a call that asks. `Moved` says of the second that a call asks
its question when its stage says so, and is counted for it.

Each kind of move has a lemma that says where the call goes; `turn_goes` puts them together.
-/

namespace ChainWatch.Limiter

variable {slots i j now : Nat} {t t' : Traffic} {c : Callers} {call : Call} {old new : Stage}

/-! ## Stages -/

def Stage.comes : Stage → Bool
  | coming _ _ => true
  | _ => false

def Stage.waits : Stage → Bool
  | waiting _ _ => true
  | _ => false

def Stage.asks : Stage → Bool
  | asking _ _ _ => true
  | _ => false

/-- Has the node been asked? -/
def Stage.wasAsked : Stage → Bool
  | asking _ _ _ => true
  | answered _ _ => true
  | dropped asked _ => asked.isSome
  | _ => false

/-- Has the call ended? -/
def Stage.over : Stage → Bool
  | refused _ => true
  | answered _ _ => true
  | dropped _ _ => true
  | _ => false

/-! A stage is of one kind only, and a call has not asked before it has its permit. -/

theorem Stage.of_comes (h : old.comes = true) :
    old.waits = false ∧ old.asks = false ∧ old.wasAsked = false := by
  cases old with
  | coming due timer => exact ⟨rfl, rfl, rfl⟩
  | _ => exact absurd h Bool.false_ne_true

theorem Stage.of_waits (h : old.waits = true) : old.wasAsked = false ∧ old.over = false := by
  cases old with
  | waiting due timer => exact ⟨rfl, rfl⟩
  | _ => exact absurd h Bool.false_ne_true

theorem Stage.of_asks (h : old.asks = true) : old.waits = false ∧ old.wasAsked = true := by
  cases old with
  | asking asked due timer => exact ⟨rfl, rfl⟩
  | _ => exact absurd h Bool.false_ne_true

theorem Stage.of_over (h : old.over = true) : old.waits = false ∧ old.asks = false := by
  cases old with
  | refused time | answered asked time | dropped asked time => exact ⟨rfl, rfl⟩
  | _ => exact absurd h Bool.false_ne_true

namespace Traffic

/-- The calls in stages of one kind. -/
def those (t : Traffic) (kind : Stage → Bool) : List Nat :=
  (List.range t.calls.length).filter fun i => (t.calls[i]?).any fun entry => kind entry.2

/-- The calls whose inner calls are running. -/
def running (t : Traffic) : List Nat := t.those Stage.asks

theorem mem_those {kind : Stage → Bool} (hcall : t.calls[i]? = some (call, old)) :
    i ∈ t.those kind ↔ kind old = true := by
  have hlength : i < t.calls.length := (List.getElem?_eq_some_iff.mp hcall).1
  rw [those, List.mem_filter, hcall, Option.any_some]
  exact and_iff_right (List.mem_range.mpr hlength)

theorem exists_of_mem_those {kind : Stage → Bool} (h : i ∈ t.those kind) :
    ∃ call stage, t.calls[i]? = some (call, stage) ∧ kind stage = true := by
  obtain ⟨hrange, hkind⟩ := List.mem_filter.mp h
  have hentry := List.getElem?_eq_getElem (List.mem_range.mp hrange)
  rw [hentry, Option.any_some] at hkind
  exact ⟨_, _, hentry, hkind⟩

theorem nodup_those (t : Traffic) (kind : Stage → Bool) : (t.those kind).Nodup :=
  List.nodup_range.sublist List.filter_sublist

/-- Where one call moves, the others stand where they stood. -/
theorem mem_those_of_ne {kind : Stage → Bool} (hset : t'.calls = t.calls.set i (call, new))
    (hne : j ≠ i) : j ∈ t'.those kind ↔ j ∈ t.those kind := by
  simp [those, hset, List.getElem?_set_ne (Ne.symm hne)]

theorem calls_setStage (hcall : t.calls[i]? = some (call, old)) (new : Stage) :
    t.setStage i new = { t with calls := t.calls.set i (call, new) } := by
  rw [setStage, hcall]

theorem fire_of_comes (hcall : t.calls[i]? = some (call, old)) (hold : old.comes = true)
    (now : Nat) : fire now t i = t.arrive i now := by
  cases old <;> first | exact absurd hold Bool.false_ne_true | simp only [fire, hcall]

theorem fire_of_waits (hcall : t.calls[i]? = some (call, old)) (hold : old.waits = true)
    (now : Nat) :
    fire now t i = if i ∈ t.permits.handed then t.takeSlot i now else t.refuse i now := by
  cases old <;> first | exact absurd hold Bool.false_ne_true | simp only [fire, hcall]

end Traffic

/-! ## Calls and the limiter's callers -/

/-- All calls but one are known to the limiter as they stand. -/
structure Others (t : Traffic) (i : Nat) (c : Callers) : Prop where
  waiting : ∀ j ≠ i, j ∈ c.waiting ↔ j ∈ t.those Stage.waits
  out : ∀ j ≠ i, j ∈ c.out ↔ j ∈ t.those Stage.asks

/-- All calls are known to the limiter as they stand. -/
structure Tracks (slots : Nat) (t : Traffic) (c : Callers) : Prop where
  permits : c.permits = t.permits
  balanced : Balanced slots c
  waiting : ∀ i, i ∈ c.waiting ↔ i ∈ t.those Stage.waits
  out : ∀ i, i ∈ c.out ↔ i ∈ t.those Stage.asks

namespace Others

theorem ask (h : Others t i c) (hbalanced : Balanced slots c) : Others t i (c.ask i) := by
  rcases hbalanced.ask_cases i with ⟨-, hout, hwaiting, -⟩ | ⟨-, hout, hwaiting, -⟩
  · refine ⟨fun j hne => ?_, fun j hne => ?_⟩
    · rw [hwaiting, h.waiting j hne]
    · rw [hout, List.mem_append, List.mem_singleton, or_iff_left hne, h.out j hne]
  · refine ⟨fun j hne => ?_, fun j hne => ?_⟩
    · rw [hwaiting, List.mem_append, List.mem_singleton, or_iff_left hne, h.waiting j hne]
    · rw [hout, h.out j hne]

theorem take (h : Others t i c) : Others t i (c.take i) where
  waiting j hne := (List.mem_erase_of_ne hne).trans (h.waiting j hne)
  out j hne := by
    rw [Callers.take, List.mem_append, List.mem_singleton, or_iff_left hne, h.out j hne]

theorem leave (h : Others t i c) : Others t i (c.leave i) where
  waiting j hne := (List.mem_erase_of_ne hne).trans (h.waiting j hne)
  out := h.out

theorem giveBack (h : Others t i c) : Others t i (c.giveBack i) where
  waiting := h.waiting
  out j hne := (List.mem_erase_of_ne hne).trans (h.out j hne)

end Others

namespace Tracks

theorem others (h : Tracks slots t c) (i : Nat) : Others t i c :=
  ⟨fun j _ => h.waiting j, fun j _ => h.out j⟩

theorem mem_waiting (h : Tracks slots t c) (hcall : t.calls[i]? = some (call, old)) :
    i ∈ c.waiting ↔ old.waits = true :=
  (h.waiting i).trans (Traffic.mem_those hcall)

theorem mem_out (h : Tracks slots t c) (hcall : t.calls[i]? = some (call, old)) :
    i ∈ c.out ↔ old.asks = true :=
  (h.out i).trans (Traffic.mem_those hcall)

theorem perm_out (h : Tracks slots t c) : c.out.Perm t.running :=
  (List.perm_ext_iff_of_nodup (List.nodup_append.mp h.balanced.distinct).1
    (t.nodup_those _)).mpr h.out

theorem perm_waiting (h : Tracks slots t c) : c.waiting.Perm (t.those Stage.waits) :=
  (List.perm_ext_iff_of_nodup (List.nodup_append.mp h.balanced.distinct).2.1
    (t.nodup_those _)).mpr h.waiting

theorem length_out (h : Tracks slots t c) : c.out.length = t.running.length :=
  h.perm_out.length_eq

/-- One call has moved, and the limiter knows where it stands now. -/
theorem of_set (hothers : Others t i c) (hbalanced : Balanced slots c)
    (hpermits : c.permits = t'.permits) (hcall : t.calls[i]? = some (call, old))
    (hset : t'.calls = t.calls.set i (call, new))
    (hwaiting : i ∈ c.waiting ↔ new.waits = true) (hout : i ∈ c.out ↔ new.asks = true) :
    Tracks slots t' c := by
  have hlength : i < t.calls.length := (List.getElem?_eq_some_iff.mp hcall).1
  have hself : t'.calls[i]? = some (call, new) := by rw [hset, List.getElem?_set_self hlength]
  refine ⟨hpermits, hbalanced, fun j => ?_, fun j => ?_⟩
  · by_cases hne : j = i
    · rw [hne, hwaiting, Traffic.mem_those hself]
    · rw [hothers.waiting j hne, Traffic.mem_those_of_ne hset hne]
  · by_cases hne : j = i
    · rw [hne, hout, Traffic.mem_those hself]
    · rw [hothers.out j hne, Traffic.mem_those_of_ne hset hne]

end Tracks

theorem Balanced.not_mem_leave (h : Balanced slots c) (i : Nat) : i ∉ (c.leave i).waiting :=
  fun hstill => ((List.nodup_append.mp h.distinct).2.1.mem_erase_iff.mp hstill).1 rfl

theorem Balanced.not_mem_giveBack (h : Balanced slots c) (i : Nat) : i ∉ (c.giveBack i).out :=
  fun hstill => ((List.nodup_append.mp h.distinct).1.mem_erase_iff.mp hstill).1 rfl

theorem Balanced.not_waiting_of_out (h : Balanced slots c) (hout : i ∈ c.out) : i ∉ c.waiting :=
  fun hwaiting => (List.nodup_append.mp h.distinct).2.2 i hout i hwaiting rfl

/-! ## What a move does to a call -/

/-- A call has moved to another stage. If that made it ask the node, its question was logged and
counted; otherwise nothing was asked, and nothing but a timeout counted. -/
structure Moved (t t' : Traffic) (i : Nat) (call : Call) (old new : Stage) : Prop where
  plan : t'.plan = t.plan
  calls : t'.calls = t.calls.set i (call, new)
  log : new.wasAsked = old.wasAsked ∧ t'.inner = t.inner ∧
        (t'.samples = t.samples ∨ t'.samples = t.samples ++ [.permitTimeout]) ∨
      old.wasAsked = false ∧ new.wasAsked = true ∧ t'.inner = t.inner ++ [(i, call.question)] ∧
        t'.samples = t.samples ++ [.rpcCall call.question.method]

/-- A call that goes on with its permit asks the node, and may have the answer at once. -/
theorem moved_ask (hcall : t.calls[i]? = some (call, old)) (hold : old.wasAsked = false)
    (now : Nat) :
    ∃ new, Moved t (t.ask i now) i call old new ∧
      (new.asks = true ∧ (t.ask i now).permits = t.permits ∨
        new = .answered now now ∧ (t.ask i now).permits = t.permits.release) := by
  rw [Traffic.ask, hcall]
  dsimp only
  split
  · refine ⟨.answered now now, ?_, .inr ⟨rfl, ?_⟩⟩
    all_goals simp only [Traffic.finish, Traffic.setStage, hcall]
    exact ⟨rfl, rfl, .inr ⟨hold, rfl, rfl, rfl⟩⟩
  · refine ⟨.asking now (now + call.reply.delay) t.nextTimer, ?_, .inl ⟨rfl, ?_⟩⟩
    all_goals simp only [Traffic.setStage, hcall]
    exact ⟨rfl, rfl, .inr ⟨hold, rfl, rfl, rfl⟩⟩

/-- A call that got its permit is tracked, whether or not it has given the permit back. -/
theorem tracks_ask (hcall : t.calls[i]? = some (call, old)) (hold : old.wasAsked = false)
    (hothers : Others t i c) (hbalanced : Balanced slots c) (hout : i ∈ c.out) (now : Nat) :
    ∃ new, new.wasAsked = true ∧
      Moved t ({ t with permits := c.permits }.ask i now) i call old new ∧
      ∃ c', Tracks slots ({ t with permits := c.permits }.ask i now) c' := by
  have hwaiting := hbalanced.not_waiting_of_out hout
  obtain ⟨new, hmoved, hnew⟩ :=
    moved_ask (t := { t with permits := c.permits }) hcall hold now
  have hmoved' : Moved t ({ t with permits := c.permits }.ask i now) i call old new :=
    ⟨hmoved.plan, hmoved.calls, hmoved.log⟩
  rcases hnew with ⟨hasks, hpermits⟩ | ⟨rfl, hpermits⟩
  -- the call goes on asking, or has its answer and has given the permit back
  · have hnew := Stage.of_asks hasks
    refine ⟨new, hnew.2, hmoved', c, .of_set hothers hbalanced hpermits.symm hcall hmoved'.calls ?_ ?_⟩
    · simp [hwaiting, hnew.1]
    · simp [hout, hasks]
  · refine ⟨_, rfl, hmoved', c.giveBack i, .of_set hothers.giveBack (hbalanced.giveBack hout)
      hpermits.symm hcall hmoved'.calls ?_ ?_⟩
    · exact iff_of_false hwaiting Bool.false_ne_true
    · exact iff_of_false (hbalanced.not_mem_giveBack i) Bool.false_ne_true

/-! ## Single moves -/

/-- A call has moved, the limiter knows where all calls stand, and there was room for another inner
call if one was started. -/
structure Goes (slots : Nat) (t t' : Traffic) (i : Nat) (call : Call) (old new : Stage) : Prop where
  moved : Moved t t' i call old new
  tracked : ∃ c, Tracks slots t' c
  room : old.wasAsked = false → new.wasAsked = true → t.running.length < slots

/-- A call that leaves without a permit is forgotten by the limiter. -/
theorem refuse_goes (hcall : t.calls[i]? = some (call, old)) (hold : old.wasAsked = false)
    (hothers : Others t i c) (hbalanced : Balanced slots c) (hwaiting : i ∈ c.waiting)
    (now : Nat) :
    Goes slots t ({ t with permits := c.permits }.refuse i now) i call old (.refused now) := by
  obtain ⟨⟨-, -, hout⟩, -, -⟩ := hbalanced.left hwaiting
  have heq : { t with permits := c.permits }.refuse i now = { t with
      permits := (c.leave i).permits
      calls := t.calls.set i (call, .refused now)
      samples := t.samples ++ [.permitTimeout] } := by
    simp only [Traffic.refuse, Traffic.setStage, hcall, Callers.leave]
  rw [heq]
  refine ⟨⟨rfl, rfl, .inl ⟨hold.symm, rfl, .inr rfl⟩⟩, ⟨c.leave i, ?_⟩, fun _ hnew => nomatch hnew⟩
  exact .of_set hothers.leave (hbalanced.leave hwaiting) rfl hcall rfl
    (iff_of_false (hbalanced.not_mem_leave i) Bool.false_ne_true) (iff_of_false hout Bool.false_ne_true)

/-- A call that arrives asks the node if there is room; otherwise it waits, or leaves if it has no
patience. -/
theorem arrive_goes (hslots : 0 < slots) (h : Tracks slots t c)
    (hcall : t.calls[i]? = some (call, old)) (hold : old.comes = true) (now : Nat) :
    ∃ new, Goes slots t (t.arrive i now) i call old new ∧
      (t.running.length + (t.those Stage.waits).length < slots → new.wasAsked = true) := by
  have hstage := Stage.of_comes hold
  -- a call that only comes now is new to the limiter
  have hwaiting : i ∉ c.waiting := by simp [h.mem_waiting hcall, hstage.1]
  have hout : i ∉ c.out := by simp [h.mem_out hcall, hstage.2.1]
  have hbalanced := h.balanced.ask hwaiting hout
  have hothers := (h.others i).ask h.balanced
  have hpermits : (c.ask i).permits = (t.permits.request i).1 := by
    rw [Callers.ask, h.permits]
    split <;> rfl
  rw [← h.length_out, ← h.perm_waiting.length_eq]
  by_cases hpermit : (t.permits.request i).2 = .permit
  · have hasked : (c.ask i).out = c.out ++ [i] := by
      rw [Callers.ask, h.permits, if_pos hpermit]
    have hroom : c.out.length + c.waiting.length < slots := by
      rcases h.balanced.ask_cases i with ⟨hroom, -⟩ | ⟨-, hsame, -⟩
      · omega
      · rw [hsame] at hasked
        exact absurd hasked (by simp)
    have harrive : t.arrive i now = { t with permits := (c.ask i).permits }.ask i now := by
      rw [hpermits, Traffic.arrive]
      simp only [hpermit]
    obtain ⟨new, hnew, hmoved, htracked⟩ := tracks_ask hcall hstage.2.2 hothers hbalanced
      (hasked ▸ List.mem_append_right _ (List.mem_singleton.mpr rfl)) now
    rw [harrive]
    exact ⟨new, ⟨hmoved, htracked, fun _ _ => by rw [← h.length_out]; omega⟩, fun _ => hnew⟩
  · -- without a permit the call stands in the line, if only until it leaves at once
    have hasked : (c.ask i).waiting = c.waiting ++ [i] ∧ (c.ask i).out = c.out := by
      rw [Callers.ask, h.permits, if_neg hpermit]
      exact ⟨rfl, rfl⟩
    have hwaits : i ∈ (c.ask i).waiting :=
      hasked.1 ▸ List.mem_append_right _ (List.mem_singleton.mpr rfl)
    have hfull : slots ≤ c.out.length + c.waiting.length := by
      rcases h.balanced.ask_cases i with ⟨-, hmore, -⟩ | ⟨hfull, -⟩
      · rw [hasked.2] at hmore
        exact absurd hmore.symm (by simp)
      · exact hfull.2
    have harrive : t.arrive i now =
        if t.plan.timeout.millis = 0 then { t with permits := (c.ask i).permits }.refuse i now
        else { t with
          permits := (c.ask i).permits
          calls := t.calls.set i (call, .waiting (now + t.plan.timeout.millis) t.nextTimer)
          nextTimer := t.nextTimer + 1 } := by
      rw [hpermits, Traffic.arrive]
      simp only [Traffic.setStage, hcall]
    rw [harrive]
    split
    · exact ⟨_, refuse_goes hcall hstage.2.2 hothers hbalanced hwaits now, fun hroom => by omega⟩
    · refine ⟨_, ⟨⟨rfl, rfl, .inl ⟨hstage.2.2.symm, rfl, .inl rfl⟩⟩, ⟨c.ask i, ?_⟩,
        fun _ hnew => absurd hnew Bool.false_ne_true⟩, fun hroom => by omega⟩
      exact .of_set hothers hbalanced rfl hcall rfl (iff_of_true hwaits rfl)
        (iff_of_false (hasked.2 ▸ hout) Bool.false_ne_true)

/-- A call that was handed a slot asks the node. -/
theorem takeSlot_goes (h : Tracks slots t c) (hhanded : i ∈ t.permits.handed) (now : Nat) :
    ∃ call old new, t.calls[i]? = some (call, old) ∧ old.waits = true ∧ new.wasAsked = true ∧
      Goes slots t (t.takeSlot i now) i call old new := by
  rw [← h.permits] at hhanded
  obtain ⟨call, old, hcall, hold⟩ := Traffic.exists_of_mem_those
    ((h.waiting i).mp (h.balanced.waiting_of_handed hhanded))
  have hstage := (Stage.of_waits hold).1
  have htake : t.takeSlot i now = { t with permits := (c.take i).permits }.ask i now := by
    rw [Traffic.takeSlot, ← h.permits]
    rfl
  obtain ⟨new, hnew, hmoved, htracked⟩ := tracks_ask hcall hstage (h.others i).take
    (h.balanced.take hhanded) (List.mem_append_right _ (List.mem_singleton.mpr rfl)) now
  rw [htake]
  refine ⟨call, old, new, hcall, hold, hnew, hmoved, htracked, fun _ _ => ?_⟩
  -- the slot that was handed over is one that is not out
  have hpos := h.balanced.serves.slots_pos hhanded
  rw [← h.length_out]
  omega

/-- A call whose inner call has ended or was dropped gives its permit back. -/
theorem release_goes (h : Tracks slots t c) (hcall : t.calls[i]? = some (call, old))
    (hold : old.asks = true) (hover : new.over = true) (hasked : new.wasAsked = true) :
    Goes slots t { t.setStage i new with permits := t.permits.release } i call old new := by
  have hout := (h.mem_out hcall).mpr hold
  have hwas := (Stage.of_asks hold).2
  have hnew := Stage.of_over hover
  rw [Traffic.calls_setStage hcall]
  refine ⟨⟨rfl, rfl, .inl ⟨hasked.trans hwas.symm, rfl, .inl rfl⟩⟩, ⟨c.giveBack i, ?_⟩,
    fun hnot => absurd (hnot.symm.trans hwas) Bool.false_ne_true⟩
  refine .of_set (h.others i).giveBack (h.balanced.giveBack hout) ?_ hcall rfl ?_ ?_
  · rw [Callers.giveBack, h.permits]
  · simp [Callers.giveBack, h.balanced.not_waiting_of_out hout, hnew.1]
  · simp [h.balanced.not_mem_giveBack i, hnew.2]

/-- A call that waited too long leaves. -/
theorem expire_goes (h : Tracks slots t c) (hcall : t.calls[i]? = some (call, old))
    (hold : old.waits = true) (now : Nat) :
    Goes slots t (t.refuse i now) i call old (.refused now) := by
  have hstage := (Stage.of_waits hold).1
  have hsame : { t with permits := c.permits } = t := by rw [h.permits]
  have hgoes := refuse_goes hcall hstage (h.others i) h.balanced ((h.mem_waiting hcall).mpr hold) now
  rwa [hsame] at hgoes

/-- A call that is dropped withdraws or gives its permit back; it is as much asked as it was. -/
theorem drop_goes (h : Tracks slots t c) (hcall : t.calls[i]? = some (call, old))
    (hold : old.over = false) (now : Nat) :
    ∃ new, new.over = true ∧ new.wasAsked = old.wasAsked ∧
      Goes slots t (t.drop now i) i call old new := by
  rw [Traffic.drop, hcall]
  cases old with
  | coming due timer =>
    refine ⟨.dropped none now, rfl, rfl, ?_⟩
    dsimp only
    rw [Traffic.calls_setStage hcall]
    refine ⟨⟨rfl, rfl, .inl ⟨rfl, rfl, .inl rfl⟩⟩, ⟨c, ?_⟩, fun _ hnew => nomatch hnew⟩
    have hwaiting : i ∉ c.waiting := fun hmem => nomatch (h.mem_waiting hcall).mp hmem
    have hout : i ∉ c.out := fun hmem => nomatch (h.mem_out hcall).mp hmem
    exact .of_set (h.others i) h.balanced h.permits hcall rfl
      (iff_of_false hwaiting Bool.false_ne_true) (iff_of_false hout Bool.false_ne_true)
  | waiting due timer =>
    refine ⟨.dropped none now, rfl, rfl, ?_⟩
    dsimp only
    rw [Traffic.calls_setStage hcall]
    refine ⟨⟨rfl, rfl, .inl ⟨rfl, rfl, .inl rfl⟩⟩, ⟨c.leave i, ?_⟩, fun _ hnew => nomatch hnew⟩
    have hwaiting := (h.mem_waiting hcall).mpr rfl
    obtain ⟨⟨-, -, hout⟩, -, -⟩ := h.balanced.left hwaiting
    refine .of_set (h.others i).leave (h.balanced.leave hwaiting) ?_ hcall rfl
      (iff_of_false (h.balanced.not_mem_leave i) Bool.false_ne_true)
      (iff_of_false hout Bool.false_ne_true)
    rw [Callers.leave, h.permits]
  | asking asked due timer =>
    exact ⟨.dropped (some asked) now, rfl, rfl, release_goes h hcall rfl rfl rfl⟩
  | refused time => exact nomatch hold
  | answered asked time => exact nomatch hold
  | dropped asked time => exact nomatch hold

/-- A move that is possible at all moves one call that had not ended. -/
theorem turn_goes (hslots : 0 < slots) (h : Tracks slots t c) (move : Traffic.Turn) :
    t.turn move = t ∨ ∃ i call old new,
      t.calls[i]? = some (call, old) ∧ old.over = false ∧
        Goes slots t (t.turn move) i call old new := by
  cases move with
  | fire now i =>
    rw [Traffic.turn, Traffic.fire]
    split
    next call due timer hcall =>
      obtain ⟨new, hgoes, -⟩ := arrive_goes hslots h hcall rfl now
      exact .inr ⟨i, call, _, new, hcall, rfl, hgoes⟩
    next call asked due timer hcall =>
      exact .inr ⟨i, call, _, .answered asked now, hcall, rfl, release_goes h hcall rfl rfl rfl⟩
    next call due timer hcall =>
      split
      · rename_i hhanded
        obtain ⟨call, old, new, hcall, hold, -, hgoes⟩ := takeSlot_goes h hhanded now
        exact .inr ⟨i, call, old, new, hcall, (Stage.of_waits hold).2, hgoes⟩
      · exact .inr ⟨i, call, _, .refused now, hcall, rfl, expire_goes h hcall rfl now⟩
    next => exact .inl rfl
  | takeSlot now i =>
    rw [Traffic.turn]
    split
    · rename_i hhanded
      obtain ⟨call, old, new, hcall, hold, -, hgoes⟩ := takeSlot_goes h hhanded now
      exact .inr ⟨i, call, old, new, hcall, (Stage.of_waits hold).2, hgoes⟩
    · exact .inl rfl
  | drop now i =>
    rw [Traffic.turn]
    by_cases hdone : ∃ call old, t.calls[i]? = some (call, old) ∧ old.over = false
    · obtain ⟨call, old, hcall, hold⟩ := hdone
      obtain ⟨new, -, -, hgoes⟩ := drop_goes h hcall hold now
      exact .inr ⟨i, call, old, new, hcall, hold, hgoes⟩
    · refine .inl ?_
      rw [Traffic.drop]
      split
      all_goals first | rfl | exact absurd ⟨_, _, ‹_›, rfl⟩ hdone

end ChainWatch.Limiter
