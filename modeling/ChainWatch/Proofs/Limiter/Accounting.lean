import ChainWatch.Proofs.Limiter.Serving

/-!
# Permits are accounted for

Whatever callers do and in whatever order, a limiter knows how many permits are out, and lets no
slot lie idle while somebody waits. A slot that comes back is handed on at once; until its new
caller gets its turn it is neither out nor free. `Balanced` ties the limiter to what its callers
know, every happening keeps it, and `permits_accounted` reads off it what a caller can rely on.
-/

namespace ChainWatch.Limiter

variable {slots ticket : Nat} {c : Callers}

/-- A limiter and its callers agree. -/
structure Balanced (slots : Nat) (c : Callers) : Prop where
  limit : c.permits.limit = slots
  token : c.permits.token = none
  gauge : c.permits.inFlight = c.out.length
  distinct : (c.out ++ c.waiting).Nodup
  bounded : 0 < slots → c.out.length ≤ slots
  unlimited : slots = 0 → c.waiting = []
  serves : Serves c.permits (slots - c.out.length) c.waiting

theorem balanced_start (slots : Nat) : Balanced slots (.start slots) where
  limit := rfl
  token := rfl
  gauge := rfl
  distinct := List.nodup_nil
  bounded _ := Nat.zero_le _
  unlimited _ := rfl
  serves := ⟨rfl, List.take_nil.symm, List.drop_nil.symm⟩

/-! ## What the limiter's operations leave alone -/

theorem Permits.handOver_frame (p : Permits) :
    p.handOver.limit = p.limit ∧ p.handOver.token = p.token ∧
      p.handOver.inFlight = p.inFlight := by
  unfold handOver
  split <;> exact ⟨rfl, rfl, rfl⟩

theorem Permits.withdraw_frame (p : Permits) (ticket : Nat) :
    (p.withdraw ticket).limit = p.limit ∧ (p.withdraw ticket).token = p.token ∧
      (p.withdraw ticket).inFlight = p.inFlight := by
  unfold withdraw
  split
  · exact handOver_frame _
  · exact ⟨rfl, rfl, rfl⟩

/-! ## Single happenings -/

namespace Balanced

theorem waiting_of_handed (h : Balanced slots c) (hmem : ticket ∈ c.permits.handed) :
    ticket ∈ c.waiting := by
  rw [h.serves.handed] at hmem
  exact List.mem_of_mem_take hmem

/-- Somebody waits only where there are slots. -/
theorem slots_pos (h : Balanced slots c) (hmem : ticket ∈ c.waiting) : 0 < slots := by
  refine Nat.pos_of_ne_zero fun hzero => ?_
  rw [h.unlimited hzero] at hmem
  exact absurd hmem List.not_mem_nil

/-- Without a bucket a caller asks for a slot at once. -/
theorem ask_eq (h : Balanced slots c) (ticket : Nat) :
    c.ask ticket =
      if (c.permits.seek ticket).2 = .permit then
        { c with permits := (c.permits.seek ticket).1, out := c.out ++ [ticket] }
      else { c with permits := (c.permits.seek ticket).1, waiting := c.waiting ++ [ticket] } := by
  rw [Callers.ask, Permits.request, h.token]

/-- Whoever asks gets a permit if there is no limit or a slot is left for it, and else joins the
end of the line. -/
theorem ask_cases (h : Balanced slots c) (ticket : Nat) :
    (slots = 0 ∨ c.out.length + c.waiting.length < slots) ∧
        (c.ask ticket).out = c.out ++ [ticket] ∧ (c.ask ticket).waiting = c.waiting ∧
        (c.ask ticket).permits.inFlight = c.permits.inFlight + 1 ∧
        Serves (c.ask ticket).permits (slots - (c.out.length + 1)) c.waiting ∨
      (0 < slots ∧ slots ≤ c.out.length + c.waiting.length) ∧
        (c.ask ticket).out = c.out ∧ (c.ask ticket).waiting = c.waiting ++ [ticket] ∧
        (c.ask ticket).permits.inFlight = c.permits.inFlight ∧
        Serves (c.ask ticket).permits (slots - c.out.length) (c.waiting ++ [ticket]) := by
  have hserves := h.serves
  rw [h.ask_eq]
  by_cases hzero : slots = 0
  · -- without a limit there are no slots to count, and what is left of them stays nothing
    have hseek : c.permits.seek ticket
        = ({ c.permits with inFlight := c.permits.inFlight + 1 }, .permit) := by
      rw [Permits.seek, if_pos (h.limit.trans hzero)]
    have hsame : slots - (c.out.length + 1) = slots - c.out.length := by omega
    rw [hseek, if_pos rfl, hsame]
    exact .inl ⟨.inl hzero, rfl, rfl, rfl, hserves.free, hserves.handed, hserves.queue⟩
  · have hlimit : c.permits.limit ≠ 0 := by rwa [h.limit]
    have hbounded := h.bounded (Nat.pos_of_ne_zero hzero)
    have hfree := hserves.free
    rcases hserves.seek hlimit ticket with
      ⟨hshort, hpermit, hnext⟩ | ⟨hlong, hqueued, hnext⟩
    · have hpart : slots - (c.out.length + 1) = slots - c.out.length - 1 := by omega
      have hgauge : (c.permits.seek ticket).1.inFlight = c.permits.inFlight + 1 := by
        rw [Permits.seek, if_neg hlimit, if_pos (by omega)]
      rw [if_pos hpermit, hpart]
      exact .inl ⟨.inr (by omega), rfl, rfl, hgauge, hnext⟩
    · have hgauge : (c.permits.seek ticket).1.inFlight = c.permits.inFlight := by
        rw [Permits.seek, if_neg hlimit, if_neg (by omega)]
      have hwaits : (c.permits.seek ticket).2 ≠ .permit := by
        rw [hqueued]
        decide
      rw [if_neg hwaits]
      exact .inr ⟨by omega, rfl, rfl, hgauge, hnext⟩

theorem ask_frame (h : Balanced slots c) (ticket : Nat) :
    (c.ask ticket).permits.limit = slots ∧ (c.ask ticket).permits.token = none ∧
      (c.ask ticket).samples = c.samples := by
  have hseek : (c.permits.seek ticket).1.limit = slots ∧
      (c.permits.seek ticket).1.token = none := by
    rw [← h.limit, ← h.token]
    unfold Permits.seek
    split
    · exact ⟨rfl, rfl⟩
    · split <;> exact ⟨rfl, rfl⟩
  rw [h.ask_eq]
  split <;> exact ⟨hseek.1, hseek.2, rfl⟩

theorem ask (h : Balanced slots c) (hwaiting : ticket ∉ c.waiting) (hout : ticket ∉ c.out) :
    Balanced slots (c.ask ticket) := by
  obtain ⟨hlimit, htoken, -⟩ := h.ask_frame ticket
  have hfresh : ticket ∉ c.out ++ c.waiting := by simp [hwaiting, hout]
  have hdistinct : (ticket :: (c.out ++ c.waiting)).Nodup := List.nodup_cons.mpr ⟨hfresh, h.distinct⟩
  rcases h.ask_cases ticket with
    ⟨hroom, houts, hline, hgauge, hserves⟩ | ⟨hfull, houts, hline, hgauge, hserves⟩
  · refine ⟨hlimit, htoken, ?_, ?_, fun hpos => ?_, fun hzero => ?_, ?_⟩
    · rw [hgauge, houts, h.gauge, List.length_append, List.length_singleton]
    · rw [houts, hline, List.append_assoc, List.singleton_append]
      exact List.perm_middle.nodup_iff.mpr hdistinct
    · rw [houts, List.length_append, List.length_singleton]
      omega
    · rw [hline, h.unlimited hzero]
    · rw [houts, hline, List.length_append, List.length_singleton]
      exact hserves
  · refine ⟨hlimit, htoken, ?_, ?_, fun hpos => ?_, fun hzero => ?_, ?_⟩
    · rw [hgauge, houts, h.gauge]
    · rw [houts, hline, ← List.append_assoc]
      exact (List.perm_append_singleton ticket _).nodup_iff.mpr hdistinct
    · rw [houts]
      exact h.bounded hpos
    · omega
    · rw [houts, hline]
      exact hserves

theorem take (h : Balanced slots c) (hmem : ticket ∈ c.permits.handed) :
    Balanced slots (c.take ticket) := by
  have hwaiting := h.waiting_of_handed hmem
  have hpos := h.serves.slots_pos hmem
  refine ⟨h.limit, h.token, ?_, ?_, fun _ => ?_, fun hzero => ?_, ?_⟩
  · dsimp only [Callers.take, Permits.take]
    rw [h.gauge, List.length_append, List.length_singleton]
  · dsimp only [Callers.take]
    rw [List.append_assoc, List.singleton_append]
    exact ((List.perm_cons_erase hwaiting).append_left c.out).nodup_iff.mp h.distinct
  · dsimp only [Callers.take]
    rw [List.length_append, List.length_singleton]
    omega
  · dsimp only [Callers.take]
    rw [h.unlimited hzero]
    rfl
  · have hpart : slots - (c.out.length + 1) = slots - c.out.length - 1 := by omega
    dsimp only [Callers.take]
    rw [List.length_append, List.length_singleton, hpart]
    exact h.serves.take hmem

theorem leave (h : Balanced slots c) (hmem : ticket ∈ c.waiting) :
    Balanced slots (c.leave ticket) := by
  obtain ⟨hlimit, htoken, hgauge⟩ := c.permits.withdraw_frame ticket
  refine ⟨hlimit.trans h.limit, htoken.trans h.token, hgauge.trans h.gauge, ?_, h.bounded,
    fun hzero => ?_, h.serves.withdraw hmem⟩
  · exact h.distinct.sublist (List.Sublist.append_left (List.erase_sublist ..) _)
  · dsimp only [Callers.leave]
    rw [h.unlimited hzero]
    rfl

theorem timeOut (h : Balanced slots c) (hmem : ticket ∈ c.waiting) :
    Balanced slots (c.timeOut ticket) := by
  obtain ⟨hlimit, htoken, hgauge, hdistinct, hbounded, hunlimited, hserves⟩ := h.leave hmem
  exact ⟨hlimit, htoken, hgauge, hdistinct, hbounded, hunlimited, hserves⟩

theorem giveBack (h : Balanced slots c) (hmem : ticket ∈ c.out) :
    Balanced slots (c.giveBack ticket) := by
  have hlength : (c.out.erase ticket).length = c.out.length - 1 := List.length_erase_of_mem hmem
  have hpos := List.length_pos_of_mem hmem
  have hgauge := h.gauge
  -- the gauge has no part in who is served
  have hserves : Serves { c.permits with inFlight := c.permits.inFlight - 1 }
      (slots - c.out.length) c.waiting :=
    ⟨h.serves.free, h.serves.handed, h.serves.queue⟩
  have hdistinct := h.distinct.sublist
    (List.Sublist.append_right (List.erase_sublist (a := ticket) (l := c.out)) c.waiting)
  refine ⟨?_, ?_, ?_, hdistinct, fun hslots => ?_, h.unlimited, ?_⟩
  all_goals dsimp only [Callers.giveBack, Permits.release]
  · split
    · exact h.limit
    · exact (Permits.handOver_frame _).1.trans h.limit
  · split
    · exact h.token
    · exact (Permits.handOver_frame _).2.1.trans h.token
  · split
    · dsimp only
      omega
    · rw [(Permits.handOver_frame _).2.2]
      dsimp only
      omega
  · have hbounded := h.bounded hslots
    omega
  · split
    · rename_i hzero
      have hnone : slots - (c.out.erase ticket).length = slots - c.out.length := by
        have hslots : slots = 0 := h.limit.symm.trans hzero
        omega
      rw [hnone]
      exact hserves
    · rename_i hlimit
      have hslots : 0 < slots := by
        rw [← h.limit]
        exact Nat.pos_of_ne_zero hlimit
      have hbounded := h.bounded hslots
      have hmore : slots - (c.out.erase ticket).length = slots - c.out.length + 1 := by omega
      rw [hmore]
      exact hserves.handOver

/-- Nothing that happens unbalances a limiter and its callers. -/
theorem step (h : Balanced slots c) (happening : Happening) : Balanced slots (c.step happening) := by
  cases happening with
  | ask ticket =>
    rw [Callers.step]
    split
    · exact h
    · rename_i hfresh
      rw [not_or] at hfresh
      exact h.ask hfresh.1 hfresh.2
  | take ticket =>
    rw [Callers.step]
    split
    · rename_i hhanded
      exact h.take hhanded
    · exact h
  | expire ticket =>
    rw [Callers.step]
    split
    · rename_i hhanded
      exact h.take hhanded
    · split
      · rename_i hwaiting
        exact h.timeOut hwaiting
      · exact h
  | cancel ticket =>
    rw [Callers.step]
    split
    · rename_i hwaiting
      exact h.leave hwaiting
    · exact h
  | giveBack ticket =>
    rw [Callers.step]
    split
    · rename_i hout
      exact h.giveBack hout
    · exact h

theorem run (h : Balanced slots c) (happenings : List Happening) :
    Balanced slots (c.run happenings) := by
  induction happenings generalizing c with
  | nil => exact h
  | cons happening rest ih => exact ih (h.step happening)

end Balanced

/-! ## What callers can rely on -/

/-- A caller has left: no slot is kept for it, no permit of its own is out, and the others go on in
the order of their asking. -/
structure Left (c after : Callers) (ticket : Nat) : Prop where
  holdsNothing : ticket ∉ after.permits.handed ∧ ticket ∉ after.permits.queue ∧ ticket ∉ after.out
  waiting : after.waiting = c.waiting.erase ticket
  out : after.out = c.out

/-- Both callers wait, and the first has waited longer. -/
def Callers.WaitsLonger (c : Callers) (first second : Nat) : Prop :=
  [first, second].Sublist c.waiting

/-- What a limiter with this many slots grants its callers at every moment. -/
structure Accounted (slots : Nat) (c : Callers) : Prop where
  bounded : 0 < slots → c.out.length ≤ slots
  gauge : c.permits.inFlight = c.out.length
  /-- Where there is no limit, or a slot is left, nobody has to wait. -/
  atOnce : ∀ ticket, ticket ∉ c.waiting → ticket ∉ c.out →
    slots = 0 ∨ c.out.length + c.waiting.length < slots → ticket ∈ (c.step (.ask ticket)).out
  unlimited : slots = 0 → c.waiting = []
  /-- Every slot that is not out has gone to those who have waited longest. -/
  served : c.permits.handed = c.waiting.take (slots - c.out.length)
  /-- Whoever has to go on waiting does so because all slots are out or have gone to callers that
  have waited longer. -/
  waits : ∀ ticket ∈ c.waiting, ticket ∉ c.permits.handed →
    c.out.length + c.permits.handed.length = slots ∧
      ∀ other ∈ c.permits.handed, c.WaitsLonger other ticket
  /-- Whoever was handed a slot has its permit at its next turn, late as it may come. -/
  taken : ∀ ticket ∈ c.permits.handed,
    ticket ∈ (c.step (.take ticket)).out ∧ c.step (.expire ticket) = c.step (.take ticket)
  timedOut : ∀ ticket ∈ c.waiting, ticket ∉ c.permits.handed →
    Left c (c.step (.expire ticket)) ticket ∧
      (c.step (.expire ticket)).samples = c.samples ++ [.permitTimeout]
  cancelled : ∀ ticket ∈ c.waiting,
    Left c (c.step (.cancel ticket)) ticket ∧ (c.step (.cancel ticket)).samples = c.samples
  /-- Only a caller without a slot whose patience is over is counted. -/
  counted : ∀ happening, (c.step happening).samples ≠ c.samples →
    ∃ ticket ∈ c.waiting, happening = .expire ticket ∧ ticket ∉ c.permits.handed

namespace Balanced

theorem waits (h : Balanced slots c) (hmem : ticket ∈ c.waiting)
    (hhanded : ticket ∉ c.permits.handed) :
    c.out.length + c.permits.handed.length = slots := by
  have hbounded := h.bounded (h.slots_pos hmem)
  rw [h.serves.handed] at hhanded ⊢
  have hlong : slots - c.out.length ≤ c.waiting.length := by
    refine Nat.le_of_not_lt fun hshort => hhanded ?_
    rwa [List.take_of_length_le (Nat.le_of_lt hshort)]
  rw [List.length_take_of_le hlong]
  omega

/-- Slots are handed over in the order of asking. -/
theorem waitsLonger (h : Balanced slots c) (hmem : ticket ∈ c.waiting)
    (hhanded : ticket ∉ c.permits.handed) {other : Nat} (hother : other ∈ c.permits.handed) :
    c.WaitsLonger other ticket := by
  rw [h.serves.handed] at hhanded hother
  have hsplit := List.take_append_drop (slots - c.out.length) c.waiting
  have hbehind : ticket ∈ c.waiting.drop (slots - c.out.length) := by
    rw [← hsplit] at hmem
    exact (List.mem_append.mp hmem).resolve_left hhanded
  show [other, ticket].Sublist c.waiting
  rw [← hsplit]
  exact (List.singleton_sublist.mpr hother).append (List.singleton_sublist.mpr hbehind)

theorem left (h : Balanced slots c) (hmem : ticket ∈ c.waiting) :
    Left c (c.leave ticket) ticket := by
  have hwaiting : c.waiting.Nodup := (List.nodup_append.mp h.distinct).2.1
  have hgone : ticket ∉ c.waiting.erase ticket := fun hstill =>
    (hwaiting.mem_erase_iff.mp hstill).1 rfl
  have hnext := (h.leave hmem).serves
  refine ⟨⟨?_, ?_, ?_⟩, rfl, rfl⟩
  · rw [hnext.handed]
    exact fun hstill => hgone (List.mem_of_mem_take hstill)
  · rw [hnext.queue]
    exact fun hstill => hgone (List.mem_of_mem_drop hstill)
  · exact fun hout => (List.nodup_append.mp h.distinct).2.2 ticket hout ticket hmem rfl

theorem accounted (h : Balanced slots c) : Accounted slots c where
  bounded := h.bounded
  gauge := h.gauge
  atOnce ticket hwaiting hout hroom := by
    rw [Callers.step, if_neg (not_or.mpr ⟨hwaiting, hout⟩)]
    rcases h.ask_cases ticket with ⟨-, houts, -⟩ | ⟨hfull, -⟩
    · rw [houts]
      exact List.mem_append_right _ (List.mem_singleton.mpr rfl)
    · omega
  unlimited := h.unlimited
  served := h.serves.handed
  waits ticket hmem hhanded := ⟨h.waits hmem hhanded, fun _ => h.waitsLonger hmem hhanded⟩
  taken ticket hhanded := by
    rw [Callers.step, Callers.step, if_pos hhanded, if_pos hhanded]
    exact ⟨List.mem_append_right _ (List.mem_singleton.mpr rfl), rfl⟩
  timedOut ticket hmem hhanded := by
    rw [Callers.step, if_neg hhanded, if_pos hmem]
    obtain ⟨hholds, hwaiting, hout⟩ := h.left hmem
    exact ⟨⟨hholds, hwaiting, hout⟩, rfl⟩
  cancelled ticket hmem := by
    rw [Callers.step, if_pos hmem]
    exact ⟨h.left hmem, rfl⟩
  counted happening hcounted := by
    cases happening with
    | ask ticket =>
      rw [Callers.step] at hcounted
      split at hcounted
      · exact absurd rfl hcounted
      · exact absurd (h.ask_frame ticket).2.2 hcounted
    | expire ticket =>
      rw [Callers.step] at hcounted
      split at hcounted
      · exact absurd rfl hcounted
      · rename_i hhanded
        split at hcounted
        · rename_i hmem
          exact ⟨ticket, hmem, rfl, hhanded⟩
        · exact absurd rfl hcounted
    | take ticket | cancel ticket | giveBack ticket =>
      rw [Callers.step] at hcounted
      split at hcounted <;> exact absurd rfl hcounted

end Balanced

/-- Whatever has happened at a limiter without a bucket, its permits are accounted for: as many as
the gauge says are out and no more than there are slots, no caller waits or gives up unless each
slot is out or was handed to one that has waited longer, and one that gives up or is dropped leaves
nothing behind. -/
theorem permits_accounted (slots : Nat) (happenings : List Happening) :
    Accounted slots ((Callers.start slots).run happenings) :=
  ((balanced_start slots).run happenings).accounted

/-- A slot that was handed to a caller counts for nothing until it is taken: then two callers wait
and no permit is out, and the second of them is refused. -/
theorem refused_with_none_out :
    let c := (Callers.start 1).run [.ask 0, .ask 1, .ask 2, .giveBack 0]
    c.out = [] ∧ c.permits.inFlight = 0 ∧ c.waiting = [1, 2] ∧
      (c.step (.expire 2)).out = [] ∧ (c.step (.expire 2)).permits.inFlight = 0 ∧
      (c.step (.expire 2)).samples = [.permitTimeout] := by
  decide

/-- A slot that was handed to a caller who is dropped before its turn goes to the next one. -/
example : ((Callers.start 1).run
    [.ask 0, .ask 1, .ask 2, .giveBack 0, .cancel 1]).permits.handed = [2] := by decide

end ChainWatch.Limiter
