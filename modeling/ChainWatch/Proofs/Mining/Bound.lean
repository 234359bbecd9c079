import ChainWatch.Proofs.Fee.Growth
import ChainWatch.Proofs.Mining.Replacement

/-!
# Escalation ends, and why it does

The only thing that ends the rounds of a waiter whose transaction is never mined is the ceiling.
With a caller who broadcasts what is asked, the price of the `n`-th replacement is at least
`Fee.leastAfter kind n` or the ceiling (`Climbed`), whatever the node says of base fees, so
`Fee.mostRaises` requests are enough for every ceiling that settings can ask for.

`escalation_bounded` is the main statement. It adds what the run looks like where it gives up: a
legacy run has been at the ceiling, and a dynamic one has been there too or found the least
replacement cap above it. `follow_settled` says that the limit on the rounds of `Waiter.follow` is
no bound of the waiter's own: under any settings, larger ones lead to the same run.
-/

namespace ChainWatch.Mining

variable {w : Waiter} {s : Surroundings} {first : Transaction}

/-- A caller who broadcasts nothing but the price it was asked for. -/
def Faithful (s : Surroundings) : Prop :=
  ∀ (n : Nat) (options : GasOptions) (replacement : Transaction),
    (s.resubmit n options).answer = .ok replacement → replacement.offer = options.offer

/-! ## The price climbs -/

/-- A price that comes out is at least the growth of the current one, or the ceiling. -/
theorem growth_le_priced {p : Position} {offer : FeeOffer}
    (small : w.ceiling.toNat ≤ Fee.highestCeiling)
    (below : p.current.offer.ceilingPrice < w.ceiling)
    (priced : (pricing w s p).pricing = .offer offer) :
    min (Fee.growth p.current.offer.kind p.current.offer.ceilingPrice.toNat) w.ceiling.toNat
      ≤ offer.ceilingPrice.toNat := by
  -- a ceiling that small keeps the arithmetic of words clear of the largest one
  have hroom := Fee.highestCeiling_lt_size
  rw [Word.lt_def] at below
  rcases pricing_offer priced with ⟨amount, hcurrent, rfl⟩ |
    ⟨cap, tip, fee, newCap, newTip, hcurrent, hraised, rfl⟩
  · rw [hcurrent] at below ⊢
    simp only [FeeOffer.ceilingPrice, FeeOffer.kind] at below ⊢
    rw [Fee.growth_raiseLegacy _ _ (by omega)]
  · rw [hcurrent] at below ⊢
    simp only [FeeOffer.ceilingPrice, FeeOffer.kind] at below ⊢
    obtain ⟨hfloor, -, -⟩ := Fee.raiseDynamic_offer hraised
    rw [Word.le_def, Fee.growth_leastReplacementCap _ (by omega)] at hfloor
    omega

/-- Where the price stands after the replacements so far. -/
structure Climbed (w : Waiter) (first : Transaction) (p : Position) : Prop where
  kind : p.current.offer.kind = first.offer.kind
  bounded : p.current.offer.ceilingPrice ≤ w.ceiling
  climbed : min (Fee.leastAfter first.offer.kind p.resubmissions) w.ceiling.toNat
    ≤ p.current.offer.ceilingPrice.toNat

theorem Climbed.round {p q : Position} {later : Trace} (faithful : Faithful s)
    (small : w.ceiling.toNat ≤ Fee.highestCeiling) (h : Climbed w first p)
    (hround : RoundEnd w s first p later (.goOn q)) : Climbed w first q := by
  cases hround with
  | @replaced offer replacement found below priced answer =>
    have hoffer : replacement.offer = offer := faithful _ _ _ answer
    have hsafe : SafeReplacement w first p.current (request first offer) :=
      safe_request below priced
    have hgrowth := growth_le_priced small below priced
    have hclimbed := h.climbed
    rw [h.kind] at hgrowth
    rw [Word.lt_def] at below
    constructor
    · show replacement.offer.kind = _
      rw [hoffer, ← h.kind]
      exact hsafe.kind
    · show replacement.offer.ceilingPrice ≤ _
      rw [hoffer]
      exact hsafe.bounded
    · show min (Fee.growth _ (Fee.leastAfter _ p.resubmissions)) _
        ≤ replacement.offer.ceilingPrice.toNat
      rw [hoffer]
      -- below the ceiling the old bound is on the price itself, so the growth carries it over
      have hle : Fee.leastAfter first.offer.kind p.resubmissions
          ≤ p.current.offer.ceilingPrice.toNat := by omega
      have hmono := Fee.growth_mono first.offer.kind hle
      omega

theorem Reaches.climbed (faithful : Faithful s) (small : w.ceiling.toNat ≤ Fee.highestCeiling)
    (below : first.offer.ceilingPrice < w.ceiling) {trace : Trace} {p : Position}
    (h : Reaches w s first trace p) : Climbed w first p := by
  induction h with
  | start =>
    rw [Word.lt_def] at below
    exact {
      kind := rfl
      bounded := Nat.le_of_lt below
      climbed := Nat.le_trans (Nat.min_le_left _ _) (Nat.zero_le _) }
  | round _ next ih => exact ih.round faithful small next

/-! ## The number of requests -/

/-- A price below the ceiling has not been raised as often as reaching the ceiling takes. -/
theorem Climbed.resubmissions_lt {p : Position} (h : Climbed w first p)
    (small : w.ceiling.toNat ≤ Fee.highestCeiling)
    (below : p.current.offer.ceilingPrice < w.ceiling) :
    p.resubmissions < Fee.mostRaises first.offer.kind := by
  by_contra hmany
  -- after that many raises the price would have reached the highest ceiling, hence this one
  have hreach := Fee.highestCeiling_le_leastAfter first.offer.kind
  have hmono := Fee.leastAfter_mono first.offer.kind (Nat.le_of_not_lt hmany)
  have hclimbed := h.climbed
  rw [Word.lt_def] at below
  omega

theorem Reaches.resubmissions_le (faithful : Faithful s)
    (small : w.ceiling.toNat ≤ Fee.highestCeiling)
    (below : first.offer.ceilingPrice < w.ceiling) {trace : Trace} {p : Position}
    (h : Reaches w s first trace p) : p.resubmissions ≤ Fee.mostRaises first.offer.kind := by
  cases h with
  | start => exact Nat.zero_le _
  | round reached next =>
    have hclimbed := reached.climbed faithful small below
    cases next with
    | replaced found hbelow priced answer => exact hclimbed.resubmissions_lt small hbelow

theorem Reaches.length_requests_le (faithful : Faithful s)
    (small : w.ceiling.toNat ≤ Fee.highestCeiling)
    (below : first.offer.ceilingPrice < w.ceiling) {trace : Trace} {p : Position}
    (h : Reaches w s first trace p) :
    (requests trace.calls).length ≤ Fee.mostRaises first.offer.kind := by
  rw [h.agrees.requests]
  exact h.resubmissions_le faithful small below

theorem Course.length_requests_le {limit : Nat} (faithful : Faithful s)
    (small : w.ceiling.toNat ≤ Fee.highestCeiling) {trace : Trace}
    {outcome : Option (Except Fault Ending)} (h : Course w s first limit trace outcome) :
    (requests trace.calls).length ≤ Fee.mostRaises first.offer.kind := by
  cases h with
  | fault zero below => exact Nat.zero_le _
  | atCeiling reached => exact Nat.zero_le _
  | goingOn below reached rounds => exact reached.length_requests_le faithful small below
  | @ended trace last p ending below reached rounds finish =>
    have hold := reached.length_requests_le faithful small below
    have hclimbed := reached.climbed faithful small below
    rw [Trace.calls_append, requests_append, List.length_append]
    cases finish with
    | mined found => simpa using hold
    | ceilingReached found hprice => simpa using hold
    | unpriced found hbelow priced => simpa using hold
    | noRoom found hbelow priced => simpa using hold
    | refused found hbelow priced answer =>
      -- the request that failed is one more than the replacements
      have hone := hclimbed.resubmissions_lt small hbelow
      simp only [requests_append, requests_watchCalls, requests_pricing, requests_resubmit,
        List.nil_append, List.length_singleton, reached.agrees.requests]
      exact hone

/-- A run that may still go on has made as many requests as it was given rounds. -/
theorem Course.limit_le {limit : Nat} (faithful : Faithful s)
    (small : w.ceiling.toNat ≤ Fee.highestCeiling) {trace : Trace}
    {outcome : Option (Except Fault Ending)} (h : Course w s first limit trace outcome)
    (unfinished : outcome = none) : limit ≤ Fee.mostRaises first.offer.kind := by
  cases h with
  | fault zero below => cases unfinished
  | atCeiling reached => cases unfinished
  | ended below reached rounds finish => cases unfinished
  | goingOn below reached rounds =>
    rw [← rounds]
    exact reached.resubmissions_le faithful small below

/-! ## Enough rounds -/

/-- A run that is given more rounds than there are raises ends. -/
theorem follow_ends (faithful : Faithful s) (small : w.ceiling.toNat ≤ Fee.highestCeiling)
    {limit : Nat} (enough : Fee.mostRaises first.offer.kind < limit) :
    (w.follow s first limit).2.isSome := by
  by_contra hnone
  have hunfinished := Option.not_isSome_iff_eq_none.mp hnone
  have hle := (follow_course w s first limit).limit_le faithful small hunfinished
  omega

/-- No settings ask for a ceiling above the highest one. -/
theorem ceiling_le_highest (settings : MiningSettings) :
    settings.ceiling.toNat ≤ Fee.highestCeiling := by
  have hgwei := settings.maxGasPriceGwei.toNat_lt
  rw [MiningSettings.ceiling, Word.toNat_clamp, Fee.highestCeiling]
  omega

/-- Whatever the settings, the number of rounds that a run is given does not show: with any number
that is large enough it is the same run to its end. -/
theorem follow_settled (settings : MiningSettings) (s : Surroundings) (first : Transaction)
    (faithful : Faithful s) {limit : Nat} (enough : Fee.mostRaises first.offer.kind < limit) :
    (Waiter.ofSettings settings).follow s first limit
      = (Waiter.ofSettings settings).follow s first (Fee.mostRaises first.offer.kind + 1) := by
  have small : (Waiter.ofSettings settings).ceiling.toNat ≤ Fee.highestCeiling :=
    ceiling_le_highest settings
  obtain ⟨more, hmore⟩ := Nat.exists_eq_add_of_le (Nat.succ_le_of_lt enough)
  rw [hmore]
  exact follow_mono (follow_ends faithful small (Nat.lt_succ_self _)) more

/-! ## Giving up -/

/-- What giving up says of the last broadcast: its price reached the ceiling, or it is a dynamic
offer that no node would see replaced under the ceiling. -/
structure GaveUpFor (w : Waiter) (first : Transaction) (reason : GiveUpReason)
    (last : Transaction) : Prop where
  kind : last.offer.kind = first.offer.kind
  escalated : reason = .ceilingReached ∨ reason = .floorAboveCeiling
  legacy : ∀ price, last.offer = .legacy price → reason = .ceilingReached ∧ price = w.ceiling
  ceilingReached : ∀ cap tip, last.offer = .dynamic cap tip →
    (reason = .ceilingReached ↔ cap = w.ceiling)
  floorAboveCeiling : ∀ cap tip, last.offer = .dynamic cap tip →
    (reason = .floorAboveCeiling ↔
      cap < w.ceiling ∧ w.ceiling < Fee.leastReplacementCap cap)

theorem Climbed.gaveUp_ceilingReached {p : Position} (h : Climbed w first p)
    (reached : w.ceiling ≤ p.current.offer.ceilingPrice) :
    GaveUpFor w first .ceilingReached p.current := by
  have hprice : p.current.offer.ceilingPrice = w.ceiling :=
    Word.toNat_inj.mp (Nat.le_antisymm h.bounded reached)
  constructor
  · exact h.kind
  · exact .inl rfl
  · intro price hoffer
    rw [hoffer] at hprice
    exact ⟨rfl, hprice⟩
  · intro cap tip hoffer
    rw [hoffer] at hprice
    exact ⟨fun _ => hprice, fun _ => rfl⟩
  · intro cap tip hoffer
    rw [hoffer] at reached
    constructor
    · intro hreason
      cases hreason
    · intro hcap
      exact absurd reached (Word.not_le.mpr hcap.1)

theorem Climbed.gaveUp_noRoom {p : Position} {reason : GiveUpReason} (h : Climbed w first p)
    (below : p.current.offer.ceilingPrice < w.ceiling)
    (priced : (pricing w s p).pricing = .giveUp reason) :
    GaveUpFor w first reason p.current := by
  obtain ⟨rfl, cap, tip, fee, floor, hcurrent, hraised⟩ := pricing_giveUp priced
  obtain ⟨-, hfloor⟩ := Fee.raiseDynamic_floor hraised
  rw [hcurrent] at below
  constructor
  · exact h.kind
  · exact .inr rfl
  · intro price hoffer
    rw [hcurrent] at hoffer
    cases hoffer
  · intro cap' tip' hoffer
    rw [hcurrent] at hoffer
    cases hoffer
    constructor
    · intro hreason
      cases hreason
    · rintro rfl
      exact absurd below (Nat.lt_irrefl _)
  · intro cap' tip' hoffer
    rw [hcurrent] at hoffer
    cases hoffer
    exact ⟨fun _ => ⟨below, hfloor⟩, fun _ => rfl⟩

/-- Where a run that started below the ceiling gives up, it does so for its latest broadcast. -/
theorem Course.gaveUp {limit : Nat} (faithful : Faithful s)
    (small : w.ceiling.toNat ≤ Fee.highestCeiling)
    (below : first.offer.ceilingPrice < w.ceiling) {trace : Trace} {ending : Ending}
    (h : Course w s first limit trace (some (.ok ending))) {reason : GiveUpReason}
    {last : Transaction} (hgaveUp : ending.outcome = .ok (.gaveUp reason last)) :
    last = (latest s first trace.calls).transaction ∧ GaveUpFor w first reason last := by
  cases h with
  | atCeiling reached => exact absurd reached (Word.not_le.mpr below)
  | @ended trace later p ending hbelow reached rounds finish =>
    have hclimbed := reached.climbed faithful small below
    -- a last round that gives up has not asked for a replacement
    have hlatest : requests later.calls = [] →
        p.current = (latest s first (trace ++ later).calls).transaction := by
      intro hnone
      rw [Trace.calls_append, latest_append_of_requests_nil hnone, reached.agrees.latest]
    cases finish with
    | mined found => cases hgaveUp
    | unpriced found hprice priced => cases hgaveUp
    | refused found hprice priced answer => cases hgaveUp
    | ceilingReached found hprice =>
      cases hgaveUp
      exact ⟨hlatest (by simp), hclimbed.gaveUp_ceilingReached hprice⟩
    | noRoom found hprice priced =>
      cases hgaveUp
      exact ⟨hlatest (by simp), hclimbed.gaveUp_noRoom hprice priced⟩

/-- With a caller who broadcasts what is asked, a run below any ceiling that settings can ask for
makes a bounded number of requests and ends, and where it gives up it has reached the ceiling, or
the least replacement cap has passed it. -/
theorem escalation_bounded (w : Waiter) (s : Surroundings) (first : Transaction)
    (small : w.ceiling.toNat ≤ Fee.highestCeiling)
    (below : first.offer.ceilingPrice < w.ceiling) (faithful : Faithful s) (limit : Nat) :
    (requests (w.follow s first limit).1.calls).length ≤ Fee.mostRaises first.offer.kind ∧
    (Fee.mostRaises first.offer.kind < limit → (w.follow s first limit).2.isSome) ∧
    ∀ (reason : GiveUpReason) (last : Transaction) (time : Nat),
      (w.follow s first limit).2 = some (.ok ⟨.ok (.gaveUp reason last), time⟩) →
      last = (latest s first (w.follow s first limit).1.calls).transaction ∧
        GaveUpFor w first reason last := by
  have hcourse := follow_course w s first limit
  refine ⟨hcourse.length_requests_le faithful small, ?_, ?_⟩
  · intro henough
    exact follow_ends faithful small henough
  · intro reason last time hgaveUp
    rw [hgaveUp] at hcourse
    exact hcourse.gaveUp faithful small below rfl

theorem faithful_quiet (baseFee : Option Word) : Faithful (quiet baseFee) := by
  intro n options replacement h
  simp only [quiet, listedResubmissions, List.getD_nil, Resubmission.answer,
    Resubmission.faithful, Option.getD_none, Except.ok.injEq] at h
  rw [← h]

/-- From three units to a ceiling of ten: one unit at a time at first, and the last request is
for the ceiling itself. -/
theorem escalation_bounded_three_to_ten :
    (requests (Waiter.follow ⟨1, 1, .clamp 10⟩ (quiet none)
      (offering (.legacy (.clamp 3))) 401).1.calls).length ≤ 400 ∧
    (Waiter.follow ⟨1, 1, .clamp 10⟩ (quiet none) (offering (.legacy (.clamp 3))) 401).2.isSome ∧
    GaveUpFor ⟨1, 1, .clamp 10⟩ (offering (.legacy (.clamp 3))) .ceilingReached
      ⟨.ofUInt64 106, .clamp 9, .clamp 21000, .legacy (.clamp 10)⟩ := by
  have hbounded := escalation_bounded ⟨1, 1, .clamp 10⟩ (quiet none)
    (offering (.legacy (.clamp 3))) (by decide) (by decide) (faithful_quiet none) 401
  obtain ⟨hlength, hends, hgaveUp⟩ := hbounded
  exact ⟨hlength, hends (by decide), (hgaveUp _ _ 7 rfl).2⟩

end ChainWatch.Mining
