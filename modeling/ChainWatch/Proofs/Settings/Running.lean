import ChainWatch.Settings.Components
import ChainWatch.Settings.Reader

/-!
# Which accepted settings components can run with

Settings are checked before anything is made from them. The check refuses every pause of zero
(`pos_of_flaw?_eq_none`), so no ticker breaks down. It looks at no upper bound: where settings ask
for more slots, or for more room for notices, than can be managed, they are accepted all the same,
and then the limiter or the resubscription breaks down. `accepted_fault_iff` says that nothing else
does, and `accepted_yet_faulty` gives settings with which both do.
-/

namespace ChainWatch
namespace Settings

variable {env : Template.Environment} {text : String} {settings : Settings}

/-! ## What the check rules out -/

/-- Accepted settings have no flaw. -/
theorem flaw?_of_parse (h : parse env text = .ok settings) : settings.flaw? = none := by
  rw [parse] at h
  split at h
  · cases h
  · next found _ =>
    split at h
    · cases h
    · next hnone =>
      obtain rfl : found = settings := Except.ok.inj h
      exact hnone

/-- Without a flaw, no setting that must be positive is zero. -/
theorem pos_of_flaw?_eq_none (h : settings.flaw? = none) :
    ∀ entry ∈ settings.mustBePositive, 0 < entry.2.toNat := by
  intro entry hmem
  rw [flaw?] at h
  split at h
  · cases h
  · rw [Option.map_eq_none_iff, List.find?_eq_none] at h
    have hne : entry.2 ≠ 0 := fun hzero => h entry hmem (by rw [hzero]; rfl)
    exact Nat.pos_of_ne_zero fun hzero => hne (UInt64.toNat_inj.mp hzero)

/-! ## Times -/

/-- Each ticker is given a pause. -/
structure Paced (settings : Settings) : Prop where
  receipts : 0 < settings.mining.receiptPoll.millis
  heights : 0 < settings.chain.blockPoll.millis
  sweeps : 0 < settings.chain.headDedupe.nanos

theorem paced_of_parse (h : parse env text = .ok settings) : Paced settings := by
  have hpos := pos_of_flaw?_eq_none (flaw?_of_parse h)
  have hreceipts : 0 < settings.mining.receiptPollMillis.toNat :=
    hpos ("mining.receipt_poll_interval_ms", _) (by simp [mustBePositive])
  have hheights : 0 < settings.chain.blockPollMillis.toNat :=
    hpos ("chain.block_poll_interval_ms", _) (by simp [mustBePositive])
  have hsweeps : 0 < settings.chain.headDedupeSeconds.toNat :=
    hpos ("chain.head_dedupe_secs", _) (by simp [mustBePositive])
  refine ⟨?_, ?_, Nat.mul_pos hsweeps (by decide)⟩
  · rwa [MiningSettings.receiptPoll, Duration.millis_ofMillis]
  · rwa [ChainSettings.blockPoll, Duration.millis_ofMillis]

/-! ## Sizes -/

/-- The settings ask a component for more than it can manage. -/
def AsksTooMuch (s : Settings) : Component → Prop
  | .limiter => Limiter.mostSlots < s.rateLimit.concurrency.toNat
  | .resubscription => Resubscription.Policy.mostCapacity < s.resubscribe.eventBuffer.toNat
  | _ => False

theorem limiter_fault_iff (s : Settings) (fault : Fault) :
    s.fault? .limiter = some fault ↔ fault = .tooManySlots ∧ s.AsksTooMuch .limiter := by
  rw [fault?, AsksTooMuch, Limiter.Plan.fault?, Limiter.Plan.ofSettings]
  split
  · next hmany =>
    rw [Option.some_inj, eq_comm]
    exact (and_iff_left hmany).symm
  · next hfew => exact ⟨nofun, fun h => absurd h.2 hfew⟩

/-- There is room for a notice whatever the settings say. -/
theorem capacity_ofSettings (s : ResubscribeSettings) :
    (Resubscription.Policy.ofSettings s).capacity = max s.eventBuffer.toNat 1 :=
  rfl

theorem resubscription_fault_iff (s : Settings) (fault : Fault) :
    s.fault? .resubscription = some fault ↔
      fault = .tooManySlots ∧ s.AsksTooMuch .resubscription := by
  have hcapacity := capacity_ofSettings s.resubscribe
  have hone : 1 ≤ Resubscription.Policy.mostCapacity := by decide
  rw [fault?, AsksTooMuch, Resubscription.Policy.fault?]
  split
  · next hfits => exact ⟨nofun, fun h => by omega⟩
  · next hlarge =>
    rw [Option.some_inj, eq_comm]
    exact (and_iff_left (by omega)).symm

/-- The ceiling on prices is the product that the settings ask for: no setting makes it too large
for a word. -/
theorem ceiling_exact (s : MiningSettings) :
    Word.ofNat? (s.maxGasPriceGwei.toNat * 1000000000) = some s.ceiling := by
  have hlt := s.maxGasPriceGwei.toNat_lt_size
  have hroom : UInt64.size * 1000000000 ≤ Word.size := by decide
  have hfits : s.maxGasPriceGwei.toNat * 1000000000 < Word.size := by omega
  rw [Word.ofNat?, dif_pos hfits, Option.some_inj, ← Word.toNat_inj, MiningSettings.ceiling,
    Word.toNat_clamp]
  exact (Nat.min_eq_left (Nat.le_sub_one_of_lt hfits)).symm

/-! ## What runs -/

/-- With accepted settings a component breaks down exactly where they ask it for more slots or more
room than it can manage. There is always room for some notice, and the ceiling on prices is a
word. -/
theorem accepted_fault_iff (env : Template.Environment) (text : String) (settings : Settings)
    (h : parse env text = .ok settings) :
    (∀ component fault, settings.fault? component = some fault ↔
      fault = .tooManySlots ∧ settings.AsksTooMuch component) ∧
    0 < (Resubscription.Policy.ofSettings settings.resubscribe).capacity ∧
    Word.ofNat? (settings.mining.maxGasPriceGwei.toNat * 1000000000)
      = some settings.mining.ceiling := by
  obtain ⟨hreceipts, hheights, hsweeps⟩ := paced_of_parse h
  refine ⟨fun component fault => ?_, ?_, ceiling_exact _⟩
  · -- tickers do not break down, so only the two components with sizes are left
    have hnever {found : Option Fault} (hfound : found = none) :
        found = some fault ↔ fault = .tooManySlots ∧ False := by
      rw [hfound, and_false]
      exact iff_of_false nofun id
    cases component with
    | waiter first =>
      refine hnever (if_neg fun hboth => ?_)
      exact absurd hboth.1 (Nat.pos_iff_ne_zero.mp hreceipts)
    | blockCounter => exact hnever (if_neg (Nat.pos_iff_ne_zero.mp hheights))
    | headFollower => exact hnever (if_neg (Nat.pos_iff_ne_zero.mp hsweeps))
    | resubscription => exact resubscription_fault_iff settings fault
    | limiter => exact limiter_fault_iff settings fault
  · rw [capacity_ofSettings]
    omega

/-- A text with nothing but what has to be given. -/
def briefText : String := "[chain]\nname = \"\"\nws_url = \"ws:\"\n"

/-- With nothing but defaults every component runs. -/
theorem accepted_fault_iff_defaults :
    ∃ settings, parse (fun _ => none) briefText = .ok settings ∧
      ∀ component, settings.fault? component = none := by
  have hdefaults : (parse (fun _ => none) briefText).toOption.map
      (fun s => (s.rateLimit.concurrency, s.resubscribe.eventBuffer)) = some (0, 16) := by
    decide +kernel
  cases hparse : parse (fun _ => none) briefText with
  | error failure =>
    rw [hparse] at hdefaults
    cases hdefaults
  | ok settings =>
    refine ⟨settings, rfl, fun component => ?_⟩
    rw [hparse] at hdefaults
    obtain ⟨hslots, hbuffer⟩ := Prod.mk.inj (Option.some.inj hdefaults)
    have hmodest : ¬ settings.AsksTooMuch component := by
      cases component with
      | limiter => rw [AsksTooMuch, hslots]; decide
      | resubscription => rw [AsksTooMuch, hbuffer]; decide
      | _ => exact id
    rw [Option.eq_none_iff_forall_ne_some]
    intro fault hfault
    exact hmodest (((accepted_fault_iff _ _ settings hparse).1 component fault).mp hfault).2

/-- A text that asks for one slot and for room for one notice more than can be managed. -/
def greedyText : String :=
  briefText ++ "[rate_limit]\nconcurrency_limit = 2305843009213693952\n"
    ++ "[resubscribe]\nevent_buffer = 2305843009213693952\n"

/-- The greedy text is accepted, and two of the components made from it break down. -/
theorem accepted_yet_faulty :
    ∃ settings, parse (fun _ => none) greedyText = .ok settings ∧
      settings.fault? .limiter = some .tooManySlots ∧
      settings.fault? .resubscription = some .tooManySlots := by
  have hfaults : (parse (fun _ => none) greedyText).toOption.map
      (fun s => (s.fault? .limiter, s.fault? .resubscription))
        = some (some .tooManySlots, some .tooManySlots) := by
    decide +kernel
  cases hparse : parse (fun _ => none) greedyText with
  | error failure =>
    rw [hparse] at hfaults
    cases hfaults
  | ok settings =>
    rw [hparse] at hfaults
    obtain ⟨hlimiter, hresubscription⟩ := Prod.mk.inj (Option.some.inj hfaults)
    exact ⟨settings, rfl, hlimiter, hresubscription⟩

end Settings
end ChainWatch
