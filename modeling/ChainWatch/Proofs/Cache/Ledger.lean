import Mathlib.Data.Set.Card
import ChainWatch.Cache.Reference
import ChainWatch.Proofs.Cache.Queue

/-!
# A cache answers as its records do

A ledger remembers the last accepted insertion of every key, for ever, and how many keys were live
when it counted them last: after every insertion, accepted or not, and after every sweep. It knows
neither queue nor purging.

`serveAll_eq_ledger` says that a cache gives the answers of the ledger, whatever it is asked and
however the clock moves forward in between. From there it is read off that an insertion is refused
exactly for a key that is found, and that sweeps never change what insertions and lookups answer.
-/

namespace ChainWatch.Cache

variable {K V : Type} [DecidableEq K]

/-! ## Ledgers -/

/-- The number of live keys. -/
noncomputable def Records.liveCount (r : Records K V) (timespan now : Nat) : Nat :=
  Set.ncard {key | r.live timespan now key}

/-- The records of all keys, the time, and how many keys were live at the last count. -/
structure Ledger (K V : Type) where
  records : Records K V
  now : Nat
  counted : Nat

namespace Ledger

/-- A ledger without records. -/
def start (now : Nat) : Ledger K V := ⟨Records.none, now, 0⟩

/-- Counts the live keys. -/
noncomputable def count (l : Ledger K V) (timespan : Nat) : Ledger K V :=
  { l with counted := l.records.liveCount timespan l.now }

/-- What a ledger answers to a request. -/
noncomputable def serve (timespan : Nat) (l : Ledger K V) : Request K V → Ledger K V × Answer V
  | .add key value =>
    let (records, added) := l.records.add timespan l.now key value
    (({ l with records := records } : Ledger K V).count timespan, .flag added)
  | .has key => (l, .flag (l.records.get? timespan l.now key).isSome)
  | .get key => (l, .value (l.records.get? timespan l.now key))
  | .size => (l, .count l.counted)
  | .isEmpty => (l, .flag (l.counted == 0))
  | .sweep => (l.count timespan, .done)
  | .timespan => (l, .timespan timespan)
  | .advance nanos => ({ l with now := l.now + nanos }, .done)

/-- What a ledger answers in turn; each answer comes with the last count after it. -/
noncomputable def serveAll (timespan : Nat) (l : Ledger K V) :
    List (Request K V) → List (Answer V × Nat)
  | [] => []
  | r :: rest =>
    let (next, answer) := l.serve timespan r
    (answer, next.counted) :: next.serveAll timespan rest

end Ledger

omit [DecidableEq K] in
theorem Records.isSome_get?_iff (r : Records K V) (timespan now : Nat) (key : K) :
    (r.get? timespan now key).isSome ↔ r.live timespan now key := by
  unfold get? live
  cases r key with
  | none => simp
  | some entry =>
    by_cases hle : now ≤ entry.2 + timespan
    · simp only [if_pos hle, Option.isSome_some, true_iff]
      exact ⟨entry.1, entry.2, rfl, hle⟩
    · simp only [if_neg hle, Option.isSome_none, Bool.false_eq_true, false_iff]
      rintro ⟨value, insertedAt, heq, hlive⟩
      cases heq
      exact hle hlive

omit [DecidableEq K] in
theorem Records.live_mono {r : Records K V} {timespan now later : Nat} {key : K} (le : now ≤ later)
    (h : r.live timespan later key) : r.live timespan now key := by
  obtain ⟨value, insertedAt, heq, hlive⟩ := h
  exact ⟨value, insertedAt, heq, Nat.le_trans le hlive⟩

/-! ## A cache and its records -/

/-- The cache stores nothing but records, and every record that is live. -/
structure Keeps (c : Expiring K V) (now : Nat) (r : Records K V) : Prop where
  sound : c.Sound now
  recorded : ∀ key entry, c.stored? key = some entry → r key = some entry
  stored : ∀ key, r.live c.timespan now key → (c.stored? key).isSome

namespace Keeps

variable {c : Expiring K V} {now : Nat} {r : Records K V}

theorem empty (timespan now : Nat) : Keeps (.empty timespan) now (Records.none : Records K V) := by
  refine ⟨Expiring.sound_empty timespan now, nofun, fun key hlive => ?_⟩
  obtain ⟨value, insertedAt, heq, -⟩ := hlive
  cases heq

theorem mono (h : Keeps c now r) {later : Nat} (le : now ≤ later) : Keeps c later r :=
  ⟨h.sound.mono le, h.recorded, fun key hlive => h.stored key (Records.live_mono le hlive)⟩

/-- A cache and its records give the same value for every key. -/
theorem get?_eq (h : Keeps c now r) (key : K) : c.get? now key = r.get? c.timespan now key := by
  cases hstored : c.stored? key with
  | some entry =>
    have halive : Expiring.alive c.timespan entry.2 now = decide (now ≤ entry.2 + c.timespan) := by
      rw [Expiring.alive, decide_eq_decide]
      omega
    simp only [Expiring.get?, Records.get?, hstored, h.recorded key entry hstored, halive,
      decide_eq_true_eq]
  | none =>
    have hdead : ¬ (r.get? c.timespan now key).isSome := by
      rw [r.isSome_get?_iff]
      intro hlive
      have hsome := h.stored key hlive
      rw [hstored] at hsome
      cases hsome
    rw [Option.not_isSome_iff_eq_none] at hdead
    simp only [Expiring.get?, hstored, hdead]

theorem sweep (h : Keeps c now r) : Keeps (c.sweep now) now r := by
  refine ⟨h.sound.sweep, fun key entry hstored => ?_, fun key hlive => ?_⟩
  · rw [Expiring.stored?_sweep h.sound, Option.filter_eq_some_iff] at hstored
    exact h.recorded key entry hstored.1
  · obtain ⟨entry, hentry⟩ := Option.isSome_iff_exists.mp (h.stored key hlive)
    obtain ⟨value, insertedAt, heq, hle⟩ := hlive
    rw [h.recorded key entry hentry] at heq
    cases heq
    have halive : Expiring.alive c.timespan insertedAt now = true := by
      rw [Expiring.alive, decide_eq_true_eq]
      have : now ≤ insertedAt + c.timespan := hle
      omega
    rw [Expiring.stored?_sweep h.sound, hentry]
    simp [halive]

/-- What is stored after a sweep is live. -/
theorem stored_sweep_iff (h : Keeps c now r) (key : K) :
    ((c.sweep now).stored? key).isSome ↔ r.live c.timespan now key := by
  constructor
  · intro hsome
    obtain ⟨entry, hentry⟩ := Option.isSome_iff_exists.mp hsome
    rw [Expiring.stored?_sweep h.sound, Option.filter_eq_some_iff] at hentry
    have hle : now - entry.2 ≤ c.timespan := of_decide_eq_true hentry.2
    exact ⟨entry.1, entry.2, h.recorded key entry hentry.1, by omega⟩
  · exact h.sweep.stored key

/-- Adding to a cache is accepted as adding to its records is, and keeps the two together; what is
stored then is live. -/
theorem add (h : Keeps c now r) (key : K) (value : V) :
    (c.add now key value).2 = (r.add c.timespan now key value).2 ∧
      Keeps (c.add now key value).1 now (r.add c.timespan now key value).1 ∧
      ∀ k, ((c.add now key value).1.stored? k).isSome →
        (r.add c.timespan now key value).1.live c.timespan now k := by
  have hsound := h.sound.add key value
  have hsame : ((c.sweep now).stored? key).isSome = (r.get? c.timespan now key).isSome := by
    rw [Bool.eq_iff_iff, h.stored_sweep_iff, r.isSome_get?_iff]
  rw [Expiring.add_eq] at hsound ⊢
  rw [Records.add, ← hsame]
  by_cases hstored : ((c.sweep now).stored? key).isSome
  · simp only [if_pos hstored]
    exact ⟨trivial, h.sweep, fun k => (h.stored_sweep_iff k).mp⟩
  · simp only [if_neg hstored] at hsound ⊢
    -- the new entry is the new record, and for other keys nothing changes
    refine ⟨trivial, ⟨hsound, fun k entry hentry => ?_, fun k hlive => ?_⟩, fun k hsome => ?_⟩
    · rw [Expiring.stored?, List.lookup_cons] at hentry
      by_cases hk : k = key
      · simpa [hk] using hentry
      · simp only [beq_eq_false_iff_ne.mpr hk] at hentry
        simpa only [if_neg hk] using h.sweep.recorded k entry hentry
    · rw [Expiring.stored?, List.lookup_cons]
      by_cases hk : k = key
      · simp [hk]
      · simp only [beq_eq_false_iff_ne.mpr hk]
        refine h.sweep.stored k ?_
        simpa only [Records.live, if_neg hk, Expiring.timespan_sweep] using hlive
    · rw [Expiring.stored?, List.lookup_cons] at hsome
      by_cases hk : k = key
      · exact ⟨value, now, if_pos hk, Nat.le_add_right _ _⟩
      · simp only [beq_eq_false_iff_ne.mpr hk] at hsome
        simpa only [Records.live, if_neg hk] using (h.stored_sweep_iff k).mp hsome

/-- Where all that is stored is live, its size is the number of live keys. -/
theorem size_eq (h : Keeps c now r)
    (live : ∀ key, (c.stored? key).isSome → r.live c.timespan now key) :
    c.size = r.liveCount c.timespan now := by
  have hkeys : {key | r.live c.timespan now key} = ((c.values.map Prod.fst).toFinset : Set K) := by
    ext key
    rw [Set.mem_ofPred_eq, List.coe_toFinset, Set.mem_ofPred_eq]
    constructor
    · intro hlive
      obtain ⟨entry, hentry⟩ := Option.isSome_iff_exists.mp (h.stored key hlive)
      exact List.mem_map_of_mem ((lookup_eq_some_iff_mem h.sound.nodup).mp hentry)
    · intro hmem
      obtain ⟨⟨k, entry⟩, hentry, rfl⟩ := List.mem_map.mp hmem
      have hlookup := (lookup_eq_some_iff_mem h.sound.nodup).mpr hentry
      exact live k (Option.isSome_iff_exists.mpr ⟨entry, hlookup⟩)
  rw [Records.liveCount, hkeys, Set.ncard_coe_finset, List.toFinset_card_of_nodup h.sound.nodup,
    List.length_map, Expiring.size]

theorem size_sweep (h : Keeps c now r) : (c.sweep now).size = r.liveCount c.timespan now :=
  h.sweep.size_eq fun key => (h.stored_sweep_iff key).mp

theorem size_add (h : Keeps c now r) (key : K) (value : V) :
    (c.add now key value).1.size
      = (r.add c.timespan now key value).1.liveCount c.timespan now := by
  obtain ⟨-, hkeeps, hlive⟩ := h.add key value
  have hsize := hkeeps.size_eq fun k hsome => by
    rw [Expiring.timespan_add]
    exact hlive k hsome
  rwa [Expiring.timespan_add] at hsize

end Keeps

/-! ## A cache answers as its ledger -/

/-- A cache and its ledger at one time, the ledger having counted what the cache stores. -/
structure Agrees (timespan : Nat) (s : Clocked K V) (l : Ledger K V) : Prop where
  timespan_eq : s.cache.timespan = timespan
  now_eq : s.now = l.now
  keeps : Keeps s.cache s.now l.records
  size_eq : s.cache.size = l.counted

/-- A cache without entries, and the time. -/
def Clocked.start (timespan now : Nat) : Clocked K V := ⟨.empty timespan, now⟩

theorem agrees_start (timespan now : Nat) :
    Agrees timespan (Clocked.start timespan now : Clocked K V) (.start now) :=
  ⟨rfl, rfl, .empty timespan now, rfl⟩

/-- One request gets the same answer from both, and leaves them together. -/
theorem Agrees.serve {timespan : Nat} {s : Clocked K V} {l : Ledger K V} (h : Agrees timespan s l)
    (request : Request K V) :
    (s.serve request).2 = (l.serve timespan request).2 ∧
      Agrees timespan (s.serve request).1 (l.serve timespan request).1 := by
  obtain ⟨rfl, hnow, hkeeps, hsize⟩ := h
  obtain ⟨records, now, counted⟩ := l
  cases hnow
  cases hsize
  cases request with
  | add key value =>
    obtain ⟨hflag, hadded, -⟩ := hkeeps.add key value
    simp only [Clocked.serve, Ledger.serve, Ledger.count, hflag]
    exact ⟨trivial, Expiring.timespan_add .., rfl, hadded, hkeeps.size_add key value⟩
  | has key =>
    simp only [Clocked.serve, Ledger.serve, Expiring.has, hkeeps.get?_eq]
    exact ⟨trivial, rfl, rfl, hkeeps, rfl⟩
  | get key =>
    simp only [Clocked.serve, Ledger.serve, hkeeps.get?_eq]
    exact ⟨trivial, rfl, rfl, hkeeps, rfl⟩
  | size => exact ⟨rfl, rfl, rfl, hkeeps, rfl⟩
  | isEmpty => exact ⟨rfl, rfl, rfl, hkeeps, rfl⟩
  | sweep => exact ⟨rfl, rfl, rfl, hkeeps.sweep, hkeeps.size_sweep⟩
  | timespan => exact ⟨rfl, rfl, rfl, hkeeps, rfl⟩
  | advance nanos => exact ⟨rfl, rfl, rfl, hkeeps.mono (Nat.le_add_right _ _), rfl⟩

theorem Agrees.serveAll {timespan : Nat} {s : Clocked K V} {l : Ledger K V} (h : Agrees timespan s l)
    (requests : List (Request K V)) : s.serveAll requests = l.serveAll timespan requests := by
  induction requests generalizing s l with
  | nil => rfl
  | cons request rest ih =>
    obtain ⟨hanswer, hnext⟩ := h.serve request
    rw [Clocked.serveAll, Ledger.serveAll]
    simp only [hanswer, hnext.size_eq, ih hnext]

/-! ## Refusals and sweeps -/

/-- A cache after a list of requests. -/
def Clocked.after (s : Clocked K V) (requests : List (Request K V)) : Clocked K V :=
  requests.foldl (fun s request => (s.serve request).1) s

theorem Agrees.after {timespan : Nat} {s : Clocked K V} {l : Ledger K V} (h : Agrees timespan s l)
    (requests : List (Request K V)) : ∃ l', Agrees timespan (s.after requests) l' := by
  induction requests generalizing s l with
  | nil => exact ⟨l, h⟩
  | cons request rest ih => exact ih (h.serve request).2

/-- A key is refused exactly while it is found. -/
theorem Keeps.add_eq_not_has {c : Expiring K V} {now : Nat} {r : Records K V} (h : Keeps c now r)
    (key : K) (value : V) : (c.add now key value).2 = !c.has now key := by
  rw [(h.add key value).1, Expiring.has, h.get?_eq, Records.add]
  cases (r.get? c.timespan now key).isSome <;> rfl

/-- Is it an insertion or a lookup? -/
def Request.asksForKey : Request K V → Bool
  | add .. | has _ | get _ => true
  | size | isEmpty | sweep | timespan | advance _ => false

def Request.isSweep : Request K V → Bool
  | sweep => true
  | add .. | has _ | get _ | size | isEmpty | timespan | advance _ => false

/-- The answers to insertions and lookups. -/
def keyAnswers (requests : List (Request K V)) (answers : List (Answer V × Nat)) :
    List (Answer V) :=
  (requests.zip answers).filterMap fun (request, answer) =>
    if request.asksForKey then some answer.1 else none

omit [DecidableEq K] in
theorem keyAnswers_cons (request : Request K V) (rest : List (Request K V)) (answer : Answer V × Nat)
    (answers : List (Answer V × Nat)) :
    keyAnswers (request :: rest) (answer :: answers) =
      if request.asksForKey then answer.1 :: keyAnswers rest answers
      else keyAnswers rest answers := by
  by_cases hasks : request.asksForKey <;> simp [keyAnswers, hasks]

/-- The last count of a ledger does not matter for its records, its time, and what it answers to
insertions and lookups. -/
theorem Ledger.serve_congr (timespan : Nat) {l l' : Ledger K V} (records : l.records = l'.records)
    (now : l.now = l'.now) (request : Request K V) :
    (l.serve timespan request).1.records = (l'.serve timespan request).1.records ∧
      (l.serve timespan request).1.now = (l'.serve timespan request).1.now ∧
      (request.asksForKey → (l.serve timespan request).2 = (l'.serve timespan request).2) := by
  obtain ⟨r, n, counted⟩ := l
  obtain ⟨r', n', counted'⟩ := l'
  cases records
  cases now
  cases request with
  | size => exact ⟨rfl, rfl, nofun⟩
  | isEmpty => exact ⟨rfl, rfl, nofun⟩
  | _ => exact ⟨rfl, rfl, fun _ => rfl⟩

/-- A sweep changes neither the records of a ledger nor its time. -/
theorem Ledger.serve_of_isSweep (timespan : Nat) (l : Ledger K V) {request : Request K V}
    (sweep : request.isSweep) :
    (l.serve timespan request).1.records = l.records ∧
      (l.serve timespan request).1.now = l.now ∧ request.asksForKey = false := by
  cases request with
  | sweep => exact ⟨rfl, rfl, rfl⟩
  | _ => cases sweep

/-- Two ledgers with the same records at the same time answer the same to insertions and lookups,
if only one of them is asked to sweep. -/
theorem Ledger.keyAnswers_filter (timespan : Nat) (requests : List (Request K V)) {l l' : Ledger K V}
    (records : l.records = l'.records) (now : l.now = l'.now) :
    keyAnswers (requests.filter fun request => !request.isSweep)
        (l.serveAll timespan (requests.filter fun request => !request.isSweep))
      = keyAnswers requests (l'.serveAll timespan requests) := by
  induction requests generalizing l l' with
  | nil => rfl
  | cons request rest ih =>
    by_cases hsweep : request.isSweep
    · obtain ⟨hrecords, hnow, hasks⟩ := l'.serve_of_isSweep timespan hsweep
      rw [List.filter_cons_of_neg (by simpa using hsweep), Ledger.serveAll, keyAnswers_cons,
        if_neg (by simp [hasks])]
      exact ih (records.trans hrecords.symm) (now.trans hnow.symm)
    · obtain ⟨hrecords, hnow, hanswer⟩ := serve_congr timespan records now request
      rw [List.filter_cons_of_pos (by simpa using hsweep), Ledger.serveAll, Ledger.serveAll,
        keyAnswers_cons, keyAnswers_cons, ih hrecords hnow]
      by_cases hasks : request.asksForKey
      · rw [if_pos hasks, if_pos hasks, hanswer hasks]
      · rw [if_neg hasks, if_neg hasks]

/-- A cache answers as its ledger, whatever it is asked and however its clock moves forward. So it
refuses a key exactly while it finds it, and without the sweeps among its requests insertions and
lookups get the same answers. -/
theorem serveAll_eq_ledger (timespan now : Nat) (requests : List (Request K V)) :
    (Clocked.start timespan now).serveAll requests
        = (Ledger.start now).serveAll timespan requests ∧
      (∀ key value,
        let s := (Clocked.start timespan now).after requests
        (s.cache.add s.now key value).2 = !s.cache.has s.now key) ∧
      keyAnswers (requests.filter fun request => !request.isSweep)
          ((Clocked.start timespan now).serveAll (requests.filter fun request => !request.isSweep))
        = keyAnswers requests ((Clocked.start timespan now).serveAll requests) := by
  have hagrees := agrees_start (K := K) (V := V) timespan now
  refine ⟨hagrees.serveAll requests, fun key value => ?_, ?_⟩
  · obtain ⟨l', hafter⟩ := hagrees.after requests
    exact hafter.keeps.add_eq_not_has key value
  · rw [hagrees.serveAll, hagrees.serveAll]
    exact Ledger.keyAnswers_filter timespan requests rfl rfl

end ChainWatch.Cache
