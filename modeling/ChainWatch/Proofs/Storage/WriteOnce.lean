import ChainWatch.Proofs.Storage.Spelling
import ChainWatch.Proofs.Storage.Stages

/-!
# Copies are written once

Whatever calls are made, at the same time or one after the other, a snapshot that ends well has a
file of its own: it has the first suffix from the clock on that was free, the data of that snapshot
and nothing else, and it stays as it is for good. No two snapshots end with the same path, and a
snapshot never tries more often than its directory has files (`Store.Runs.writes_once`).
-/

namespace ChainWatch.Storage

open FileTree Program

/-- A call of a history, by its number, is this snapshot. -/
structure History.Asks (h : History) (i : Nat) (c : Snapshot) (b : Begun) : Prop where
  here : h.calls[i]? = some b
  call : b.call = c.call

/-- A call has ended with the path of a copy. -/
def Begun.Wrote (b : Begun) (path : Bytes) : Prop := b.left = .done (.ok (.written path))

/-- What a snapshot that has ended well has done in a history, and what never changes after it. -/
structure Snapshot.Kept (c : Snapshot) (s : Store) (h : History) (b : Begun) (path : Bytes)
    (free : Int) : Prop where
  path_eq : path = s.pathText (c.spot free)
  /-- The suffix was the first free one when the copy was made. -/
  first : ∃ before, (before, Action.openNew (s.path (c.spot free))) ∈ b.taken ∧
    FirstFree (s.copyAt before c.directory c.name) c.clock.toInt free
  last : free ≤ lastSuffix
  /-- One try for each suffix from the clock on, and no more than there are files. -/
  tries : (triesIn b.taken : Int) = free - c.clock.toInt + 1
  tries_le : ∃ entries, h.tree.list (s.path c.dir) = .ok entries ∧ triesIn b.taken ≤ entries.length
  content : ∀ later, s.Runs h later →
    s.copyAt later.tree c.directory c.name free = some c.pieces.flatten

/-- What holds of the snapshots of a history. -/
structure Store.WritesOnce (s : Store) (h : History) : Prop where
  kept : ∀ (i : Nat) (c : Snapshot) (b : Begun) (path : Bytes), h.Asks i c b → b.Wrote path →
    ∃ free, c.Kept s h b path free
  /-- Different snapshots end with different paths. -/
  apart : ∀ (i j : Nat) (c c' : Snapshot) (b b' : Begun) (path path' : Bytes), i ≠ j →
    h.Asks i c b → h.Asks j c' b' → b.Wrote path → b'.Wrote path' → path ≠ path'
  /-- All tries of a snapshot but one have found a file, even if it fails. -/
  bounded : ∀ (i : Nat) (c : Snapshot) (b : Begun) (entries : List (Name × Bool)), h.Asks i c b →
    h.tree.list (s.path c.dir) = .ok entries → triesIn b.taken ≤ entries.length + 1

/-- How far the snapshots of a history have come; `number` has the files of those that have made
one. No other call writes to these, or to files that are still to be made. -/
structure Orderly (s : Store) (h : History) (number : Nat → Option Nat) : Prop where
  standing : Standing s h.tree
  copying : ∀ (i : Nat) (c : Snapshot) (b : Begun), h.Asks i c b →
    Copying s h.tree c b.left b.taken (number i)
  owned : ∀ (i m : Nat), number i = some m → ∃ c b, h.Asks i c b
  apart : ∀ (i j m : Nat), number i = some m → number j = some m → i = j
  foreign : ∀ (i : Nat) (b : Begun) (m : Nat), h.calls[i]? = some b →
    (h.tree.contents.length ≤ m ∨ ∃ j, j ≠ i ∧ number j = some m) →
      b.left.Conforms (b.call.rules s (s.known (· ≠ m)))

section

variable {s : Store} {h h' : History} {number : Nat → Option Nat} {i : Nat} {b : Begun}

/-! ## One step -/

theorem Copying.fileAt {t : FileTree} {c : Snapshot} {program : Program Answer}
    {taken : List (FileTree × Action)} {m : Nat} (h : Copying s t c program taken (some m)) :
    ∃ suffix, s.FileAt t (c.spot suffix) m := by
  cases h with
  | filling _ hcopied _ => exact ⟨_, hcopied.file⟩

theorem Orderly.fileAt (hall : Orderly s h number) {m : Nat} (hm : number i = some m) :
    ∃ (c : Snapshot) (suffix : Int), s.FileAt h.tree (c.spot suffix) m := by
  obtain ⟨c, b, hasks⟩ := hall.owned i m hm
  have hcopying := hall.copying i c b hasks
  rw [hm] at hcopying
  exact ⟨c, hcopying.fileAt⟩

theorem Orderly.call (hall : Orderly s h number) (c : Call) :
    Orderly s ⟨h.tree, h.calls ++ [⟨c, c.program s, []⟩]⟩ number := by
  have hcases {i : Nat} {b : Begun}
      (hb : (h.calls ++ [⟨c, c.program s, []⟩])[i]? = some b) :
      h.calls[i]? = some b ∨ number i = none ∧ b = ⟨c, c.program s, []⟩ := by
    by_cases hi : i < h.calls.length
    · rw [List.getElem?_append_left hi] at hb
      exact .inl hb
    · refine .inr ⟨?_, ?_⟩
      · rw [Option.eq_none_iff_forall_ne_some]
        intro m hm
        obtain ⟨_, _, hasks⟩ := hall.owned i m hm
        exact hi (List.getElem?_eq_some_iff.mp hasks.here).1
      · rw [List.getElem?_append_right (Nat.le_of_not_lt hi)] at hb
        exact (List.mem_singleton.mp (List.mem_of_getElem? hb))
  refine ⟨hall.standing, fun i c' b hasks => ?_, fun i m hm => ?_, hall.apart,
    fun i b m hb hm => ?_⟩
  · rcases hcases hasks.here with hold | ⟨hnone, rfl⟩
    · exact hall.copying i c' b ⟨hold, hasks.call⟩
    · have hcall : c = c'.call := hasks.call
      rw [hnone, hcall]
      exact .start c' s h.tree
  · obtain ⟨c', b, hasks⟩ := hall.owned i m hm
    have hi := (List.getElem?_eq_some_iff.mp hasks.here).1
    exact ⟨c', b, by rw [List.getElem?_append_left hi, hasks.here], hasks.call⟩
  · rcases hcases hb with hold | ⟨-, rfl⟩
    · exact hall.foreign i b m hold hm
    · exact c.conforms s _

/-- A file that is made now has a number that no other one has. -/
theorem Orderly.fresh (hall : Orderly s h number) {made : Option Nat}
    (hmade : made = number i ∨ made = some h.tree.contents.length) {j m : Nat} (hj : j ≠ i)
    (hm : number j = some m) : made ≠ some m := by
  intro hsame
  rcases hmade with hold | hnew
  · exact hj (hall.apart j i m hm (hold.symm.trans hsame))
  · obtain ⟨c, suffix, hfile⟩ := hall.fileAt hm
    exact Nat.ne_of_lt hfile.lt (Option.some.inj (hsame.symm.trans hnew))

/-- The numbers stay apart. -/
theorem Orderly.apart_update (hall : Orderly s h number) {made : Option Nat}
    (hfresh : ∀ j m, j ≠ i → number j = some m → made ≠ some m) (j k m : Nat)
    (hj : Function.update number i made j = some m)
    (hk : Function.update number i made k = some m) : j = k := by
  by_cases hji : j = i <;> by_cases hki : k = i
  · rw [hji, hki]
  · rw [hji, Function.update_self] at hj
    rw [Function.update_of_ne hki] at hk
    exact absurd hj (hfresh k m hki hk)
  · rw [Function.update_of_ne hji] at hj
    rw [hki, Function.update_self] at hk
    exact absurd hk (hfresh j m hji hj)
  · rw [Function.update_of_ne hji] at hj
    rw [Function.update_of_ne hki] at hk
    exact hall.apart j k m hj hk

/-- One call has taken a step, and all other snapshots are as far as they were. -/
theorem Orderly.set (hall : Orderly s h number) {t' : FileTree} {b' : Begun} {made : Option Nat}
    (hb : h.calls[i]? = some b) (hcall : b'.call = b.call) (hstanding : Standing s t')
    (hlength : h.tree.contents.length ≤ t'.contents.length)
    (hown : ∀ c : Snapshot, b.call = c.call → Copying s t' c b'.left b'.taken made)
    (hothers : ∀ (j : Nat) (c : Snapshot) (other : Begun), j ≠ i → h.Asks j c other →
      Copying s t' c other.left other.taken (number j))
    (hmade : made = number i ∨
      (∃ c : Snapshot, b.call = c.call) ∧ made = some h.tree.contents.length)
    (hconforms : ∀ m, (t'.contents.length ≤ m ∨ ∃ j, j ≠ i ∧ number j = some m) →
      b'.left.Conforms (b'.call.rules s (s.known (· ≠ m)))) :
    Orderly s ⟨t', h.calls.set i b'⟩ (Function.update number i made) := by
  have hi := (List.getElem?_eq_some_iff.mp hb).1
  have hself : (h.calls.set i b')[i]? = some b' := List.getElem?_set_self hi
  have hother {j : Nat} (hj : j ≠ i) : (h.calls.set i b')[j]? = h.calls[j]? :=
    List.getElem?_set_ne (Ne.symm hj)
  refine ⟨hstanding, fun j c other hasks => ?_, fun j m hm => ?_,
    hall.apart_update fun j m => hall.fresh (hmade.imp_right And.right),
    fun j other m hget hm => ?_⟩
  · by_cases hj : j = i
    · subst hj
      obtain rfl : b' = other := Option.some.inj (hself.symm.trans hasks.here)
      rw [Function.update_self]
      exact hown c (hcall.symm.trans hasks.call)
    · rw [Function.update_of_ne hj]
      exact hothers j c other hj ⟨(hother hj).symm.trans hasks.here, hasks.call⟩
  · by_cases hj : j = i
    · subst hj
      rw [Function.update_self] at hm
      obtain ⟨c, hc⟩ : ∃ c : Snapshot, b.call = c.call := by
        rcases hmade with hold | ⟨hsnapshot, -⟩
        · obtain ⟨c, b₀, hasks⟩ := hall.owned j m (hold.symm.trans hm)
          obtain rfl : b = b₀ := Option.some.inj (hb.symm.trans hasks.here)
          exact ⟨c, hasks.call⟩
        · exact hsnapshot
      exact ⟨c, b', hself, hcall.trans hc⟩
    · rw [Function.update_of_ne hj] at hm
      obtain ⟨c, other, hasks⟩ := hall.owned j m hm
      exact ⟨c, other, (hother hj).trans hasks.here, hasks.call⟩
  · by_cases hj : j = i
    · subst hj
      obtain rfl : b' = other := Option.some.inj (hself.symm.trans hget)
      refine hconforms m (hm.imp_right ?_)
      rintro ⟨k, hk, hkm⟩
      exact ⟨k, hk, (Function.update_of_ne hk _ _).symm.trans hkm⟩
    · refine hall.foreign j other m ((hother hj).symm.trans hget) ?_
      rcases hm with hlater | ⟨k, hk, hkm⟩
      · exact .inl (Nat.le_trans hlength hlater)
      · by_cases hki : k = i
        · subst hki
          rw [Function.update_self] at hkm
          rcases hmade with hold | ⟨-, hnew⟩
          · exact .inr ⟨k, hk, hold.symm.trans hkm⟩
          · exact .inl (Nat.le_of_eq (Option.some.inj (hnew.symm.trans hkm)))
        · exact .inr ⟨k, hk, (Function.update_of_ne hki _ _).symm.trans hkm⟩

theorem Orderly.refused (hall : Orderly s h number) {cause : OsError} {left : Program Answer}
    (hb : h.calls[i]? = some b) (hcause : cause ≠ .alreadyExists)
    (hrefuse : b.left.refuse cause = some left) :
    Orderly s ⟨h.tree, h.calls.set i (b.next h.tree left)⟩
      (Function.update number i (number i)) :=
  hall.set hb rfl hall.standing (Nat.le_refl _)
    (fun c hc => (hall.copying i c b ⟨hb, hc⟩).refused hcause hrefuse)
    (fun j c other _ hasks => hall.copying j c other hasks) (.inl rfl)
    fun m hm => (hall.foreign i b m hb hm).refuse hrefuse

theorem Snapshot.call_injective {c c' : Snapshot} (h : c.call = c'.call) : c = c' := by
  obtain ⟨hclock, hpieces, hdirectory, hname⟩ := Call.snapshot.inj h
  cases c
  cases c'
  simp_all

theorem Orderly.performed (hall : Orderly s h number) (hb : h.calls[i]? = some b) :
    ∃ number', Orderly s ⟨(b.left.runSteps 1 h.tree).1,
      h.calls.set i (b.next h.tree (b.left.runSteps 1 h.tree).2)⟩ number' := by
  cases hleft : b.left with
  | done outcome =>
    obtain ⟨hi, hget⟩ := List.getElem?_eq_some_iff.mp hb
    rw [runSteps_done, Begun.next_of_done hleft, ← hget, List.set_getElem_self]
    exact ⟨number, hall⟩
  | step a next =>
    have hturn : (Program.step a next).runSteps 1 h.tree
        = ((a.perform h.tree).1, next (a.perform h.tree).2) := rfl
    have hstep {m : Nat} (hm : h.tree.contents.length ≤ m ∨ ∃ j, j ≠ i ∧ number j = some m) :=
      hleft ▸ hall.foreign i b m hb hm
    have hallowed {m : Nat} (hm : h.tree.contents.length ≤ m ∨ ∃ j, j ≠ i ∧ number j = some m) :
        b.call.Takes s (s.known (· ≠ m)) a := by
      cases hstep hm with
      | step hallowed _ => exact hallowed
    have htakes : s.Takes a := (hallowed (.inl (Nat.le_refl _))).takes
    have hlength := length_contents_perform h.tree a
    obtain ⟨made, hown, hmade⟩ : ∃ made,
        (∀ c : Snapshot, b.call = c.call → Copying s (a.perform h.tree).1 c
          (next (a.perform h.tree).2) (b.next h.tree (next (a.perform h.tree).2)).taken made) ∧
        (made = number i ∨
          (∃ c : Snapshot, b.call = c.call) ∧ made = some h.tree.contents.length) := by
      by_cases hsnapshot : ∃ c : Snapshot, b.call = c.call
      · obtain ⟨c, hc⟩ := hsnapshot
        obtain ⟨made, hcopying, hmade⟩ := (hall.copying i c b ⟨hb, hc⟩).performed hall.standing
        rw [congrArg (Program.runSteps 1 · h.tree) hleft, hturn] at hcopying
        refine ⟨made, fun c' hc' => ?_, hmade.imp_right fun hnew => ⟨⟨c, hc⟩, hnew.2⟩⟩
        obtain rfl := Snapshot.call_injective (hc.symm.trans hc')
        exact hcopying
      · exact ⟨number i, fun c hc => absurd ⟨c, hc⟩ hsnapshot, .inl rfl⟩
    refine ⟨_, hall.set hb rfl ((Standing.keeps s).perform hall.standing htakes) hlength hown
      (fun j c other hj hasks => ?_) hmade fun m hm => ?_⟩
    · -- what other snapshots have made is not written to
      refine (hall.copying j c other hasks).others hall.standing htakes fun m hm => ?_
      obtain ⟨c', suffix, hfile⟩ := hall.fileAt hm
      exact hfile.content_perform (hallowed (.inr ⟨j, hj, hm⟩))
    · have hearlier := hm.imp_left (Nat.le_trans hlength)
      have hknown : (s.known (· ≠ m)).Credible a (a.perform h.tree).2 := by
        refine hall.standing.credible_known (hallowed hearlier) (hm.imp_right ?_)
        rintro ⟨j, -, hj⟩
        obtain ⟨c, suffix, hfile⟩ := hall.fileAt hj
        exact ⟨c.directory, _, hfile⟩
      cases hstep hearlier with
      | step _ hnext => exact hnext _ hknown

/-! ## Every history -/

theorem Orderly.goes (hall : Orderly s h number) (hgoes : s.Goes h h') :
    ∃ number', Orderly s h' number' := by
  cases hgoes with
  | call c => exact ⟨number, hall.call c⟩
  | performed hb => exact hall.performed hb
  | refused hb hcause hrefuse => exact ⟨_, hall.refused hb hcause hrefuse⟩

theorem Orderly.runs (hall : Orderly s h number) (hruns : s.Runs h h') :
    ∃ number', Orderly s h' number' := by
  induction hruns with
  | refl => exact ⟨number, hall⟩
  | tail _ hgoes ih =>
    obtain ⟨number', hlater⟩ := ih
    exact hlater.goes hgoes

theorem orderly_start {t : FileTree} (hstanding : Standing s t) :
    Orderly s ⟨t, []⟩ fun _ => none where
  standing := hstanding
  copying i c b hasks := absurd hasks.here (by simp)
  owned i m hm := absurd hm (by simp)
  apart i j m hm := absurd hm (by simp)
  foreign i b m hb := absurd hb (by simp)

/-- What the end of a snapshot says of its copy, then and later. -/
theorem Orderly.written (hall : Orderly s h number) {c : Snapshot} {path : Bytes}
    (hasks : h.Asks i c b) (hwrote : b.Wrote path) :
    ∃ suffix m, number i = some m ∧ path = s.pathText (c.spot suffix) ∧ c.Named ∧
      c.Copied s h.tree b.taken suffix m ∧ h.tree.content m = c.pieces.flatten := by
  have hcopying := hall.copying i c b hasks
  rw [Begun.Wrote] at hwrote
  rw [hwrote] at hcopying
  exact hcopying.of_written

theorem Snapshot.path_injective {c c' : Snapshot} {suffix suffix' : Int} (hnamed : c.Named)
    (hnamed' : c'.Named) (h : s.pathText (c.spot suffix) = s.pathText (c'.spot suffix')) :
    c.spot suffix = c'.spot suffix' := by
  refine pathText_injective ?_ ?_ rfl h
  · simp [Area.entry, entry_of_acceptable hnamed.1, entry_snapshotName hnamed.2]
  · simp [Area.entry, entry_of_acceptable hnamed'.1, entry_snapshotName hnamed'.2]

theorem Orderly.kept (hall : Orderly s h number) {c : Snapshot} {path : Bytes}
    (hasks : h.Asks i c b) (hwrote : b.Wrote path) : ∃ free, c.Kept s h b path free := by
  obtain ⟨suffix, m, hm, hpath, hnamed, hcopied, hdata⟩ := hall.written hasks hwrote
  refine ⟨suffix, hpath, hcopied.first, hcopied.last, hcopied.tries,
    hcopied.tries_le hall.standing hnamed, fun later hruns => ?_⟩
  -- the call is the same in every later history, and so is its copy
  obtain ⟨number', hlater⟩ := hall.runs hruns
  have hasks' : later.Asks i c b := ⟨hruns.ended hasks.here hwrote, hasks.call⟩
  obtain ⟨suffix', m', hm', hpath', -, hcopied', hdata'⟩ := hlater.written hasks' hwrote
  have hspot := Snapshot.path_injective hnamed hnamed (hpath.symm.trans hpath')
  show s.contentAt later.tree (c.spot suffix) = _
  rw [hspot, hcopied'.file.contentAt, hdata']

theorem Orderly.distinct (hall : Orderly s h number) {j : Nat} {c c' : Snapshot} {b' : Begun}
    {path path' : Bytes} (hij : i ≠ j) (hasks : h.Asks i c b) (hasks' : h.Asks j c' b')
    (hwrote : b.Wrote path) (hwrote' : b'.Wrote path') : path ≠ path' := by
  obtain ⟨suffix, m, hm, hpath, hnamed, hcopied, -⟩ := hall.written hasks hwrote
  obtain ⟨suffix', m', hm', hpath', hnamed', hcopied', -⟩ := hall.written hasks' hwrote'
  rintro rfl
  -- with one path they would have made one file
  have hspot := Snapshot.path_injective hnamed hnamed' (hpath.symm.trans hpath')
  have hfile := hcopied.file
  rw [hspot] at hfile
  have hsame : m = m' := hfile.unique hcopied'.file
  exact hij (hall.apart i j m hm (hsame ▸ hm'))

/-- Whatever calls a store has served, copies are written once. -/
theorem Store.Runs.writes_once {t : FileTree} (hproper : t.Proper)
    (hstart : s.Empty t ∨ s.Missing t) (hruns : s.Runs ⟨t, []⟩ h) : s.WritesOnce h := by
  obtain ⟨number, hall⟩ := (orderly_start (Standing.start hproper hstart)).runs hruns
  exact {
    kept := fun i c b path hasks hwrote => hall.kept hasks hwrote
    apart := fun i j c c' b b' path path' hij hasks hasks' hwrote hwrote' =>
      hall.distinct hij hasks hasks' hwrote hwrote'
    bounded := fun i c b entries hasks hlist =>
      (hall.copying i c b hasks).tries_le hall.standing hlist }

end

/-! ## Two copies at one time -/

/-- Two snapshots of one record with the same clock. -/
def earlyCopy : Snapshot := ⟨5, [[65, 65]], "books", "a"⟩

def lateCopy : Snapshot := ⟨5, [[66]], "books", "a"⟩

/-- The first one has its directory and is about to make its copy. -/
def copyUnderway : FileTree × Program Answer :=
  (earlyCopy.call.program dataStore).runSteps 5 .empty

/-- The second one is made meanwhile. -/
def copyOvertaking : FileTree × Program Answer :=
  (lateCopy.call.program dataStore).runSteps 7 copyUnderway.1

/-- The one that comes second gets the clock's suffix, and the first one the next. -/
theorem copies_made_at_one_time :
    ∃ (h : History) (b b' : Begun), dataStore.Runs ⟨.empty, []⟩ h ∧ dataStore.WritesOnce h ∧
      h.Asks 0 earlyCopy b ∧ b.Wrote (dataStore.pathText (earlyCopy.spot 6)) ∧
      h.Asks 1 lateCopy b' ∧ b'.Wrote (dataStore.pathText (lateCopy.spot 5)) := by
  have hlate : copyOvertaking.2
      = .done (.ok (.written (dataStore.pathText (lateCopy.spot 5)))) := by cbv
  have hearly : (copyUnderway.2.runSteps 3 copyOvertaking.1).2
      = .done (.ok (.written (dataStore.pathText (earlyCopy.spot 6)))) := by cbv
  let begun : History := ⟨.empty, [⟨earlyCopy.call, earlyCopy.call.program dataStore, []⟩,
    ⟨lateCopy.call, lateCopy.call.program dataStore, []⟩]⟩
  have hbegun : dataStore.Runs ⟨.empty, []⟩ begun :=
    (Relation.ReflTransGen.single (.call earlyCopy.call)).tail (.call lateCopy.call)
  obtain ⟨taken, hunderway⟩ := Store.Runs.runSteps (s := dataStore) 5 (h := begun) (i := 0) rfl
  obtain ⟨taken', hovertaking⟩ := Store.Runs.runSteps (s := dataStore) 7
    (h := ⟨copyUnderway.1, [⟨earlyCopy.call, copyUnderway.2, taken⟩,
      ⟨lateCopy.call, lateCopy.call.program dataStore, []⟩]⟩) (i := 1) rfl
  obtain ⟨taken'', hdone⟩ := Store.Runs.runSteps (s := dataStore) 3
    (h := ⟨copyOvertaking.1, [⟨earlyCopy.call, copyUnderway.2, taken⟩,
      ⟨lateCopy.call, copyOvertaking.2, taken'⟩]⟩) (i := 0) rfl
  have hruns := ((hbegun.trans hunderway).trans hovertaking).trans hdone
  exact ⟨_, _, _, hruns, Store.Runs.writes_once proper_empty (.inr missing_dataStore) hruns,
    ⟨rfl, rfl⟩, hearly, ⟨rfl, rfl⟩, hlate⟩

end ChainWatch.Storage
