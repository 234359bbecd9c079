import ChainWatch.Proofs.Storage.Calls
import Mathlib.Logic.Relation

/-!
# Histories of calls

Calls begin one after the other and go on in any order, each step performed or refused. A history
remembers every call and the steps that it has taken; a call that has ended stays as it is.
-/

namespace ChainWatch.Storage

open FileTree Program

/-- The next step of a program. -/
def Program.action? {α : Type} : Program α → Option Action
  | .done _ => none
  | .step action _ => some action

/-- A call that has begun: what is left of it, and the steps that it has taken, each with the tree
that it found. -/
structure Begun where
  call : Call
  left : Program Answer
  taken : List (FileTree × Action)

/-- A call after its next step, with `left` yet to do. -/
def Begun.next (b : Begun) (t : FileTree) (left : Program Answer) : Begun :=
  ⟨b.call, left, b.taken ++ b.left.action?.toList.map (t, ·)⟩

/-- The files, and all calls so far in the order in which they began. -/
structure History where
  tree : FileTree
  calls : List Begun

/-- A call begins, or one that has begun takes its next step. The system may refuse the step, but
then it does not answer that something is there already. -/
inductive Store.Goes (s : Store) (h : History) : History → Prop
  | call (c : Call) : Goes s h ⟨h.tree, h.calls ++ [⟨c, c.program s, []⟩]⟩
  | performed {i : Nat} {b : Begun} : h.calls[i]? = some b →
    Goes s h ⟨(b.left.runSteps 1 h.tree).1,
      h.calls.set i (b.next h.tree (b.left.runSteps 1 h.tree).2)⟩
  | refused {i : Nat} {b : Begun} {cause : OsError} {left : Program Answer} :
    h.calls[i]? = some b → cause ≠ .alreadyExists → b.left.refuse cause = some left →
      Goes s h ⟨h.tree, h.calls.set i (b.next h.tree left)⟩

/-- From one history to a later one. -/
abbrev Store.Runs (s : Store) : History → History → Prop := Relation.ReflTransGen s.Goes

section

variable {s : Store}

theorem Begun.next_of_done {b : Begun} {outcome : Outcome Answer} (h : b.left = .done outcome)
    (t : FileTree) : b.next t (.done outcome) = b := by
  rw [Begun.next, h]
  simp only [Program.action?, Option.toList_none, List.map_nil, List.append_nil, ← h]

/-- A call that has ended stays as it is. -/
theorem Store.Goes.ended {h h' : History} (hgoes : s.Goes h h') {i : Nat} {b : Begun}
    {outcome : Outcome Answer} (hb : h.calls[i]? = some b) (hdone : b.left = .done outcome) :
    h'.calls[i]? = some b := by
  have hlength := (List.getElem?_eq_some_iff.mp hb).1
  cases hgoes with
  | call c => rw [List.getElem?_append_left hlength, hb]
  | @performed j b' hb' =>
    by_cases hij : j = i
    · obtain rfl : b' = b := Option.some.inj (hb'.symm.trans (hij ▸ hb))
      rw [hij, List.getElem?_set_self hlength, hdone, runSteps_done, Begun.next_of_done hdone]
    · rw [List.getElem?_set_ne hij, hb]
  | @refused j b' cause left hb' _ hrefuse =>
    by_cases hij : j = i
    · obtain rfl : b' = b := Option.some.inj (hb'.symm.trans (hij ▸ hb))
      rw [hdone] at hrefuse
      exact absurd hrefuse nofun
    · rw [List.getElem?_set_ne hij, hb]

theorem Store.Runs.ended {h h' : History} (hruns : s.Runs h h') {i : Nat} {b : Begun}
    {outcome : Outcome Answer} (hb : h.calls[i]? = some b) (hdone : b.left = .done outcome) :
    h'.calls[i]? = some b := by
  induction hruns with
  | refl => exact hb
  | tail _ hgoes ih => exact hgoes.ended ih hdone

/-- A call may take several steps in turn. -/
theorem Store.Runs.runSteps (count : Nat) {h : History} {i : Nat} {b : Begun}
    (hb : h.calls[i]? = some b) :
    ∃ taken, s.Runs h ⟨(b.left.runSteps count h.tree).1,
      h.calls.set i ⟨b.call, (b.left.runSteps count h.tree).2, taken⟩⟩ := by
  induction count generalizing h b with
  | zero =>
    obtain ⟨hi, hget⟩ := List.getElem?_eq_some_iff.mp hb
    refine ⟨b.taken, ?_⟩
    show s.Runs h ⟨h.tree, h.calls.set i b⟩
    rw [← hget, List.set_getElem_self]
  | succ count ih =>
    have hi := (List.getElem?_eq_some_iff.mp hb).1
    obtain ⟨taken, hruns⟩ := ih (h := ⟨(b.left.runSteps 1 h.tree).1,
      h.calls.set i (b.next h.tree (b.left.runSteps 1 h.tree).2)⟩) (List.getElem?_set_self hi)
    rw [List.set_set] at hruns
    rw [runSteps_succ]
    exact ⟨taken, (Relation.ReflTransGen.single (.performed hb)).trans hruns⟩

end

end ChainWatch.Storage
