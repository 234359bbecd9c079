import ChainWatch.Proofs.Storage.Conduct
import ChainWatch.Proofs.Storage.Conformance

/-!
# Calls keep to their store

`Program.Within` says of a program that it takes no steps but those of a store, as long as what is
listed in the store's directories has names that the store gave. Every call to a store is such a
program: its own steps are steps of the store (`Call.Takes.takes`).
-/

namespace ChainWatch.Storage

open FileTree Program

/-- Answers that a store may get: what is listed in one of its directories has a name that it
gave. -/
def Store.Credible (s : Store) : (a : Action) → a.Reply → Prop
  | .list p, .ok entries => ∀ (area : Area) (directory : String), acceptable directory = true →
      p = s.path [area.name, Text.utf8 directory] → ∀ entry ∈ entries, Given area entry.1
  | _, _ => True

section

variable {s : Store}

theorem credible_of_refusal {a : Action} {cause : OsError} {reply : a.Reply}
    (h : a.refusal cause = some reply) : s.Credible a reply := by
  cases a with
  | list p =>
    obtain rfl := Option.some.inj h
    trivial
  | _ => trivial

/-- What the calls to a store may do, each in its turn. -/
def Store.rules (s : Store) : Rules where
  allowed := s.Takes
  credible := s.Credible
  errors _ := True
  refused := credible_of_refusal

/-- A program takes steps of the store only, whatever credible answers it gets. -/
abbrev Program.Within (s : Store) {α : Type} (program : Program α) : Prop :=
  program.Conforms s.rules

/-- A property of trees that every step of a store keeps, and that makes the answers credible. -/
abbrev Store.Keeps (s : Store) (P : FileTree → Prop) : Prop := s.rules.Keeps P

theorem Housed.keeps (s : Store) (base : FileTree) (q : Path) : s.Keeps (Housed s base q) where
  perform h ha := h.perform ha
  credible {t a} h _ := by
    cases a with
    | list p =>
      show s.Credible (.list p) (t.list p)
      cases hlist : t.list p with
      | error cause => trivial
      | ok entries =>
        intro area directory hd hp
        exact h.given_of_list hd (hp ▸ hlist)
    | _ => trivial

/-! ## The calls -/

theorem Prepares.within {p : Path} {program : Program Unit} (h : Prepares p program) {area : Area}
    {directory : String} (hd : acceptable directory = true)
    (hp : p <+: s.path [area.name, Text.utf8 directory]) : program.Within s := by
  induction h with
  | done outcome => exact .done fun _ _ => trivial
  | makeDir hx _ ih => exact .step (.makeDir hd (hx.trans hp)) fun reply _ => ih reply
  | isDir _ ih => exact .step (.isDir _) fun reply _ => ih reply

/-- What a store may rely on: the names that it gave are listed, and any file may be opened. -/
def Store.known (s : Store) (opened : Nat → Prop) : Answers where
  listed p file := ∀ (area : Area) (directory : String), acceptable directory = true →
    p = s.path [area.name, Text.utf8 directory] → Given area file
  opened := opened

theorem Store.Credible.known {a : Action} {reply : a.Reply} (h : s.Credible a reply) :
    (s.known fun _ => True).Credible a reply := by
  cases a with
  | list p =>
    cases reply with
    | error _ => trivial
    | ok entries => exact fun entry hentry area directory hd hp => h area directory hd hp entry hentry
  | openEmptied _ | openNew _ => cases reply <;> trivial
  | _ => trivial

/-- The steps of a call are steps of the store. -/
theorem Call.Takes.takes {c : Call} {a : Action} {opened : Nat → Prop}
    (h : c.Takes s (s.known opened) a) : s.Takes a := by
  cases h with
  | asks hasks =>
    cases hasks with
    | isDir p => exact .isDir p
    | present p => exact .present p
    | list p => exact .list p
    | read p => exact .read p
  | saveDirectory hd hx => exact .makeDir hd hx
  | saveOpen hd hn => exact .openEmptied hd (.temporary (by decide) hn)
  | saveWrite offset piece _ => exact .writeAt _ offset piece
  | savePlace hd hn =>
    exact .renameFile hd (by decide) (.temporary (by decide) hn) (.record (by decide) hn)
  | delete hd hn => exact .unlink hd (.record (by decide) hn)
  | @archiveArea directory x hd hx =>
    have hway : s.path [Area.archive.name] <+: s.path [Area.archive.name, Text.utf8 directory] :=
      ⟨[Text.utf8 directory], by simp [Store.path]⟩
    exact .makeDir hd (hx.trans hway)
  | archiveFile hd hlisted =>
    have hfile := hlisted .current _ hd rfl
    exact .renameFile hd (by decide) hfile hfile.archived
  | archiveDirectory hd => exact .renameDirectory hd
  | archiveEnd hd => exact .removeDir hd
  | snapshotDirectory hd hx => exact .makeDir hd hx
  | snapshotOpen suffix hd hn => exact .openNew hd (.copy suffix hn)
  | snapshotWrite offset piece _ => exact .writeAt _ offset piece

theorem Program.Conforms.within {α : Type} {program : Program α} {c : Call}
    (h : program.Conforms (c.rules s (s.known fun _ => True))) : program.Within s :=
  h.mono (fun _ => Call.Takes.takes) (fun _ _ => Store.Credible.known) fun _ _ => trivial

theorem within_save (s : Store) (pieces : List Bytes) (directory name : String) :
    (s.save pieces directory name).Within s := (conforms_save s _ pieces directory name).within

theorem Call.within (c : Call) (s : Store) : (c.program s).Within s := (c.conforms s _).within

end

end ChainWatch.Storage
