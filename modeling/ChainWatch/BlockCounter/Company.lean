import ChainWatch.BlockCounter.Session

/-!
# Who keeps a poller going

A poller goes on for those who can see the height: the counter, everybody who watches it, and the
errands that were sent to wait for a height in the background. An errand ends when it can be told
something. It is not called back when whoever sent it does not listen any more.

All of them take their turns in any order, and a poller that is due while nobody is left may look
at either first. What can be done at one moment is done before time goes on.
-/

namespace ChainWatch.BlockCounter

/-- Somebody sent to wait for a height. -/
structure Errand where
  target : UInt64
  /-- Has it been told something? -/
  done : Bool
  /-- Does whoever sent it still listen? -/
  awaited : Bool
deriving DecidableEq

/-- Lets an errand look at the height. -/
def Errand.look (e : Errand) (h : Height) : Errand :=
  { e with done := e.done || (verdict? h e.target).isSome }

/-- A poller and those who can see its height. -/
structure Company where
  heights : Nat → Node.Timed UInt64
  poller : Poller
  now : Nat
  /-- Is the counter still there? -/
  held : Bool
  watches : Nat
  errands : List Errand

/-- What may happen in a company. -/
inductive Turn where
  /-- The poller's turn. Does it look whether anybody is left before it looks at the time? -/
  | poll (looks : Bool)
  | errand (i : Nat)
  /-- Time goes on. -/
  | pass (time : Nat)
  | dropCounter
  | watch
  | dropWatch
  /-- Somebody is sent to wait for a height. -/
  | send (target : UInt64)
  /-- Whoever sent an errand does not listen any more. -/
  | ignore (i : Nat)
deriving DecidableEq

namespace Company

/-- Nobody is left who can see the height. -/
def deserted (c : Company) : Bool := !c.held && c.watches = 0 && c.errands.all Errand.done

/-- Nobody is left who wants it. -/
def Abandoned (c : Company) : Prop :=
  c.held = false ∧ c.watches = 0 ∧ ∀ e ∈ c.errands, e.awaited = false

instance (c : Company) : Decidable c.Abandoned := inferInstanceAs (Decidable (_ ∧ _ ∧ _))

/-- There is nothing to do at this moment. -/
def still (c : Company) : Bool :=
  (c.poller.act c.heights c.deserted c.now).isNone && c.errands.all fun e => e.look c.poller.height = e

/-- A step of a company; nothing if it is not possible. -/
def step (c : Company) : Turn → Company
  | .poll looks =>
    match c.poller.act c.heights (looks && c.deserted) c.now with
    | some next => { c with poller := next }
    | none => c
  | .errand i => { c with errands := c.errands.modify i fun e => e.look c.poller.height }
  | .pass time =>
    if c.still ∧ c.now ≤ time ∧ ∀ next ∈ c.poller.nextTime?, time ≤ next then { c with now := time }
    else c
  | .dropCounter => { c with held := false }
  | .watch => if c.held ∨ 0 < c.watches then { c with watches := c.watches + 1 } else c
  | .dropWatch => { c with watches := c.watches - 1 }
  | .send target =>
    if c.held then { c with errands := c.errands ++ [⟨target, false, true⟩] } else c
  | .ignore i => { c with errands := c.errands.modify i fun e => { e with awaited := false } }

/-- The company after a list of turns. -/
def run (c : Company) (turns : List Turn) : Company := turns.foldl step c

/-- The company in a session in which everybody listens to whom they sent. -/
def ofSession (s : Session) : Company :=
  ⟨s.heights, s.poller, s.now, s.held, s.watches.length,
    s.waiters.map fun w => ⟨w.target, w.verdict.isSome, true⟩⟩

end Company

end ChainWatch.BlockCounter
