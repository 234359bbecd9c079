import ChainWatch.Proofs.HeadFeed.Forwarding

/-!
# Listening as a feed

Somebody who listens to a stream of heads for a while takes part in a feed: whatever a session does
on the way are moves of the feed (`Session.leads_wait`, `Session.leads_listen`), so that a report
tells what was received in one of its runs and how the forwarder ended there (`subscribe_run`).
-/

namespace ChainWatch.HeadFeed

/-- A feed as far as a session has come. -/
def Feed.seenIn (f : Feed) (s : Session) : Feed :=
  { f with forwarder := s.forwarder, notices := s.stream.items.map Item.head, ends := s.stream.ends }

namespace Session

open Feed

variable {f : Feed} {s s' s'' : Session}

/-- A session leads to another one by moves of a feed. -/
def Leads (f : Feed) (s s' : Session) : Prop :=
  ∃ moves, (f.seenIn s).run moves = f.seenIn s'

theorem Leads.refl (f : Feed) (s : Session) : Leads f s s := ⟨[], rfl⟩

theorem Leads.trans (h : Leads f s s') (h' : Leads f s' s'') : Leads f s s'' := by
  obtain ⟨moves, hmoves⟩ := h
  obtain ⟨more, hmore⟩ := h'
  exact ⟨moves ++ more, by rw [run_append, hmoves, hmore]⟩

theorem leads_settle (hopen : f.isOpen = true) (s : Session) :
    Leads f s { s with forwarder := s.forwarder.settle } := by
  refine ⟨[.passOn, .heed], ?_⟩
  rw [run_cons, run_cons, run_nil]
  exact if_pos hopen

/-- What a listening forwarder hears is a move, and so is an item that it cannot read. -/
theorem leads_hear (hopen : f.isOpen = true) (s : Session) {item : Item} {rest : List Item}
    (hlistening : s.forwarder.phase = .listening) (hitems : s.stream.items = item :: rest) :
    Leads f s
      { s with
        forwarder := item.head.elim s.forwarder s.forwarder.hear
        stream := { s.stream with items := rest } } := by
  refine ⟨[.hear], ?_⟩
  have hnotices : (f.seenIn s).notices = item.head :: rest.map Item.head := by
    show s.stream.items.map Item.head = _
    rw [hitems, List.map_cons]
  rw [run_cons, run_nil, Feed.step, hnotices]
  exact if_pos ⟨hopen, hlistening⟩

theorem leads_hearUpTo (hopen : f.isOpen = true) (s : Session) (time since : Nat) (items : List Item)
    (forwarder : Forwarder) :
    Leads f { s with forwarder := forwarder, stream := { s.stream with items := items } }
      { s with
        forwarder := (hearUpTo time s.stream.ends items forwarder since).2.1
        stream :=
          { s.stream with items := (hearUpTo time s.stream.ends items forwarder since).1 } } := by
  fun_induction hearUpTo time s.stream.ends items forwarder since with
  | case1 forwarder since =>
    by_cases hends : s.stream.ends = true
    · refine ⟨[.lose], ?_⟩
      rw [run_cons, run_nil, if_pos hends]
      exact if_pos ⟨hopen, rfl, hends⟩
    · rw [if_neg hends]
      exact .refl f _
  | case2 item rest forwarder since hnow head hhead ih =>
    have hheard := leads_hear hopen
      { s with forwarder := forwarder, stream := { s.stream with items := item :: rest } } hnow.1 rfl
    rw [hhead] at hheard
    exact (hheard.trans (leads_settle hopen _)).trans ih
  | case3 item rest forwarder since hnow hhead ih =>
    have hskipped := leads_hear hopen
      { s with forwarder := forwarder, stream := { s.stream with items := item :: rest } } hnow.1 rfl
    rw [hhead] at hskipped
    exact hskipped.trans ih
  | case4 => exact .refl f _

theorem leads_flow (hopen : f.isOpen = true) (s : Session) (time : Nat) :
    Leads f s (s.flow time) :=
  (leads_settle hopen s).trans (leads_hearUpTo hopen s time _ s.stream.items s.forwarder.settle)

theorem leads_waitFor (hopen : f.isOpen = true) (done : Forwarder → Bool) (deadline fuel : Nat)
    (s : Session) : Leads f s (waitFor done deadline fuel s) := by
  fun_induction waitFor done deadline fuel s with
  | case1 s => exact .refl f s
  | case2 fuel s hdone => exact .refl f s
  | case3 fuel s hdone later hlater => exact leads_flow hopen s s.now
  | case4 fuel s hdone later hlater time harrival hlt ih => exact (leads_flow hopen s s.now).trans ih
  | case5 fuel s hdone later hlater time harrival hlt => exact leads_flow hopen s s.now
  | case6 fuel s hdone later hlater harrival => exact leads_flow hopen s s.now

theorem leads_wait (hopen : f.isOpen = true) (s : Session) (done : Forwarder → Bool)
    (deadline : Nat) : Leads f s (s.wait done deadline) := by
  unfold wait
  split
  · exact .refl f s
  · exact leads_waitFor hopen done deadline _ s

/-- The receiver may go, and the subscription may be cancelled. -/
theorem leads_outside (hopen : f.isOpen = true) (s : Session) (drops cancels : Bool) :
    Leads f s
      { s with
        forwarder :=
          let forwarder := if drops then s.forwarder.dropReceiver else s.forwarder
          if cancels then forwarder.unsubscribe else forwarder } := by
  have hdrop : Leads f s
      { s with forwarder := if drops then s.forwarder.dropReceiver else s.forwarder } := by
    cases drops with
    | true => exact ⟨[.dropReceiver], rfl⟩
    | false => exact .refl f s
  refine hdrop.trans ?_
  cases cancels with
  | true => exact ⟨[.unsubscribe], if_pos hopen⟩
  | false => exact .refl f _

/-- What a session receives is received in the feed. -/
theorem leads_listen (hopen : f.isOpen = true) (s : Session) (deadline pause most : Nat) :
    ∃ moves, (f.seenIn s).run moves
      = { f with received := f.received ++ (s.listen deadline pause most).1.map Prod.fst }.seenIn
          (s.listen deadline pause most).2 := by
  induction most generalizing f s with
  | zero =>
    refine ⟨[], ?_⟩
    rw [listen, List.map_nil, List.append_nil]
    rfl
  | succ most ih =>
    obtain ⟨waiting, hwaiting⟩ :=
      leads_wait hopen s (fun f => !f.sink.isEmpty || f.hasEnded) deadline
    rw [listen]
    generalize s.wait (fun f => !f.sink.isEmpty || f.hasEnded) deadline = waited at hwaiting ⊢
    dsimp only
    cases htaken : waited.forwarder.receive? with
    | none =>
      refine ⟨waiting, ?_⟩
      rw [List.map_nil, List.append_nil]
      exact hwaiting
    | some taken =>
      obtain ⟨head, forwarder⟩ := taken
      let later : Feed := { f with received := f.received ++ [head] }
      have htake : (f.seenIn waited).step .receive
          = later.seenIn { waited with forwarder := forwarder } := Feed.step_receive htaken
      obtain ⟨sleeping, hsleeping⟩ := leads_wait (f := later) hopen
        { waited with forwarder := forwarder } (fun _ => false) (waited.now + pause)
      obtain ⟨more, hmore⟩ := ih (f := later) hopen ({ waited with forwarder := forwarder }.sleep pause)
      refine ⟨waiting ++ (.receive :: sleeping ++ more), ?_⟩
      rw [run_append, hwaiting, List.cons_append, run_cons, htake, run_append, hsleeping]
      refine hmore.trans ?_
      show Feed.seenIn { f with received := (f.received ++ [head]) ++ _ } _ = _
      rw [List.append_assoc]
      rfl

end Session

/-- A report tells what was received in a run of a feed, and how its forwarder ended if it did. -/
theorem Listener.subscribe_run (l : Listener) {reply : Node.Reply} {stream : Stream} {report : Report}
    (hreport : l.subscribe reply stream = .ok report) :
    ∃ moves,
      let feed := (Feed.start reply (stream.items.map Item.head) stream.ends l.capacity).run moves
      report.heads.map Prod.fst = feed.received ∧
        report.ending.map Prod.fst
          = if feed.forwarder.hasEnded then some feed.forwarder.error? else none := by
  cases hreply : reply.subscription with
  | error e =>
    rw [Listener.subscribe, hreply] at hreport
    cases hreport
  | ok id =>
    rw [Listener.subscribe, hreply] at hreport
    obtain rfl := Except.ok.inj hreport
    let first : Session := ⟨.start l.capacity, stream, 0, 0⟩
    let opened : Feed := { Feed.start reply (stream.items.map Item.head) stream.ends l.capacity with
      answer := some (.ok ()) }
    have hopen : opened.isOpen = true := rfl
    have hanswer : (Feed.start reply (stream.items.map Item.head) stream.ends l.capacity).step .answer
        = opened.seenIn first := (Feed.Did.opened rfl hreply).step_eq
    obtain ⟨flowing, hflowing⟩ := Session.leads_flow hopen first 0
    obtain ⟨listening, hlistening⟩ := Session.leads_listen hopen (first.flow 0) l.listen l.pause
      (l.most.getD (stream.items.length + 1))
    rw [Listener.hear]
    generalize (first.flow 0).listen l.listen l.pause (l.most.getD (stream.items.length + 1))
      = listened at hlistening ⊢
    obtain ⟨heads, s⟩ := listened
    let told : Feed := { opened with received := opened.received ++ heads.map Prod.fst }
    have hstill : told.isOpen = true := rfl
    obtain ⟨ending, hending⟩ := (Session.leads_outside hstill s l.dropsReceiver l.unsubscribes).trans
      (Session.leads_wait hstill _ Forwarder.hasEnded (s.now + l.patience))
    refine ⟨.answer :: (flowing ++ (listening ++ ending)), ?_⟩
    rw [Feed.run_cons, hanswer, Feed.run_append, hflowing, Feed.run_append, hlistening, hending]
    exact ⟨rfl, apply_ite (Option.map Prod.fst) _ _ _⟩

/-! ## What can be relied on -/

theorem subscription_error {reply : Node.Reply} {e : ChainError}
    (hreply : reply.subscription = .error e) : ∃ message, e = .rpc "eth_subscribe" message := by
  cases reply with
  | refusal code message data => exact ⟨_, (Except.error.inj hreply).symm⟩
  | lost reason => exact ⟨_, (Except.error.inj hreply).symm⟩
  | value v =>
    rw [Node.Reply.subscription, Node.Reply.read] at hreply
    split at hreply
    · cases hreply
    · exact ⟨_, (Except.error.inj hreply).symm⟩

/-- The heads that a node told arrive in order, without gap or repetition, in every order of moves.
If the receiver stays and nothing is cancelled the forwarder ends only when all of them have been
delivered and the node tells nothing more, with an error that says so, and it comes to that. It ends
without an error when a head finds the receiver gone, or when it notices, while it listens, that
it was told to stop; that the node tells nothing more is noticed while it listens, too, whether or
not the receiver is still there. A refusal is the answer of the call, and then nothing is sent.
Whoever listens for a while takes part in such a feed. -/
theorem heads_forwarded (reply : Node.Reply) (values : List Node.Value) (ends : Bool)
    (capacity : Nat) (hroom : 0 < capacity) (moves : List Move) :
    let heads := values.filterMap Node.headerOf?
    let feed := (Feed.start reply (values.map Node.headerOf?) ends capacity).run moves
    feed.received <+: heads ∧
    (Undisturbed moves → ∀ id, reply.subscription = .ok id →
      (∀ error, feed.forwarder.phase = .ended error →
        error = some .subscriptionClosed ∧ feed.received ++ feed.forwarder.sink = heads) ∧
      (feed.Quiet → feed.received = heads ∧ feed.answer = some (.ok ()) ∧
        (ends = true → feed.forwarder.phase = .ended (some .subscriptionClosed)))) ∧
    (∃ more, Undisturbed more ∧ (feed.run more).Quiet) ∧
    (∀ move, move.isOutside = false → feed.step move = feed ∨ (feed.step move).work < feed.work) ∧
    (feed.forwarder.hasEnded = false → ∀ move error,
      (feed.step move).forwarder.phase = .ended error ↔ feed.EndsBy move error) ∧
    (feed.Quiet → feed.forwarder.hasEnded = true ∨
      feed.notices = [] ∧ ends = false ∧ feed.forwarder.cancelled = false) ∧
    (∀ e, reply.subscription = .error e →
      (∃ message, e = .rpc "eth_subscribe" message) ∧
      (∀ answer, feed.answer = some answer → answer = .error e) ∧
      feed.received = [] ∧ feed.forwarder.sink = []) ∧
    ∀ (l : Listener) (items : List Item) report, items.map Item.head = values.map Node.headerOf? →
      l.capacity = capacity → l.subscribe reply ⟨items, ends⟩ = .ok report →
        ∃ moves,
          let feed := (Feed.start reply (values.map Node.headerOf?) ends capacity).run moves
          report.heads.map Prod.fst = feed.received ∧
            report.ending.map Prod.fst
              = if feed.forwarder.hasEnded then some feed.forwarder.error? else none := by
  intro heads feed
  have hsound : feed.Sound heads := by
    have hstart := Feed.Sound.start reply (values.map Node.headerOf?) ends capacity
    rw [List.filterMap_map, Function.id_comp] at hstart
    exact hstart.run moves
  obtain ⟨hcapacity, hreply, hends⟩ :=
    (Feed.start reply (values.map Node.headerOf?) ends capacity).same_run moves
  have hfeedRoom : 0 < feed.forwarder.capacity := hcapacity ▸ hroom
  have hfeedReply : feed.reply = reply := hreply
  have hfeedEnds : feed.ends = ends := hends
  refine ⟨hsound.received_prefix, fun hmoves id hid => ?_, feed.exists_quiet,
    fun move hinside => feed.work_step hinside,
    fun hrunning move error => Feed.ended_step_iff hrunning move error, fun hquiet => ?_,
    fun e he => ?_, ?_⟩
  · obtain ⟨hhere, hkept⟩ := Feed.alone_run
      (f := Feed.start reply (values.map Node.headerOf?) ends capacity) hmoves rfl rfl
    rw [← hfeedReply] at hid
    refine ⟨fun error hended => hsound.ending hid hhere hkept hended, fun hquiet => ?_⟩
    rw [← hfeedEnds]
    exact hsound.delivered hid hhere hkept hfeedRoom hquiet
  · rw [← hfeedEnds]
    exact hquiet.hasEnded_or hfeedRoom hsound
  · refine ⟨subscription_error he, ?_⟩
    rw [← hfeedReply] at he
    exact hsound.refused he
  · rintro l items report hitems rfl hreport
    obtain ⟨taken, hreported⟩ := l.subscribe_run hreport
    rw [hitems] at hreported
    exact ⟨taken, hreported⟩

/-- A node that tells two heads. -/
def twoBlocks : List Node.Value :=
  [.object [("number", .text "0x7")], .object [("number", .text "0x8")]]

/-- A sink with room for one of them holds the second one up until the first one is received. -/
theorem heads_forwarded_two_blocks :
    let feed := (Feed.start (.value (.text "0x1")) (twoBlocks.map Node.headerOf?) true 1).run
      [.answer, .hear, .passOn, .hear, .passOn, .receive, .passOn, .lose]
    feed.forwarder.phase = .ended (some .subscriptionClosed) ∧
      feed.received = [⟨7, none, none⟩] ∧
      feed.received ++ feed.forwarder.sink = [⟨7, none, none⟩, ⟨8, none, none⟩] := by
  intro feed
  have hreply : (Node.Reply.value (.text "0x1")).subscription = .ok (Word.clamp 1) := rfl
  have hended : feed.forwarder.phase = .ended (some .subscriptionClosed) := by decide +kernel
  have hmoves : ∀ move ∈ [Move.answer, .hear, .passOn, .hear, .passOn, .receive, .passOn, .lose],
      move.isOutside = false := by decide
  have hall := (((heads_forwarded (.value (.text "0x1")) twoBlocks true 1 Nat.one_pos _).2.1
    hmoves _ hreply).1 _ hended).2
  exact ⟨hended, by decide +kernel, hall.trans (by decide +kernel)⟩

/-- Nobody notices that the receiver has gone when no head comes after it: the forwarder ends with
an error. -/
theorem absence_unnoticed :
    ((Feed.start (.value (.text "0x1")) [] true 1).run
        [.answer, .dropReceiver]).forwarder.receiverGone = true ∧
      ((Feed.start (.value (.text "0x1")) [] true 1).run
        [.answer, .dropReceiver, .lose]).forwarder.phase = .ended (some .subscriptionClosed) := by
  decide +kernel

end ChainWatch.HeadFeed
