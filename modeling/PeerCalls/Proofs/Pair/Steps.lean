import PeerCalls.Proofs.Pair.Basic

/-!
# What can happen between two peers

Between two peers there are no servers and no clients, so little can happen: a table
of the network changes and nothing else, a channel takes a turn, an execution begins
or ends, or an errand goes on. Statements about all that happens between two peers
look at these steps.
-/

namespace PeerCalls

/-- The calls of an outbox stay as they are, and no waiter gets a reply. -/
structure OutboxPlace.KeepsCalls (before after : OutboxPlace) : Prop where
  queue : after.outbox.queue = before.outbox.queue
  waiters : before.outbox.waiters.Changes none after.outbox.waiters

theorem OutboxPlace.KeepsCalls.refl (place : OutboxPlace) : place.KeepsCalls place :=
  ⟨rfl, .refl _⟩

theorem OutboxPlace.grows_modifyOutbox {network : Network} {place : Nat} {entry : OutboxPlace}
    {outbox : Outbox} (found : network.outboxes[place]? = some entry)
    (keeps : entry.KeepsCalls { entry with outbox }) :
    Grows OutboxPlace.KeepsCalls (fun _ => False) network.outboxes
      (network.modifyOutbox place fun _ => outbox).outboxes := by
  have changes : ∀ old, network.outboxes[place]? = some old →
      old.KeepsCalls { old with outbox } := by
    intro old foundOld
    cases found.symm.trans foundOld
    exact keeps
  exact Grows.modify OutboxPlace.KeepsCalls.refl changes

/-- Nothing is on its way on a link. -/
def Link.IsEmpty (link : Link) : Prop := ∀ side, (link.atSide side).inbox = []

/-- What a run may return without having got a reply. -/
def Run.Fails (run : Run) (reply : Reply) : Prop :=
  ∃ kind message, reply = Reply.failure run.call.id kind message ∧
    (kind = .queueOverflow ∨ kind = .other ∨ kind = .timeout)

namespace Pair

variable (pair : Pair)

/-- A channel that starts on a link that is there, with what belongs to its side. -/
def Starts (network : Network) (place : ChannelPlace) : Prop :=
  pair.Connects place ∧ place.link < network.links.size ∧
    ∃ contact side, place.channel = Channel.start contact side

/-- One step of what happens between two peers. -/
inductive Step (before : Network) : Network → Prop where
  | clock {now : Time} {backlogs : Array Backlog} : Step before { before with now, backlogs }
  | channels {channels : Array ChannelPlace} :
      Grows ChannelPlace.Stays (pair.Starts before) before.channels channels →
      Step before { before with channels }
  | outboxes {outboxes : Array OutboxPlace} :
      Grows OutboxPlace.KeepsCalls (fun _ => False) before.outboxes outboxes →
      Step before { before with outboxes }
  | links {links : Array Link} :
      Grows Link.Loses Link.IsEmpty before.links links → Step before { before with links }
  | issue {side : Side} {call : Call} : call.IsFresh →
      Step before (before.issue (pair.outbox side) call).2
  | turn {channel : Nat} {station : Station} {next : Station × List Report} :
      before.station? channel = some station → station.Turn next.1 next.2 →
      Step before (before.afterStep channel next)
  | begin {execution : Execution} : execution ∈ before.executions → execution.stage = .ready →
      Step before (before.beginExecution execution)
  | conclude {execution : Execution} {wake : Time} {conclusion : Conclusion} :
      execution ∈ before.executions → execution.stage = .busy wake conclusion →
      Step before (before.endExecution execution conclusion)
  /-- An errand registers its waiter. -/
  | enter {errand : Errand} {place : Nat} {entry : OutboxPlace} :
      errand ∈ before.errands → errand.stage = .entering place →
      before.outboxes[place]? = some entry →
      Step before
        ((before.modifyOutbox place fun _ => (Run.start entry.outbox errand.call).2).setErrand
          { errand with stage := .running place (Run.start entry.outbox errand.call).1 })
  /-- The queue takes the call of an errand. -/
  | accept {errand : Errand} {place : Nat} {run : Run} {expiry : Time} {next : Network} :
      errand ∈ before.errands → errand.stage = .running place run → run.stage = .enqueuing →
      Accepts before next errand.number place run.call →
      next.errands = (before.setErrand
        { errand with stage := .running place { run with stage := .waiting expiry } }).errands →
      Step before next
  /-- An errand ends. If it has got a reply, then its call was taken before. -/
  | return {errand : Errand} {place : Nat} {entry : OutboxPlace} {run : Run} {outbox : Outbox}
      {reply : Reply} {backlogs : Array Backlog} :
      errand ∈ before.errands → errand.stage = .running place run →
      before.outboxes[place]? = some entry →
      OutboxPlace.KeepsCalls entry { entry with outbox } →
      (run.Fails reply ∨ (∃ expiry, run.stage = .waiting expiry) ∧
        entry.outbox.waiters.state run.waiter = .resolved reply) →
      Step before ({ before.modifyOutbox place (fun _ => outbox) with backlogs }.endErrand
        errand reply)

/-- Nobody but the two peers is there, and errands are for their outboxes. -/
structure IsClosed (network : Network) : Prop where
  visits : network.visits = []
  clients : network.clients = #[]
  watched : network.watched = []
  route : ∀ errand ∈ network.errands, errand.route = none
  fresh : ∀ errand ∈ network.errands, errand.call.IsFresh
  stage : ∀ errand ∈ network.errands, ∃ side, errand.stage = .entering (pair.outbox side) ∨
    ∃ run, errand.stage = .running (pair.outbox side) run ∧ run.call = errand.call

/-! ## Every happening is a step -/

variable {pair} {network next : Network}

theorem Step.refl (network : Network) : pair.Step network network :=
  .clock

theorem step_modifyOutbox {place : Nat} {change : Outbox → Outbox}
    (keeps : ∀ outbox : Outbox, (change outbox).queue = outbox.queue ∧
      outbox.waiters.Changes none (change outbox).waiters) :
    pair.Step network (network.modifyOutbox place change) :=
  .outboxes (Grows.modify .refl fun entry _ => ⟨(keeps entry.outbox).1, (keeps entry.outbox).2⟩)

theorem step_modifyLink {place : Nat} {change : Link → Link}
    (loses : ∀ link : Link, link.Loses (change link)) :
    pair.Step network (network.modifyLink place change) :=
  .links (Grows.modify .refl fun link _ => loses link)

theorem step_act {action : Action} (admitted : pair.AdmitsAction action)
    (awake : (Happening.act action).sleeps = false) : pair.Step network (network.act action).2 := by
  cases action with
  | issue outbox call =>
      obtain ⟨place, fresh⟩ := admitted
      rcases place with rfl | rfl <;> exact .issue fresh
  | signal outbox => exact step_modifyOutbox fun outbox => ⟨rfl, .refl _⟩
  | takeSignal outbox =>
      have taken : pair.Step network
          (network.modifyOutbox outbox fun entry => { entry with isSignaled := false }) :=
        step_modifyOutbox fun outbox => ⟨rfl, .refl _⟩
      exact taken
  | abandon outbox id =>
      have abandoned : pair.Step network (network.modifyOutbox outbox (·.abandon id)) :=
        step_modifyOutbox fun outbox => ⟨rfl, outbox.waiters.changes_remove id⟩
      exact abandoned
  | refuse backlog operations => exact .clock
  | closeLink link side => exact step_modifyLink fun link => link.loses_close side
  | stopChannel channel =>
      have stopped : pair.Step network (network.modifyChannel channel Channel.stop) :=
        .channels (Grows.modify .refl fun _ _ => ⟨rfl, rfl, rfl, Or.inr rfl⟩)
      exact stopped
  | sleep span => cases awake
  | issueTo _ _ _ | enqueue _ _ | dequeue _ | complete _ _ | send _ _ _ | forget _ _
  | startClient _ | shutDownClient _ | shutDownServer _ => exact admitted.elim

/-! ## Errands -/

/-- A run that ends leaves the calls of its outbox alone. -/
theorem keepsCalls_abandon {entry : OutboxPlace} {outbox : Outbox} {id : UInt64}
    (queue : outbox.queue = entry.outbox.queue)
    (changes : entry.outbox.waiters.Changes none outbox.waiters) :
    entry.KeepsCalls { entry with outbox := outbox.abandon id } :=
  ⟨queue, changes.trans (outbox.waiters.changes_remove id)⟩

theorem continueErrand_returned {errand : Errand} {place : Nat} {before : RunStage} {run : Run}
    {reply : Reply} (route : errand.route = none) (returned : run.stage = .returned reply) :
    network.continueErrand errand place before run = network.endErrand errand reply := by
  simp [Network.continueErrand, route, returned]

theorem step_runErrand {errand : Errand} {place : Nat} {run : Run}
    (member : errand ∈ network.errands) (route : errand.route = none)
    (stage : errand.stage = .running place run)
    (ran : network.runErrand errand place run = some next) : pair.Step network next := by
  obtain ⟨entry, after, outbox, backlog, found, stepped, rfl⟩ := Network.runErrand_stepped ran
  cases stepped with
  | @accepted expiry _ begins sameTarget room =>
      rw [begins]
      refine @Step.accept pair network errand place run expiry _ member stage begins
        (Network.accepts_runErrand found rfl) ?_
      rw [Network.setBacklog_eq]
      rfl
  | refused begins refusal =>
      rw [Network.setBacklog_eq, continueErrand_returned route rfl]
      obtain ⟨kind, message, rfl, refused⟩ := refusal
      refine .return member stage found (keepsCalls_abandon rfl (.refl _)) (Or.inl ?_)
      exact ⟨kind, message, rfl, refused.imp_right Or.inl⟩
  | replied waits resolved =>
      rw [Network.setBacklog_eq, continueErrand_returned route rfl]
      exact .return member stage found (keepsCalls_abandon rfl (Waiters.changes_take _ _))
        (Or.inr ⟨⟨_, waits⟩, resolved⟩)
  | abandoned waits closed =>
      rw [Network.setBacklog_eq, continueErrand_returned route rfl]
      exact .return member stage found (keepsCalls_abandon rfl (.refl _))
        (Or.inl ⟨.other, _, rfl, Or.inr (Or.inl rfl)⟩)
  | expired waits late waiting =>
      rw [Network.setBacklog_eq, continueErrand_returned route rfl]
      exact .return member stage found (keepsCalls_abandon rfl (Waiters.changes_drop _ _))
        (Or.inl ⟨.timeout, _, rfl, Or.inr (Or.inr rfl)⟩)

theorem step_errand (closed : pair.IsClosed network) {number : Nat}
    (moved : network.errand? number = some next) : pair.Step network next := by
  obtain ⟨errand, member, ⟨place, enters, entered⟩ | ⟨server, client, seeks, _⟩ |
    ⟨place, run, runs, ran⟩ | ⟨server, client, reply, tidies, _⟩⟩ := Network.errand?_cases moved
  · obtain ⟨entry, found, rfl⟩ := Network.enterOutbox_cases entered
    exact .enter member enters found
  · simpa [seeks] using closed.stage errand member
  · exact step_runErrand member (closed.route errand member) runs ran
  · simpa [tidies] using closed.stage errand member

/-! ## All happenings -/

theorem step_move (closed : pair.IsClosed network) {move : Move}
    (moved : network.move? move = some next) : pair.Step network next := by
  cases move with
  | send channel drops =>
      obtain ⟨station, after, found, stepped, rfl⟩ := Network.send_cases moved
      exact .turn found (Station.sendStep_turn stepped)
  | receive channel =>
      obtain ⟨station, after, found, stepped, rfl⟩ := Network.receive_cases moved
      exact .turn found (Station.receiveStep_change stepped).turn
  | close channel =>
      obtain ⟨station, after, found, stepped, rfl⟩ := Network.close_cases moved
      exact .turn found (Station.closeStep_change stepped).turn
  | execute number =>
      obtain ⟨execution, member, ⟨ready, rfl⟩ | ⟨wake, conclusion, busy, rfl⟩⟩ :=
        Network.execute_cases moved
      · exact .begin member ready
      · exact .conclude member busy
  | errand number => exact step_errand closed moved
  | visit number => simp [Network.move?, Network.visit?, closed.visits] at moved
  | client place => simp [Network.move?, Network.client?, closed.clients] at moved
  | watch link side => simp [Network.move?, Network.watch?, closed.watched] at moved

/-- Everything that may happen between two peers, but a sleep, is a step. -/
theorem step_happen (closed : pair.IsClosed network) {happening : Happening}
    (admitted : pair.Admits network happening) (awake : happening.sleeps = false) :
    pair.Step network (network.happen happening) := by
  cases happening with
  | move move =>
      simp only [Network.happen]
      cases moved : network.move? move with
      | none => exact .refl network
      | some next => exact step_move closed moved
  | act action => exact step_act admitted awake
  | pass time => exact .clock
  | cut link side => exact step_modifyLink fun link => link.loses_drop side
  | equip channel service =>
      exact .channels (Grows.modify .refl fun _ _ => ⟨rfl, rfl, rfl, Or.inl rfl⟩)
  | addBacklog backlog => exact .clock
  | addLink maxFrameLength =>
      exact .links (Grows.push .refl fun side => by cases side <;> rfl)
  | startChannel contact side link outbox answers service =>
      obtain ⟨rfl, rfl, there⟩ := admitted
      exact .channels (Grows.push .refl ⟨⟨rfl, rfl⟩, there, contact, side, rfl⟩)
  | addOutbox _ _ _ | addAnswers _ | addServer _ _ _ | addClient _ _ _ | reachServer _ _
  | watch _ _ | take _ _ => exact admitted.elim

end Pair

end PeerCalls
