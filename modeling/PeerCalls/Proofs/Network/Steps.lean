import PeerCalls.Proofs.Channel.Outbox
import PeerCalls.Proofs.Channel.Turns
import PeerCalls.Proofs.Network.Endpoints

/-!
# What a happening can do

A happening is quiet, or it is one of a few: a channel takes a turn, an execution
begins or ends, a queue takes the call of an errand, or somebody works on a queue
directly. Statements about all runs need to look at these only.
-/

namespace PeerCalls

/-- Somebody from outside puts a call into the queue of an outbox, or takes one. -/
def Happening.handles (outbox : Nat) : Happening → Bool
  | .act (.enqueue place _) | .act (.dequeue place) => place == outbox
  | _ => false

/-- An action takes the signal of an outbox. -/
def Happening.takesSignal (outbox : Nat) : Happening → Bool
  | .act (.takeSignal place) => place == outbox
  | _ => false

/-- The queue of an outbox takes the call of an errand. -/
structure Accepts (before after : Network) (errand outbox : Nat) (call : Call) : Prop where
  same : after = { before with
    outboxes := after.outboxes
    backlogs := after.backlogs
    errands := after.errands
    log := after.log }
  events : after.events = before.events ++ [.accepted errand outbox call]
  outboxes : ∃ entry queue, before.outboxes[outbox]? = some entry ∧
    queue = { entry.outbox.queue with calls := entry.outbox.queue.calls ++ [call] } ∧
    ∀ place, after.outboxes[place]? =
      if place = outbox then
        some { entry with outbox := { entry.outbox with queue, isSignaled := true } }
      else before.outboxes[place]?

namespace Accepts

variable {before after : Network} {errand outbox : Nat} {call : Call}
  (accepts : Accepts before after errand outbox call)
include accepts

theorem channels : after.channels = before.channels := by rw [accepts.same]

theorem answers : after.answers = before.answers := by rw [accepts.same]

theorem links : after.links = before.links := by rw [accepts.same]

theorem executions : after.executions = before.executions := by rw [accepts.same]

theorem nextNumber : after.nextNumber = before.nextNumber := by rw [accepts.same]

end Accepts

namespace Network

variable {network next : Network}

/-- What a happening can do to a network. -/
inductive Takes (network : Network) : Happening → Network → Prop where
  | quiet {happening : Happening} {next : Network} :
      QuietBut (fun outbox => happening.takesSignal outbox) network next →
      Takes network happening next
  | turn {move : Move} {channel : Nat} {station : Station} {next : Station × List Report} :
      network.station? channel = some station → station.Turn next.1 next.2 →
      Takes network (.move move) (network.afterStep channel next)
  | begin {move : Move} {execution : Execution} :
      execution ∈ network.executions → execution.stage = .ready →
      Takes network (.move move) (network.beginExecution execution)
  | conclude {move : Move} {execution : Execution} {wake : Time} {conclusion : Conclusion} :
      execution ∈ network.executions → execution.stage = .busy wake conclusion →
      Takes network (.move move) (network.endExecution execution conclusion)
  | accept {move : Move} {errand outbox : Nat} {call : Call} {next : Network} :
      Accepts network next errand outbox call → Takes network (.move move) next
  | handle {happening : Happening} {outbox : Nat} {changed : Outbox} {place : Option Nat}
      {backlog : Option Backlog} : happening.handles outbox = true →
      Takes network happening
        ((network.modifyOutbox outbox fun _ => changed).setBacklog place backlog)
  | sleep {span : Span} : Takes network (.act (.sleep span)) (network.sleep span)

/-! ## Channels -/

theorem send_cases {channel : Nat} {drops : Bool}
    (moved : network.send? channel drops = some next) :
    ∃ station after, network.station? channel = some station ∧
      station.sendStep drops = some after ∧ next = network.afterStep channel after := by
  simp only [send?, Option.bind_eq_bind, Option.bind_eq_some_iff, Option.pure_def,
    Option.some.injEq] at moved
  obtain ⟨station, found, after, stepped, rfl⟩ := moved
  exact ⟨station, after, found, stepped, rfl⟩

theorem receive_cases {channel : Nat} (moved : network.receive? channel = some next) :
    ∃ station after, network.station? channel = some station ∧
      station.receiveStep = some after ∧ next = network.afterStep channel after := by
  simp only [receive?, Option.bind_eq_bind, Option.bind_eq_some_iff, Option.pure_def,
    Option.some.injEq] at moved
  obtain ⟨station, found, after, stepped, rfl⟩ := moved
  exact ⟨station, after, found, stepped, rfl⟩

/-- A channel that closes reports nothing. -/
theorem close_cases {channel : Nat} (moved : network.close? channel = some next) :
    ∃ station after, network.station? channel = some station ∧
      station.closeStep = some after ∧ next = network.afterStep channel (after, []) := by
  simp only [close?, Option.bind_eq_bind, Option.bind_eq_some_iff, Option.pure_def,
    Option.some.injEq] at moved
  obtain ⟨station, found, after, stepped, rfl⟩ := moved
  exact ⟨station, after, found, stepped, rfl⟩

/-! ## Errands -/

/-- The step of an errand follows its stage. -/
theorem errand?_cases {number : Nat} (moved : network.errand? number = some next) :
    ∃ errand ∈ network.errands,
      (∃ place, errand.stage = .entering place ∧ network.enterOutbox errand place = some next) ∨
      (∃ server client, errand.stage = .seeking server client ∧
        network.seekOutbox errand server client = some next) ∨
      (∃ place run, errand.stage = .running place run ∧
        network.runErrand errand place run = some next) ∨
      ∃ server client reply, errand.stage = .tidying server client reply ∧
        next = (network.tidy server client).endErrand errand reply := by
  simp only [errand?, Option.bind_eq_bind, Option.bind_eq_some_iff] at moved
  obtain ⟨errand, found, moved⟩ := moved
  refine ⟨errand, List.mem_of_find?_eq_some found, ?_⟩
  split at moved
  next enters => exact Or.inl ⟨_, enters, moved⟩
  next seeks => exact Or.inr (Or.inl ⟨_, _, seeks, moved⟩)
  next runs => exact Or.inr (Or.inr (Or.inl ⟨_, _, runs, moved⟩))
  next tidies =>
    cases moved
    exact Or.inr (Or.inr (Or.inr ⟨_, _, _, tidies, rfl⟩))

theorem enterOutbox_cases {errand : Errand} {place : Nat}
    (entered : network.enterOutbox errand place = some next) :
    ∃ entry, network.outboxes[place]? = some entry ∧
      next = (network.modifyOutbox place fun _ => (Run.start entry.outbox errand.call).2).setErrand
        { errand with stage := .running place (Run.start entry.outbox errand.call).1 } := by
  simp only [enterOutbox, Option.bind_eq_bind, Option.bind_eq_some_iff, Option.pure_def,
    Option.some.injEq] at entered
  obtain ⟨entry, found, rfl⟩ := entered
  exact ⟨entry, found, rfl⟩

theorem runErrand_stepped {errand : Errand} {place : Nat} {run : Run}
    (ran : network.runErrand errand place run = some next) :
    ∃ entry after outbox backlog, network.outboxes[place]? = some entry ∧
      run.Stepped network.now entry.outbox ((after, outbox), backlog) ∧
      next = ((network.modifyOutbox place fun _ => outbox).setBacklog entry.backlog
        backlog).continueErrand errand place run.stage after := by
  simp only [runErrand, Option.bind_eq_bind, Option.bind_eq_some_iff, Option.pure_def,
    Option.some.injEq] at ran
  obtain ⟨entry, found, ⟨⟨after, outbox⟩, backlog⟩, stepped, rfl⟩ := ran
  exact ⟨entry, after, outbox, backlog, found, Run.step_stepped stepped, rfl⟩

theorem quiet_enterOutbox {errand : Errand} {place : Nat}
    (entered : network.enterOutbox errand place = some next) : Quiet network next := by
  obtain ⟨entry, found, rfl⟩ := enterOutbox_cases entered
  have registered : Quiet network
      (network.modifyOutbox place fun _ => (Run.start entry.outbox errand.call).2) :=
    Quiet.replaceOutbox found rfl rfl id
  exact registered.trans (Quiet.setErrand _ _)

theorem quiet_seekOutbox {errand : Errand} {server : Nat} {client : String}
    (sought : network.seekOutbox errand server client = some next) : Quiet network next := by
  simp only [seekOutbox] at sought
  split at sought
  next kept => exact (quiet_resources kept).trans (quiet_enterOutbox sought)
  next =>
    cases sought
    exact Quiet.endErrand _ _ _

theorem quiet_continueErrand {errand : Errand} {place : Nat} {before : RunStage} {run : Run}
    (settled : before = .enqueuing → ∀ expiry, run.stage ≠ .waiting expiry) :
    Quiet network (network.continueErrand errand place before run) := by
  simp only [continueErrand]
  split
  · exact Quiet.setErrand _ _
  · exact Quiet.endErrand _ _ _
  next expiry waits => exact absurd waits (settled rfl expiry)
  · exact Quiet.setErrand _ _

theorem quiet_endRun {errand : Errand} {place : Nat} {entry : OutboxPlace} {run : Run}
    {outbox : Outbox} {reply : Reply} {backlog : Option Backlog}
    (found : network.outboxes[place]? = some entry) (queue : outbox.queue = entry.outbox.queue)
    (settings : outbox.settings = entry.outbox.settings)
    (signal : outbox.isSignaled = entry.outbox.isSignaled) :
    Quiet network
      (((network.modifyOutbox place fun _ => (run.finish outbox reply).2).setBacklog
        entry.backlog backlog).continueErrand errand place run.stage
          (run.finish outbox reply).1) := by
  have abandoned : Quiet network
      (network.modifyOutbox place fun _ => (run.finish outbox reply).2) :=
    Quiet.replaceOutbox found queue settings fun signaled => signal.trans signaled
  refine (abandoned.trans (Quiet.setBacklog _ _ _)).trans (quiet_continueErrand ?_)
  intro _ expiry waits
  cases waits

theorem accepts_runErrand {errand : Errand} {place : Nat} {entry : OutboxPlace} {run : Run}
    {outbox : Outbox} {expiry : Time} {backlog : Option Backlog}
    (found : network.outboxes[place]? = some entry)
    (taken : outbox = { entry.outbox with
      queue := { entry.outbox.queue with calls := entry.outbox.queue.calls ++ [run.call] }
      isSignaled := true }) :
    Accepts network
      (((network.modifyOutbox place fun _ => outbox).setBacklog entry.backlog
        backlog).continueErrand errand place .enqueuing { run with stage := .waiting expiry })
      errand.number place run.call := by
  simp only [continueErrand]
  rw [setBacklog_eq]
  refine ⟨rfl, events_note _ _, entry, _, found, rfl, ?_⟩
  intro other
  simp only [note, setErrand, modifyOutbox]
  rw [Array.getElem?_modify]
  by_cases same : other = place
  · subst same
    simp [found, taken]
  · simp [same, Ne.symm same]

theorem runErrand_cases {errand : Errand} {place : Nat} {run : Run}
    (ran : network.runErrand errand place run = some next) :
    Quiet network next ∨ Accepts network next errand.number place run.call := by
  obtain ⟨entry, after, outbox, backlog, found, stepped, rfl⟩ := runErrand_stepped ran
  -- Only an accepted call changes the queue; every other step ends the run.
  cases stepped with
  | accepted begins sameTarget room =>
      rw [begins]
      exact Or.inr (accepts_runErrand found rfl)
  | refused begins refusal => exact Or.inl (quiet_endRun found rfl rfl rfl)
  | replied waits resolved => exact Or.inl (quiet_endRun found rfl rfl rfl)
  | abandoned waits closed => exact Or.inl (quiet_endRun found rfl rfl rfl)
  | expired waits late waiting => exact Or.inl (quiet_endRun found rfl rfl rfl)

/-- The step of an errand is quiet, or a queue takes its call. -/
theorem errand_cases {number : Nat} (moved : network.errand? number = some next) :
    Quiet network next ∨ ∃ errand outbox call, Accepts network next errand outbox call := by
  obtain ⟨errand, _, ⟨place, _, entered⟩ | ⟨server, client, _, sought⟩ | ⟨place, run, _, ran⟩ |
    ⟨server, client, reply, _, rfl⟩⟩ := errand?_cases moved
  · exact Or.inl (quiet_enterOutbox entered)
  · exact Or.inl (quiet_seekOutbox sought)
  · exact (runErrand_cases ran).imp_right fun accepts => ⟨_, _, _, accepts⟩
  · exact Or.inl ((quiet_tidy _ _ _).trans (Quiet.endErrand _ _ _))

theorem takes_errand {number : Nat} (moved : network.errand? number = some next) :
    Takes network (.move (.errand number)) next := by
  rcases errand_cases moved with quiet | ⟨errand, outbox, call, accepts⟩
  · exact .quiet quiet
  · exact .accept accepts

/-! ## Executions -/

/-- The step of an execution is its begin or its end. -/
theorem execute_cases {number : Nat} (moved : network.execute? number = some next) :
    ∃ execution ∈ network.executions,
      execution.stage = .ready ∧ next = network.beginExecution execution ∨
      ∃ wake conclusion, execution.stage = .busy wake conclusion ∧
        next = network.endExecution execution conclusion := by
  simp only [execute?, Option.bind_eq_bind, Option.bind_eq_some_iff] at moved
  obtain ⟨execution, found, moved⟩ := moved
  refine ⟨execution, List.mem_of_find?_eq_some found, ?_⟩
  split at moved
  next ready =>
    cases moved
    exact Or.inl ⟨ready, rfl⟩
  next wake conclusion busy =>
    split at moved
    · cases moved
      exact Or.inr ⟨wake, conclusion, busy, rfl⟩
    · cases moved

theorem takes_execute {number : Nat} (moved : network.execute? number = some next) :
    Takes network (.move (.execute number)) next := by
  obtain ⟨execution, member, ⟨ready, rfl⟩ | ⟨wake, conclusion, busy, rfl⟩⟩ := execute_cases moved
  · exact .begin member ready
  · exact .conclude member busy

/-! ## All happenings -/

theorem takes_move {move : Move} (moved : network.move? move = some next) :
    Takes network (.move move) next := by
  cases move with
  | send channel drops =>
      obtain ⟨station, after, found, stepped, rfl⟩ := send_cases moved
      exact .turn found (Station.sendStep_turn stepped)
  | receive channel =>
      obtain ⟨station, after, found, stepped, rfl⟩ := receive_cases moved
      exact .turn found (Station.receiveStep_change stepped).turn
  | close channel =>
      obtain ⟨station, after, found, stepped, rfl⟩ := close_cases moved
      exact .turn found (Station.closeStep_change stepped).turn
  | execute number => exact takes_execute moved
  | errand number => exact takes_errand moved
  | visit number => exact .quiet (quiet_visit moved)
  | client place => exact .quiet (quiet_client moved)
  | watch link side => exact .quiet (quiet_watch moved)

theorem takes_act (network : Network) (action : Action) :
    Takes network (.act action) (network.act action).2 := by
  have numbered : ∀ errands, Quiet network { network with
      errands, nextNumber := network.nextNumber + 1 } := fun _ =>
    Quiet.of_eq rfl rfl rfl rfl rfl (Nat.le_succ _) rfl
  cases action with
  | issue outbox call => exact .quiet (numbered _)
  | issueTo server client call => exact .quiet (numbered _)
  | enqueue outbox call =>
      simp only [act, enqueue]
      split
      · exact .quiet (Quiet.refl network)
      · exact .handle (beq_self_eq_true outbox)
  | dequeue outbox =>
      simp only [act, dequeue]
      split
      · exact .quiet (Quiet.refl network)
      · exact .handle (beq_self_eq_true outbox)
  | signal outbox => exact .quiet (Quiet.modifyOutbox (fun _ _ => ⟨rfl, rfl⟩) fun _ _ _ _ => rfl)
  | takeSignal outbox =>
      have taken : QuietBut (fun place => outbox == place) network
          (network.modifyOutbox outbox fun entry => { entry with isSignaled := false }) :=
        Quiet.modifyOutbox (fun _ _ => ⟨rfl, rfl⟩) fun untaken => by simp at untaken
      exact .quiet taken
  | complete outbox reply =>
      simp only [act, complete]
      split
      · exact .quiet (Quiet.refl network)
      next found => exact .quiet (Quiet.replaceOutbox found rfl rfl id)
  | abandon outbox id =>
      have abandoned : Quiet network (network.modifyOutbox outbox (·.abandon id)) :=
        Quiet.modifyOutbox (fun _ _ => ⟨rfl, rfl⟩) fun _ _ _ signaled => signaled
      exact .quiet abandoned
  | refuse backlog operations =>
      exact .quiet (Quiet.of_eq rfl rfl rfl rfl rfl (Nat.le_refl _) rfl)
  | send link side frame =>
      simp only [act, sendFrame]
      split
      · exact .quiet (Quiet.refl network)
      next entry found =>
        exact .quiet (Quiet.replaceLink found (entry.maxFrameLength_send side frame))
  | closeLink link side =>
      exact .quiet (Quiet.modifyLink fun entry _ => (Link.loses_close entry side).limit)
  | stopChannel channel => exact .quiet (Quiet.stopChannel _ _)
  | forget server client => exact .quiet (quiet_forgetClient _ _ _)
  | startClient client => exact .quiet (Quiet.modifyClient _ _ _)
  | shutDownClient client => exact .quiet (quiet_shutDownClient _ _)
  | shutDownServer server => exact .quiet (quiet_shutDownServer _ _)
  | sleep span =>
      simp only [act]
      exact .sleep

/-- What any happening does to a network. -/
theorem takes_happen (network : Network) (happening : Happening) :
    Takes network happening (network.happen happening) := by
  cases happening with
  | move move =>
      simp only [happen]
      cases moved : network.move? move with
      | none => exact .quiet (Quiet.refl network)
      | some next => exact takes_move moved
  | act action => exact takes_act network action
  | pass time => exact .quiet (Quiet.of_eq rfl rfl rfl rfl rfl (Nat.le_refl _) rfl)
  | cut link side => exact .quiet (Quiet.dropLink _ _ _)
  | equip channel service =>
      exact .quiet (Quiet.modifyChannels fun _ => ⟨rfl, rfl, rfl, Or.inl rfl⟩)
  | addBacklog backlog =>
      exact .quiet (Quiet.of_eq rfl rfl rfl rfl rfl (Nat.le_refl _) rfl)
  | addOutbox target backlog settings =>
      exact .quiet (quiet_orElseKeep fun _ _ => quiet_createOutbox)
  | addAnswers capacity => exact .quiet (Quiet.addAnswers _ _)
  | addLink maxFrameLength => exact .quiet (Quiet.addLink _ _)
  | startChannel contact side link outbox answers service =>
      exact .quiet (Quiet.addChannel ⟨contact, side, Or.inl rfl⟩)
  | addServer settings backlog service =>
      exact .quiet (quiet_orElseKeep fun _ _ => quiet_addServer)
  | addClient settings backlog service =>
      exact .quiet (quiet_orElseKeep fun _ _ => quiet_addClient)
  | reachServer client server => exact .quiet (Quiet.modifyClient _ _ _)
  | watch link side =>
      exact .quiet (Quiet.of_eq rfl rfl rfl rfl rfl (Nat.le_refl _) rfl)
  | take link side =>
      simp only [happen, receiveFrame]
      split
      · exact .quiet (Quiet.refl network)
      next found => exact .quiet (Quiet.replaceLink found (Link.loses_of_receive rfl).limit)

/-- What all happenings preserve that do not sleep is preserved by all. -/
theorem happen_preserves {invariant : Network → Prop}
    (step : ∀ {network next : Network} {happening : Happening}, Takes network happening next →
      happening.sleeps = false → invariant network → invariant next)
    (begins : invariant network) (happening : Happening) :
    invariant (network.happen happening) :=
  @preserves_of_awake (fun _ _ => True) invariant (fun _ _ => trivial) (fun _ _ => trivial)
    (fun network happening _ awake holds => step (takes_happen network happening) awake holds)
    network happening trivial begins

end Network

end PeerCalls
