import PeerCalls.Proofs.Channel.Endings
import PeerCalls.Proofs.Network.Order
import PeerCalls.Proofs.Network.Places

/-!
# No call gets lost

An outbox is served by channels one at a time. Then a call leaves its queue in one way
only: a channel has a reply to it with which it ends for good, takes it from the head of
the queue, gives the reply to whoever waits for it and reports it. If the call cannot be
taken out of the backlog, then it stays at the head and nobody is told. So the calls that
have come into the queue are those that were reported as ended and then those that are
still in it.
-/

namespace PeerCalls

namespace Network

/-- A channel works on an outbox. -/
def isOn (network : Network) (outbox channel : Nat) : Bool :=
  (network.channels[channel]?).any (·.outbox == outbox)

/-- The call that a channel of an outbox reports as ended. -/
def endedIn? (network : Network) (outbox : Nat) : Event → Option (Call × Reply)
  | .ended channel call reply => if network.isOn outbox channel then some (call, reply) else none
  | _ => none

/-- The calls that channels of an outbox have reported as ended, in this order. -/
def endedIn (network : Network) (outbox : Nat) : List (Call × Reply) :=
  network.events.filterMap (network.endedIn? outbox)

/-- A channel of an outbox is about to take a call that has ended from the queue. -/
structure IsFinishing (network : Network) (outbox : Nat) (happening : Happening)
    (station : Station) (call : Call) (reply : Reply) : Prop where
  move : ∃ channel drops, happening = .move (.send channel drops) ∧
    network.isOn outbox channel = true ∧ network.station? channel = some station
  sender : station.channel.sender = .dequeuing call reply

/-- What has come into the queue of an outbox, while no call has left it. -/
structure QueueGrows (outbox : Nat) (before after : Network) (queue grown : Queue)
    (added : List Call) : Prop where
  calls : grown.calls = queue.calls ++ added
  accepted : after.acceptedIn outbox = before.acceptedIn outbox ++ added
  ended : after.endedIn outbox = before.endedIn outbox

/-- What a happening can do to the calls of an outbox. -/
inductive QueueStep (outbox : Nat) (happening : Happening) (before after : Network)
    (entry later : Outbox) : Prop where
  | grows {added : List Call} :
      (∀ station call reply, ¬ before.IsFinishing outbox happening station call reply) →
      QueueGrows outbox before after entry.queue later.queue added →
      QueueStep outbox happening before after entry later
  /-- A call leaves the queue, and its reply is told and reported. -/
  | leaves {station : Station} {call head : Call} {reply : Reply} :
      before.IsFinishing outbox happening station call reply →
      (entry.queue.dequeueIfHead station.backlog call.id).1 = .ok (some head) →
      entry.queue.calls = head :: later.queue.calls → call.reset = head.reset →
      call.EndsWith reply → entry.waiters.Tells reply later.waiters →
      after.acceptedIn outbox = before.acceptedIn outbox →
      after.endedIn outbox = before.endedIn outbox ++ [(call, reply)] →
      QueueStep outbox happening before after entry later
  /-- A call cannot leave the queue, and nobody is told. -/
  | remains {station : Station} {call : Call} {reply : Reply} {fault : Backlog.Fault} :
      before.IsFinishing outbox happening station call reply →
      (entry.queue.dequeueIfHead station.backlog call.id).1 = .error fault →
      later.queue.Heads call → later.queue = entry.queue → later.waiters = entry.waiters →
      after.acceptedIn outbox = before.acceptedIn outbox →
      after.endedIn outbox = before.endedIn outbox →
      QueueStep outbox happening before after entry later

/-- A call that came into a queue was reported as ended, with a reply. -/
structure HasEnded (call : Call) (ended : Call × Reply) : Prop where
  same : ended.1.reset = call.reset
  endsWith : ended.1.EndsWith ended.2

/-! ## The log -/

variable {outbox : Nat} {initial : List Call} {before after network : Network}
  {entry : OutboxPlace} {happening : Happening}

/-- The channels that have reported ends are there. -/
def LogsChannels (network : Network) : Prop :=
  ∀ ⦃channel : Nat⦄ ⦃call : Call⦄ ⦃reply : Reply⦄,
    .ended channel call reply ∈ network.events → channel < network.channels.size

theorem Channels.isOn (channels : Channels before after) {channel : Nat}
    (there : channel < before.channels.size) (outbox : Nat) :
    after.isOn outbox channel = before.isOn outbox channel := by
  obtain ⟨later, found, same, _⟩ := channels.kept (Array.getElem?_eq_getElem there)
  simp [Network.isOn, found, there, same]

theorem Channels.endedIn {others : List Event} (channels : Channels before after)
    (logged : before.LogsChannels) (events : after.events = before.events ++ others)
    (outbox : Nat) :
    after.endedIn outbox = before.endedIn outbox ++ others.filterMap (after.endedIn? outbox) := by
  rw [Network.endedIn, events, List.filterMap_append]
  congr 1
  apply List.filterMap_congr
  intro event member
  cases event with
  | ended channel call reply => simp only [endedIn?, channels.isOn (logged member)]
  | _ => rfl

/-- A channel takes a turn in which it reports the end of a call. -/
def ReportsEnd (network : Network) (channel : Nat) (call : Call) (reply : Reply) : Prop :=
  ∃ (station : Station) (next : Station × List Report),
    network.station? channel = some station ∧ station.Turn next.1 next.2 ∧
      .ended call reply ∈ next.2

theorem ReportsEnd.lt_size {channel : Nat} {call : Call} {reply : Reply}
    (reports : network.ReportsEnd channel call reply) : channel < network.channels.size := by
  obtain ⟨station, _, there, _⟩ := reports
  obtain ⟨place, _, _, _, found, _⟩ := station?_eq_some_iff.mp there
  exact (Array.getElem?_eq_some_iff.mp found).1

/-- Only a turn of a channel reports ends. -/
theorem Takes.events (takes : Takes before happening after) (awake : happening.sleeps = false) :
    ∃ others, after.events = before.events ++ others ∧
      ∀ channel call reply, .ended channel call reply ∈ others →
        before.ReportsEnd channel call reply := by
  cases takes with
  | quiet quiet =>
      obtain ⟨others, events, silent⟩ := quiet.events
      exact ⟨others, events, fun _ _ _ member => (silent _ member).elim⟩
  | @turn _ channel station next found turn =>
      obtain ⟨place, _, _, _, foundPlace, _⟩ := station?_eq_some_iff.mp found
      refine ⟨_, events_afterStep foundPlace next, ?_⟩
      intro other call reply member
      obtain ⟨report, told, reported⟩ := List.mem_filterMap.mp member
      cases report <;> cases reported
      exact ⟨station, next, found, turn, told⟩
  | begin _ _ =>
      simp only [beginExecution]
      split
      · exact ⟨[], by simp [Network.events, dropExecution], by simp⟩
      · exact ⟨_, events_note _ _, by simp⟩
  | conclude _ _ =>
      simp only [endExecution]
      split
      next => exact ⟨_, events_note _ _, by simp⟩
      next station found =>
        obtain ⟨place, _, _, _, foundPlace, _⟩ := station?_eq_some_iff.mp found
        rw [events_setStation _ foundPlace]
        exact ⟨_, events_note _ _, by simp⟩
  | accept accepts => exact ⟨_, accepts.events, by simp⟩
  | handle _ =>
      rw [setBacklog_eq]
      exact ⟨[], by simp [Network.events, modifyOutbox], by simp⟩
  | sleep => cases awake

theorem LogsChannels.takes (logged : before.LogsChannels) (takes : Takes before happening after)
    (awake : happening.sleeps = false) : after.LogsChannels := by
  obtain ⟨others, events, there⟩ := takes.events awake
  intro channel call reply member
  apply Nat.lt_of_lt_of_le _ (Grows.size (takes.channels awake))
  rw [events, List.mem_append] at member
  rcases member with old | new
  · exact logged old
  · exact (there channel call reply new).lt_size

theorem endedIn_reports (network : Network) (outbox channel : Nat) (reports : List Report) :
    (reports.filterMap (Report.event? channel)).filterMap (network.endedIn? outbox) =
      if network.isOn outbox channel then reports.filterMap Report.ended? else [] := by
  rw [List.filterMap_filterMap]
  split
  next works =>
    apply List.filterMap_congr
    intro report _
    cases report <;> simp [Report.event?, Report.ended?, endedIn?, works]
  next elsewhere =>
    rw [List.filterMap_eq_nil_iff]
    intro report _
    cases report <;> simp [Report.event?, endedIn?, elsewhere]

theorem exists_place {channel : Nat} {station : Station}
    (there : network.station? channel = some station) :
    ∃ place, network.channels[channel]? = some place ∧ place.channel = station.channel := by
  obtain ⟨place, _, _, _, found, _, _, _, rfl⟩ := station?_eq_some_iff.mp there
  exact ⟨place, found, rfl⟩

theorem isOn_eq {channel : Nat} {place : ChannelPlace}
    (found : network.channels[channel]? = some place) (outbox : Nat) :
    network.isOn outbox channel = (place.outbox == outbox) := by
  rw [isOn, found, Option.any_some]

/-- A channel is put back with an outbox. -/
theorem exists_outbox_setStation {channel : Nat} {place : ChannelPlace} (station : Station)
    (foundPlace : network.channels[channel]? = some place)
    (found : network.outboxes[outbox]? = some entry) :
    ∃ later, (network.setStation channel station).outboxes[outbox]? = some later ∧
      (network.isOn outbox channel = true → later.outbox = station.outbox) ∧
      (network.isOn outbox channel = false → later = entry) := by
  rw [outboxes_setStation station foundPlace, isOn_eq foundPlace]
  by_cases here : outbox = place.outbox
  · subst here
    exact ⟨_, by rw [if_pos rfl, found]; rfl, fun _ => rfl, fun elsewhere => by simp at elsewhere⟩
  · refine ⟨entry, by rw [if_neg here, found], ?_, fun _ => rfl⟩
    intro works
    exact absurd (eq_of_beq works).symm here

/-- A channel is put back with the queue that it had. -/
theorem exists_queue_setStation {channel : Nat} {station : Station} (next : Station)
    (there : network.station? channel = some station)
    (found : network.outboxes[outbox]? = some entry)
    (same : network.isOn outbox channel = true →
      next.outbox.queue = station.outbox.queue) :
    ∃ later, (network.setStation channel next).outboxes[outbox]? = some later ∧
      later.outbox.queue = entry.outbox.queue := by
  obtain ⟨place, placeEntry, _, _, foundPlace, foundEntry, _, _, rfl⟩ :=
    station?_eq_some_iff.mp there
  obtain ⟨later, foundLater, here, elsewhere⟩ := exists_outbox_setStation next foundPlace found
  refine ⟨later, foundLater, ?_⟩
  cases works : network.isOn outbox channel with
  | false => rw [elsewhere works]
  | true =>
      rw [here works, same works]
      rw [isOn_eq foundPlace, beq_iff_eq] at works
      subst works
      cases foundEntry.symm.trans found
      rfl

/-! ## Happenings after which no call has left the queue -/

/-- The outbox is there, and no call has left its queue. -/
def KeepsCalls (outbox : Nat) (before after : Network) (entry : OutboxPlace) : Prop :=
  ∃ later added, after.outboxes[outbox]? = some later ∧
    QueueGrows outbox before after entry.outbox.queue later.outbox.queue added

section Keeping

variable (channels : Channels before after) (logged : before.LogsChannels)
include channels logged

theorem keepsCalls_of_events {others : List Event} {later : OutboxPlace} {added : List Call}
    (events : after.events = before.events ++ others)
    (unended : others.filterMap (after.endedIn? outbox) = [])
    (accepted : others.filterMap (acceptedIn? outbox) = added)
    (found : after.outboxes[outbox]? = some later)
    (calls : later.outbox.queue.calls = entry.outbox.queue.calls ++ added) :
    KeepsCalls outbox before after entry := by
  refine ⟨later, added, found, calls, ?_, ?_⟩
  · rw [acceptedIn_append events, accepted]
  · rw [channels.endedIn logged events, unended, List.append_nil]

/-- Nothing is logged but one event that is about no call in a queue. -/
theorem keepsCalls_of_note {event : Event} (found : after.outboxes[outbox]? = some entry)
    (events : after.events = before.events ++ [event])
    (unended : after.endedIn? outbox event = none) (unaccepted : acceptedIn? outbox event = none) :
    KeepsCalls outbox before after entry := by
  apply keepsCalls_of_events channels logged events _ _ found (List.append_nil _).symm
  · simp [unended]
  · simp [unaccepted]

theorem keepsCalls_of_same (found : after.outboxes[outbox]? = some entry)
    (events : after.events = before.events) : KeepsCalls outbox before after entry :=
  keepsCalls_of_events channels logged (by rw [events, List.append_nil]) rfl rfl found
    (List.append_nil _).symm

theorem keepsCalls_of_quiet {taken : Nat → Bool} (quiet : QuietBut taken before after)
    (found : before.outboxes[outbox]? = some entry) : KeepsCalls outbox before after entry := by
  obtain ⟨later, foundLater, same⟩ := quiet.outboxes.kept found
  obtain ⟨others, events, silent⟩ := quiet.events
  have calls : later.outbox.queue.calls = entry.outbox.queue.calls ++ [] := by
    rw [same.queue, List.append_nil]
  refine keepsCalls_of_events channels logged events ?_ ?_ foundLater calls
  all_goals
    rw [List.filterMap_eq_nil_iff]
    intro event member
    have isQuiet := silent event member
    cases event <;> first | rfl | exact isQuiet.elim

theorem keepsCalls_of_accepts {errand place : Nat} {call : Call}
    (accepts : Accepts before after errand place call)
    (found : before.outboxes[outbox]? = some entry) : KeepsCalls outbox before after entry := by
  obtain ⟨old, queue, foundOld, rfl, outboxes⟩ := accepts.outboxes
  by_cases here : place = outbox
  · subst here
    cases foundOld.symm.trans found
    apply keepsCalls_of_events channels logged accepts.events rfl
    · simp [acceptedIn?]
      rfl
    · rw [outboxes, if_pos rfl]
    · rfl
  · apply keepsCalls_of_note channels logged _ accepts.events rfl
    · simp [acceptedIn?, here]
    · rw [outboxes, if_neg (Ne.symm here)]
      exact found

theorem keepsCalls_beginExecution {execution : Execution}
    (begun : after = before.beginExecution execution)
    (found : before.outboxes[outbox]? = some entry) : KeepsCalls outbox before after entry := by
  subst begun
  simp only [beginExecution] at channels ⊢
  split
  next missing =>
    simp only [missing] at channels
    apply keepsCalls_of_same channels logged found
    simp [Network.events, dropExecution]
  next place there =>
    simp only [there] at channels
    exact keepsCalls_of_note channels logged found (events_note _ _) rfl rfl

theorem keepsCalls_endExecution {execution : Execution} {conclusion : Conclusion}
    (ended : after = before.endExecution execution conclusion)
    (found : before.outboxes[outbox]? = some entry) : KeepsCalls outbox before after entry := by
  subst ended
  have executed := events_note (before.dropExecution execution.number)
    (.executed execution.channel execution.invocation conclusion)
  simp only [endExecution] at channels ⊢
  split
  next missing =>
    simp only [missing] at channels
    exact keepsCalls_of_note channels logged found executed rfl rfl
  next station there =>
    simp only [there] at channels
    obtain ⟨place, _, _, _, foundPlace, _⟩ := station?_eq_some_iff.mp there
    obtain ⟨later, foundLater, queue⟩ := exists_queue_setStation
      (station.concludeStep ⟨execution.invocation.id, conclusion.verdict⟩) there found
      fun _ => rfl
    have events := (events_setStation
      (station.concludeStep ⟨execution.invocation.id, conclusion.verdict⟩) foundPlace).trans executed
    apply keepsCalls_of_events channels logged events rfl rfl foundLater
    rw [queue]
    exact (List.append_nil _).symm

end Keeping

/-- A step of a channel that keeps the calls. -/
theorem keepsCalls_afterStep {channel : Nat} {station : Station} {next : Station × List Report}
    (there : before.station? channel = some station)
    (channels : Channels before (before.afterStep channel next)) (logged : before.LogsChannels)
    (keeps : before.isOn outbox channel = true → station.KeepsCalls next)
    (found : before.outboxes[outbox]? = some entry) :
    KeepsCalls outbox before (before.afterStep channel next) entry := by
  obtain ⟨place, _, _, _, foundPlace, _⟩ := station?_eq_some_iff.mp there
  have inside := (Array.getElem?_eq_some_iff.mp foundPlace).1
  have events := events_afterStep foundPlace next
  obtain ⟨later, foundLater, queue⟩ := exists_queue_setStation next.1 there found
    fun works => (keeps works).1
  apply keepsCalls_of_events channels logged events
  · rw [endedIn_reports, channels.isOn inside]
    split
    next works => exact (keeps works).2
    next => rfl
  · exact acceptedIn_ended outbox channel next.2
  · rw [(reported_afterStep before channel next).same]
    exact foundLater
  · rw [queue, List.append_nil]

/-- A step of a channel that has one keeps the calls, unless a call is about to leave the
queue. -/
theorem keepsCalls_send {channel : Nat} {drops : Bool}
    (moved : before.send? channel drops = some after)
    (channels : Channels before after) (logged : before.LogsChannels)
    (unfinished : ∀ station call reply,
      ¬ before.IsFinishing outbox (.move (.send channel drops)) station call reply)
    (found : before.outboxes[outbox]? = some entry) : KeepsCalls outbox before after entry := by
  obtain ⟨station, next, there, stepped, rfl⟩ := send_cases moved
  apply keepsCalls_afterStep there channels logged _ found
  intro works
  apply Station.keepsCalls_sendStep stepped
  intro call reply ended
  exact unfinished station call reply ⟨⟨channel, drops, rfl, works, there⟩, ended⟩

theorem keepsCalls_receive {channel : Nat} (moved : before.receive? channel = some after)
    (channels : Channels before after) (logged : before.LogsChannels)
    (found : before.outboxes[outbox]? = some entry) : KeepsCalls outbox before after entry := by
  obtain ⟨station, next, there, stepped, rfl⟩ := receive_cases moved
  apply keepsCalls_afterStep there channels logged _ found
  exact fun _ => Station.keepsCalls_receiveStep stepped

theorem keepsCalls_close {channel : Nat} (moved : before.close? channel = some after)
    (channels : Channels before after) (logged : before.LogsChannels)
    (found : before.outboxes[outbox]? = some entry) : KeepsCalls outbox before after entry := by
  obtain ⟨station, next, there, stepped, rfl⟩ := close_cases moved
  apply keepsCalls_afterStep there channels logged _ found
  exact fun _ => ⟨Station.queue_closeStep stepped, rfl⟩

/-- A move keeps the calls of an outbox, unless a call is about to leave the queue. -/
theorem keepsCalls_move {move : Move} (moved : before.move? move = some after)
    (channels : Channels before after) (logged : before.LogsChannels)
    (unfinished : ∀ station call reply,
      ¬ before.IsFinishing outbox (.move move) station call reply)
    (found : before.outboxes[outbox]? = some entry) : KeepsCalls outbox before after entry := by
  cases move with
  | send channel drops => exact keepsCalls_send moved channels logged unfinished found
  | receive channel => exact keepsCalls_receive moved channels logged found
  | close channel => exact keepsCalls_close moved channels logged found
  | execute number =>
      obtain ⟨execution, _, ⟨_, begun⟩ | ⟨_, conclusion, _, ended⟩⟩ := execute_cases moved
      · exact keepsCalls_beginExecution channels logged begun found
      · exact keepsCalls_endExecution channels logged ended found
  | errand number =>
      rcases errand_cases moved with quiet | ⟨errand, place, call, accepts⟩
      · exact keepsCalls_of_quiet channels logged quiet found
      · exact keepsCalls_of_accepts channels logged accepts found
  | visit number => exact keepsCalls_of_quiet channels logged (quiet_visit moved) found
  | client place => exact keepsCalls_of_quiet channels logged (quiet_client moved) found
  | watch link side => exact keepsCalls_of_quiet channels logged (quiet_watch moved) found

/-- What happens besides the moves keeps the calls of an outbox that nobody works on
directly. -/
theorem keepsCalls_of_outside (takes : Takes before happening after)
    (outside : ∀ move, happening ≠ .move move) (logged : before.LogsChannels)
    (apart : happening.handles outbox = false) (awake : happening.sleeps = false)
    (found : before.outboxes[outbox]? = some entry) : KeepsCalls outbox before after entry := by
  have channels := takes.channels awake
  cases takes with
  | quiet quiet => exact keepsCalls_of_quiet channels logged quiet found
  | @handle _ place changed _ _ handles =>
      have elsewhere : place ≠ outbox := by
        rintro rfl
        cases apart.symm.trans handles
      rw [setBacklog_eq] at channels ⊢
      apply keepsCalls_of_same channels logged
      · simp [modifyOutbox, Array.getElem?_modify, elsewhere, found]
      · simp [Network.events, modifyOutbox]
  | sleep => cases awake
  | turn _ _ | begin _ _ | conclude _ _ | accept _ => exact absurd rfl (outside _)

/-- Every happening keeps the calls of an outbox, unless a call is about to leave its queue
or somebody works on it directly. -/
theorem keepsCalls_happen (logged : before.LogsChannels) (apart : happening.handles outbox = false)
    (awake : happening.sleeps = false)
    (unfinished : ∀ station call reply, ¬ before.IsFinishing outbox happening station call reply)
    (found : before.outboxes[outbox]? = some entry) :
    KeepsCalls outbox before (before.happen happening) entry := by
  have takes := takes_happen before happening
  -- `Takes` does not tell which step of a channel was taken, so moves are looked at one by one.
  by_cases isMove : ∃ move, happening = .move move
  · obtain ⟨move, rfl⟩ := isMove
    have channels := takes.channels awake
    simp only [happen] at channels ⊢
    cases moved : before.move? move with
    | none =>
        rw [moved, Option.getD_none] at channels
        exact keepsCalls_of_same channels logged found rfl
    | some next =>
        rw [moved, Option.getD_some] at channels
        exact keepsCalls_move moved channels logged unfinished found
  · have outside : ∀ move, happening ≠ .move move := fun move same => isMove ⟨move, same⟩
    exact keepsCalls_of_outside takes outside logged apart awake found

/-! ## A call that has ended -/

/-- Calls leave the queue of an outbox as they end, and each with a reply of its own if no
call came with another one. -/
structure KeepsEnds (outbox : Nat) (initial : List Call) (network : Network)
    (entry : OutboxPlace) : Prop where
  order : KeepsOrder outbox initial network entry
  logged : network.LogsChannels
  settles : ∀ {channel : Nat} {place : ChannelPlace}, network.channels[channel]? = some place →
    place.outbox = outbox → place.channel.Settles
  accounted : ∃ removed, initial ++ network.acceptedIn outbox =
    removed ++ entry.outbox.queue.calls ∧ List.Forall₂ HasEnded removed (network.endedIn outbox)
  owns : (∀ call ∈ initial ++ network.acceptedIn outbox, call.CarriesOwn) →
    (∀ ended ∈ network.endedIn outbox, ended.2.id = ended.1.id) ∧
    ∀ {channel : Nat} {place : ChannelPlace}, network.channels[channel]? = some place →
      place.outbox = outbox → place.channel.Owns

/-- A channel has taken the step in which a call that has ended leaves the queue. -/
structure Finishes (outbox channel : Nat) (happening : Happening) (before : Network)
    (next : Station × List Report) (later : OutboxPlace) : Prop where
  happens : before.happen happening = before.afterStep channel next
  works : before.isOn outbox channel = true
  found : (before.happen happening).outboxes[outbox]? = some later
  put : later.outbox = next.1.outbox
  accepted : (before.happen happening).acceptedIn outbox = before.acceptedIn outbox
  ended : (before.happen happening).endedIn outbox =
    before.endedIn outbox ++ next.2.filterMap Report.ended?

section Finishing

variable {station : Station} {call : Call} {reply : Reply}
  (finishing : before.IsFinishing outbox happening station call reply)
include finishing

theorem IsFinishing.happen : ∃ channel, before.station? channel = some station ∧
    before.isOn outbox channel = true ∧
    before.happen happening = before.afterStep channel (station.dequeueEnded call reply) := by
  obtain ⟨channel, drops, rfl, works, there⟩ := finishing.move
  refine ⟨channel, there, works, ?_⟩
  simp [Network.happen, move?, send?, there, Station.sendStep, finishing.sender]

theorem IsFinishing.outbox_eq (found : before.outboxes[outbox]? = some entry) :
    station.outbox = entry.outbox := by
  obtain ⟨channel, _, _, works, there⟩ := finishing.move
  obtain ⟨place, placeEntry, _, _, foundPlace, foundEntry, _, _, rfl⟩ :=
    station?_eq_some_iff.mp there
  rw [isOn_eq foundPlace, beq_iff_eq] at works
  subst works
  cases foundEntry.symm.trans found
  rfl

theorem IsFinishing.exists_channel : ∃ (channel : Nat) (place : ChannelPlace),
    before.channels[channel]? = some place ∧ place.outbox = outbox ∧
      place.channel = station.channel := by
  obtain ⟨channel, _, _, works, there⟩ := finishing.move
  obtain ⟨place, foundPlace, same⟩ := exists_place there
  rw [isOn_eq foundPlace, beq_iff_eq] at works
  exact ⟨channel, place, foundPlace, works, same⟩

/-- The call is the head of the queue. -/
theorem IsFinishing.heads (order : KeepsOrder outbox initial before entry) :
    entry.outbox.queue.Heads call := by
  obtain ⟨channel, place, foundPlace, works, same⟩ := finishing.exists_channel
  have ended : place.channel.sender = .dequeuing call reply := same ▸ finishing.sender
  have alive : place.channel.hasEnded = false := by
    cases closed : place.channel.hasEnded with
    | false => rfl
    | true => cases ended.symm.trans (order.closes channel place foundPlace works closed)
  exact ((order.follows channel place foundPlace works alive).dequeuing call reply ended).2

/-- The channel takes its call from the queue of the outbox, and nothing else happens. -/
theorem IsFinishing.finishes (logged : before.LogsChannels)
    (found : before.outboxes[outbox]? = some entry) :
    ∃ channel later, before.station? channel = some station ∧
      Finishes outbox channel happening before (station.dequeueEnded call reply) later := by
  obtain ⟨channel, there, works, happens⟩ := finishing.happen
  have awake : happening.sleeps = false := by
    obtain ⟨_, _, rfl, _⟩ := finishing.move
    rfl
  have channels := (takes_happen before happening).channels awake
  obtain ⟨place, foundPlace, _⟩ := exists_place there
  have inside := (Array.getElem?_eq_some_iff.mp foundPlace).1
  generalize station.dequeueEnded call reply = next at happens ⊢
  have events := events_afterStep foundPlace next
  rw [← happens] at events
  obtain ⟨later, foundLater, put, _⟩ := exists_outbox_setStation next.1 foundPlace found
  refine ⟨channel, later, there, happens, works, ?_, put works, ?_, ?_⟩
  · rw [happens, (reported_afterStep before channel next).same]
    exact foundLater
  · rw [acceptedIn_append events, acceptedIn_ended, List.append_nil]
  · rw [channels.endedIn logged events, endedIn_reports, channels.isOn inside, if_pos works]

/-- What a channel finishes is what happens to the calls of its outbox. -/
theorem QueueStep.of_finished {next : Station × List Report}
    (finished : station.Finished call reply next) (endsWith : call.EndsWith reply)
    (accepted : after.acceptedIn outbox = before.acceptedIn outbox)
    (ended : after.endedIn outbox = before.endedIn outbox ++ next.2.filterMap Report.ended?) :
    QueueStep outbox happening before after station.outbox next.1.outbox := by
  cases finished with
  | left removed isCons sameCall queue tells =>
      apply QueueStep.leaves finishing removed _ sameCall endsWith tells accepted ended
      rw [queue]
      exact isCons
  | stayed failed isHead queue waiters =>
      have silent := ended.trans (List.append_nil _)
      exact QueueStep.remains finishing failed (queue ▸ isHead) queue waiters accepted silent

/-- If the call is the head, then it leaves the queue or has to remain. -/
theorem IsFinishing.queueStep (logged : before.LogsChannels)
    (found : before.outboxes[outbox]? = some entry) (heads : entry.outbox.queue.Heads call)
    (endsWith : call.EndsWith reply) :
    ∃ later, (before.happen happening).outboxes[outbox]? = some later ∧
      QueueStep outbox happening before (before.happen happening) entry.outbox later.outbox := by
  obtain ⟨_, later, _, finishes⟩ := finishing.finishes logged found
  have same := finishing.outbox_eq found
  have finished := Station.dequeueEnded_finished (same ▸ heads) reply
  refine ⟨later, finishes.found, ?_⟩
  rw [finishes.put, ← same]
  exact .of_finished finishing finished endsWith finishes.accepted finishes.ended

theorem KeepsEnds.finish (keeps : KeepsEnds outbox initial before entry) :
    ∃ later, (before.happen happening).outboxes[outbox]? = some later ∧
      QueueStep outbox happening before (before.happen happening) entry.outbox later.outbox := by
  apply finishing.queueStep keeps.logged keeps.order.found (finishing.heads keeps.order)
  obtain ⟨channel, place, foundPlace, works, same⟩ := finishing.exists_channel
  exact keeps.settles foundPlace works call reply (same ▸ finishing.sender)

end Finishing

/-- What any happening does to the calls of an outbox that is served alone. -/
theorem KeepsEnds.step (keeps : KeepsEnds outbox initial before entry)
    (apart : happening.handles outbox = false) (awake : happening.sleeps = false) :
    ∃ later, (before.happen happening).outboxes[outbox]? = some later ∧
      QueueStep outbox happening before (before.happen happening) entry.outbox later.outbox := by
  -- Nothing but a channel that is about to take a call from the queue does so.
  by_cases finishing : ∃ station call reply,
      before.IsFinishing outbox happening station call reply
  · obtain ⟨station, call, reply, finishing⟩ := finishing
    exact keeps.finish finishing
  · have unfinished : ∀ station call reply,
        ¬ before.IsFinishing outbox happening station call reply :=
      fun station call reply ends => finishing ⟨station, call, reply, ends⟩
    obtain ⟨later, added, found, grows⟩ :=
      keepsCalls_happen keeps.logged apart awake unfinished keeps.order.found
    exact ⟨later, found, .grows unfinished grows⟩

/-! ## What a happening preserves -/

theorem QueueStep.accepted {later : Outbox}
    (step : QueueStep outbox happening before after entry.outbox later) :
    ∃ added, after.acceptedIn outbox = before.acceptedIn outbox ++ added := by
  cases step with
  | grows _ grows => exact ⟨_, grows.accepted⟩
  | leaves _ _ _ _ _ _ same _ | remains _ _ _ _ _ same _ =>
      exact ⟨[], by rw [same, List.append_nil]⟩

/-- What is reported is a reply to the call that has ended. -/
theorem QueueStep.owned {later : Outbox}
    (step : QueueStep outbox happening before after entry.outbox later)
    (told : ∀ ended ∈ before.endedIn outbox, ended.2.id = ended.1.id)
    (owned : ∀ {channel : Nat} {place : ChannelPlace}, before.channels[channel]? = some place →
      place.outbox = outbox → place.channel.Owns) :
    ∀ ended ∈ after.endedIn outbox, ended.2.id = ended.1.id := by
  cases step with
  | grows _ grows =>
      rw [grows.ended]
      exact told
  | remains _ _ _ _ _ _ same =>
      rw [same]
      exact told
  | leaves finishing _ _ _ _ _ _ log =>
      intro ended member
      rw [log, List.mem_append, List.mem_singleton] at member
      rcases member with old | rfl
      · exact told ended old
      · obtain ⟨channel, place, foundPlace, works, same⟩ := finishing.exists_channel
        exact (owned foundPlace works).dequeuing _ _ (same ▸ finishing.sender)

theorem QueueStep.accounted {later : Outbox}
    (step : QueueStep outbox happening before after entry.outbox later)
    (accounted : ∃ removed, initial ++ before.acceptedIn outbox =
      removed ++ entry.outbox.queue.calls ∧
        List.Forall₂ HasEnded removed (before.endedIn outbox)) :
    ∃ removed, initial ++ after.acceptedIn outbox = removed ++ later.queue.calls ∧
      List.Forall₂ HasEnded removed (after.endedIn outbox) := by
  obtain ⟨removed, equal, ended⟩ := accounted
  cases step with
  | @grows added _ grows =>
      refine ⟨removed, ?_, by rw [grows.ended]; exact ended⟩
      rw [grows.accepted, grows.calls, ← List.append_assoc, equal, List.append_assoc]
  | @leaves _ call head reply _ _ isCons same endsWith _ accepted log =>
      refine ⟨removed ++ [head], ?_, ?_⟩
      · rw [accepted, equal, isCons, List.append_assoc, List.singleton_append]
      · rw [log]
        exact List.rel_append ended (.cons ⟨same, endsWith⟩ .nil)
  | remains _ _ _ queue _ accepted log =>
      rw [accepted, log, queue]
      exact ⟨removed, equal, ended⟩

theorem Channels.settles (channels : Channels before after)
    (settles : ∀ {channel : Nat} {place : ChannelPlace}, before.channels[channel]? = some place →
      place.outbox = outbox → place.channel.Settles)
    {channel : Nat} {place : ChannelPlace} (found : after.channels[channel]? = some place)
    (works : place.outbox = outbox) : place.channel.Settles := by
  apply channels.preserves _ _ _ _ settles found works
  · exact fun _ _ => .of_isFree trivial
  · exact fun settles => settles
  · exact fun settles => settles
  · exact fun _ _ turn settles => turn.settles settles

theorem Channels.owns (channels : Channels before after)
    (foundEntry : before.outboxes[outbox]? = some entry)
    (queued : ∀ call ∈ entry.outbox.queue.calls, call.CarriesOwn)
    (owns : ∀ {channel : Nat} {place : ChannelPlace}, before.channels[channel]? = some place →
      place.outbox = outbox → place.channel.Owns)
    {channel : Nat} {place : ChannelPlace} (found : after.channels[channel]? = some place)
    (works : place.outbox = outbox) : place.channel.Owns := by
  apply channels.preserves _ _ _ _ owns found works
  · exact fun _ _ => .of_isFree trivial fun _ flying => by cases flying
  · exact fun owns => ⟨owns.inFlight, owns.dequeuing⟩
  · exact fun owns => ⟨owns.inFlight, owns.dequeuing⟩
  · intro other station next foundOther same turn owns
    cases foundOther.symm.trans foundEntry
    exact turn.owns (same ▸ queued) owns

theorem KeepsEnds.happen (keeps : KeepsEnds outbox initial before entry)
    (alone : (before.serving outbox).length ≤ 1) (apart : happening.handles outbox = false)
    (awake : happening.sleeps = false) :
    ∃ later, KeepsEnds outbox initial (before.happen happening) later := by
  have takes := takes_happen before happening
  have channels := takes.channels awake
  obtain ⟨later, order⟩ := keeps.order.takes alone takes apart awake
  obtain ⟨same, found, step⟩ := keeps.step apart awake
  cases order.found.symm.trans found
  refine ⟨later, order, keeps.logged.takes takes awake, channels.settles keeps.settles,
    step.accounted keeps.accounted, ?_⟩
  · intro carried
    obtain ⟨added, accepted⟩ := step.accepted
    rw [accepted, ← List.append_assoc] at carried
    obtain ⟨told, owned⟩ :=
      keeps.owns fun call member => carried call (List.mem_append_left _ member)
    constructor
    · exact step.owned told owned
    · intro channel place foundPlace works
      apply channels.owns keeps.order.found _ owned foundPlace works
      -- What a channel takes from the queue came into it at some time.
      intro call member
      obtain ⟨removed, equal⟩ := keeps.order.queue
      apply carried
      rw [equal]
      exact List.mem_append_left _ (List.mem_append_right _ member)

/-- An outbox is served alone, and its calls leave as they end. -/
def IsServed (outbox : Nat) (initial : List Call) (network : Network) : Prop :=
  (network.serving outbox).length ≤ 1 ∧ ∃ entry, KeepsEnds outbox initial network entry

theorem IsServed.run {happenings : List Happening} (served : IsServed outbox initial network)
    (obeys : Obeys (ServedAlone outbox) network happenings) :
    IsServed outbox initial (network.run happenings) := by
  refine obeys.preserves ?_ served
  rintro network happening ⟨apart, awake, aloneNext⟩ ⟨alone, entry, keeps⟩
  exact ⟨aloneNext, keeps.happen alone apart awake⟩

/-! ## No call is lost -/

/-- Of the calls that came into the queue of an outbox, those that have left it have ended
for good and were reported so. -/
structure LeavesEnded (network : Network) (outbox : Nat) (calls : List Call) : Prop where
  /-- The calls that have left the queue are those that were reported as ended. -/
  accounted : ∃ entry removed, network.outboxes[outbox]? = some entry ∧
    calls = removed ++ entry.outbox.queue.calls ∧
    List.Forall₂ HasEnded removed (network.endedIn outbox)
  /-- What is reported as the reply to a call is one to this call. -/
  own : (∀ call ∈ calls, call.CarriesOwn) →
    ∀ ended ∈ network.endedIn outbox, ended.2.id = ended.1.id
  /-- Whatever happens next, a call leaves the queue only as it ends. -/
  step : ∀ {happening}, ServedAlone outbox network happening →
    ∃ entry later, network.outboxes[outbox]? = some entry ∧
      (network.happen happening).outboxes[outbox]? = some later ∧
      QueueStep outbox happening network (network.happen happening) entry.outbox later.outbox

theorem KeepsEnds.leavesEnded (keeps : KeepsEnds outbox initial network entry) :
    network.LeavesEnded outbox (initial ++ network.acceptedIn outbox) where
  accounted := by
    obtain ⟨removed, equal, ended⟩ := keeps.accounted
    exact ⟨entry, removed, keeps.order.found, equal, ended⟩
  own carried := (keeps.owns carried).1
  step served := by
    obtain ⟨later, found, step⟩ := keeps.step served.1 served.2.1
    exact ⟨entry, later, keeps.order.found, found, step⟩

/-- An outbox, with the calls that are in its queue at the beginning, is served by channels
one at a time. Then no call leaves the queue but with a reply with which it ends for good:
if it can be removed, whoever waits for it gets this reply and the channel reports it, and
if not, the call stays the head of the queue and nobody is told. -/
theorem leavesEnded_run {start : Network} {happenings : List Happening}
    (found : start.outboxes[outbox]? = some entry)
    (unserved : ∀ place ∈ start.channels, place.outbox ≠ outbox) (silent : start.events = [])
    (obeys : Obeys (ServedAlone outbox) start happenings) :
    (start.run happenings).LeavesEnded outbox
      (entry.outbox.queue.calls ++ (start.run happenings).acceptedIn outbox) := by
  have unaccepted : start.acceptedIn outbox = [] := by rw [acceptedIn, silent, List.filterMap_nil]
  have unended : start.endedIn outbox = [] := by rw [endedIn, silent, List.filterMap_nil]
  have order := keepsOrder_start unserved found unaccepted
  have apart : ∀ (channel : Nat) (place : ChannelPlace),
      start.channels[channel]? = some place → place.outbox ≠ outbox :=
    fun _ place foundPlace => unserved place (Array.mem_of_getElem? foundPlace)
  have begins : IsServed outbox entry.outbox.queue.calls start := by
    refine ⟨by simp [serving_start unserved], entry, order, ?_, ?_, ?_, ?_⟩
    · intro channel call reply member
      rw [silent] at member
      cases member
    · intro channel place foundPlace works
      exact absurd works (apart channel place foundPlace)
    · exact ⟨[], by simp [unaccepted], by rw [unended]; exact .nil⟩
    · intro _
      constructor
      · simp [unended]
      · intro channel place foundPlace works
        exact absurd works (apart channel place foundPlace)
  obtain ⟨alone, later, keeps⟩ := begins.run obeys
  exact keeps.leavesEnded

/-- A call that is sent again until it has ended. -/
def lasting : Call := { Call.new .server ⟨1, "first", []⟩ with policy := some .retry }

/-- An outbox with a call of its backlog, and two links to its target. -/
def restored : Network :=
  { empty with
    backlogs := #[Backlog.ofStore (.memory ⟨[lasting]⟩)]
    outboxes := #[⟨⟨⟨.server, 10, [lasting]⟩, Waiters.none, false, Settings.standard⟩, some 0⟩]
    answers := #[.new 10]
    links := #[.new 1000, .new 1000] }

/-- A channel sends the call and gets its reply. -/
def attempt (channel : Nat) : List Happening :=
  [.startChannel ⟨.server, none⟩ .left channel 0 0 fun _ _ => default,
    .move (.send channel false), .move (.send channel false), .move (.send channel false),
    .act (.send channel .right (Reply.encode (.success 1 [7]))), .move (.receive channel),
    .move (.send channel false)]

/-- The call has ended, but it cannot be removed from the backlog. -/
def refusedRemoval : List Happening :=
  attempt 0 ++ [.act (.refuse 0 [.remove]), .move (.send 0 false)]

/-- The next channel makes another attempt. -/
def secondAttempt : List Happening :=
  refusedRemoval ++ [.move (.receive 0), .move (.close 0), .act (.refuse 0 [])] ++ attempt 1 ++
    [.move (.send 1 false)]

theorem leavesEnded_secondAttempt :
    (restored.run secondAttempt).LeavesEnded 0 [lasting] ∧
    ((restored.run refusedRemoval).outboxes[0]?).map (·.outbox.queue.calls) = some [lasting] ∧
    (restored.run refusedRemoval).endedIn 0 = [] ∧
    ((restored.run secondAttempt).endedIn 0).map (fun ended => (ended.1.id, ended.2)) =
      [(1, .success 1 [7])] := by
  have obeys : Obeys (ServedAlone 0) restored secondAttempt := by decide +kernel
  have accepted : (restored.run secondAttempt).acceptedIn 0 = [] := by decide +kernel
  have leaves := leavesEnded_run rfl (by decide) rfl obeys
  rw [accepted] at leaves
  exact ⟨leaves, by decide +kernel, by decide +kernel, by decide +kernel⟩

end Network

end PeerCalls
