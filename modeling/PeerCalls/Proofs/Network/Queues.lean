import PeerCalls.Proofs.Network.Endings

/-!
# What becomes of a queue

If nobody works on a queue from outside, calls leave it from its head because a channel
takes them, and a call comes to its end because an errand puts it there. So a queue is what
came into it after what has left it, and as long as no channel works on it nothing leaves it.
-/

namespace PeerCalls

namespace Network

/-- What a happening makes of the queue of an outbox: the queue after it, and what has come
into it. -/
inductive QueueGoes (network : Network) (outbox : Nat) (queue : Queue) :
    Queue → List Call → Prop where
  | stays : QueueGoes network outbox queue queue []
  /-- A channel takes calls from the head. -/
  | loses {channel : Nat} {place : ChannelPlace} {later : Queue} {removed : List Call} :
      network.channels[channel]? = some place → place.outbox = outbox →
      queue = { later with calls := removed ++ later.calls } →
      QueueGoes network outbox queue later []
  /-- An errand puts its call to the end. -/
  | gains {errand : Errand} {run : Run} :
      errand ∈ network.errands → errand.stage = .running outbox run →
      QueueGoes network outbox queue { queue with calls := queue.calls ++ [run.call] } [run.call]

theorem QueueGoes.target {network : Network} {outbox : Nat} {queue later : Queue}
    {added : List Call} (goes : network.QueueGoes outbox queue later added) :
    later.target = queue.target := by
  cases goes with
  | stays | gains _ _ => rfl
  | loses _ _ same => rw [same]

variable {outbox : Nat} {before after : Network} {entry : OutboxPlace} {happening : Happening}

/-- The outbox is there after a happening, with what has become of its queue. -/
def HasQueue (outbox : Nat) (before after : Network) (queue : Queue) : Prop :=
  ∃ later added, after.outboxes[outbox]? = some later ∧
    after.acceptedIn outbox = before.acceptedIn outbox ++ added ∧
    before.QueueGoes outbox queue later.outbox.queue added

theorem hasQueue_of_events {others : List Event} {later : OutboxPlace}
    (found : after.outboxes[outbox]? = some later) (events : after.events = before.events ++ others)
    (unaccepted : others.filterMap (acceptedIn? outbox) = []) {queue : Queue}
    (goes : before.QueueGoes outbox queue later.outbox.queue []) :
    HasQueue outbox before after queue :=
  ⟨later, [], found, by rw [acceptedIn_append events, unaccepted], goes⟩

theorem hasQueue_of_same (found : after.outboxes[outbox]? = some entry)
    (events : after.events = before.events) :
    HasQueue outbox before after entry.outbox.queue :=
  hasQueue_of_events found (by rw [events, List.append_nil]) rfl .stays

/-- Nothing is logged but one event that is about no call in a queue. -/
theorem hasQueue_of_note {event : Event} (found : after.outboxes[outbox]? = some entry)
    (events : after.events = before.events ++ [event])
    (unaccepted : acceptedIn? outbox event = none) :
    HasQueue outbox before after entry.outbox.queue :=
  hasQueue_of_events found events (by simp [unaccepted]) .stays

theorem hasQueue_of_quiet {taken : Nat → Bool} (quiet : QuietBut taken before after)
    (found : before.outboxes[outbox]? = some entry) :
    HasQueue outbox before after entry.outbox.queue := by
  obtain ⟨later, foundLater, same⟩ := quiet.outboxes.kept found
  obtain ⟨others, events, silent⟩ := quiet.events
  refine hasQueue_of_events foundLater events ?_ (same.queue ▸ .stays)
  rw [List.filterMap_eq_nil_iff]
  intro event member
  have isQuiet := silent event member
  cases event <;> first | rfl | exact isQuiet.elim

theorem hasQueue_of_accepts {errand : Errand} {place : Nat} {run : Run}
    (member : errand ∈ before.errands) (runs : errand.stage = .running place run)
    (accepts : Accepts before after errand.number place run.call)
    (found : before.outboxes[outbox]? = some entry) :
    HasQueue outbox before after entry.outbox.queue := by
  obtain ⟨old, queue, foundOld, rfl, outboxes⟩ := accepts.outboxes
  by_cases here : outbox = place
  · subst here
    cases foundOld.symm.trans found
    refine ⟨_, [run.call], by rw [outboxes, if_pos rfl], ?_, .gains member runs⟩
    rw [acceptedIn_append accepts.events]
    simp [acceptedIn?]
  · refine hasQueue_of_events (by rw [outboxes, if_neg here]; exact found) accepts.events ?_ .stays
    simp [acceptedIn?, Ne.symm here]

/-- The step of an errand that works on an outbox. -/
theorem hasQueue_errand {number : Nat} (moved : before.errand? number = some after)
    (found : before.outboxes[outbox]? = some entry) :
    HasQueue outbox before after entry.outbox.queue := by
  obtain ⟨errand, member, ⟨place, _, entered⟩ | ⟨server, client, _, sought⟩ |
    ⟨place, run, runs, ran⟩ | ⟨server, client, reply, _, rfl⟩⟩ := errand?_cases moved
  · exact hasQueue_of_quiet (quiet_enterOutbox entered) found
  · exact hasQueue_of_quiet (quiet_seekOutbox sought) found
  · rcases runErrand_cases ran with quiet | accepts
    · exact hasQueue_of_quiet quiet found
    · exact hasQueue_of_accepts member runs accepts found
  · exact hasQueue_of_quiet ((quiet_tidy _ _ _).trans (Quiet.endErrand _ _ _)) found

theorem hasQueue_turn {channel : Nat} {station : Station} {next : Station × List Report}
    (there : before.station? channel = some station) (turn : station.Turn next.1 next.2)
    (found : before.outboxes[outbox]? = some entry) :
    HasQueue outbox before (before.afterStep channel next) entry.outbox.queue := by
  obtain ⟨place, placeEntry, _, _, foundPlace, foundEntry, _, _, rfl⟩ :=
    station?_eq_some_iff.mp there
  have outboxes := outboxes_afterStep foundPlace next outbox
  have silent := acceptedIn_ended outbox channel next.2
  split at outboxes
  next here =>
    subst here
    cases foundEntry.symm.trans found
    rw [found] at outboxes
    obtain ⟨removed, same⟩ := turn.queue
    exact hasQueue_of_events outboxes (events_afterStep foundPlace next) silent
      (.loses foundPlace rfl same)
  next elsewhere =>
    exact hasQueue_of_events (outboxes.trans found) (events_afterStep foundPlace next) silent .stays

theorem hasQueue_endExecution {execution : Execution} {conclusion : Conclusion}
    (found : before.outboxes[outbox]? = some entry) :
    HasQueue outbox before (before.endExecution execution conclusion) entry.outbox.queue := by
  have executed : ((before.dropExecution execution.number).note
      (.executed execution.channel execution.invocation conclusion)).events =
      before.events ++ [.executed execution.channel execution.invocation conclusion] :=
    events_note _ _
  simp only [endExecution]
  split
  next =>
    refine hasQueue_of_note ?_ executed rfl
    exact found
  next station there =>
    obtain ⟨place, _, _, _, foundPlace, _⟩ := station?_eq_some_iff.mp there
    obtain ⟨later, foundLater, queue⟩ := exists_queue_setStation
      (station.concludeStep ⟨execution.invocation.id, conclusion.verdict⟩) there found
      fun _ => rfl
    have events := (events_setStation
      (station.concludeStep ⟨execution.invocation.id, conclusion.verdict⟩) foundPlace).trans executed
    refine hasQueue_of_events foundLater events rfl ?_
    rw [queue]
    exact .stays

theorem hasQueue_move {move : Move} (moved : before.move? move = some after)
    (found : before.outboxes[outbox]? = some entry) :
    HasQueue outbox before after entry.outbox.queue := by
  cases move with
  | send channel drops =>
      obtain ⟨station, next, there, stepped, rfl⟩ := send_cases moved
      exact hasQueue_turn there (Station.sendStep_turn stepped) found
  | receive channel =>
      obtain ⟨station, next, there, stepped, rfl⟩ := receive_cases moved
      exact hasQueue_turn there (Station.receiveStep_change stepped).turn found
  | close channel =>
      obtain ⟨station, next, there, stepped, rfl⟩ := close_cases moved
      exact hasQueue_turn there (Station.closeStep_change stepped).turn found
  | execute number =>
      obtain ⟨execution, _, ⟨_, rfl⟩ | ⟨_, conclusion, _, rfl⟩⟩ := execute_cases moved
      · simp only [beginExecution]
        split
        · exact hasQueue_of_same found rfl
        · refine hasQueue_of_note ?_ (events_note _ _) rfl
          exact found
      · exact hasQueue_endExecution found
  | errand number => exact hasQueue_errand moved found
  | visit number => exact hasQueue_of_quiet (quiet_visit moved) found
  | client place => exact hasQueue_of_quiet (quiet_client moved) found
  | watch link side => exact hasQueue_of_quiet (quiet_watch moved) found

/-- What is done besides moves leaves a queue alone that nobody works on directly. -/
theorem hasQueue_of_outside (takes : Takes before happening after)
    (unmoved : ∀ move, happening ≠ .move move) (apart : happening.handles outbox = false)
    (awake : happening.sleeps = false) (found : before.outboxes[outbox]? = some entry) :
    HasQueue outbox before after entry.outbox.queue := by
  cases takes with
  | quiet quiet => exact hasQueue_of_quiet quiet found
  | turn _ _ | begin _ _ | conclude _ _ | accept _ => exact absurd rfl (unmoved _)
  | @handle _ place changed _ _ handles =>
      have elsewhere : outbox ≠ place := by
        rintro rfl
        cases apart.symm.trans handles
      rw [setBacklog_eq]
      apply hasQueue_of_same
      · simp only [modifyOutbox]
        rw [Array.getElem?_modify, if_neg (Ne.symm elsewhere)]
        exact found
      · simp [Network.events, modifyOutbox]
  | sleep => cases awake

/-- What becomes of a queue that nobody works on from outside. -/
theorem hasQueue_happen (apart : happening.handles outbox = false)
    (awake : happening.sleeps = false) (found : before.outboxes[outbox]? = some entry) :
    HasQueue outbox before (before.happen happening) entry.outbox.queue := by
  have outside := fun unmoved =>
    hasQueue_of_outside (takes_happen before happening) unmoved apart awake found
  cases happening with
  | move move =>
      simp only [happen]
      cases moved : before.move? move with
      | none => exact hasQueue_of_same found rfl
      | some next => exact hasQueue_move moved found
  | _ => exact outside (by simp)

end Network

end PeerCalls
