import PeerCalls.Proofs.Channel.InFlight
import PeerCalls.Proofs.Frame.Reading
import PeerCalls.Proofs.Network.Executions
import PeerCalls.Proofs.Network.Reports
import PeerCalls.Proofs.Network.Steps

/-!
# Calls leave in the order in which they came

An outbox is served by channels one at a time: a channel begins only after the one
before it has ended. Then a call is sent only after all calls that the queue took
before it have left the queue. The invariant says that the calls taken so far are
those that have left the queue and then those that are in it, and that what the
channel has in its hands belongs to the head.
-/

namespace PeerCalls.Network

/-- The call that the queue of an outbox has taken. -/
def acceptedIn? (outbox : Nat) : Event → Option Call
  | .accepted _ place call => if place = outbox then some call else none
  | _ => none

/-- The calls that the queue of an outbox has taken, in this order. -/
def acceptedIn (network : Network) (outbox : Nat) : List Call :=
  network.events.filterMap (acceptedIn? outbox)

/-- The channel works on an outbox and has not ended. -/
def isServing (network : Network) (outbox channel : Nat) : Bool :=
  (network.channels[channel]?).any fun place =>
    place.outbox == outbox && !place.channel.hasEnded

/-- The channels that work on an outbox and have not ended. -/
def serving (network : Network) (outbox : Nat) : List Nat :=
  (List.range network.channels.size).filter (network.isServing outbox)

/-- At most one channel serves an outbox at a time, calls come into its queue by errands
only, and only channels take them out. -/
def ServedAlone (outbox : Nat) (network : Network) (happening : Happening) : Prop :=
  happening.handles outbox = false ∧ happening.sleeps = false ∧
    ((network.happen happening).serving outbox).length ≤ 1

instance (outbox : Nat) (network : Network) (happening : Happening) :
    Decidable (ServedAlone outbox network happening) :=
  inferInstanceAs (Decidable (_ ∧ _ ∧ _))

/-- Of the calls that came into a queue, some have left it, and the channel that serves
it follows the head. -/
structure KeepsOrder (outbox : Nat) (initial : List Call) (network : Network)
    (entry : OutboxPlace) : Prop where
  found : network.outboxes[outbox]? = some entry
  queue : ∃ removed, initial ++ network.acceptedIn outbox = removed ++ entry.outbox.queue.calls
  closes : ∀ (channel : Nat) (place : ChannelPlace), network.channels[channel]? = some place →
    place.outbox = outbox → place.channel.hasEnded = true → place.channel.sender = .ended
  follows : ∀ (channel : Nat) (place : ChannelPlace), network.channels[channel]? = some place →
    place.outbox = outbox → place.channel.hasEnded = false →
      place.channel.Follows entry.outbox.queue

/-! ## Channels that serve an outbox -/

section Serving

variable {network : Network} {outbox channel : Nat} {place : ChannelPlace}

theorem mem_serving (found : network.channels[channel]? = some place)
    (works : place.outbox = outbox) (alive : place.channel.hasEnded = false) :
    channel ∈ network.serving outbox := by
  rw [serving, List.mem_filter, List.mem_range, isServing, found, Option.any_some, works, alive,
    beq_self_eq_true]
  exact ⟨(Array.getElem?_eq_some_iff.mp found).1, rfl⟩

/-- Two channels that serve an outbox that is served alone are the same. -/
theorem eq_of_serving (alone : (network.serving outbox).length ≤ 1) {other : Nat}
    (member : channel ∈ network.serving outbox) (otherMember : other ∈ network.serving outbox) :
    channel = other := by
  match network.serving outbox, alone, member, otherMember with
  | [only], _, member, otherMember =>
      rw [List.mem_singleton] at member otherMember
      exact member.trans otherMember.symm

end Serving

/-! ## What a happening preserves -/

variable {outbox : Nat} {initial : List Call} {before after : Network} {entry : OutboxPlace}

theorem acceptedIn_append {others : List Event} (events : after.events = before.events ++ others)
    (outbox : Nat) :
    after.acceptedIn outbox = before.acceptedIn outbox ++ others.filterMap (acceptedIn? outbox) := by
  rw [acceptedIn, events, List.filterMap_append, acceptedIn]

/-- Neither channels nor outboxes change, and no call is accepted. -/
theorem KeepsOrder.of_eq (keeps : KeepsOrder outbox initial before entry)
    (channels : after.channels = before.channels) (outboxes : after.outboxes = before.outboxes)
    (accepted : after.acceptedIn outbox = before.acceptedIn outbox) :
    KeepsOrder outbox initial after entry where
  found := outboxes ▸ keeps.found
  queue := accepted ▸ keeps.queue
  closes := channels ▸ keeps.closes
  follows := channels ▸ keeps.follows

theorem KeepsOrder.quiet {taken : Nat → Bool} (keeps : KeepsOrder outbox initial before entry)
    (quiet : QuietBut taken before after) : ∃ later, KeepsOrder outbox initial after later := by
  obtain ⟨later, foundLater, same⟩ := quiet.outboxes.kept keeps.found
  obtain ⟨others, events, silent⟩ := quiet.events
  have unaccepted : others.filterMap (acceptedIn? outbox) = [] := by
    rw [List.filterMap_eq_nil_iff]
    intro event member
    have isQuiet := silent event member
    cases event <;> first | rfl | exact isQuiet.elim
  refine ⟨later, foundLater, ?_, ?_, ?_⟩
  · rw [acceptedIn_append events, unaccepted, List.append_nil, same.queue]
    exact keeps.queue
  · intro channel place found works ended
    rcases quiet.channels.cases found with ⟨old, foundOld, stays⟩ | ⟨_, contact, side, fresh⟩
    · have closed := keeps.closes channel old foundOld (stays.outbox ▸ works)
      rcases stays.channel with unchanged | stopped
      · rw [unchanged] at ended ⊢
        exact closed ended
      · rw [stopped] at ended ⊢
        exact closed ended
    · rcases fresh with fresh | fresh <;> rw [fresh] at ended <;> cases ended
  · intro channel place found works alive
    rw [same.queue]
    rcases quiet.channels.cases found with ⟨old, foundOld, stays⟩ | ⟨_, contact, side, fresh⟩
    · have follows := keeps.follows channel old foundOld (stays.outbox ▸ works)
      rcases stays.channel with unchanged | stopped
      · rw [unchanged] at alive ⊢
        exact follows alive
      · rw [stopped] at alive ⊢
        exact (follows alive).stop
    · rcases fresh with fresh | fresh <;> rw [fresh]
      · exact .start contact side _
      · exact (Channel.Follows.start contact side _).stop

/-- A channel is put back. If it works on the outbox, then only calls of the head have
left its queue, and none if the channel had ended. -/
theorem KeepsOrder.setStation {channel : Nat} {place : ChannelPlace} (station : Station)
    (keeps : KeepsOrder outbox initial before entry)
    (alone : (before.serving outbox).length ≤ 1)
    (foundPlace : before.channels[channel]? = some place)
    (removes : place.outbox = outbox →
      ∃ removed, entry.outbox.queue.calls = removed ++ station.outbox.queue.calls)
    (closes : place.outbox = outbox → station.channel.hasEnded = true →
      station.channel.sender = .ended)
    (follows : place.outbox = outbox → place.channel.hasEnded = false →
      station.channel.Follows station.outbox.queue)
    (ended : place.outbox = outbox → place.channel.hasEnded = true →
      station.channel.hasEnded = true ∧ station.outbox.queue = entry.outbox.queue) :
    ∃ later, KeepsOrder outbox initial (before.setStation channel station) later := by
  have accepted : (before.setStation channel station).acceptedIn outbox =
      before.acceptedIn outbox := by
    rw [acceptedIn, events_setStation station foundPlace, acceptedIn]
  by_cases works : place.outbox = outbox
  · subst works
    refine ⟨{ entry with outbox := station.outbox }, ?_, ?_, ?_, ?_⟩
    · rw [outboxes_setStation station foundPlace, if_pos rfl, keeps.found]
      rfl
    · obtain ⟨former, equal⟩ := keeps.queue
      obtain ⟨latter, equalRest⟩ := removes rfl
      exact ⟨former ++ latter, by rw [accepted, equal, equalRest, List.append_assoc]⟩
    · intro other otherPlace found sameOutbox otherEnded
      rw [channels_setStation station foundPlace] at found
      split at found
      · cases found
        exact closes rfl otherEnded
      · exact keeps.closes other otherPlace found sameOutbox otherEnded
    · intro other otherPlace found sameOutbox alive
      rw [channels_setStation station foundPlace] at found
      split at found
      · cases found
        cases wasEnded : place.channel.hasEnded with
        | false => exact follows rfl wasEnded
        | true => cases alive.symm.trans (ended rfl wasEnded).1
      next different =>
        -- The other channel serves the outbox, so this one had ended.
        cases wasEnded : place.channel.hasEnded with
        | false =>
            have same := eq_of_serving alone (mem_serving found sameOutbox alive)
              (mem_serving foundPlace rfl wasEnded)
            exact absurd same different
        | true =>
            rw [(ended rfl wasEnded).2]
            exact keeps.follows other otherPlace found sameOutbox alive
  · have others : ∀ (other : Nat) (otherPlace : ChannelPlace),
        (before.setStation channel station).channels[other]? = some otherPlace →
        otherPlace.outbox = outbox → before.channels[other]? = some otherPlace := by
      intro other otherPlace found sameOutbox
      rw [channels_setStation station foundPlace] at found
      split at found
      · cases found
        exact absurd sameOutbox works
      · exact found
    refine ⟨entry, ?_, ?_, ?_, ?_⟩
    · rw [outboxes_setStation station foundPlace, if_neg (Ne.symm works)]
      exact keeps.found
    · rw [accepted]
      exact keeps.queue
    · intro other otherPlace found sameOutbox
      exact keeps.closes other otherPlace (others other otherPlace found sameOutbox) sameOutbox
    · intro other otherPlace found sameOutbox
      exact keeps.follows other otherPlace (others other otherPlace found sameOutbox) sameOutbox

theorem acceptedIn_ended (outbox channel : Nat) (reports : List Report) :
    (reports.filterMap (Report.event? channel)).filterMap (acceptedIn? outbox) = [] := by
  rw [List.filterMap_eq_nil_iff]
  intro event member
  obtain ⟨report, _, noted⟩ := List.mem_filterMap.mp member
  cases report <;> cases noted
  rfl

theorem KeepsOrder.turn {channel : Nat} {station : Station} {next : Station × List Report}
    (keeps : KeepsOrder outbox initial before entry)
    (alone : (before.serving outbox).length ≤ 1)
    (found : before.station? channel = some station) (turn : station.Turn next.1 next.2) :
    ∃ later, KeepsOrder outbox initial (before.afterStep channel next) later := by
  obtain ⟨place, placeEntry, answers, link, foundPlace, foundEntry, _, _, rfl⟩ :=
    station?_eq_some_iff.mp found
  have reported := reported_afterStep before channel next
  have same : place.outbox = outbox → placeEntry = entry := by
    rintro rfl
    exact Option.some.inj (foundEntry.symm.trans keeps.found)
  obtain ⟨later, kept⟩ := keeps.setStation next.1 alone foundPlace
    (fun works => same works ▸ turn.removes)
    (fun works => turn.closes (keeps.closes channel place foundPlace works))
    (fun works alive => turn.follows
      (same works ▸ keeps.follows channel place foundPlace works alive))
    (fun works ended => ⟨turn.hasEnded ended,
      same works ▸ turn.of_ended (keeps.closes channel place foundPlace works ended)⟩)
  refine ⟨later, kept.of_eq ?_ ?_ ?_⟩
  · rw [reported.same]
  · rw [reported.same]
  · rw [acceptedIn_append reported.events, acceptedIn_ended, List.append_nil]

theorem KeepsOrder.conclude {execution : Execution} {conclusion : Conclusion}
    (keeps : KeepsOrder outbox initial before entry)
    (alone : (before.serving outbox).length ≤ 1) :
    ∃ later, KeepsOrder outbox initial (before.endExecution execution conclusion) later := by
  have dropped : KeepsOrder outbox initial
      ((before.dropExecution execution.number).note
        (.executed execution.channel execution.invocation conclusion)) entry :=
    keeps.of_eq rfl rfl (by rw [acceptedIn_append (events_note _ _)]; exact List.append_nil _)
  simp only [endExecution]
  split
  · exact ⟨entry, dropped⟩
  next station found =>
    obtain ⟨place, placeEntry, answers, link, foundPlace, foundEntry, _, _, rfl⟩ :=
      station?_eq_some_iff.mp found
    have same : place.outbox = outbox → placeEntry = entry := by
      rintro rfl
      exact Option.some.inj (foundEntry.symm.trans keeps.found)
    refine dropped.setStation _ alone foundPlace ?_ ?_ ?_ ?_
    · exact fun works => ⟨[], by rw [same works]; rfl⟩
    · exact keeps.closes _ place foundPlace
    · intro works alive
      have follows := keeps.follows _ place foundPlace works alive
      rw [same works]
      exact ⟨follows.inFlight, follows.dequeuing, follows.sendingCall⟩
    · exact fun works ended => ⟨ended, by rw [same works]; rfl⟩

theorem KeepsOrder.accept {errand place : Nat} {call : Call}
    (keeps : KeepsOrder outbox initial before entry)
    (accepts : Accepts before after errand place call) :
    ∃ later, KeepsOrder outbox initial after later := by
  obtain ⟨old, queue, foundOld, rfl, outboxes⟩ := accepts.outboxes
  by_cases here : outbox = place
  · subst here
    cases foundOld.symm.trans keeps.found
    refine ⟨_, by rw [outboxes, if_pos rfl], ?_, accepts.channels ▸ keeps.closes, ?_⟩
    · obtain ⟨removed, equal⟩ := keeps.queue
      refine ⟨removed, ?_⟩
      rw [acceptedIn_append accepts.events, ← List.append_assoc, equal, List.append_assoc]
      simp [acceptedIn?]
    · rw [accepts.channels]
      exact fun channel place found works alive =>
        (keeps.follows channel place found works alive).append [call]
  · refine ⟨entry, ?_, ?_, accepts.channels ▸ keeps.closes, accepts.channels ▸ keeps.follows⟩
    · rw [outboxes, if_neg here]
      exact keeps.found
    · rw [acceptedIn_append accepts.events]
      simp only [acceptedIn?, List.filterMap_cons, List.filterMap_nil, if_neg (Ne.symm here),
        List.append_nil]
      exact keeps.queue

theorem KeepsOrder.takes {happening : Happening} (keeps : KeepsOrder outbox initial before entry)
    (alone : (before.serving outbox).length ≤ 1) (takes : Takes before happening after)
    (apart : happening.handles outbox = false) (awake : happening.sleeps = false) :
    ∃ later, KeepsOrder outbox initial after later := by
  cases takes with
  | quiet quiet => exact keeps.quiet quiet
  | turn found turn => exact keeps.turn alone found turn
  | @begin _ execution member ready =>
      simp only [beginExecution]
      split
      · exact ⟨entry, keeps.of_eq rfl rfl rfl⟩
      · refine ⟨entry, keeps.of_eq rfl rfl ?_⟩
        rw [acceptedIn_append (events_note _ _)]
        exact List.append_nil _
  | conclude member busy => exact keeps.conclude alone
  | accept accepts => exact keeps.accept accepts
  | @handle _ place changed _ _ handles =>
      have elsewhere : outbox ≠ place := by
        rintro rfl
        cases apart.symm.trans handles
      rw [setBacklog_eq]
      refine ⟨entry, ?_, keeps.queue, keeps.closes, keeps.follows⟩
      have unchanged : ∀ change : OutboxPlace → OutboxPlace,
          (before.outboxes.modify place change)[outbox]? = some entry := by
        intro change
        rw [Array.getElem?_modify, if_neg (Ne.symm elsewhere)]
        exact keeps.found
      exact unchanged _
  | sleep => cases awake

/-- An outbox is served alone and in order. -/
def IsOrdered (outbox : Nat) (initial : List Call) (network : Network) : Prop :=
  (network.serving outbox).length ≤ 1 ∧ ∃ entry, KeepsOrder outbox initial network entry

theorem IsOrdered.run {network : Network} {happenings : List Happening}
    (ordered : IsOrdered outbox initial network)
    (obeys : Obeys (ServedAlone outbox) network happenings) :
    IsOrdered outbox initial (network.run happenings) := by
  refine obeys.preserves ?_ ordered
  rintro network happening ⟨apart, awake, aloneNext⟩ ⟨alone, entry, keeps⟩
  exact ⟨aloneNext, keeps.takes alone (takes_happen network happening) apart awake⟩

section Start

variable {start : Network} (unserved : ∀ place ∈ start.channels, place.outbox ≠ outbox)
include unserved

theorem serving_start : start.serving outbox = [] := by
  rw [serving, List.filter_eq_nil_iff]
  intro channel _ serves
  rw [isServing, Option.any_eq_true] at serves
  obtain ⟨place, foundPlace, works⟩ := serves
  rw [Bool.and_eq_true, beq_iff_eq] at works
  exact unserved place (Array.mem_of_getElem? foundPlace) works.1

/-- Before a channel works on an outbox, nothing has left its queue. -/
theorem keepsOrder_start (found : start.outboxes[outbox]? = some entry)
    (unaccepted : start.acceptedIn outbox = []) :
    KeepsOrder outbox entry.outbox.queue.calls start entry := by
  have apart : ∀ (channel : Nat) (place : ChannelPlace),
      start.channels[channel]? = some place → place.outbox ≠ outbox :=
    fun _ place foundPlace => unserved place (Array.mem_of_getElem? foundPlace)
  refine ⟨found, ⟨[], by simp [unaccepted]⟩, ?_, ?_⟩
  · exact fun channel place foundPlace works => absurd works (apart channel place foundPlace)
  · exact fun channel place foundPlace works => absurd works (apart channel place foundPlace)

theorem isOrdered_start (found : start.outboxes[outbox]? = some entry)
    (unaccepted : start.acceptedIn outbox = []) :
    IsOrdered outbox entry.outbox.queue.calls start :=
  ⟨by simp [serving_start unserved], entry, keepsOrder_start unserved found unaccepted⟩

end Start

/-! ## Order of transmission -/

/-- A channel that has not ended works on an outbox with a queue. -/
structure Serves (network : Network) (outbox channel : Nat) (serving : Channel)
    (queue : Queue) : Prop where
  place : ∃ place, network.channels[channel]? = some place ∧ place.outbox = outbox ∧
    place.channel = serving
  entry : ∃ entry, network.outboxes[outbox]? = some entry ∧ entry.outbox.queue = queue
  alive : serving.hasEnded = false

/-- The calls of an outbox are transmitted in an order. -/
structure TransmitsInOrder (network : Network) (outbox : Nat) (calls : List Call) : Prop where
  /-- Calls leave the queue in this order. -/
  queue : ∃ entry removed, network.outboxes[outbox]? = some entry ∧
    calls = removed ++ entry.outbox.queue.calls
  /-- The frame of a call is only in the hands of a channel if all calls before it have
  left the queue. -/
  sent : ∀ {channel serving queue frame}, network.Serves outbox channel serving queue →
    serving.sender = .sendingCall frame →
    (∃ call ∈ calls, frame = call.invocation.encode) ∧
    ∀ {earlier call later}, calls = earlier ++ call :: later →
      frame = call.invocation.encode →
      queue.peek = some call ∧ ∀ other ∈ earlier, other.id ∉ queue.ids
  /-- The call in flight is the head of the queue. -/
  inFlight : ∀ {channel serving queue call}, network.Serves outbox channel serving queue →
    serving.inFlight = some call → queue.Heads call
  /-- There is one call in flight at most. -/
  alone : ∀ {channel other serving otherServing queue otherQueue call otherCall},
    network.Serves outbox channel serving queue → serving.inFlight = some call →
    network.Serves outbox other otherServing otherQueue → otherServing.inFlight = some otherCall →
    channel = other ∧ call = otherCall
  /-- A call that has ended is found at the head of the queue. -/
  dequeued : ∀ {channel serving queue call reply backlog},
    network.Serves outbox channel serving queue → serving.sender = .dequeuing call reply →
    (queue.dequeueIfHead backlog call.id).1 ≠ .ok none

/-- An id stands at one place of a list of calls with different ids. -/
theorem eq_of_split {calls earlier later removed rest : List Call} {call head : Call}
    (distinct : (calls.map Call.id).Nodup) (split : calls = earlier ++ call :: later)
    (otherSplit : calls = removed ++ head :: rest) (same : call.id = head.id) :
    earlier = removed ∧ call = head ∧ later = rest := by
  have length : earlier.length = removed.length := by
    have left : (calls.map Call.id)[earlier.length]? = some call.id := by simp [split]
    have right : (calls.map Call.id)[removed.length]? = some head.id := by simp [otherSplit]
    obtain ⟨inside, equal⟩ := List.getElem?_eq_some_iff.mp left
    obtain ⟨otherInside, otherEqual⟩ := List.getElem?_eq_some_iff.mp right
    rw [← distinct.getElem_inj_iff]
    · rw [equal, otherEqual, same]
    · exact inside
    · exact otherInside
  have parts := List.append_inj (split.symm.trans otherSplit) length
  rw [List.cons.injEq] at parts
  exact parts

section Transmission

variable {network : Network} {calls : List Call} {channel : Nat} {serving : Channel}
  {queue : Queue}

theorem Serves.follows (serves : network.Serves outbox channel serving queue)
    (keeps : KeepsOrder outbox initial network entry) : serving.Follows queue := by
  obtain ⟨place, foundPlace, works, rfl⟩ := serves.place
  obtain ⟨other, foundEntry, rfl⟩ := serves.entry
  cases foundEntry.symm.trans keeps.found
  exact keeps.follows channel place foundPlace works serves.alive

theorem Serves.mem_serving (serves : network.Serves outbox channel serving queue) :
    channel ∈ network.serving outbox := by
  obtain ⟨place, found, works, rfl⟩ := serves.place
  exact Network.mem_serving found works serves.alive

theorem KeepsOrder.transmits (keeps : KeepsOrder outbox initial network entry)
    (alone : (network.serving outbox).length ≤ 1)
    (distinct : ((initial ++ network.acceptedIn outbox).map Call.id).Nodup) :
    network.TransmitsInOrder outbox (initial ++ network.acceptedIn outbox) where
  queue := by
    obtain ⟨removed, equal⟩ := keeps.queue
    exact ⟨entry, removed, keeps.found, equal⟩
  sent := by
    intro channel serving queue frame serves sending
    obtain ⟨head, isHead, rfl⟩ := (serves.follows keeps).sendingCall frame sending
    obtain ⟨other, foundEntry, rfl⟩ := serves.entry
    cases foundEntry.symm.trans keeps.found
    obtain ⟨removed, equal⟩ := keeps.queue
    obtain ⟨rest, isCons⟩ : ∃ rest, entry.outbox.queue.calls = head :: rest :=
      List.head?_eq_some_iff.mp isHead
    rw [isCons] at equal
    refine ⟨⟨head, by simp [equal], rfl⟩, ?_⟩
    intro earlier call later split sameFrame
    have sameId : head.id = call.id := Invocation.id_eq_of_encode_eq sameFrame
    obtain ⟨rfl, rfl, rfl⟩ := eq_of_split distinct split equal sameId.symm
    refine ⟨isHead, ?_⟩
    intro former member again
    rw [split, List.map_append, List.nodup_append] at distinct
    rw [Queue.ids, isCons] at again
    exact distinct.2.2 former.id (List.mem_map_of_mem member) former.id again rfl
  inFlight serves flying := (serves.follows keeps).inFlight _ flying
  alone := by
    intro channel other serving otherServing queue otherQueue call otherCall serves flying
      otherServes otherFlying
    have same := eq_of_serving alone serves.mem_serving otherServes.mem_serving
    subst same
    obtain ⟨place, found, _, rfl⟩ := serves.place
    obtain ⟨otherPlace, otherFound, _, rfl⟩ := otherServes.place
    cases found.symm.trans otherFound
    exact ⟨rfl, Option.some.inj (flying.symm.trans otherFlying)⟩
  dequeued serves ended := ((serves.follows keeps).dequeuing _ _ ended).2.dequeueIfHead _

end Transmission

/-- An outbox, with the calls that are in its queue at the beginning, is served by
channels one at a time. If its calls have different ids, then they are transmitted in
the order in which the queue took them. -/
theorem transmitsInOrder_run {start : Network} {happenings : List Happening}
    (found : start.outboxes[outbox]? = some entry)
    (unserved : ∀ place ∈ start.channels, place.outbox ≠ outbox)
    (unaccepted : start.acceptedIn outbox = [])
    (obeys : Obeys (ServedAlone outbox) start happenings)
    (distinct : ((entry.outbox.queue.calls ++
      (start.run happenings).acceptedIn outbox).map Call.id).Nodup) :
    (start.run happenings).TransmitsInOrder outbox
      (entry.outbox.queue.calls ++ (start.run happenings).acceptedIn outbox) := by
  have begins := isOrdered_start unserved found unaccepted
  obtain ⟨alone, later, keeps⟩ := begins.run obeys
  exact keeps.transmits alone distinct

/-- An outbox with a call that was left over, and a link to its target. -/
def leftOver : Network :=
  { empty with
    outboxes := #[⟨⟨⟨.server, 10, [Call.new .server ⟨1, "first", []⟩]⟩, Waiters.none, false,
      Settings.standard⟩, none⟩]
    answers := #[.new 10]
    links := #[.new 1000] }

/-- A channel begins to send while another call is issued. -/
def sendingFirst : List Happening :=
  [.startChannel ⟨.server, none⟩ .left 0 0 0 fun _ _ => default,
    .act (.issue 0 (Call.new .server ⟨2, "second", []⟩)), .move (.errand 0), .move (.send 0 false),
    .move (.errand 0), .move (.send 0 false)]

theorem transmitsInOrder_sendingFirst :
    (leftOver.run sendingFirst).TransmitsInOrder 0
      [Call.new .server ⟨1, "first", []⟩, Call.new .server ⟨2, "second", []⟩] ∧
    ((leftOver.run sendingFirst).channels[0]?).map (·.channel.sender) =
      some (.sendingCall (Invocation.encode ⟨1, "first", []⟩)) := by
  have obeys : Obeys (ServedAlone 0) leftOver sendingFirst := by decide +kernel
  have accepted : (leftOver.run sendingFirst).acceptedIn 0 =
      [Call.new .server ⟨2, "second", []⟩] := by decide +kernel
  have transmits := transmitsInOrder_run rfl (by decide) (by decide) obeys
    (by rw [accepted]; decide)
  rw [accepted] at transmits
  exact ⟨transmits, by decide +kernel⟩

end PeerCalls.Network
