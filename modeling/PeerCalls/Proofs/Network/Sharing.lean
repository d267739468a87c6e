import PeerCalls.Proofs.Channel.Hands
import PeerCalls.Proofs.Network.Endings

/-!
# Channels that share an outbox

When a peer connects again, the channel that served its outbox before is stopped. It may be
in the middle of a round then, and goes on to the end of the round while the next channel
works on the same outbox already. So both may have the head of the queue in their hands. The
first one that takes it from the queue reports its end, as it should. But a channel that comes
too late does not look at what the queue found, and reports the end once more. Such a report
is the only one that is too many.
-/

namespace PeerCalls.Network

/-- The call that a channel reports as ended. -/
def endedBy? (channel : Nat) : Event → Option (Call × Reply)
  | .ended other call reply => if other = channel then some (call, reply) else none
  | _ => none

/-- The calls that a channel has reported as ended, in this order. -/
def endedBy (network : Network) (channel : Nat) : List (Call × Reply) :=
  network.events.filterMap (endedBy? channel)

/-- What a happening can do to the calls of an outbox that channels share. -/
inductive SharedStep (outbox : Nat) (happening : Happening) (before after : Network)
    (entry later : Outbox) : Prop where
  /-- What could happen if there was one channel. -/
  | single : QueueStep outbox happening before after entry later →
      SharedStep outbox happening before after entry later
  /-- The queue has no call for a channel, which reports one that was reported before. -/
  | again {station : Station} {call : Call} {reply : Reply} :
      before.IsFinishing outbox happening station call reply →
      (entry.queue.dequeueIfHead station.backlog call.id).1 = .ok none →
      later.queue = entry.queue → call.EndsWith reply →
      entry.waiters.Tells reply later.waiters →
      after.acceptedIn outbox = before.acceptedIn outbox →
      after.endedIn outbox = before.endedIn outbox ++ [(call, reply)] →
      (∃ ended ∈ before.endedIn outbox, ended.1.reset = call.reset) →
      SharedStep outbox happening before after entry later

/-- The calls that have left a queue are those that were reported, and the channels have
copies of such calls or of the head in their hands, which they have not reported. -/
structure Shares (outbox : Nat) (removed : List Call) (network : Network) (queue : Queue) :
    Prop where
  told : ∀ call ∈ removed, ∃ ended ∈ network.endedIn outbox, HasEnded call ended
  left : ∀ ended ∈ network.endedIn outbox, ∃ call ∈ removed, HasEnded call ended
  hands : ∀ {channel : Nat} {place : ChannelPlace} {call : Call},
    network.channels[channel]? = some place → place.outbox = outbox →
    place.channel.HasInHand call →
    ((∃ former ∈ removed, call.reset = former.reset) ∨ queue.Heads call) ∧
      ∀ ended ∈ network.endedBy channel, ended.1.id ≠ call.id
  once : ∀ {channel : Nat}, network.isOn outbox channel = true →
    ((network.endedBy channel).map fun ended => ended.1.id).Nodup

/-- What is known at any time of an outbox that channels share, if its calls have different
ids. -/
structure KeepsReports (outbox : Nat) (initial : List Call) (network : Network)
    (entry : OutboxPlace) : Prop where
  found : network.outboxes[outbox]? = some entry
  logged : network.LogsChannels
  settles : ∀ {channel : Nat} {place : ChannelPlace}, network.channels[channel]? = some place →
    place.outbox = outbox → place.channel.Settles
  oneCall : ∀ {channel : Nat} {place : ChannelPlace}, network.channels[channel]? = some place →
    place.outbox = outbox → place.channel.HasOneCall
  shares : ((initial ++ network.acceptedIn outbox).map Call.id).Nodup →
    ∃ removed, initial ++ network.acceptedIn outbox = removed ++ entry.outbox.queue.calls ∧
      Shares outbox removed network entry.outbox.queue

variable {outbox : Nat} {initial removed : List Call} {before after network : Network}
  {entry : OutboxPlace} {happening : Happening} {queue : Queue}

/-! ## The log -/

theorem mem_endedIn_of_mem_endedBy {channel : Nat} {ended : Call × Reply}
    (works : network.isOn outbox channel = true) (member : ended ∈ network.endedBy channel) :
    ended ∈ network.endedIn outbox := by
  obtain ⟨event, logged, reported⟩ := List.mem_filterMap.mp member
  refine List.mem_filterMap.mpr ⟨event, logged, ?_⟩
  cases event with
  | ended other call reply =>
      simp only [endedBy?] at reported
      split at reported
      next same => simp [endedIn?, same, works, reported]
      next => cases reported
  | _ => cases reported

theorem endedBy_append {others : List Event} (events : after.events = before.events ++ others)
    (channel : Nat) :
    after.endedBy channel = before.endedBy channel ++ others.filterMap (endedBy? channel) := by
  rw [endedBy, events, List.filterMap_append, endedBy]

/-- If nothing was reported about the calls of an outbox, then none of its channels has
reported anything. -/
theorem endedBy_eq_of_endedIn {others : List Event} {channel : Nat}
    (channels : Channels before after) (logged : before.LogsChannels)
    (events : after.events = before.events ++ others)
    (same : after.endedIn outbox = before.endedIn outbox)
    (works : after.isOn outbox channel = true) :
    after.endedBy channel = before.endedBy channel := by
  have silent := channels.endedIn logged events outbox
  rw [same, List.self_eq_append_right, List.filterMap_eq_nil_iff] at silent
  have unreported : others.filterMap (endedBy? channel) = [] := by
    rw [List.filterMap_eq_nil_iff]
    intro event member
    have isSilent := silent event member
    cases event with
    | ended other call reply =>
        simp only [endedIn?, endedBy?] at isSilent ⊢
        split
        next here => simp [here, works] at isSilent
        next => rfl
    | _ => rfl
  rw [endedBy_append events, unreported, List.append_nil]

theorem endedBy_reports (channel other : Nat) (reports : List Report) :
    (reports.filterMap (Report.event? channel)).filterMap (endedBy? other) =
      if other = channel then reports.filterMap Report.ended? else [] := by
  rw [List.filterMap_filterMap]
  split
  next same =>
    apply List.filterMap_congr
    intro report _
    cases report <;> simp [Report.event?, Report.ended?, endedBy?, same]
  next different =>
    rw [List.filterMap_eq_nil_iff]
    intro report _
    cases report <;> simp [Report.event?, endedBy?, Ne.symm different]

/-! ## What channels have in their hands -/

/-- The call in the hands of a channel was there before, or it is the head of the queue. -/
def Supplied (before : Network) (outbox channel : Nat) (queue : Queue) (call : Call) : Prop :=
  (∃ old former, before.channels[channel]? = some old ∧ old.outbox = outbox ∧
    old.channel.HasInHand former ∧ call.reset = former.reset) ∨ queue.Heads call

section Supplying

variable {channel : Nat} {place : ChannelPlace} {call : Call}

theorem supplied_of_same (same : after.channels[channel]? = before.channels[channel]?)
    (foundPlace : after.channels[channel]? = some place) (works : place.outbox = outbox)
    (inHand : place.channel.HasInHand call) : before.Supplied outbox channel queue call :=
  Or.inl ⟨place, call, same ▸ foundPlace, works, inHand, rfl⟩

theorem not_hasInHand_of_isNew (isNew : place.IsNew) : ¬ place.channel.HasInHand call := by
  intro inHand
  obtain ⟨contact, side, started | started⟩ := isNew
  · rw [started] at inHand
    exact Channel.not_hasInHand_start contact side call inHand
  · rw [started] at inHand
    have flying := inHand.inFlight_of_isFree trivial
    cases flying

/-- If calls can only have left a queue and it has no fewer, then it has the same ones. -/
theorem eq_of_removes {calls rest added : List Call} (removes : ∃ gone, calls = gone ++ rest)
    (grows : rest = calls ++ added) : rest = calls := by
  obtain ⟨gone, equal⟩ := removes
  have lengths := congrArg List.length equal
  rw [grows, List.length_append, List.length_append] at lengths
  obtain rfl : added = [] := List.eq_nil_of_length_eq_zero (by omega)
  rw [grows, List.append_nil]

/-- While no call leaves the queue in a turn of some channel, a channel can only get the head
into its hands. -/
theorem supplied_of_turn {turning : Nat} {station : Station} {next : Station × List Report}
    {later : OutboxPlace} {added : List Call} (there : before.station? turning = some station)
    (turn : station.Turn next.1 next.2) (found : before.outboxes[outbox]? = some entry)
    (foundLater : (before.afterStep turning next).outboxes[outbox]? = some later)
    (grows : later.outbox.queue.calls = entry.outbox.queue.calls ++ added)
    (foundPlace : (before.afterStep turning next).channels[channel]? = some place)
    (works : place.outbox = outbox) (inHand : place.channel.HasInHand call) :
    before.Supplied outbox channel entry.outbox.queue call := by
  obtain ⟨old, placeEntry, _, _, foundOld, foundEntry, _, _, rfl⟩ :=
    station?_eq_some_iff.mp there
  rw [channels_afterStep foundOld] at foundPlace
  split at foundPlace
  next here =>
    subst here
    cases foundPlace
    obtain rfl : old.outbox = outbox := works
    cases foundEntry.symm.trans found
    rw [outboxes_afterStep foundOld, if_pos rfl, found] at foundLater
    cases foundLater
    have same : next.1.outbox.queue.calls = entry.outbox.queue.calls :=
      eq_of_removes turn.removes grows
    rcases turn.supplies same inHand with ⟨former, inHandBefore, sameCall⟩ | heads
    · exact Or.inl ⟨old, former, foundOld, rfl, inHandBefore, sameCall⟩
    · exact Or.inr heads
  next => exact Or.inl ⟨place, call, foundPlace, works, inHand, rfl⟩

/-- While no call leaves the queue, a channel can only get the head into its hands. -/
theorem Takes.supplied {later : OutboxPlace} {added : List Call}
    (takes : Takes before happening after) (awake : happening.sleeps = false)
    (found : before.outboxes[outbox]? = some entry)
    (foundLater : after.outboxes[outbox]? = some later)
    (grows : later.outbox.queue.calls = entry.outbox.queue.calls ++ added)
    (foundPlace : after.channels[channel]? = some place) (works : place.outbox = outbox)
    (inHand : place.channel.HasInHand call) :
    before.Supplied outbox channel entry.outbox.queue call := by
  cases takes with
  | quiet quiet =>
      rcases quiet.channels.cases foundPlace with ⟨old, foundOld, stays⟩ | ⟨_, isNew⟩
      · have inHandBefore : old.channel.HasInHand call := by
          rcases stays.channel with same | stopped
          · exact same ▸ inHand
          · rw [stopped] at inHand
            exact inHand.of_eq rfl rfl
        exact Or.inl ⟨old, call, foundOld, stays.outbox ▸ works, inHandBefore, rfl⟩
      · exact absurd inHand (not_hasInHand_of_isNew isNew)
  | turn there turn =>
      exact supplied_of_turn there turn found foundLater grows foundPlace works inHand
  | begin _ _ =>
      refine supplied_of_same ?_ foundPlace works inHand
      simp only [beginExecution]
      split <;> rfl
  | @conclude _ execution _ conclusion _ _ =>
      simp only [endExecution] at foundPlace
      split at foundPlace
      next => exact supplied_of_same rfl foundPlace works inHand
      next station there =>
        obtain ⟨old, _, _, _, foundOld, _, _, _, rfl⟩ := station?_eq_some_iff.mp there
        rw [channels_setStation _ foundOld] at foundPlace
        split at foundPlace
        next here =>
          cases foundPlace
          exact Or.inl ⟨old, call, here ▸ foundOld, works, inHand.of_eq rfl rfl, rfl⟩
        next => exact Or.inl ⟨place, call, foundPlace, works, inHand, rfl⟩
  | accept accepts => exact supplied_of_same (by rw [accepts.channels]) foundPlace works inHand
  | handle _ =>
      refine supplied_of_same ?_ foundPlace works inHand
      rw [setBacklog_eq]
      rfl
  | sleep => cases awake

end Supplying

/-- What becomes of the calls in the hands of the channels of an outbox: a call is kept and
not reported, or it is reported and gone. -/
structure KeepsHands (outbox : Nat) (before after : Network) (queue : Queue) : Prop where
  supplied : ∀ {channel : Nat} {place : ChannelPlace} {call : Call},
    after.channels[channel]? = some place → place.outbox = outbox →
    place.channel.HasInHand call →
    before.Supplied outbox channel queue call ∧
      after.endedBy channel = before.endedBy channel
  reported : ∀ {channel : Nat}, after.isOn outbox channel = true →
    after.endedBy channel = before.endedBy channel ∨
      ∃ place call reply, before.channels[channel]? = some place ∧ place.outbox = outbox ∧
        place.channel.HasInHand call ∧
        after.endedBy channel = before.endedBy channel ++ [(call, reply)]

theorem keepsHands_of_unfinished (found : before.outboxes[outbox]? = some entry)
    (logged : before.LogsChannels) (apart : happening.handles outbox = false)
    (awake : happening.sleeps = false)
    (unfinished : ∀ station call reply, ¬ before.IsFinishing outbox happening station call reply) :
    KeepsHands outbox before (before.happen happening) entry.outbox.queue := by
  obtain ⟨later, added, foundLater, grows⟩ :=
    keepsCalls_happen logged apart awake unfinished found
  have takes := takes_happen before happening
  have channels := takes.channels awake
  obtain ⟨others, events, _⟩ := takes.events awake
  have unreported : ∀ {channel : Nat}, (before.happen happening).isOn outbox channel = true →
      (before.happen happening).endedBy channel = before.endedBy channel :=
    endedBy_eq_of_endedIn channels logged events grows.ended
  constructor
  · intro channel place call foundPlace works inHand
    refine ⟨takes.supplied awake found foundLater grows.calls foundPlace works inHand, ?_⟩
    apply unreported
    rw [isOn_eq foundPlace, works, beq_self_eq_true]
  · exact fun works => Or.inl (unreported works)

theorem Finishes.keepsHands {channel : Nat} {station : Station} {call : Call} {reply : Reply}
    {later : OutboxPlace}
    (finishes : Finishes outbox channel happening before (station.dequeueEnded call reply) later)
    (there : before.station? channel = some station)
    (ended : station.channel.sender = .dequeuing call reply)
    (one : station.channel.HasOneCall) (queue : Queue) :
    KeepsHands outbox before (before.happen happening) queue := by
  obtain ⟨place, foundPlace, same⟩ := exists_place there
  have works := finishes.works
  rw [isOn_eq foundPlace, beq_iff_eq] at works
  have events := events_afterStep foundPlace (station.dequeueEnded call reply)
  have others : ∀ other, other ≠ channel →
      (before.happen happening).endedBy other = before.endedBy other := by
    intro other different
    rw [finishes.happens, endedBy_append events, endedBy_reports, if_neg different,
      List.append_nil]
  constructor
  · intro other otherPlace otherCall found onOutbox inHand
    rw [finishes.happens, channels_afterStep foundPlace] at found
    split at found
    next =>
      cases found
      exact absurd inHand (Station.not_hasInHand_dequeueEnded one ended otherCall)
    next different =>
      exact ⟨Or.inl ⟨otherPlace, otherCall, found, onOutbox, inHand, rfl⟩, others other different⟩
  · intro other _
    by_cases here : other = channel
    · subst here
      rw [finishes.happens, endedBy_append events, endedBy_reports, if_pos rfl]
      rcases station.told_dequeueEnded call reply with nothing | told
      · rw [nothing]
        exact Or.inl (List.append_nil _)
      · rw [told]
        exact Or.inr ⟨place, call, reply, foundPlace, works, same ▸ .dequeuing ended, rfl⟩
    · exact Or.inl (others other here)

/-! ## What a happening does -/

/-- A call that is still in the queue was not reported. -/
theorem Shares.unreported (shares : Shares outbox removed network queue)
    (distinct : ((removed ++ queue.calls).map Call.id).Nodup) {call : Call}
    (member : call ∈ queue.calls) :
    ∀ ended ∈ network.endedIn outbox, ended.1.id ≠ call.id := by
  intro ended reported same
  obtain ⟨former, hasLeft, hasEnded⟩ := shares.left ended reported
  rw [List.map_append, List.nodup_append] at distinct
  apply distinct.2.2 former.id (List.mem_map_of_mem hasLeft) call.id (List.mem_map_of_mem member)
  exact (Call.id_eq_of_reset_eq hasEnded.same).symm.trans same

section Finishing

variable {station : Station} {call : Call} {reply : Reply}
  (finishing : before.IsFinishing outbox happening station call reply)
include finishing

/-- If the call is not the head any more, then its end is reported again. -/
theorem IsFinishing.again (logged : before.LogsChannels)
    (found : before.outboxes[outbox]? = some entry) (endsWith : call.EndsWith reply)
    (differs : ∀ head, entry.outbox.queue.peek = some head → head.id ≠ call.id)
    (reported : ∃ ended ∈ before.endedIn outbox, ended.1.reset = call.reset) :
    ∃ later, (before.happen happening).outboxes[outbox]? = some later ∧
      SharedStep outbox happening before (before.happen happening) entry.outbox later.outbox := by
  obtain ⟨_, later, _, finishes⟩ := finishing.finishes logged found
  have same := finishing.outbox_eq found
  rw [← same] at differs
  have missed := Station.dequeueEnded_missed reply differs
  have ended := finishes.ended
  rw [missed.told] at ended
  refine ⟨later, finishes.found, ?_⟩
  rw [finishes.put, ← same]
  exact .again finishing missed.notFound missed.queue endsWith missed.tells finishes.accepted
    ended reported

/-- Whoever finishes a call has the head of the queue, or a call that was reported. -/
theorem IsFinishing.sharedStep (keeps : KeepsReports outbox initial before entry)
    (distinct : ((initial ++ before.acceptedIn outbox).map Call.id).Nodup) :
    ∃ later, (before.happen happening).outboxes[outbox]? = some later ∧
      SharedStep outbox happening before (before.happen happening) entry.outbox later.outbox := by
  obtain ⟨channel, place, foundPlace, works, same⟩ := finishing.exists_channel
  have ended : place.channel.sender = .dequeuing call reply := same ▸ finishing.sender
  have endsWith := keeps.settles foundPlace works call reply ended
  obtain ⟨removed, equal, shares⟩ := keeps.shares distinct
  rw [equal] at distinct
  rcases (shares.hands foundPlace works (.dequeuing ended)).1 with ⟨former, hasLeft, sameCall⟩ | heads
  · apply finishing.again keeps.logged keeps.found endsWith
    · intro head isHead sameId
      -- The head has another id than all calls that have left the queue.
      rw [List.map_append, List.nodup_append] at distinct
      apply distinct.2.2 former.id (List.mem_map_of_mem hasLeft) head.id
      · exact List.mem_map_of_mem (List.mem_of_mem_head? isHead)
      · exact (Call.id_eq_of_reset_eq sameCall).symm.trans sameId.symm
    · obtain ⟨report, reported, hasEnded⟩ := shares.told former hasLeft
      exact ⟨report, reported, hasEnded.same.trans sameCall.symm⟩
  · obtain ⟨later, found, step⟩ := finishing.queueStep keeps.logged keeps.found heads endsWith
    exact ⟨later, found, .single step⟩

end Finishing

/-- What any happening does to the calls of an outbox that channels share. -/
theorem KeepsReports.step (keeps : KeepsReports outbox initial before entry)
    (distinct : ((initial ++ before.acceptedIn outbox).map Call.id).Nodup)
    (apart : happening.handles outbox = false) (awake : happening.sleeps = false) :
    ∃ later, (before.happen happening).outboxes[outbox]? = some later ∧
      SharedStep outbox happening before (before.happen happening) entry.outbox later.outbox := by
  by_cases finishing : ∃ station call reply,
      before.IsFinishing outbox happening station call reply
  · obtain ⟨station, call, reply, finishing⟩ := finishing
    exact finishing.sharedStep keeps distinct
  · have unfinished : ∀ station call reply,
        ¬ before.IsFinishing outbox happening station call reply :=
      fun station call reply ends => finishing ⟨station, call, reply, ends⟩
    obtain ⟨later, added, found, grows⟩ :=
      keepsCalls_happen keeps.logged apart awake unfinished keeps.found
    exact ⟨later, found, .single (.grows unfinished grows)⟩

theorem KeepsReports.keepsHands (keeps : KeepsReports outbox initial before entry)
    (apart : happening.handles outbox = false) (awake : happening.sleeps = false) :
    KeepsHands outbox before (before.happen happening) entry.outbox.queue := by
  by_cases finishing : ∃ station call reply,
      before.IsFinishing outbox happening station call reply
  · obtain ⟨station, call, reply, finishing⟩ := finishing
    obtain ⟨channel, place, foundPlace, works, same⟩ := finishing.exists_channel
    obtain ⟨_, later, there, finishes⟩ := finishing.finishes keeps.logged keeps.found
    have one : station.channel.HasOneCall := same ▸ keeps.oneCall foundPlace works
    exact finishes.keepsHands there finishing.sender one entry.outbox.queue
  · apply keepsHands_of_unfinished keeps.found keeps.logged apart awake
    exact fun station call reply ends => finishing ⟨station, call, reply, ends⟩

/-- What has come into a queue, what has left it, and what was reported meanwhile. -/
structure Flows (outbox : Nat) (before after : Network) (queue later : Queue)
    (added gone : List Call) : Prop where
  calls : queue.calls ++ added = gone ++ later.calls
  accepted : after.acceptedIn outbox = before.acceptedIn outbox ++ added
  /-- What is reported has left the queue now, or it was reported before. -/
  ended : ∃ reports, after.endedIn outbox = before.endedIn outbox ++ reports ∧
    (∀ call ∈ gone, ∃ ended ∈ reports, HasEnded call ended) ∧
    ∀ ended ∈ reports, (∃ call ∈ gone, HasEnded call ended) ∨
      ended.1.EndsWith ended.2 ∧ ∃ former ∈ before.endedIn outbox, former.1.reset = ended.1.reset

theorem SharedStep.flows {later : Outbox}
    (step : SharedStep outbox happening before after entry.outbox later) :
    ∃ added gone, Flows outbox before after entry.outbox.queue later.queue added gone := by
  cases step with
  | single step =>
      cases step with
      | @grows added _ grows =>
          exact ⟨added, [], grows.calls.symm, grows.accepted, [], by simp [grows.ended]⟩
      | @leaves _ call head reply _ _ isCons same endsWith _ accepted log =>
          refine ⟨[], [head], ?_, ?_, [(call, reply)], log, ?_, ?_⟩
          · rw [isCons, List.append_nil, List.singleton_append]
          · rw [accepted, List.append_nil]
          · simpa using HasEnded.mk same endsWith
          · simpa using Or.inl (HasEnded.mk same endsWith)
      | remains _ _ _ same _ accepted log =>
          refine ⟨[], [], ?_, ?_, [], ?_⟩
          · rw [same, List.append_nil, List.nil_append]
          · rw [accepted, List.append_nil]
          · simp [log]
  | @again _ call reply _ _ same endsWith _ accepted log reported =>
      refine ⟨[], [], ?_, ?_, [(call, reply)], log, ?_, ?_⟩
      · rw [same, List.append_nil, List.nil_append]
      · rw [accepted, List.append_nil]
      · simp
      · rw [List.forall_mem_singleton]
        exact Or.inr ⟨endsWith, reported⟩

/-! ## What a happening preserves -/

/-- A head stays the head, or it leaves the queue. -/
theorem Flows.heads {later : Queue} {added gone : List Call} {call : Call}
    (flows : Flows outbox before after queue later added gone) (heads : queue.Heads call) :
    (∃ former ∈ gone, call.reset = former.reset) ∨ later.Heads call := by
  obtain ⟨head, isHead, same⟩ := heads
  obtain ⟨rest, isCons⟩ := List.head?_eq_some_iff.mp isHead
  have equal := flows.calls
  rw [isCons, List.cons_append] at equal
  cases gone with
  | nil =>
      refine Or.inr ⟨head, ?_, same⟩
      rw [Queue.peek, ← List.nil_append later.calls, ← equal, List.head?_cons]
  | cons first others =>
      rw [List.cons_append, List.cons.injEq] at equal
      exact Or.inl ⟨first, List.mem_cons_self, equal.1 ▸ same⟩

theorem LogsChannels.endedBy_eq_nil (logged : network.LogsChannels) {channel : Nat}
    (missing : ¬ channel < network.channels.size) : network.endedBy channel = [] := by
  rw [endedBy, List.filterMap_eq_nil_iff]
  intro event member
  cases event with
  | ended other call reply =>
      simp only [endedBy?]
      split
      next same => exact absurd (same ▸ logged member) missing
      next => rfl
  | _ => rfl

theorem Channels.reports (channels : Channels before after) (logged : before.LogsChannels)
    {channel : Nat} (works : after.isOn outbox channel = true) :
    before.isOn outbox channel = true ∨ before.endedBy channel = [] := by
  by_cases inside : channel < before.channels.size
  · exact Or.inl (channels.isOn inside outbox ▸ works)
  · exact Or.inr (logged.endedBy_eq_nil inside)

section Flowing

variable {later : Queue} {added gone : List Call} (shares : Shares outbox removed before queue)
  (distinct : ((removed ++ queue.calls).map Call.id).Nodup)
include shares

theorem Shares.told_of_flows (flows : Flows outbox before after queue later added gone) :
    ∀ call ∈ removed ++ gone, ∃ ended ∈ after.endedIn outbox, HasEnded call ended := by
  obtain ⟨reports, log, told, _⟩ := flows.ended
  intro call member
  rw [log]
  rcases List.mem_append.mp member with hasLeft | leaves
  · obtain ⟨ended, reported, hasEnded⟩ := shares.told call hasLeft
    exact ⟨ended, List.mem_append_left _ reported, hasEnded⟩
  · obtain ⟨ended, reported, hasEnded⟩ := told call leaves
    exact ⟨ended, List.mem_append_right _ reported, hasEnded⟩

theorem Shares.left_of_flows (flows : Flows outbox before after queue later added gone) :
    ∀ ended ∈ after.endedIn outbox, ∃ call ∈ removed ++ gone, HasEnded call ended := by
  obtain ⟨reports, log, _, left⟩ := flows.ended
  intro ended member
  rw [log] at member
  rcases List.mem_append.mp member with old | new
  · obtain ⟨call, hasLeft, hasEnded⟩ := shares.left ended old
    exact ⟨call, List.mem_append_left _ hasLeft, hasEnded⟩
  · rcases left ended new with ⟨call, leaves, hasEnded⟩ | ⟨endsWith, former, reported, same⟩
    · exact ⟨call, List.mem_append_right _ leaves, hasEnded⟩
    · obtain ⟨call, hasLeft, hasEnded⟩ := shares.left former reported
      exact ⟨call, List.mem_append_left _ hasLeft, same.symm.trans hasEnded.same, endsWith⟩

include distinct

/-- Whatever comes into the hands of a channel was the head at some time, and the channel has
not reported it. -/
theorem Shares.supplied {channel : Nat} {call : Call}
    (reports : before.isOn outbox channel = true ∨ before.endedBy channel = [])
    (supplied : before.Supplied outbox channel queue call) :
    ((∃ former ∈ removed, call.reset = former.reset) ∨ queue.Heads call) ∧
      ∀ ended ∈ before.endedBy channel, ended.1.id ≠ call.id := by
  rcases supplied with ⟨old, held, foundOld, onOutbox, inHand, sameCall⟩ | heads
  · obtain ⟨origin, unreported⟩ := shares.hands foundOld onOutbox inHand
    constructor
    · rcases origin with ⟨former, hasLeft, same⟩ | heads
      · exact Or.inl ⟨former, hasLeft, sameCall.trans same⟩
      · exact Or.inr (heads.reset_eq sameCall)
    · rw [Call.id_eq_of_reset_eq sameCall]
      exact unreported
  · refine ⟨Or.inr heads, ?_⟩
    obtain ⟨head, isHead, same⟩ := heads
    rw [Call.id_eq_of_reset_eq same]
    intro ended reported
    rcases reports with works | nothing
    · apply shares.unreported distinct (List.mem_of_mem_head? isHead) ended
      exact mem_endedIn_of_mem_endedBy works reported
    · rw [nothing] at reported
      cases reported

theorem Shares.hands_of_flows (flows : Flows outbox before after queue later added gone)
    (hands : KeepsHands outbox before after queue)
    (channels : Channels before after) (logged : before.LogsChannels)
    {channel : Nat} {place : ChannelPlace} {call : Call}
    (foundPlace : after.channels[channel]? = some place) (onOutbox : place.outbox = outbox)
    (inHand : place.channel.HasInHand call) :
    ((∃ former ∈ removed ++ gone, call.reset = former.reset) ∨ later.Heads call) ∧
      ∀ ended ∈ after.endedBy channel, ended.1.id ≠ call.id := by
  have works : after.isOn outbox channel = true := by
    rw [isOn_eq foundPlace, onOutbox, beq_self_eq_true]
  obtain ⟨supplied, same⟩ := hands.supplied foundPlace onOutbox inHand
  obtain ⟨origin, unreported⟩ :=
    shares.supplied distinct (channels.reports logged works) supplied
  rw [same]
  refine ⟨?_, unreported⟩
  rcases origin with ⟨former, hasLeft, sameCall⟩ | heads
  · exact Or.inl ⟨former, List.mem_append_left _ hasLeft, sameCall⟩
  · rcases flows.heads heads with ⟨former, leaves, sameCall⟩ | stays
    · exact Or.inl ⟨former, List.mem_append_right _ leaves, sameCall⟩
    · exact Or.inr stays

omit distinct in
/-- A channel reports what it had in its hands, and that it had not reported before. -/
theorem Shares.once_of_hands (hands : KeepsHands outbox before after queue)
    (channels : Channels before after) (logged : before.LogsChannels) {channel : Nat}
    (works : after.isOn outbox channel = true) :
    ((after.endedBy channel).map fun ended => ended.1.id).Nodup := by
  have once : ((before.endedBy channel).map fun ended => ended.1.id).Nodup := by
    rcases channels.reports logged works with worked | nothing
    · exact shares.once worked
    · simp [nothing]
  rcases hands.reported works with same | ⟨place, call, reply, foundPlace, onOutbox, inHand, log⟩
  · rw [same]
    exact once
  · have unreported := (shares.hands foundPlace onOutbox inHand).2
    rw [log, List.map_append, List.map_singleton, List.nodup_append]
    refine ⟨once, List.nodup_singleton _, ?_⟩
    intro id earlier other isCall same
    obtain ⟨ended, reported, rfl⟩ := List.mem_map.mp earlier
    rw [List.mem_singleton.mp isCall] at same
    exact unreported ended reported same

theorem Shares.flow (flows : Flows outbox before after queue later added gone)
    (hands : KeepsHands outbox before after queue)
    (channels : Channels before after) (logged : before.LogsChannels) :
    Shares outbox (removed ++ gone) after later where
  told := shares.told_of_flows flows
  left := shares.left_of_flows flows
  hands := shares.hands_of_flows distinct flows hands channels logged
  once := shares.once_of_hands hands channels logged

end Flowing

theorem Channels.hasOneCall (channels : Channels before after)
    (one : ∀ {channel : Nat} {place : ChannelPlace}, before.channels[channel]? = some place →
      place.outbox = outbox → place.channel.HasOneCall)
    {channel : Nat} {place : ChannelPlace} (found : after.channels[channel]? = some place)
    (works : place.outbox = outbox) : place.channel.HasOneCall := by
  apply channels.preserves _ _ _ _ one found works
  · exact fun _ _ => .of_isFree trivial
  · exact fun one => one
  · exact fun one => one
  · exact fun _ _ turn one => turn.hasOneCall one

/-- The outbox stays in its place, and what its queue has taken stays taken. -/
theorem Takes.exists_later (takes : Takes before happening after)
    (awake : happening.sleeps = false) (found : before.outboxes[outbox]? = some entry) :
    ∃ later added, after.outboxes[outbox]? = some later ∧
      after.acceptedIn outbox = before.acceptedIn outbox ++ added := by
  have inside := (Array.getElem?_eq_some_iff.mp found).1
  have stays := Nat.lt_of_lt_of_le inside (takes.keepsPlaces awake).outboxes
  obtain ⟨others, events, _⟩ := takes.events awake
  exact ⟨_, _, Array.getElem?_eq_getElem stays, acceptedIn_append events outbox⟩

theorem nodup_of_accepted {added : List Call}
    (accepted : after.acceptedIn outbox = before.acceptedIn outbox ++ added)
    (distinct : ((initial ++ after.acceptedIn outbox).map Call.id).Nodup) :
    ((initial ++ before.acceptedIn outbox).map Call.id).Nodup := by
  rw [accepted, ← List.append_assoc, List.map_append] at distinct
  exact distinct.of_append_left

theorem KeepsReports.happen (keeps : KeepsReports outbox initial before entry)
    (apart : happening.handles outbox = false) (awake : happening.sleeps = false) :
    ∃ later, KeepsReports outbox initial (before.happen happening) later := by
  have takes := takes_happen before happening
  have channels := takes.channels awake
  obtain ⟨later, taken, found, accepted⟩ := takes.exists_later awake keeps.found
  refine ⟨later, found, keeps.logged.takes takes awake, channels.settles keeps.settles,
    channels.hasOneCall keeps.oneCall, ?_⟩
  · intro distinct
    have distinctBefore := nodup_of_accepted accepted distinct
    obtain ⟨removed, equal, shares⟩ := keeps.shares distinctBefore
    obtain ⟨same, foundSame, step⟩ := keeps.step distinctBefore apart awake
    cases found.symm.trans foundSame
    obtain ⟨added, gone, flows⟩ := step.flows
    refine ⟨removed ++ gone, ?_, ?_⟩
    · rw [flows.accepted, ← List.append_assoc, equal, List.append_assoc, flows.calls,
        List.append_assoc]
    · apply shares.flow (equal ▸ distinctBefore) flows _ channels keeps.logged
      exact keeps.keepsHands apart awake

/-- Calls come into the queue of an outbox by errands only, and only channels take them out. -/
def Unhandled (outbox : Nat) (_ : Network) (happening : Happening) : Prop :=
  happening.handles outbox = false

instance (outbox : Nat) (network : Network) (happening : Happening) :
    Decidable (Unhandled outbox network happening) :=
  inferInstanceAs (Decidable (_ = _))

/-- What is known of a shared outbox, with the calls that were in its queue at first. -/
def IsShared (outbox : Nat) (initial : List Call) (network : Network) : Prop :=
  ∃ entry, KeepsReports outbox initial network entry

theorem IsShared.run {happenings : List Happening} (shared : IsShared outbox initial network)
    (obeys : Obeys (Unhandled outbox) network happenings) :
    IsShared outbox initial (network.run happenings) := by
  refine obeys.preserves ?_ shared
  apply preserves_of_awake
  · exact fun _ _ => rfl
  · exact fun _ _ => rfl
  · rintro network happening apart awake ⟨entry, keeps⟩
    exact keeps.happen apart awake

/-- Before a channel works on an outbox, nothing was reported. -/
theorem keepsReports_start {start : Network} (found : start.outboxes[outbox]? = some entry)
    (unserved : ∀ place ∈ start.channels, place.outbox ≠ outbox) (silent : start.events = []) :
    KeepsReports outbox entry.outbox.queue.calls start entry := by
  have apart : ∀ {channel : Nat} {place : ChannelPlace},
      start.channels[channel]? = some place → place.outbox ≠ outbox :=
    fun foundPlace => unserved _ (Array.mem_of_getElem? foundPlace)
  have unaccepted : start.acceptedIn outbox = [] := by rw [acceptedIn, silent, List.filterMap_nil]
  have unended : start.endedIn outbox = [] := by rw [endedIn, silent, List.filterMap_nil]
  refine ⟨found, ?_, ?_, ?_, ?_⟩
  · intro channel call reply member
    rw [silent] at member
    cases member
  · exact fun foundPlace works => absurd works (apart foundPlace)
  · exact fun foundPlace works => absurd works (apart foundPlace)
  · refine fun _ => ⟨[], by simp [unaccepted], ?_, ?_, ?_, ?_⟩
    · simp
    · simp [unended]
    · exact fun foundPlace works => absurd works (apart foundPlace)
    · intro channel _
      rw [endedBy, silent]
      exact List.nodup_nil

/-! ## What is reported -/

/-- How the ends of calls are reported by channels that share an outbox. -/
structure ReportsEnds (network : Network) (outbox : Nat) (calls : List Call) : Prop where
  /-- All calls that have left the queue were reported, and none that is still in it. -/
  accounted : ∃ entry removed, network.outboxes[outbox]? = some entry ∧
    calls = removed ++ entry.outbox.queue.calls ∧
    (∀ call ∈ removed, ∃ ended ∈ network.endedIn outbox, HasEnded call ended) ∧
    ∀ ended ∈ network.endedIn outbox, ∃ call ∈ removed, HasEnded call ended
  /-- No channel reports a call twice. -/
  once : ∀ {channel}, network.isOn outbox channel = true →
    ((network.endedBy channel).map fun ended => ended.1.id).Nodup
  /-- Whatever happens next, a call is reported as it leaves the queue, or again by a channel
  that comes too late. -/
  step : ∀ {happening}, Unhandled outbox network happening → happening.sleeps = false →
    ∃ entry later, network.outboxes[outbox]? = some entry ∧
      (network.happen happening).outboxes[outbox]? = some later ∧
      SharedStep outbox happening network (network.happen happening) entry.outbox later.outbox

theorem KeepsReports.reportsEnds (keeps : KeepsReports outbox initial network entry)
    (distinct : ((initial ++ network.acceptedIn outbox).map Call.id).Nodup) :
    network.ReportsEnds outbox (initial ++ network.acceptedIn outbox) where
  accounted := by
    obtain ⟨removed, equal, shares⟩ := keeps.shares distinct
    exact ⟨entry, removed, keeps.found, equal, shares.told, shares.left⟩
  once := by
    obtain ⟨_, _, shares⟩ := keeps.shares distinct
    exact shares.once
  step apart awake := by
    obtain ⟨later, found, step⟩ := keeps.step distinct apart awake
    exact ⟨entry, later, keeps.found, found, step⟩

/-- Each call that has left the queue was reported once, and no other call was. -/
def ReportsOnce (network : Network) (outbox : Nat) (calls : List Call) : Prop :=
  ∃ entry removed, network.outboxes[outbox]? = some entry ∧
    calls = removed ++ entry.outbox.queue.calls ∧
    ((network.endedIn outbox).map fun ended => ended.1.id).Perm (removed.map Call.id)

/-- Whenever a channel of an outbox is to take a call that has ended from the queue, then the
call is still the head. While somebody sleeps that may change at any move, so the moves and the
passing of time are to be given themselves. -/
def FindsEnded (outbox : Nat) (network : Network) (happening : Happening) : Prop :=
  Unhandled outbox network happening ∧ happening.sleeps = false ∧
    ∀ station call reply, network.IsFinishing outbox happening station call reply →
      (station.outbox.queue.dequeueIfHead station.backlog call.id).1 ≠ .ok none

/-- A shared outbox whose calls were reported one by one as they left the queue. -/
structure Tallies (outbox : Nat) (initial : List Call) (network : Network) (entry : OutboxPlace) :
    Prop where
  keeps : KeepsReports outbox initial network entry
  tally : ((initial ++ network.acceptedIn outbox).map Call.id).Nodup →
    ∃ removed, initial ++ network.acceptedIn outbox = removed ++ entry.outbox.queue.calls ∧
      List.Forall₂ HasEnded removed (network.endedIn outbox)

theorem Tallies.happen (tallies : Tallies outbox initial before entry)
    (finds : FindsEnded outbox before happening) :
    ∃ later, Tallies outbox initial (before.happen happening) later := by
  obtain ⟨apart, awake, heads⟩ := finds
  obtain ⟨later, keeps⟩ := tallies.keeps.happen apart awake
  refine ⟨later, keeps, ?_⟩
  intro distinct
  obtain ⟨_, taken, _, accepted⟩ :=
    (takes_happen before happening).exists_later awake tallies.keeps.found
  have distinctBefore := nodup_of_accepted accepted distinct
  obtain ⟨same, foundSame, step⟩ := tallies.keeps.step distinctBefore apart awake
  cases keeps.found.symm.trans foundSame
  cases step with
  | single step => exact step.accounted (tallies.tally distinctBefore)
  | again finishing notFound =>
      rw [← finishing.outbox_eq tallies.keeps.found] at notFound
      exact absurd notFound (heads _ _ _ finishing)

/-- What is known of a shared outbox as long as every channel finds its call. -/
def IsTallied (outbox : Nat) (initial : List Call) (network : Network) : Prop :=
  ∃ entry, Tallies outbox initial network entry

theorem IsTallied.run {happenings : List Happening} (tallied : IsTallied outbox initial network)
    (finds : Obeys (FindsEnded outbox) network happenings) :
    IsTallied outbox initial (network.run happenings) := by
  refine finds.preserves ?_ tallied
  rintro network happening finds ⟨entry, tallies⟩
  exact tallies.happen finds

theorem Tallies.reportsOnce (tallies : Tallies outbox initial network entry)
    (distinct : ((initial ++ network.acceptedIn outbox).map Call.id).Nodup) :
    network.ReportsOnce outbox (initial ++ network.acceptedIn outbox) := by
  obtain ⟨removed, equal, ended⟩ := tallies.tally distinct
  refine ⟨entry, removed, tallies.keeps.found, equal, ?_⟩
  have same : removed.map Call.id = (network.endedIn outbox).map fun ended => ended.1.id := by
    rw [← List.forall₂_eq_eq_eq, List.forall₂_map_left_iff, List.forall₂_map_right_iff]
    exact ended.imp fun _ _ hasEnded => (Call.id_eq_of_reset_eq hasEnded.same).symm
  rw [same]

/-- Any number of channels work on an outbox, with calls of different ids that are in its
queue at first or come later. Each call that leaves the queue is reported by the channel that
takes it. Beyond that a channel reports only a call that it cannot find, because another
channel has taken and reported it before, and no channel reports a call twice. As long as
every channel finds its call, each one is reported once. -/
theorem reportsEnds_run {start : Network} {happenings : List Happening}
    (found : start.outboxes[outbox]? = some entry)
    (unserved : ∀ place ∈ start.channels, place.outbox ≠ outbox) (silent : start.events = [])
    (obeys : Obeys (Unhandled outbox) start happenings)
    (distinct : ((entry.outbox.queue.calls ++
      (start.run happenings).acceptedIn outbox).map Call.id).Nodup) :
    (start.run happenings).ReportsEnds outbox
      (entry.outbox.queue.calls ++ (start.run happenings).acceptedIn outbox) ∧
    (Obeys (FindsEnded outbox) start happenings →
      (start.run happenings).ReportsOnce outbox
        (entry.outbox.queue.calls ++ (start.run happenings).acceptedIn outbox)) := by
  have begins := keepsReports_start found unserved silent
  constructor
  · have shared : IsShared outbox entry.outbox.queue.calls start := ⟨entry, begins⟩
    obtain ⟨later, keeps⟩ := shared.run obeys
    exact keeps.reportsEnds distinct
  · intro finds
    have tallied : IsTallied outbox entry.outbox.queue.calls start := by
      refine ⟨entry, begins, fun _ => ⟨[], ?_, ?_⟩⟩
      · simp [acceptedIn, silent]
      · simp [endedIn, silent]
    obtain ⟨later, tallies⟩ := tallied.run finds
    exact tallies.reportsOnce distinct

/-- A channel has sent the call that was left over, and is about to send a reply. Then the
reply to its own call arrives, and it is stopped. -/
def interrupted : List Happening :=
  [.startChannel ⟨.server, none⟩ .left 0 0 0 fun _ _ => default,
    .move (.send 0 false), .move (.send 0 false), .move (.send 0 false),
    .act (.send 0 .right (Invocation.encode ⟨2, "second", []⟩)), .move (.receive 0),
    .move (.execute 0), .move (.execute 0), .move (.send 0 false),
    .act (.send 0 .right (Reply.encode (.success 1 [7]))), .move (.receive 0),
    .act (.stopChannel 0)]

/-- The next channel sends the call again and gets a reply to it, and then both channels end
the call. The one that is stopped no longer sends its reply. -/
def reconnected : List Happening :=
  interrupted ++ attempt 1 ++ [.move (.send 0 true), .move (.send 0 false), .move (.send 1 false)]

theorem reportsEnds_reconnected :
    (restored.run reconnected).ReportsEnds 0 [lasting] ∧
    ((restored.run reconnected).outboxes[0]?).map (·.outbox.queue.calls) = some [] ∧
    ((restored.run reconnected).endedBy 0).map (fun ended => (ended.1.id, ended.2)) =
      [(1, .success 1 [7])] ∧
    ((restored.run reconnected).endedBy 1).map (fun ended => (ended.1.id, ended.2)) =
      [(1, .success 1 [7])] := by
  have obeys : Obeys (Unhandled 0) restored reconnected := by decide +kernel
  have accepted : (restored.run reconnected).acceptedIn 0 = [] := by decide +kernel
  have reports := reportsEnds_run rfl (by decide) rfl obeys (by rw [accepted]; decide)
  rw [accepted] at reports
  exact ⟨reports.1, by decide +kernel, by decide +kernel, by decide +kernel⟩

/-- Channels that share an outbox do not report each call once. -/
theorem not_reportsOnce_reconnected :
    Obeys (Unhandled 0) restored reconnected ∧ (restored.run reconnected).acceptedIn 0 = [] ∧
    ¬ (restored.run reconnected).ReportsOnce 0 [lasting] := by
  refine ⟨by decide +kernel, by decide +kernel, ?_⟩
  rintro ⟨entry, removed, found, equal, reported⟩
  have twice : ((restored.run reconnected).endedIn 0).length = 2 := by decide +kernel
  have counted := reported.length_eq
  have lengths := congrArg List.length equal
  rw [List.length_append] at lengths
  simp [twice] at counted lengths
  omega

end PeerCalls.Network
