import PeerCalls.Proofs.Channel.Waking
import PeerCalls.Proofs.Network.Endings

/-!
# A running channel waits only with nothing to do

An outbox is served by channels one at a time, calls come into its queue by errands, and
nobody else takes the signals to its channel. Then the channel sees to all that is in the
outbox: whenever its sending activity cannot go on, there is nothing to do before time has
passed, and it will go on by itself when there is.
-/

namespace PeerCalls.Network

/-- An outbox is served alone, and signals to its channel are taken by nobody else. -/
def ServedAttentively (outbox : Nat) (network : Network) (happening : Happening) : Prop :=
  ServedAlone outbox network happening ∧ happening.takesSignal outbox = false

instance (outbox : Nat) (network : Network) (happening : Happening) :
    Decidable (ServedAttentively outbox network happening) :=
  inferInstanceAs (Decidable (_ ∧ _))

/-- The channel that serves an outbox sees to all that is in it. -/
structure KeepsWatch (outbox : Nat) (network : Network) (entry : OutboxPlace) : Prop where
  found : network.outboxes[outbox]? = some entry
  attends : ∀ (channel : Nat) (place : ChannelPlace), network.channels[channel]? = some place →
    place.outbox = outbox → place.channel.hasEnded = false → place.channel.Attends entry.outbox

variable {outbox : Nat} {initial : List Call} {before after network : Network}
  {entry : OutboxPlace}

namespace KeepsWatch

/-! ## What a happening preserves -/

theorem of_eq (watch : KeepsWatch outbox before entry)
    (channels : after.channels = before.channels) (outboxes : after.outboxes = before.outboxes) :
    KeepsWatch outbox after entry :=
  ⟨outboxes ▸ watch.found, channels ▸ watch.attends⟩

theorem quiet {taken : Nat → Bool} (watch : KeepsWatch outbox before entry)
    (quiet : QuietBut taken before after) (untaken : taken outbox = false) :
    ∃ later, KeepsWatch outbox after later := by
  obtain ⟨later, foundLater, same⟩ := quiet.outboxes.kept watch.found
  have keeps : entry.outbox.KeepsWork later.outbox :=
    ⟨same.queue, same.settings, quiet.signals untaken watch.found foundLater⟩
  refine ⟨later, foundLater, fun channel place found works alive => ?_⟩
  rcases quiet.channels.cases found with ⟨old, foundOld, stays⟩ | ⟨_, contact, side, fresh⟩
  · have attends := watch.attends channel old foundOld (stays.outbox ▸ works)
    rcases stays.channel with unchanged | stopped
    · rw [unchanged] at alive ⊢
      exact (attends alive).unchanged keeps
    · rw [stopped] at alive ⊢
      exact (attends alive).stop.unchanged keeps
  · rcases fresh with fresh | fresh <;> rw [fresh]
    · exact .start contact side _
    · exact (Channel.Attends.start contact side _).stop

/-- A channel is put back. If it works on the outbox and has ended, then it has left the
outbox to others. -/
theorem setStation {channel : Nat} {place : ChannelPlace} (station : Station)
    (watch : KeepsWatch outbox before entry) (alone : (before.serving outbox).length ≤ 1)
    (foundPlace : before.channels[channel]? = some place)
    (attends : place.outbox = outbox → place.channel.hasEnded = false → station.Attends)
    (ended : place.outbox = outbox → place.channel.hasEnded = true →
      station.channel.hasEnded = true ∧ entry.outbox.KeepsWork station.outbox) :
    ∃ later, KeepsWatch outbox (before.setStation channel station) later := by
  by_cases works : place.outbox = outbox
  · subst works
    refine ⟨{ entry with outbox := station.outbox }, ?_, ?_⟩
    · rw [outboxes_setStation station foundPlace, if_pos rfl, watch.found]
      rfl
    · intro other otherPlace found sameOutbox alive
      rw [channels_setStation station foundPlace] at found
      split at found
      · cases found
        cases wasEnded : place.channel.hasEnded with
        | false => exact attends rfl wasEnded
        | true => cases alive.symm.trans (ended rfl wasEnded).1
      next different =>
        -- The other channel serves the outbox, so this one had ended.
        cases wasEnded : place.channel.hasEnded with
        | false =>
            have same := eq_of_serving alone (mem_serving found sameOutbox alive)
              (mem_serving foundPlace rfl wasEnded)
            exact absurd same different
        | true =>
            exact (watch.attends other otherPlace found sameOutbox alive).unchanged
              (ended rfl wasEnded).2
  · refine ⟨entry, ?_, ?_⟩
    · rw [outboxes_setStation station foundPlace, if_neg (Ne.symm works)]
      exact watch.found
    · intro other otherPlace found sameOutbox
      rw [channels_setStation station foundPlace] at found
      split at found
      · cases found
        exact absurd sameOutbox works
      · exact watch.attends other otherPlace found sameOutbox

/-- A channel takes a step that sees to its outbox, and that takes no signal once the
sending activity has ended. -/
theorem step {channel : Nat} {station : Station} {next : Station × List Report}
    (watch : KeepsWatch outbox before entry) (keeps : KeepsOrder outbox initial before entry)
    (alone : (before.serving outbox).length ≤ 1)
    (found : before.station? channel = some station) (turn : station.Turn next.1 next.2)
    (attends : station.Attends → station.Follows → next.1.Attends)
    (signal : station.channel.sender = .ended → station.outbox.isSignaled = true →
      next.1.outbox.isSignaled = true) :
    ∃ later, KeepsWatch outbox (before.afterStep channel next) later := by
  obtain ⟨place, placeEntry, answers, link, foundPlace, foundEntry, _, _, rfl⟩ :=
    station?_eq_some_iff.mp found
  have same : place.outbox = outbox → placeEntry = entry := by
    rintro rfl
    exact Option.some.inj (foundEntry.symm.trans watch.found)
  obtain ⟨later, put⟩ := watch.setStation next.1 alone foundPlace
    (fun works alive => attends
      (same works ▸ watch.attends channel place foundPlace works alive)
      (same works ▸ keeps.follows channel place foundPlace works alive))
    (fun works ended => by
      have closed := keeps.closes channel place foundPlace works ended
      exact ⟨turn.hasEnded ended, same works ▸ turn.keepsWork closed (signal closed)⟩)
  refine ⟨later, put.of_eq ?_ ?_⟩ <;> rw [(reported_afterStep before channel next).same]

theorem conclude {execution : Execution} {conclusion : Conclusion}
    (watch : KeepsWatch outbox before entry) (alone : (before.serving outbox).length ≤ 1) :
    ∃ later, KeepsWatch outbox (before.endExecution execution conclusion) later := by
  have dropped : KeepsWatch outbox
      ((before.dropExecution execution.number).note
        (.executed execution.channel execution.invocation conclusion)) entry :=
    watch.of_eq rfl rfl
  simp only [endExecution]
  split
  · exact ⟨entry, dropped⟩
  next station found =>
    obtain ⟨place, placeEntry, answers, link, foundPlace, foundEntry, _, _, rfl⟩ :=
      station?_eq_some_iff.mp found
    have same : place.outbox = outbox → placeEntry = entry := by
      rintro rfl
      exact Option.some.inj (foundEntry.symm.trans watch.found)
    refine dropped.setStation _ alone foundPlace ?_ ?_
    · intro works alive
      have attends := watch.attends _ place foundPlace works alive
      rw [← same works] at attends
      exact Station.Attends.concludeStep attends _
    · exact fun works ended => ⟨ended, by rw [← same works]; exact ⟨rfl, rfl, fun _ => rfl⟩⟩

theorem accept {errand place : Nat} {call : Call} (watch : KeepsWatch outbox before entry)
    (accepts : Accepts before after errand place call) :
    ∃ later, KeepsWatch outbox after later := by
  obtain ⟨old, queue, foundOld, rfl, outboxes⟩ := accepts.outboxes
  by_cases here : outbox = place
  · subst here
    cases foundOld.symm.trans watch.found
    refine ⟨_, by rw [outboxes, if_pos rfl], ?_⟩
    rw [accepts.channels]
    exact fun channel place found works alive =>
      (watch.attends channel place found works alive).append [call]
  · refine ⟨entry, ?_, accepts.channels ▸ watch.attends⟩
    rw [outboxes, if_neg here]
    exact watch.found

section Steps

variable (watch : KeepsWatch outbox before entry) (keeps : KeepsOrder outbox initial before entry)
  (alone : (before.serving outbox).length ≤ 1)
include watch keeps alone

theorem move {move : Move} (moved : before.move? move = some after) :
    ∃ later, KeepsWatch outbox after later := by
  cases move with
  | send channel drops =>
      obtain ⟨station, next, found, stepped, rfl⟩ := send_cases moved
      refine watch.step keeps alone found (Station.sendStep_turn stepped) ?_ ?_
      · exact fun attends follows => Station.Attends.sendStep attends follows stepped
      · intro ended
        simp [Station.sendStep, ended] at stepped
  | receive channel =>
      obtain ⟨station, next, found, stepped, rfl⟩ := receive_cases moved
      refine watch.step keeps alone found (Station.receiveStep_change stepped).turn ?_ ?_
      · exact fun attends follows => Station.Attends.receiveStep attends follows stepped
      · exact fun _ => Station.isSignaled_receiveStep stepped
  | close channel =>
      obtain ⟨station, next, found, stepped, rfl⟩ := close_cases moved
      refine watch.step keeps alone found (Station.closeStep_change stepped).turn ?_ ?_
      · exact fun attends follows => Station.Attends.closeStep attends follows stepped
      · exact fun _ => Station.isSignaled_closeStep stepped
  | execute number =>
      obtain ⟨execution, _, ⟨_, rfl⟩ | ⟨_, conclusion, _, rfl⟩⟩ := execute_cases moved
      · simp only [beginExecution]
        split <;> exact ⟨entry, watch.of_eq rfl rfl⟩
      · exact watch.conclude alone
  | errand number =>
      rcases errand_cases moved with quiet | ⟨errand, place, call, accepts⟩
      · exact watch.quiet quiet rfl
      · exact watch.accept accepts
  | visit number => exact watch.quiet (quiet_visit moved) rfl
  | client place => exact watch.quiet (quiet_client moved) rfl
  | watch link side => exact watch.quiet (quiet_watch moved) rfl

end Steps

/-- What is done from outside is quiet as far as the outbox is concerned. -/
theorem outside {happening : Happening} (watch : KeepsWatch outbox before entry)
    (takes : Takes before happening after) (unmoved : ∀ move, happening ≠ .move move)
    (apart : happening.handles outbox = false) (awake : happening.sleeps = false)
    (untaken : happening.takesSignal outbox = false) :
    ∃ later, KeepsWatch outbox after later := by
  cases takes with
  | quiet quiet => exact watch.quiet quiet untaken
  | turn _ _ | begin _ _ | conclude _ _ | accept _ => exact absurd rfl (unmoved _)
  | @handle _ place changed _ _ handles =>
      have elsewhere : outbox ≠ place := by
        rintro rfl
        cases apart.symm.trans handles
      rw [setBacklog_eq]
      refine ⟨entry, ?_, watch.attends⟩
      simp only [modifyOutbox]
      rw [Array.getElem?_modify, if_neg (Ne.symm elsewhere)]
      exact watch.found
  | sleep => cases awake

theorem happen {happening : Happening} (watch : KeepsWatch outbox before entry)
    (keeps : KeepsOrder outbox initial before entry) (alone : (before.serving outbox).length ≤ 1)
    (apart : happening.handles outbox = false) (awake : happening.sleeps = false)
    (untaken : happening.takesSignal outbox = false) :
    ∃ later, KeepsWatch outbox (before.happen happening) later := by
  have outside := fun unmoved =>
    watch.outside (takes_happen before happening) unmoved apart awake untaken
  cases happening with
  | move move =>
      simp only [Network.happen]
      cases moved : before.move? move with
      | none => exact ⟨entry, watch⟩
      | some next => exact watch.move keeps alone moved
  | _ => exact outside (by simp)

end KeepsWatch

/-! ## Whole runs -/

/-- The channels of an outbox are stopped before their sending activities end. -/
def StopsFirst (outbox : Nat) (network : Network) : Prop :=
  ∀ {channel : Nat} {place : ChannelPlace}, network.channels[channel]? = some place →
    place.outbox = outbox → place.channel.sender = .ended → place.channel.isStopped = true

theorem StopsFirst.happen {happening : Happening} (stops : StopsFirst outbox network)
    (awake : happening.sleeps = false) : StopsFirst outbox (network.happen happening) := by
  have channels := (takes_happen network happening).channels awake
  intro channel place found works
  refine @Channels.preserves _ _ outbox (fun channel =>
    channel.sender = .ended → channel.isStopped = true) channels ?_ ?_ ?_ ?_ stops _ _ found works
  · exact fun _ _ ended => by cases ended
  · exact fun _ _ => rfl
  · exact id
  · exact fun _ _ turn => turn.isStopped

/-- An outbox is served in order, and its channel sees to all that is in it. -/
structure IsWatched (outbox : Nat) (initial : List Call) (network : Network) : Prop where
  ordered : IsOrdered outbox initial network
  watch : ∃ entry, KeepsWatch outbox network entry
  stops : StopsFirst outbox network

theorem IsWatched.run {happenings : List Happening} (watched : IsWatched outbox initial network)
    (obeys : Obeys (ServedAttentively outbox) network happenings) :
    IsWatched outbox initial (network.run happenings) := by
  refine obeys.preserves ?_ watched
  rintro network happening ⟨⟨apart, awake, aloneNext⟩, untaken⟩ ⟨⟨alone, entry, keeps⟩,
    ⟨other, watch⟩, stops⟩
  cases keeps.found.symm.trans watch.found
  exact ⟨⟨aloneNext, keeps.takes alone (takes_happen network happening) apart awake⟩,
    watch.happen keeps alone apart awake untaken, stops.happen awake⟩

theorem isWatched_start {start : Network} (found : start.outboxes[outbox]? = some entry)
    (unserved : ∀ place ∈ start.channels, place.outbox ≠ outbox)
    (unaccepted : start.acceptedIn outbox = []) :
    IsWatched outbox entry.outbox.queue.calls start := by
  have apart : ∀ {channel : Nat} {place : ChannelPlace},
      start.channels[channel]? = some place → place.outbox ≠ outbox :=
    fun foundPlace => unserved _ (Array.mem_of_getElem? foundPlace)
  refine ⟨isOrdered_start unserved found unaccepted, ⟨entry, found, ?_⟩, ?_⟩
  · exact fun _ _ foundPlace works => absurd works (apart foundPlace)
  · exact fun foundPlace works => absurd works (apart foundPlace)

/-- An outbox, with the calls that are in its queue at the beginning, is served by channels one
at a time. Whenever a channel that serves it is running and its sending activity cannot go on,
then nothing is to be done before its wait ends. -/
theorem isIdle_run {start : Network} {happenings : List Happening}
    (found : start.outboxes[outbox]? = some entry)
    (unserved : ∀ place ∈ start.channels, place.outbox ≠ outbox)
    (unaccepted : start.acceptedIn outbox = [])
    (obeys : Obeys (ServedAttentively outbox) start happenings)
    {channel : Nat} {place : ChannelPlace} {station : Station}
    (foundPlace : (start.run happenings).channels[channel]? = some place)
    (works : place.outbox = outbox)
    (there : (start.run happenings).station? channel = some station)
    (running : station.channel.isStopped = false)
    (stuck : (start.run happenings).move? (.send channel false) = none) :
    ∃ wake, station.IsIdle wake := by
  have watched := (isWatched_start found unserved unaccepted).run obeys
  obtain ⟨⟨_, other, keeps⟩, ⟨later, watch⟩, stops⟩ := watched
  obtain ⟨again, entryThere, answers, link, foundAgain, foundEntry, _, _, rfl⟩ :=
    station?_eq_some_iff.mp there
  cases foundPlace.symm.trans foundAgain
  cases (works ▸ foundEntry).symm.trans watch.found
  have stopsFirst := stops foundPlace works
  have alive : place.channel.hasEnded = false := by
    by_contra ended
    have closed := keeps.closes channel place foundPlace works (Bool.not_eq_false _ ▸ ended)
    cases running.symm.trans (stopsFirst closed)
  have attends := watch.attends channel place foundPlace works alive
  refine Station.Attends.exists_isIdle attends stopsFirst running ?_
  rw [Option.eq_none_iff_forall_ne_some]
  intro next stepped
  simp [move?, send?, there, stepped] at stuck

/-- A channel has sent the call that was left over, and waits for the reply. -/
def awaitingReply : List Happening :=
  .startChannel ⟨.server, none⟩ .left 0 0 0 (fun _ _ => default) ::
    List.replicate 4 (.move (.send 0 false))

theorem isIdle_awaitingReply : ∃ station wake,
    (leftOver.run awaitingReply).station? 0 = some station ∧ station.IsIdle wake ∧
      station.channel.inFlight.isSome = true := by
  obtain ⟨place, foundPlace⟩ := Option.isSome_iff_exists.mp
    (by decide +kernel : (leftOver.run awaitingReply).channels[0]?.isSome = true)
  obtain ⟨station, there⟩ := Option.isSome_iff_exists.mp
    (by decide +kernel : ((leftOver.run awaitingReply).station? 0).isSome = true)
  have works : ((leftOver.run awaitingReply).channels[0]?).map ChannelPlace.outbox = some 0 := by
    decide +kernel
  have waits : ((leftOver.run awaitingReply).station? 0).map (fun station =>
      (station.channel.isStopped, station.channel.inFlight.isSome)) = some (false, true) := by
    decide +kernel
  rw [foundPlace, Option.map_some, Option.some.injEq] at works
  rw [there, Option.map_some, Option.some.injEq, Prod.mk.injEq] at waits
  obtain ⟨wake, idle⟩ := isIdle_run rfl (by decide) (by decide) (by decide +kernel) foundPlace
    works there waits.1 (by decide +kernel)
  exact ⟨station, wake, there, idle, waits.2⟩

end PeerCalls.Network
