import PeerCalls.Proofs.Channel.InFlight
import PeerCalls.Proofs.Channel.Link

/-!
# How sending comes to rest

As long as nothing else happens and the clock stands still, the sending activity has a
limited amount of work: the replies, the call in flight, and the calls of the queue, each
of which is sent once and then leaves the queue, stays in flight, or causes a pause. So it
waits after a limited number of steps. That takes a pause that lasts, or calls that do not
fail at the moment at which they are sent. A call that is sent again after a failure, whose
time is up at once, is sent forever if the pause is empty.
-/

namespace PeerCalls

theorem Time.eq_of_after? {time later : Time} {span : Span} (found : time.after? span = some later) :
    later = time + span.nanoseconds := by
  simp only [after?] at found
  split at found
  · exact (Option.some.inj found).symm
  · cases found

namespace Link

theorem atSide_modify_self (link : Link) (side : Side) (change : LinkEnd → LinkEnd) :
    (link.modify side change).atSide side = change (link.atSide side) := by
  cases side <;> rfl

theorem isOpen_modify_other (link : Link) (side : Side) (change : LinkEnd → LinkEnd) :
    (link.modify side.other change).isOpen side = link.isOpen side := by
  cases side <;> rfl

/-- A frame that fits is sent as long as both ends are there. -/
theorem send_of_isListening {link : Link} {side : Side} {frame : Bytes}
    (fits : frame.length ≤ link.maxFrameLength) (isOpen : link.isOpen side = true)
    (isListening : (link.atSide side.other).isListening = true) :
    link.send side frame = (.ok (), link.modify side.other fun linkEnd =>
      { linkEnd with inbox := linkEnd.inbox ++ [frame] }) := by
  rw [send, if_neg (Nat.not_lt.mpr fits), isOpen, isListening]
  rfl

/-- Sending brings one frame at most to the other end. -/
theorem length_inbox_send (link : Link) (side : Side) (frame : Bytes) :
    ((link.send side frame).2.atSide side.other).inbox.length ≤
      (link.atSide side.other).inbox.length + 1 := by
  simp only [send]
  split
  · exact Nat.le_succ _
  · split
    · exact Nat.le_succ _
    · split
      · rw [stopSending, atSide_modify]
        split <;> exact Nat.le_succ _
      · rw [atSide_modify_self, List.length_append]
        exact Nat.le_refl _

end Link

/-- An attempt that begins has its whole timeout before it. -/
theorem Call.deadline_start {call : Call} {now deadline : Time} {default : Span}
    (due : (call.start now).deadline default = some deadline) :
    deadline = now + (call.effectiveTimeout default).nanoseconds :=
  Time.eq_of_after? due

namespace Station

variable {station : Station}

/-- The sending activity waits, or is over. -/
def IsAtRest (station : Station) : Prop :=
  station.channel.sender = .ended ∨ ∃ wake, station.channel.sender = .waiting wake

/-- Steps of the sending activity while nothing else happens and the clock stands still: one
for each choice whether a frame is dropped, as long as it can take one. -/
def sendSteps (station : Station) : List Bool → Station
  | [] => station
  | drops :: choices =>
    match station.sendStep drops with
    | some (next, _) => next.sendSteps choices
    | none => station

/-- The frames that have come to the peer's end of the link. -/
def delivered (station : Station) : List Bytes :=
  (station.link.atSide station.channel.side.other).inbox

/-- On its own, the sending activity waits or is over after a number of steps. -/
def RestsWithin (station : Station) (steps : Nat) : Prop :=
  ∀ choices : List Bool, steps ≤ choices.length →
    ∃ made ≤ steps, (station.sendSteps (choices.take made)).IsAtRest

/-- On its own, the sending activity sends a number of frames at most, however often it wakes
up. -/
def SendsAtMost (station : Station) (frames : Nat) : Prop :=
  ∀ choices : List Bool,
    (station.sendSteps choices).delivered.length ≤ station.delivered.length + frames

/-- The call does not fail at once with a failure that is worth another attempt. -/
structure IsPatient (station : Station) (call : Call) : Prop where
  timeout : 0 < (call.effectiveTimeout station.settings.defaultTimeout).nanoseconds
  reply : ∀ reply, call.reply = some reply → reply.isRetryableFailure = false

/-- There is a pause before a failed call is sent again, or no call that is sent again fails
at once. -/
def Paces (station : Station) : Prop :=
  0 < station.settings.retryDelay.nanoseconds ∨
  ∀ call ∈ station.outbox.queue.calls, call.isRetryable = true → station.IsPatient call

/-! ## How much is left to do -/

/-- The call in flight would fail now, and be sent again without a pause. -/
def repeats (station : Station) (call : Call) : Bool :=
  (station.replyInFlight call).any Reply.isRetryableFailure && call.isRetryable &&
    station.settings.retryDelay.isZero

/-- The head of the queue has the id of a call. -/
def isHead (station : Station) (call : Call) : Bool :=
  station.outbox.queue.peek.any fun head => head.id == call.id

/-- What is left to do for the call in flight, or for the next one if there is none. -/
def flightWork (station : Station) : Nat :=
  match station.channel.inFlight with
  | none => if station.isPaused then 0 else 2
  | some call => if station.isHead call && !station.repeats call then 1 else 4

/-- What is left to do at the beginning of a round. A call that is still in the queue counts
for more than anything that is left to do for another call. -/
def roundWork (station : Station) : Nat :=
  6 * station.outbox.queue.calls.length + station.channel.outbound.length + station.flightWork

/-- What is left to do. -/
def work (station : Station) : Nat :=
  6 * station.outbox.queue.calls.length + station.channel.outbound.length +
    match station.channel.sender with
    | .looking | .waiting _ => station.flightWork
    | .sendingReply _ | .sendingCall _ => station.flightWork + 1
    | .dequeuing call _ => if station.isHead call then 0 else station.flightWork + 1
    | .peeking _ => max 2 station.flightWork
    | .ended => 0

/-- How many steps may follow before there is less to do. -/
def rank (station : Station) : Nat :=
  match station.channel.sender with
  | .peeking true => 3
  | .looking => 2
  | .peeking false | .dequeuing _ _ => 1
  | .sendingReply _ | .sendingCall _ | .waiting _ | .ended => 0

/-- How many steps may follow. -/
def distance (station : Station) : Nat := 4 * station.work + station.rank

theorem rank_le (station : Station) : station.rank ≤ 3 := by
  unfold rank
  split <;> decide

theorem flightWork_le (station : Station) : station.flightWork ≤ 4 := by
  unfold flightWork
  split <;> split <;> decide

theorem flightWork_of_idle (idle : station.channel.inFlight = none) :
    station.flightWork = if station.isPaused then 0 else 2 := by
  simp only [flightWork, idle]

theorem flightWork_of_flying {call : Call} (flying : station.channel.inFlight = some call) :
    station.flightWork = if station.isHead call && !station.repeats call then 1 else 4 := by
  simp only [flightWork, flying]

theorem flightWork_pos {call : Call} (flying : station.channel.inFlight = some call) :
    0 < station.flightWork := by
  rw [flightWork_of_flying flying]
  split <;> decide

theorem distance_of_looking (looks : station.channel.sender = .looking) :
    station.distance = 4 * station.roundWork + 2 := by
  simp only [distance, rank, work, roundWork, looks]

theorem work_of_holds {frame : Bytes} (holds : station.Holds frame) :
    station.work = station.roundWork + 1 := by
  rcases holds with holds | holds <;> simp only [work, roundWork, holds] <;> rfl

theorem distance_of_holds {frame : Bytes} (holds : station.Holds frame) :
    station.distance = 4 * (station.roundWork + 1) := by
  rw [distance, work_of_holds holds]
  rcases holds with holds | holds <;> simp only [rank, holds] <;> rfl

theorem work_of_waiting {wake : Time} (waits : station.channel.sender = .waiting wake) :
    station.work = station.roundWork := by
  simp only [work, roundWork, waits]

theorem work_le_of_distance {bound : Nat} (near : station.distance ≤ 4 * bound + 3) :
    station.work ≤ bound := by
  rw [distance] at near
  omega

/-! ## What each part of a round leaves to do -/

theorem distance_endRound (station : Station) (worked : Bool) :
    (station.endRound worked).distance ≤ 4 * station.roundWork + if worked then 2 else 0 := by
  cases worked <;> exact Nat.le_refl _

theorem distance_sendNext (station : Station) (worked : Bool) :
    (station.sendNext worked).distance ≤ 4 * station.roundWork + if worked then 3 else 1 := by
  simp only [sendNext]
  split
  · have ends := distance_endRound station worked
    cases worked <;> simp at ends ⊢ <;> omega
  next idle =>
    rw [Bool.not_eq_true, Bool.or_eq_false_iff, Option.isSome_eq_false_iff,
      Option.isNone_iff_eq_none] at idle
    have waits : station.flightWork = 2 := by simp [flightWork, idle.1, idle.2]
    have same : (station.sendAt (.peeking worked)).flightWork = station.flightWork := rfl
    have work : (station.sendAt (.peeking worked)).work = station.roundWork := by
      show _ + max 2 (station.sendAt (.peeking worked)).flightWork = _
      rw [same, roundWork, waits]
      rfl
    rw [distance, work]
    cases worked <;> exact Nat.le_refl _

/-- The call in flight has failed, and nothing of the queue is sent for a while. -/
def pause (station : Station) : Station :=
  { station with channel := { station.channel with
      inFlight := none
      pausedUntil := some (station.now + station.settings.retryDelay.nanoseconds) } }

/-- After a failure that is worth another attempt there is less to do. -/
theorem roundWork_pause {call : Call} {reply : Reply}
    (flying : station.channel.inFlight = some call)
    (found : station.replyInFlight call = some reply)
    (fails : reply.isRetryableFailure = true) (again : call.isRetryable = true) :
    station.pause.roundWork < station.roundWork := by
  have less : station.pause.flightWork < station.flightWork := by
    by_cases delay : station.settings.retryDelay.nanoseconds = 0
    · have repeated : station.repeats call = true := by
        simp [repeats, found, fails, again, Span.isZero, delay]
      simp [flightWork, flying, repeated, pause, isPaused, delay]
    · have paused : station.pause.isPaused = true := by
        simp [pause, isPaused, Nat.pos_of_ne_zero delay]
      rw [flightWork_of_idle rfl, if_pos paused]
      exact flightWork_pos flying
  simp only [roundWork, pause] at less ⊢
  omega

/-- The call in flight has ended, and is about to leave the queue. -/
def land (station : Station) (call : Call) (reply : Reply) : Station :=
  { station with channel := { station.channel with inFlight := none } }.sendAt
    (.dequeuing { call with reply := none } reply)

theorem work_land {call : Call} {reply : Reply}
    (flying : station.channel.inFlight = some call)
    (found : station.replyInFlight call = some reply)
    (settled : (reply.isRetryableFailure && call.isRetryable) = false) :
    (station.land call reply).work < station.roundWork := by
  have unrepeated : station.repeats call = false := by
    simp only [repeats, found, Option.any_some, settled, Bool.false_and]
  have idle : (station.land call reply).flightWork ≤ 2 := by
    rw [flightWork_of_idle rfl]
    split
    · exact Nat.zero_le 2
    · exact Nat.le_refl 2
  have flies := flightWork_of_flying flying
  rw [unrepeated, Bool.not_false, Bool.and_true] at flies
  show 6 * station.outbox.queue.calls.length + station.channel.outbound.length +
    (if station.isHead call then 0 else (station.land call reply).flightWork + 1) < _
  rw [roundWork, flies]
  split <;> omega

theorem distance_finishCurrent (station : Station) (worked : Bool) :
    (station.finishCurrent worked).distance ≤
      4 * station.roundWork + if worked then 3 else 1 := by
  simp only [finishCurrent]
  split
  · exact distance_sendNext station worked
  next call flying =>
    split
    · exact distance_sendNext station worked
    next reply found =>
      split
      next again =>
        rw [Bool.and_eq_true] at again
        have less := roundWork_pause flying found again.1 again.2
        have next := distance_sendNext station.pause true
        change (station.pause.sendNext true).distance ≤ _
        simp only [if_true] at next
        omega
      next ended =>
        have less := work_land flying found (Bool.eq_false_iff.mpr ended)
        have rank := rank_le (station.land call reply)
        change (station.land call reply).distance ≤ _
        unfold distance
        omega

theorem distance_sendReplies (station : Station) (worked : Bool) :
    (station.sendReplies worked).distance ≤
      4 * station.roundWork + if worked then 3 else 1 := by
  simp only [sendReplies]
  split
  next reply others waiting =>
    have same : work ({ station with channel := { station.channel with outbound := others } }.sendAt
        (.sendingReply (station.replyFrame reply))) = station.roundWork := by
      simp only [roundWork, waiting, List.length_cons]
      show _ + _ + (station.flightWork + 1) = _
      simp only [sendAt]
      omega
    rw [distance, same]
    exact Nat.le_add_right _ _
  next => exact distance_finishCurrent station worked

/-- What is left to do is not more once the activity is over. -/
theorem distance_endSending (station : Station) :
    station.endSending.distance ≤ 4 * station.roundWork := by
  show 4 * (6 * station.outbox.queue.calls.length + station.channel.outbound.length + 0) + 0 ≤ _
  rw [roundWork]
  omega

theorem distance_look (station : Station) :
    station.look.distance ≤ 4 * station.roundWork + 1 := by
  simp only [look]
  split
  · exact distance_sendReplies station false
  · exact Nat.le_succ_of_le (distance_endSending station)

theorem distance_wakeUp (station : Station) :
    station.wakeUp.distance ≤ 4 * station.roundWork + 1 := by
  simp only [wakeUp]
  split
  · exact distance_look station
  · exact distance_look _

theorem distance_transmit {frame : Bytes} {drops : Bool} {goOn : Station → Station}
    (goesOn : ∀ next : Station, (goOn next).distance ≤ 4 * next.roundWork + 3) :
    (station.transmit frame drops goOn).distance ≤ 4 * station.roundWork + 3 := by
  simp only [transmit]
  split
  · exact goesOn station
  · split
    · exact goesOn _
    · exact Nat.le_add_right_of_le (distance_endSending _)

theorem distance_dequeueEnded {call : Call} {reply : Reply}
    (ended : station.channel.sender = .dequeuing call reply) :
    (station.dequeueEnded call reply).1.distance < station.distance := by
  have now : station.distance =
      4 * (6 * station.outbox.queue.calls.length + station.channel.outbound.length +
        if station.isHead call then 0 else station.flightWork + 1) + 1 := by
    simp only [distance, work, rank, ended]
  have dequeued := station.outbox.queue.dequeueIfHead_cases station.backlog call.id
  simp only [dequeueEnded]
  generalize station.outbox.queue.dequeueIfHead station.backlog call.id = removal at dequeued
  cases dequeued with
  | @taken head rest backlog isCons same =>
      have isHead : station.isHead call = true := by
        simp [Station.isHead, Queue.peek, isCons, same]
      rw [if_pos isHead, isCons, List.length_cons] at now
      let left := { station with
        outbox := ({ station.outbox with
          queue := { station.outbox.queue with calls := rest } }.complete reply).2, backlog }
      have next := distance_sendNext left true
      have flight := left.flightWork_le
      have counts : left.roundWork =
        6 * rest.length + station.channel.outbound.length + left.flightWork := rfl
      simp only [if_true] at next
      show (left.sendNext true).distance < _
      omega
  | @mismatch backlog differs =>
      have isOther : station.isHead call = false := by
        rw [Bool.eq_false_iff]
        intro isHead
        obtain ⟨head, isFirst, same⟩ := (Option.any_eq_true _ _).mp isHead
        exact differs head isFirst (by simpa using same)
      rw [if_neg (by simp [isOther])] at now
      let told := { station with
        outbox := ({ station.outbox with queue := station.outbox.queue }.complete reply).2, backlog }
      have next := distance_sendNext told true
      have counts : told.roundWork = station.roundWork := rfl
      rw [counts, roundWork] at next
      simp only [if_true] at next
      show (told.sendNext true).distance < _
      omega
  | error =>
      show 4 * (6 * station.outbox.queue.calls.length + station.channel.outbound.length + 0) + 0 < _
      omega

/-- The head of the queue of a station with a pace is not sent again at once. -/
theorem Paces.not_repeats {head : Call} (paces : station.Paces)
    (isHead : station.outbox.queue.peek = some head) :
    station.repeats (head.start station.now) = false := by
  rw [Bool.eq_false_iff]
  intro repeated
  simp only [repeats, Bool.and_eq_true, Option.any_eq_true] at repeated
  obtain ⟨⟨⟨reply, found, fails⟩, again⟩, delay⟩ := repeated
  have noDelay : station.settings.retryDelay.nanoseconds = 0 := by simpa [Span.isZero] using delay
  rcases paces with delayed | patient
  · omega
  · have patience := patient head (List.mem_of_mem_head? isHead) again
    simp only [replyInFlight] at found
    split at found
    next carried =>
      cases found
      exact absurd (patience.reply _ carried) (by simp [fails])
    next =>
      split at found
      next deadline due =>
        have late : ¬ deadline ≤ station.now := by
          rw [Call.deadline_start due, Nat.not_le]
          exact Nat.lt_add_of_pos_right patience.timeout
        rw [if_neg late] at found
        cases found
      next => cases found

theorem distance_takeHead {worked : Bool} (paces : station.Paces)
    (peeks : station.channel.sender = .peeking worked) :
    (station.takeHead worked).distance < station.distance := by
  have now : station.distance =
      4 * (6 * station.outbox.queue.calls.length + station.channel.outbound.length +
        max 2 station.flightWork) + if worked then 3 else 1 := by
    cases worked <;> simp only [distance, work, rank, peeks] <;> rfl
  have stage : 1 ≤ if worked then 3 else 1 := by cases worked <;> decide
  simp only [takeHead]
  split
  next =>
    have ends := distance_endRound station worked
    rw [roundWork] at ends
    cases worked <;> simp at ends now <;> omega
  next head isHead =>
    have isFirst (call : Call) (same : call.id = head.id) : station.isHead call = true := by
      simp [Station.isHead, isHead, same]
    split
    next long =>
      let failed (message : String) : Station :=
        { station with channel := { station.channel with
            inFlight := some ((head.start station.now).withReply
              (Reply.failure head.id .other message))
            pausedUntil := none } }
      have flight (message : String) : (failed message).flightWork = 1 := by
        have first : (failed message).isHead ((head.start station.now).withReply
          (Reply.failure head.id .other message)) = true := isFirst _ rfl
        rw [flightWork_of_flying rfl, first]
        rfl
      have ends (message : String) := distance_endRound (failed message) true
      show ((failed _).endRound true).distance < _
      refine Nat.lt_of_le_of_lt (ends _) ?_
      rw [roundWork, flight, if_pos rfl]
      show 4 * (6 * station.outbox.queue.calls.length + station.channel.outbound.length + 1) + 2 < _
      omega
    next fits =>
      let sent : Station :=
        { station with channel := { station.channel with
            inFlight := some (head.start station.now), pausedUntil := none } }.sendAt
          (.sendingCall head.invocation.encode)
      have flight : sent.flightWork = 1 := by
        have first : sent.isHead (head.start station.now) = true := isFirst _ rfl
        have once : sent.repeats (head.start station.now) = false := paces.not_repeats isHead
        rw [flightWork_of_flying rfl, first, once]
        rfl
      show 4 * (6 * station.outbox.queue.calls.length + station.channel.outbound.length +
        (sent.flightWork + 1)) + 0 < _
      omega

/-- Each step of the sending activity comes nearer to its rest. -/
theorem distance_sendStep {drops : Bool} {next : Station × List Report} (paces : station.Paces)
    (busy : ¬ station.IsAtRest) (stepped : station.sendStep drops = some next) :
    next.1.distance < station.distance := by
  simp only [sendStep] at stepped
  split at stepped
  next looks =>
    cases stepped
    rw [distance_of_looking looks]
    exact Nat.lt_succ_of_le (distance_look station)
  next frame holds =>
    cases stepped
    rw [distance_of_holds (Or.inl holds)]
    exact Nat.lt_succ_of_le (distance_transmit fun next => distance_sendReplies next true)
  next call reply ended => cases stepped; exact distance_dequeueEnded ended
  next worked peeks => cases stepped; exact distance_takeHead paces peeks
  next frame holds =>
    cases stepped
    rw [distance_of_holds (Or.inr holds)]
    exact Nat.lt_succ_of_le
      (distance_transmit fun next => Nat.le_succ_of_le (distance_endRound next true))
  next wake waits => exact absurd (Or.inr ⟨wake, waits⟩) busy
  next => cases stepped

/-- An activity that is not at rest can take a step. -/
theorem exists_sendStep (busy : ¬ station.IsAtRest) (drops : Bool) :
    ∃ next, station.sendStep drops = some next := by
  simp only [sendStep]
  split
  next => exact ⟨_, rfl⟩
  next => exact ⟨_, rfl⟩
  next => exact ⟨_, rfl⟩
  next => exact ⟨_, rfl⟩
  next => exact ⟨_, rfl⟩
  next wake waits => exact absurd (Or.inr ⟨wake, waits⟩) busy
  next ended => exact absurd (Or.inl ended) busy

theorem Change.paces {before after : Station} {told : List Report}
    (change : Change before after told) (paces : before.Paces) : after.Paces := by
  obtain ⟨removed, equal⟩ := change.removes
  have same : after.settings = before.settings := by
    cases change with
    | invoked _ _ _ answered => cases answered <;> rfl
    | _ => rfl
  rcases paces with delayed | patient
  · exact Or.inl (same ▸ delayed)
  · refine Or.inr fun call member again => ?_
    have patience := patient call (equal ▸ List.mem_append_right removed member) again
    exact ⟨same ▸ patience.timeout, patience.reply⟩

theorem Paces.sendStep {drops : Bool} {next : Station × List Report} (paces : station.Paces)
    (stepped : station.sendStep drops = some next) : next.1.Paces :=
  (sendStep_turn stepped).preserves Change.paces paces

/-! ## What is delivered -/

theorem delivered_endRound (station : Station) (worked : Bool) :
    (station.endRound worked).delivered = station.delivered := by
  cases worked <;> rfl

theorem delivered_sendNext (station : Station) (worked : Bool) :
    (station.sendNext worked).delivered = station.delivered := by
  simp only [sendNext]
  split
  · exact delivered_endRound station worked
  · rfl

theorem delivered_finishCurrent (station : Station) (worked : Bool) :
    (station.finishCurrent worked).delivered = station.delivered := by
  simp only [finishCurrent]
  split
  · exact delivered_sendNext station worked
  · split
    · exact delivered_sendNext station worked
    · split
      · exact delivered_sendNext station.pause true
      · rfl

theorem delivered_sendReplies (station : Station) (worked : Bool) :
    (station.sendReplies worked).delivered = station.delivered := by
  simp only [sendReplies]
  split
  · rfl
  · exact delivered_finishCurrent station worked

theorem delivered_look (station : Station) : station.look.delivered = station.delivered := by
  simp only [look]
  split
  · exact delivered_sendReplies station false
  · rfl

theorem delivered_wakeUp (station : Station) : station.wakeUp.delivered = station.delivered := by
  simp only [wakeUp]
  split
  · exact delivered_look station
  · exact delivered_look _

theorem delivered_takeHead (station : Station) (worked : Bool) :
    (station.takeHead worked).delivered = station.delivered := by
  simp only [takeHead]
  split
  · exact delivered_endRound station worked
  · split <;> rfl

theorem delivered_dequeueEnded (station : Station) (call : Call) (reply : Reply) :
    (station.dequeueEnded call reply).1.delivered = station.delivered := by
  simp only [dequeueEnded]
  split
  · rfl
  · exact delivered_sendNext _ true

theorem delivered_transmit {frame : Bytes} {drops : Bool} {goOn : Station → Station}
    (goesOn : ∀ next : Station, (goOn next).delivered = next.delivered) :
    (station.transmit frame drops goOn).delivered.length ≤ station.delivered.length + 1 := by
  have sent := station.link.length_inbox_send station.channel.side frame
  simp only [transmit]
  split
  · rw [goesOn]
    exact Nat.le_succ _
  · split
    next result =>
      rw [result] at sent
      rw [goesOn]
      exact sent
    next result =>
      rw [result] at sent
      exact sent

/-- Whatever is delivered is less that is left to do. -/
theorem delivered_sendStep {drops : Bool} {next : Station × List Report} (paces : station.Paces)
    (stepped : station.sendStep drops = some next) :
    next.1.delivered.length + next.1.work ≤ station.delivered.length + station.work := by
  have nearer (busy : ¬ station.IsAtRest) : next.1.work ≤ station.work := by
    apply work_le_of_distance
    have near := distance_sendStep paces busy stepped
    have stage := station.rank_le
    unfold distance at near ⊢
    omega
  have keeps (same : next.1.delivered = station.delivered) (less : next.1.work ≤ station.work) :
      next.1.delivered.length + next.1.work ≤ station.delivered.length + station.work := by
    rw [same]
    exact Nat.add_le_add_left less _
  have sends {frame : Bytes} (holds : station.Holds frame)
      (one : next.1.delivered.length ≤ station.delivered.length + 1)
      (near : next.1.distance ≤ 4 * station.roundWork + 3) :
      next.1.delivered.length + next.1.work ≤ station.delivered.length + station.work := by
    have less := work_le_of_distance near
    rw [work_of_holds holds]
    omega
  have stage := stepped
  simp only [sendStep] at stage
  split at stage
  next looks =>
    cases stage
    exact keeps (delivered_look station) (nearer (by simp [IsAtRest, looks]))
  next frame holds =>
    cases stage
    exact sends (Or.inl holds) (delivered_transmit fun next => delivered_sendReplies next true)
      (distance_transmit fun next => distance_sendReplies next true)
  next call reply ended =>
    cases stage
    exact keeps (delivered_dequeueEnded station call reply) (nearer (by simp [IsAtRest, ended]))
  next worked peeks =>
    cases stage
    exact keeps (delivered_takeHead station worked) (nearer (by simp [IsAtRest, peeks]))
  next frame holds =>
    cases stage
    exact sends (Or.inr holds) (delivered_transmit fun next => delivered_endRound next true)
      (distance_transmit fun next => Nat.le_succ_of_le (distance_endRound next true))
  next wake waits =>
    split at stage
    · cases stage
      apply keeps (delivered_wakeUp station)
      rw [work_of_waiting waits]
      exact work_le_of_distance (Nat.le_trans (distance_wakeUp station) (by omega))
    · cases stage
  next => cases stage

/-! ## Coming to rest -/

theorem Paces.restsWithin (paces : station.Paces) : station.RestsWithin station.distance := by
  intro choices enough
  induction choices generalizing station with
  | nil =>
      by_cases rest : station.IsAtRest
      · exact ⟨0, Nat.zero_le _, rest⟩
      · obtain ⟨next, stepped⟩ := exists_sendStep rest false
        have nearer := distance_sendStep paces rest stepped
        exact absurd (Nat.lt_of_lt_of_le nearer enough) (Nat.not_lt_zero _)
  | cons drops choices ih =>
      by_cases rest : station.IsAtRest
      · exact ⟨0, Nat.zero_le _, rest⟩
      · obtain ⟨next, stepped⟩ := exists_sendStep rest drops
        have nearer := distance_sendStep paces rest stepped
        rw [List.length_cons] at enough
        obtain ⟨made, few, rests⟩ := ih (paces.sendStep stepped) (by omega)
        refine ⟨made + 1, by omega, ?_⟩
        rw [List.take_succ_cons, sendSteps, stepped]
        exact rests

theorem Paces.delivered_sendSteps (paces : station.Paces) (choices : List Bool) :
    (station.sendSteps choices).delivered.length + (station.sendSteps choices).work ≤
      station.delivered.length + station.work := by
  induction choices generalizing station with
  | nil => exact Nat.le_refl _
  | cons drops choices ih =>
      rw [sendSteps]
      split
      next next told stepped =>
        exact Nat.le_trans (ih (paces.sendStep stepped)) (delivered_sendStep paces stepped)
      next => exact Nat.le_refl _

/-- While nothing else happens and the clock stands still, the sending activity comes to rest,
if there is a pause before a failed call is sent again or no such call fails at once. -/
theorem Paces.comesToRest (paces : station.Paces) :
    station.RestsWithin station.distance ∧ station.SendsAtMost station.work :=
  ⟨paces.restsWithin,
    fun choices => Nat.le_trans (Nat.le_add_right _ _) (paces.delivered_sendSteps choices)⟩

/-- Settings without a pause before a failed call is sent again. -/
def prompt : Settings := { Settings.standard with retryDelay := ⟨0⟩ }

/-- A call that is sent again after a failure. -/
def persistent (timeout : Span) : Call :=
  { Call.new .server ⟨1, "f", []⟩ with policy := some .retry, timeout := some timeout }

/-- A channel that begins, with an outbox that has just taken a call. -/
def beginning (call : Call) : Station where
  now := 0
  channel := Channel.start ⟨.server, none⟩ .left
  outbox :=
    let (run, outbox) := Run.start ⟨⟨.server, 10, []⟩, Waiters.none, false, prompt⟩ call
    (run.enqueue 0 outbox none).1.2
  answers := .new 10
  link := .new 1000
  backlog := none

theorem comesToRest_beginning :
    (beginning (persistent (.ofMilliseconds 1))).Paces ∧
    (beginning (persistent (.ofMilliseconds 1))).RestsWithin 34 ∧
    (beginning (persistent (.ofMilliseconds 1))).SendsAtMost 8 := by
  have paces : (beginning (persistent (.ofMilliseconds 1))).Paces := by
    refine Or.inr fun call member _ => ?_
    cases List.mem_singleton.mp (show call ∈ [persistent (.ofMilliseconds 1)] from member)
    exact ⟨by decide, fun reply carried => by cases carried⟩
  have rest := paces.comesToRest
  have steps : (beginning (persistent (.ofMilliseconds 1))).distance = 34 := by decide
  have frames : (beginning (persistent (.ofMilliseconds 1))).work = 8 := by decide
  rw [steps, frames] at rest
  exact ⟨paces, rest⟩

/-! ## Both ends are there -/

/-- The channel goes on, and both ends of its link are there. -/
structure IsConnected (station : Station) : Prop where
  running : station.channel.isStopped = false
  isOpen : station.isLinkOpen = true
  isHeard : (station.link.atSide station.channel.side.other).isListening = true

/-- Frames come to the peer's end of the link. -/
def deliver (station : Station) (frames : List Bytes) : Station :=
  { station with link := station.link.modify station.channel.side.other fun linkEnd =>
      { linkEnd with inbox := linkEnd.inbox ++ frames } }

theorem delivered_deliver (station : Station) (frames : List Bytes) :
    (station.deliver frames).delivered = station.delivered ++ frames :=
  congrArg LinkEnd.inbox (station.link.atSide_modify_self _ _)

theorem maxFrameLength_deliver (station : Station) (frames : List Bytes) :
    (station.deliver frames).link.maxFrameLength = station.link.maxFrameLength :=
  Link.maxFrameLength_modify _ _ _

theorem deliver_nil (station : Station) : station.deliver [] = station := by
  have same : (station.link.modify station.channel.side.other fun linkEnd =>
      { linkEnd with inbox := linkEnd.inbox ++ [] }) = station.link := by
    simp only [List.append_nil]
    cases station.channel.side <;> rfl
  rw [deliver, same]

theorem deliver_deliver (station : Station) (frames others : List Bytes) :
    (station.deliver frames).deliver others = station.deliver (frames ++ others) := by
  simp only [deliver, Link.modify]
  cases station.channel.side <;> simp [Side.other, List.append_assoc]

namespace IsConnected

variable (connected : station.IsConnected)
include connected

theorem look : station.look = station.sendReplies false := by
  simp only [Station.look, connected.isOpen, connected.running, Bool.not_false, Bool.and_self,
    if_true]

/-- A frame that fits is delivered, and the activity goes on. -/
theorem transmit {frame : Bytes} (fits : frame.length ≤ station.link.maxFrameLength) (drops : Bool)
    (goOn : Station → Station) :
    station.transmit frame drops goOn = goOn (station.deliver [frame]) := by
  simp only [Station.transmit, connected.running, Bool.and_false, Bool.false_eq_true, if_false,
    Link.send_of_isListening fits connected.isOpen connected.isHeard]
  rfl

theorem deliver (frames : List Bytes) : (station.deliver frames).IsConnected where
  running := connected.running
  isOpen := (Link.isOpen_modify_other _ _ _).trans connected.isOpen
  isHeard :=
    (congrArg LinkEnd.isListening (station.link.atSide_modify_self _ _)).trans connected.isHeard

end IsConnected

/-! ## A call that is sent forever -/

/-- The head of the queue fails at once when it is sent, and nothing delays the next attempt. -/
structure IsHasty (station : Station) (head : Call) : Prop extends IsConnected station where
  fits : head.invocation.encode.length ≤ station.link.maxFrameLength
  silent : station.channel.outbound = []
  isHead : station.outbox.queue.peek = some head
  again : head.isRetryable = true
  unanswered : head.reply = none
  noTime : (head.effectiveTimeout station.settings.defaultTimeout).nanoseconds = 0
  noDelay : station.settings.retryDelay.nanoseconds = 0
  inTime : station.now < Time.horizon

/-- The sending activity is busy with the head of the queue. -/
inductive Resends (station : Station) (head : Call) : Prop where
  | idle : station.channel.sender = .looking → station.channel.inFlight = none →
      station.isPaused = false → Resends station head
  | failed : station.channel.sender = .looking →
      station.channel.inFlight = some (head.start station.now) → Resends station head
  | peeking {worked : Bool} : station.channel.sender = .peeking worked → Resends station head
  | sending : station.channel.sender = .sendingCall head.invocation.encode →
      station.channel.inFlight = some (head.start station.now) → Resends station head

/-- How far the sending activity has come: three steps for each frame. -/
def progress (station : Station) : Nat :=
  3 * station.delivered.length +
    match station.channel.sender with
    | .sendingCall _ => 2
    | .peeking _ => 1
    | _ => 0

theorem progress_le (station : Station) : station.progress ≤ 3 * station.delivered.length + 2 := by
  unfold progress
  split <;> omega

theorem le_progress (station : Station) : 3 * station.delivered.length ≤ station.progress :=
  Nat.le_add_right _ _

/-- The head of the queue is in flight again. -/
def resend (station : Station) (head : Call) : Station :=
  { station with channel := { station.channel with
      inFlight := some (head.start station.now), pausedUntil := none } }.sendAt
    (.sendingCall head.invocation.encode)

section Hasty

variable {head : Call} (hasty : station.IsHasty head)
include hasty

theorem IsHasty.finishCurrent_of_look : station.look = station.finishCurrent false := by
  rw [hasty.toIsConnected.look, sendReplies, hasty.silent]

/-- The attempt that has just begun has already failed. -/
theorem IsHasty.replyInFlight : ∃ message,
    station.replyInFlight (head.start station.now) = some (.failure head.id .timeout message) := by
  have due : (head.start station.now).deadline station.settings.defaultTimeout =
      some station.now := by
    show Time.after? station.now (head.effectiveTimeout _) = _
    rw [Time.after?, hasty.noTime, Nat.add_zero, if_pos hasty.inTime]
  have unanswered : (head.start station.now).reply = none := hasty.unanswered
  simp only [Station.replyInFlight, unanswered, due, Nat.le_refl, if_true]
  exact ⟨_, rfl⟩

theorem IsHasty.finishCurrent (flying : station.channel.inFlight = some (head.start station.now)) :
    station.finishCurrent false = station.pause.sendAt (.peeking true) := by
  obtain ⟨message, found⟩ := hasty.replyInFlight
  have fails : (Reply.failure head.id .timeout message).isRetryableFailure = true := rfl
  have again : (head.start station.now).isRetryable = true := hasty.again
  have unpaused : station.pause.isPaused = false := by
    simp [pause, isPaused, hasty.noDelay]
  simp only [Station.finishCurrent, flying, found, fails, again, Bool.and_self, if_true]
  change station.pause.sendNext true = _
  simp only [sendNext, unpaused, Bool.or_false]
  rfl

theorem IsHasty.takeHead (worked : Bool) : station.takeHead worked = station.resend head := by
  simp only [Station.takeHead, hasty.isHead]
  exact if_neg (Nat.not_lt.mpr hasty.fits)

theorem IsHasty.resent : (station.deliver [head.invocation.encode]).IsHasty head where
  toIsConnected := hasty.toIsConnected.deliver _
  fits := (maxFrameLength_deliver _ _).symm ▸ hasty.fits
  silent := hasty.silent
  isHead := hasty.isHead
  again := hasty.again
  unanswered := hasty.unanswered
  noTime := hasty.noTime
  noDelay := hasty.noDelay
  inTime := hasty.inTime

theorem IsHasty.sendStep (resends : station.Resends head) (drops : Bool) :
    ∃ next told, station.sendStep drops = some (next, told) ∧ next.IsHasty head ∧
      next.Resends head ∧ next.progress = station.progress + 1 := by
  cases resends with
  | idle looks idle unpaused =>
      refine ⟨station.sendAt (.peeking false), [], ?_, { hasty with }, .peeking rfl, ?_⟩
      · simp [Station.sendStep, looks, hasty.finishCurrent_of_look, Station.finishCurrent, idle,
          sendNext, unpaused]
      · simp only [progress, looks]
        rfl
  | failed looks flying =>
      refine ⟨station.pause.sendAt (.peeking true), [], ?_, { hasty with }, .peeking rfl, ?_⟩
      · simp only [Station.sendStep, looks, hasty.finishCurrent_of_look, hasty.finishCurrent flying]
      · simp only [progress, looks]
        rfl
  | @peeking worked peeks =>
      refine ⟨station.resend head, [], ?_, { hasty with }, .sending rfl rfl, ?_⟩
      · simp only [Station.sendStep, peeks, hasty.takeHead]
      · simp only [progress, peeks]
        rfl
  | sending holds flying =>
      refine ⟨(station.deliver [head.invocation.encode]).sendAt .looking, [], ?_,
        { hasty.resent with }, .failed rfl flying, ?_⟩
      · simp only [Station.sendStep, holds, hasty.toIsConnected.transmit hasty.fits]
        rfl
      · have arrives := congrArg List.length (station.delivered_deliver [head.invocation.encode])
        rw [List.length_append, List.length_singleton] at arrives
        simp only [progress, holds]
        show 3 * (station.deliver [head.invocation.encode]).delivered.length + 0 = _
        omega

/-- A call that fails at once and is sent again without a pause is sent forever. -/
theorem IsHasty.sendSteps (resends : station.Resends head) (choices : List Bool) :
    (station.sendSteps choices).Resends head ∧
      (station.sendSteps choices).progress = station.progress + choices.length := by
  induction choices generalizing station with
  | nil => exact ⟨resends, rfl⟩
  | cons drops choices ih =>
      obtain ⟨next, told, stepped, stays, goesOn, further⟩ := hasty.sendStep resends drops
      obtain ⟨ends, total⟩ := ih stays goesOn
      rw [Station.sendSteps, stepped]
      refine ⟨ends, ?_⟩
      rw [total, further, List.length_cons]
      omega

omit hasty in
theorem Resends.not_isAtRest (resends : station.Resends head) : ¬ station.IsAtRest := by
  rintro (ended | ⟨wake, waits⟩)
  · cases resends <;> simp_all
  · cases resends <;> simp_all

/-- No number of steps and no number of frames is enough. -/
theorem IsHasty.not_restsWithin (resends : station.Resends head) (steps : Nat) :
    ¬ station.RestsWithin steps := by
  intro rests
  obtain ⟨made, _, rest⟩ := rests (List.replicate steps false) (by simp)
  exact (hasty.sendSteps resends _).1.not_isAtRest rest

theorem IsHasty.not_sendsAtMost (resends : station.Resends head) (frames : Nat) :
    ¬ station.SendsAtMost frames := by
  intro sends
  have few := sends (List.replicate (3 * frames + 3) false)
  have total := (hasty.sendSteps resends (List.replicate (3 * frames + 3) false)).2
  have ends := (station.sendSteps (List.replicate (3 * frames + 3) false)).progress_le
  have begins := station.le_progress
  rw [List.length_replicate] at total
  omega

end Hasty

/-- The settings and the call are valid, but a call whose time is up at once is sent forever. -/
theorem not_comesToRest_beginning :
    prompt.validate = .ok () ∧ (beginning (persistent ⟨0⟩)).outbox.queue.calls = [persistent ⟨0⟩] ∧
    (∀ steps, ¬ (beginning (persistent ⟨0⟩)).RestsWithin steps) ∧
    ∀ frames, ¬ (beginning (persistent ⟨0⟩)).SendsAtMost frames := by
  have hasty : (beginning (persistent ⟨0⟩)).IsHasty (persistent ⟨0⟩) := by
    refine ⟨⟨?_, ?_, ?_⟩, ?_, ?_, ?_, ?_, ?_, ?_, ?_, ?_⟩ <;> decide
  have resends : (beginning (persistent ⟨0⟩)).Resends (persistent ⟨0⟩) := .idle rfl rfl rfl
  exact ⟨rfl, rfl, hasty.not_restsWithin resends, hasty.not_sendsAtMost resends⟩

end Station

end PeerCalls
