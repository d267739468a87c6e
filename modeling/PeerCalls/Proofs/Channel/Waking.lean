import PeerCalls.Proofs.Channel.InFlight

/-!
# No wake-up is lost

Others leave work for the sending activity, and then signal to it: replies, the reply to
the call in flight, new calls. The activity looks at each of these once in a round and
then waits, and what comes after its look has left a signal that ends the wait at once.
So a channel that waits without a signal has nothing to do before its wait ends, which is
when the call in flight times out or the pause ends, if not before.
-/

namespace PeerCalls

namespace Time

variable {now time later : Nat}

/-- A timer never rings early. -/
theorem le_tick (time : Nat) : time ≤ tick time := by
  change time ≤ (time + 999999 : Nat) / 1000000 * 1000000
  omega

theorem tick_le_tick (before : time ≤ later) : tick time ≤ tick later := by
  change (time + 999999 : Nat) / 1000000 * 1000000 ≤ (later + 999999 : Nat) / 1000000 * 1000000
  omega

/-- At a whole millisecond, all timers have rung that are set for a time that has come. -/
theorem lt_of_lt_tick (whole : now % 1000000 = 0) (before : now < tick time) : now < time := by
  change now < (time + 999999 : Nat) / 1000000 * 1000000 at before
  omega

/-- A wait ends before the timer for a time rings that the clock can reach. -/
theorem wakeAfter_le {span : Span} (before : now + span.nanoseconds ≤ time)
    (reachable : time < horizon) : wakeAfter now span ≤ tick time := by
  have reached : now + span.nanoseconds < horizon := Nat.lt_of_le_of_lt before reachable
  rw [wakeAfter, after?, if_pos reached]
  exact tick_le_tick before

end Time

theorem Span.shorter_le_left (left right : Span) :
    (left.shorter right).nanoseconds ≤ left.nanoseconds := by
  unfold shorter
  split
  · exact Nat.le_refl _
  next longer => exact Nat.le_of_lt (Nat.lt_of_not_le longer)

theorem Span.shorter_le_right (left right : Span) :
    (left.shorter right).nanoseconds ≤ right.nanoseconds := by
  unfold shorter
  split
  next shorter => exact shorter
  · exact Nat.le_refl _

/-- The clock can reach each deadline. -/
theorem Call.deadline_lt_horizon {call : Call} {default : Span} {deadline : Time}
    (due : call.deadline default = some deadline) : deadline < Time.horizon := by
  obtain ⟨start, _, reached⟩ := Option.bind_eq_some_iff.mp due
  unfold Time.after? at reached
  split at reached
  next inTime => exact Option.some.inj reached ▸ inTime
  next => cases reached

/-- An outbox keeps the calls and the signal of its channel. -/
structure Outbox.KeepsWork (before after : Outbox) : Prop where
  queue : after.queue = before.queue
  settings : after.settings = before.settings
  signal : before.isSignaled = true → after.isSignaled = true

namespace Channel

variable {channel after : Channel} {outbox later : Outbox}

/-- There is nothing to send before a time. -/
structure IdleUntil (channel : Channel) (outbox : Outbox) (wake : Time) : Prop where
  outbound : channel.outbound = []
  inFlight : ∀ call, channel.inFlight = some call → call.reply = none ∧
    ∀ deadline, call.deadline outbox.settings.defaultTimeout = some deadline →
      wake ≤ Time.tick deadline
  queue : channel.inFlight = none → outbox.queue.calls = [] ∨
    ∃ pause, channel.pausedUntil = some pause ∧ (pause < Time.horizon → wake ≤ Time.tick pause)

/-- A wait without a signal has a reason, and so has the part of a round that comes before it. -/
structure Heeds (channel : Channel) (outbox : Outbox) : Prop where
  waiting : ∀ wake, channel.sender = .waiting wake →
    outbox.isSignaled = true ∨ channel.IdleUntil outbox wake
  peeking : channel.sender = .peeking false →
    channel.inFlight = none ∧ (outbox.isSignaled = true ∨ channel.outbound = [])

/-- The head of the queue is about to be sent again. -/
structure IsRetrying (channel : Channel) (queue : Queue) : Prop where
  landed : channel.inFlight = none
  unended : ∀ call reply, channel.sender ≠ .dequeuing call reply
  queue : queue.calls ≠ []

/-- A channel pauses only before it sends the head of its queue again. -/
def PausesToRetry (channel : Channel) (queue : Queue) : Prop :=
  ∀ pause, channel.pausedUntil = some pause → channel.IsRetrying queue

/-- The activity is neither waiting nor about to wait. -/
theorem Heeds.of_busy (unwaiting : ∀ wake, channel.sender ≠ .waiting wake)
    (unpeeking : channel.sender ≠ .peeking false) : channel.Heeds outbox where
  waiting wake waits := absurd waits (unwaiting wake)
  peeking peeks := absurd peeks unpeeking

theorem Heeds.start (contact : Contact) (side : Side) (outbox : Outbox) :
    (Channel.start contact side).Heeds outbox :=
  .of_busy (fun _ waits => by cases waits) (fun peeks => by cases peeks)

/-- Whatever comes with a signal is heeded. -/
theorem Heeds.signaled (heeds : channel.Heeds outbox) (stage : after.sender = channel.sender)
    (landed : channel.inFlight = none → after.inFlight = none)
    (signaled : later.isSignaled = true) : after.Heeds later where
  waiting _ _ := Or.inl signaled
  peeking peeks := ⟨landed (heeds.peeking (stage ▸ peeks)).1, Or.inl signaled⟩

/-- Whatever leaves the work and the signal alone is heeded. -/
theorem Heeds.unchanged (heeds : channel.Heeds outbox)
    (same : after = { channel with
      isStopped := after.isStopped, receiver := after.receiver, hasEnded := after.hasEnded })
    (queue : later.queue = outbox.queue) (settings : later.settings = outbox.settings)
    (signal : outbox.isSignaled = true → later.isSignaled = true) : after.Heeds later where
  waiting wake waits := by
    rw [same] at waits
    rcases heeds.waiting wake waits with signaled | idle
    · exact Or.inl (signal signaled)
    · right
      constructor <;> rw [same]
      · exact idle.outbound
      · rw [settings]
        exact idle.inFlight
      · rw [queue]
        exact idle.queue
  peeking peeks := by
    rw [same] at peeks ⊢
    obtain ⟨landed, quiet⟩ := heeds.peeking peeks
    exact ⟨landed, quiet.imp_left signal⟩

/-- The channel sees to all that is in its outbox. -/
structure Attends (channel : Channel) (outbox : Outbox) : Prop where
  heeds : channel.Heeds outbox
  pauses : channel.PausesToRetry outbox.queue

theorem Attends.start (contact : Contact) (side : Side) (outbox : Outbox) :
    (Channel.start contact side).Attends outbox where
  heeds := .start contact side outbox
  pauses _ paused := by cases paused

theorem Attends.stop (attends : channel.Attends outbox) : channel.stop.Attends outbox where
  heeds := attends.heeds.unchanged rfl rfl rfl id
  pauses pause paused :=
    ⟨(attends.pauses pause paused).landed, (attends.pauses pause paused).unended,
      (attends.pauses pause paused).queue⟩

theorem Attends.unchanged (attends : channel.Attends outbox) (keeps : outbox.KeepsWork later) :
    channel.Attends later where
  heeds := attends.heeds.unchanged rfl keeps.queue keeps.settings keeps.signal
  pauses := keeps.queue ▸ attends.pauses

/-- New calls come with a signal. -/
theorem Attends.append (attends : channel.Attends outbox) (added : List Call) :
    channel.Attends { outbox with
      queue := { outbox.queue with calls := outbox.queue.calls ++ added }, isSignaled := true } where
  heeds := attends.heeds.signaled rfl id rfl
  pauses pause paused :=
    ⟨(attends.pauses pause paused).landed, (attends.pauses pause paused).unended,
      fun empty => (attends.pauses pause paused).queue (List.append_eq_nil_iff.mp empty).1⟩

end Channel

namespace Station

variable {station : Station}

/-- The sending activity of a channel heeds what is in its outbox. -/
abbrev Heeds (station : Station) : Prop := station.channel.Heeds station.outbox

/-- The channel sees to all that is in its outbox. -/
abbrev Attends (station : Station) : Prop := station.channel.Attends station.outbox

/-! ## How long a round with nothing to do waits -/

theorem idleWait_le_deadline {call : Call} {deadline : Time}
    (flying : station.channel.inFlight = some call)
    (due : call.deadline station.settings.defaultTimeout = some deadline) :
    station.idleWait.nanoseconds ≤ deadline - station.now := by
  have wake : (station.channel.inFlight.bind fun call =>
      call.deadline station.settings.defaultTimeout) = some deadline := by
    rw [flying]
    exact due
  simp only [idleWait, wake]
  split
  · exact Nat.le_trans (Span.shorter_le_left _ _) (Span.shorter_le_right _ _)
  · exact Span.shorter_le_right _ _

theorem idleWait_le_pause {pause : Time} (paused : station.channel.pausedUntil = some pause) :
    station.idleWait.nanoseconds ≤ pause - station.now := by
  simp only [idleWait, paused]
  exact Span.shorter_le_right _ _

/-- The wait of a round ends with the timeout of the call in flight, if not before. -/
theorem wake_le_deadline {call : Call} {deadline : Time}
    (flying : station.channel.inFlight = some call)
    (due : call.deadline station.settings.defaultTimeout = some deadline)
    (early : station.now ≤ deadline) :
    Time.wakeAfter station.now station.idleWait ≤ Time.tick deadline := by
  have short := idleWait_le_deadline flying due
  apply Time.wakeAfter_le _ (Call.deadline_lt_horizon due)
  exact Nat.add_le_of_le_sub' early short

theorem wake_le_pause {pause : Time} (paused : station.channel.pausedUntil = some pause)
    (early : station.now ≤ pause) (reachable : pause < Time.horizon) :
    Time.wakeAfter station.now station.idleWait ≤ Time.tick pause :=
  Time.wakeAfter_le (Nat.add_le_of_le_sub' early (idleWait_le_pause paused)) reachable

/-! ## The sending activity -/

/-- The call in flight has not ended. -/
theorem unended_of_replyInFlight {call : Call} (pending : station.replyInFlight call = none) :
    call.reply = none ∧ ∀ deadline,
      call.deadline station.settings.defaultTimeout = some deadline → station.now < deadline := by
  simp only [replyInFlight] at pending
  split at pending
  · cases pending
  next unanswered =>
    refine ⟨unanswered, fun deadline due => ?_⟩
    rw [due] at pending
    by_cases late : deadline ≤ station.now
    · simp [late] at pending
    · exact Nat.lt_of_not_le late

theorem heeds_endRound_true (station : Station) : (station.endRound true).Heeds :=
  Channel.Heeds.of_busy (fun _ waits => by cases waits) (fun peeks => by cases peeks)

theorem heeds_sendNext_true (station : Station) : (station.sendNext true).Heeds := by
  simp only [sendNext]
  split
  · exact heeds_endRound_true station
  · exact Channel.Heeds.of_busy (fun _ waits => by cases waits) (fun peeks => by cases peeks)

/-- A round that waits has nothing to do until its wait ends. -/
theorem heeds_endRound (idle : station.outbox.isSignaled = true ∨
    station.channel.IdleUntil station.outbox (Time.wakeAfter station.now station.idleWait)) :
    (station.endRound false).Heeds where
  waiting wake waits := by
    cases waits
    rcases idle with signaled | idle
    · exact Or.inl signaled
    · exact Or.inr ⟨idle.outbound, idle.inFlight, idle.queue⟩
  peeking peeks := by cases peeks

theorem heeds_sendNext (silent : station.channel.outbound = [])
    (unended : ∀ call, station.channel.inFlight = some call →
      station.replyInFlight call = none) : (station.sendNext false).Heeds := by
  simp only [sendNext]
  split
  next busy =>
    refine heeds_endRound (Or.inr ⟨silent, ?_, ?_⟩)
    · intro call flying
      obtain ⟨unanswered, early⟩ := unended_of_replyInFlight (unended call flying)
      exact ⟨unanswered, fun deadline due =>
        wake_le_deadline flying due (Nat.le_of_lt (early deadline due))⟩
    · intro landed
      rw [landed, Option.isSome_none, Bool.false_or, isPaused, Option.any_eq_true] at busy
      obtain ⟨pause, paused, early⟩ := busy
      exact Or.inr ⟨pause, paused, wake_le_pause paused (Nat.le_of_lt (of_decide_eq_true early))⟩
  next free =>
    rw [Bool.not_eq_true, Bool.or_eq_false_iff, Option.isSome_eq_false_iff,
      Option.isNone_iff_eq_none] at free
    exact ⟨fun _ waits => (by cases waits), fun _ => ⟨free.1, Or.inr silent⟩⟩

theorem heeds_finishCurrent (silent : station.channel.outbound = []) :
    (station.finishCurrent false).Heeds := by
  simp only [finishCurrent]
  split
  next landed =>
    exact heeds_sendNext silent fun call flying => by cases landed.symm.trans flying
  next call flying =>
    split
    next pending =>
      apply heeds_sendNext silent
      intro other flyingToo
      cases flying.symm.trans flyingToo
      exact pending
    next =>
      split
      · exact heeds_sendNext_true _
      · exact Channel.Heeds.of_busy (fun _ waits => by cases waits) (fun peeks => by cases peeks)

theorem heeds_finishCurrent_true (station : Station) : (station.finishCurrent true).Heeds := by
  simp only [finishCurrent]
  split
  · exact heeds_sendNext_true station
  · split
    · exact heeds_sendNext_true station
    · split
      · exact heeds_sendNext_true _
      · exact Channel.Heeds.of_busy (fun _ waits => by cases waits) (fun peeks => by cases peeks)

theorem heeds_sendReplies (station : Station) (worked : Bool) :
    (station.sendReplies worked).Heeds := by
  simp only [sendReplies]
  split
  · exact Channel.Heeds.of_busy (fun _ waits => by cases waits) (fun peeks => by cases peeks)
  next silent =>
    cases worked with
    | false => exact heeds_finishCurrent silent
    | true => exact heeds_finishCurrent_true station

theorem heeds_endSending (station : Station) : station.endSending.Heeds :=
  Channel.Heeds.of_busy (fun _ waits => by cases waits) (fun peeks => by cases peeks)

theorem heeds_look (station : Station) : station.look.Heeds := by
  simp only [look]
  split
  · exact heeds_sendReplies station false
  · exact heeds_endSending station

theorem heeds_transmit {frame : Bytes} {drops : Bool} {goOn : Station → Station}
    (goesOn : ∀ next : Station, (goOn next).Heeds) :
    (station.transmit frame drops goOn).Heeds := by
  simp only [transmit]
  split
  · exact goesOn station
  · split
    · exact goesOn _
    · exact heeds_endSending _

theorem heeds_dequeueEnded (station : Station) (call : Call) (reply : Reply) :
    (station.dequeueEnded call reply).1.Heeds := by
  simp only [dequeueEnded]
  split
  · exact heeds_endSending _
  · exact heeds_sendNext_true _

theorem heeds_takeHead {worked : Bool} (heeds : station.Heeds)
    (peeks : station.channel.sender = .peeking worked) : (station.takeHead worked).Heeds := by
  simp only [takeHead]
  split
  next empty =>
    cases worked with
    | true => exact heeds_endRound_true station
    | false =>
        obtain ⟨landed, quiet⟩ := heeds.peeking peeks
        apply heeds_endRound
        rcases quiet with signaled | silent
        · exact Or.inl signaled
        · refine Or.inr ⟨silent, fun call flying => ?_, fun _ => Or.inl ?_⟩
          · cases landed.symm.trans flying
          · exact List.head?_eq_none_iff.mp empty
  next =>
    split
    · exact heeds_endRound_true _
    · exact Channel.Heeds.of_busy (fun _ waits => by cases waits) (fun peeks => by cases peeks)

/-- No step of the sending activity loses a wake-up. -/
theorem Heeds.sendStep {drops : Bool} {next : Station × List Report} (heeds : station.Heeds)
    (stepped : station.sendStep drops = some next) : next.1.Heeds := by
  simp only [Station.sendStep] at stepped
  split at stepped
  next => cases stepped; exact heeds_look station
  next => cases stepped; exact heeds_transmit fun next => heeds_sendReplies next true
  next call reply _ => cases stepped; exact heeds_dequeueEnded station call reply
  next peeks => cases stepped; exact heeds_takeHead heeds peeks
  next => cases stepped; exact heeds_transmit heeds_endRound_true
  next =>
    split at stepped
    · cases stepped
      simp only [wakeUp]
      split
      · exact heeds_look station
      · exact heeds_look _
    · cases stepped
  next => cases stepped

/-! ## What others do meanwhile -/

theorem Heeds.pushReply (heeds : station.Heeds) (reply : Reply) :
    (station.pushReply reply).Heeds :=
  Channel.Heeds.signaled heeds rfl id rfl

theorem Heeds.handled {frame : Bytes} {after : Station} {told : List Report}
    (heeds : station.Heeds) (handled : Handled station frame after told) : after.Heeds := by
  cases handled with
  | invoked _ _ answered =>
      cases answered with
      | execute _ | inProgress _ => exact Channel.Heeds.unchanged heeds rfl rfl rfl id
      | cached _ _ _ | obsolete _ _ => exact heeds.pushReply _
  | attached _ _ flying _ =>
      exact Channel.Heeds.signaled heeds rfl (fun landed => by cases landed.symm.trans flying) rfl
  | ignored _ _ _ => exact heeds

/-- No step of the receiving activity loses a wake-up. -/
theorem Heeds.receiveStep {next : Station × List Report} (heeds : station.Heeds)
    (stepped : station.receiveStep = some next) : next.1.Heeds := by
  obtain ⟨after, told⟩ := next
  cases receiveStep_cases stepped with
  | ended | foundClosed _ | misread _ => exact Channel.Heeds.unchanged heeds rfl rfl rfl id
  | @handled _ link _ _ _ handled =>
      have same : Heeds { station with link } := Channel.Heeds.unchanged heeds rfl rfl rfl id
      exact same.handled handled

theorem Heeds.closeStep {next : Station} (heeds : station.Heeds)
    (stepped : station.closeStep = some next) : next.Heeds := by
  simp only [Station.closeStep] at stepped
  split at stepped
  next => cases stepped; exact Channel.Heeds.unchanged heeds rfl rfl rfl id
  next => cases stepped

theorem Heeds.concludeStep (heeds : station.Heeds) (reply : Reply) :
    (station.concludeStep reply).Heeds :=
  Channel.Heeds.signaled heeds rfl id rfl

/-- Receiving takes no signal. -/
theorem isSignaled_receiveStep {next : Station × List Report}
    (stepped : station.receiveStep = some next) (signaled : station.outbox.isSignaled = true) :
    next.1.outbox.isSignaled = true := by
  obtain ⟨after, told⟩ := next
  cases receiveStep_cases stepped with
  | ended | foundClosed _ | misread _ => exact signaled
  | handled _ handled =>
      cases handled with
      | invoked _ _ answered => cases answered <;> first | exact signaled | rfl
      | attached _ _ _ _ => rfl
      | ignored _ _ _ => exact signaled

theorem isSignaled_closeStep {next : Station} (stepped : station.closeStep = some next)
    (signaled : station.outbox.isSignaled = true) : next.outbox.isSignaled = true := by
  simp only [Station.closeStep] at stepped
  split at stepped <;> cases stepped
  exact signaled

/-! ## Pauses -/

section Pauses

variable {before after : Station} {told : List Report}

/-- The call in flight has landed, and nothing but that has changed for the next attempt. -/
theorem pausesToRetry_change (change : Change before after told) (follows : before.Follows)
    (pauses : before.channel.PausesToRetry before.outbox.queue) :
    after.channel.PausesToRetry after.outbox.queue := by
  cases change with
  | hear | hand _ _ | endReceiving | foundClosed _ | misread _ | ignore _ _ | close _ _ _ =>
      exact fun pause paused =>
        ⟨(pauses pause paused).landed, (pauses pause paused).unended, (pauses pause paused).queue⟩
  | invoked _ _ _ answered =>
      cases answered <;> exact fun pause paused =>
        ⟨(pauses pause paused).landed, (pauses pause paused).unended, (pauses pause paused).queue⟩
  | handFails _ _ | endSending _ | goOn _ | wait _ | peek _ _ | takeReply _ _ =>
      exact fun pause paused => ⟨(pauses pause paused).landed, fun _ _ ended => (by cases ended),
        (pauses pause paused).queue⟩
  | @retry call _ _ _ flying _ _ _ =>
      obtain ⟨head, isHead, _⟩ := follows.inFlight call flying
      refine fun _ _ => ⟨rfl, fun other reply ended => ?_, fun empty => ?_⟩
      · cases flying.symm.trans (follows.dequeuing other reply ended).1
      · rw [Queue.peek, show before.outbox.queue.calls = [] from empty] at isHead
        cases isHead
  | finish _ flying _ _ =>
      exact fun pause paused => by cases flying.symm.trans (pauses pause paused).landed
  | dequeue ended _ | dequeueFails ended _ =>
      exact fun pause paused => absurd ended ((pauses pause paused).unended _ _)
  | takeHead _ _ _ | refuseHead _ _ _ => exact fun pause paused => by cases paused
  | attach _ _ _ flying _ =>
      exact fun pause paused => by cases flying.symm.trans (pauses pause paused).landed

/-- A channel is stopped before its sending activity ends. -/
theorem Change.isStopped (change : Change before after told)
    (stops : before.channel.sender = .ended → before.channel.isStopped = true)
    (ended : after.channel.sender = .ended) : after.channel.isStopped = true := by
  cases change with
  | hear | hand _ _ | ignore _ _ | close _ _ _ | retry _ _ _ _ _ | refuseHead _ _ _
  | attach _ _ _ _ _ => exact stops ended
  | invoked _ _ _ answered => cases answered <;> exact stops ended
  | handFails _ _ | endSending _ | dequeueFails _ _ | endReceiving | foundClosed _ | misread _ =>
      rfl
  | goOn _ | wait _ | peek _ _ | takeReply _ _ | finish _ _ _ _ | dequeue _ _ | takeHead _ _ _ =>
      cases ended

/-- A turn pauses only to send the head again. -/
theorem pausesToRetry_turn (turn : Turn before after told) (follows : before.Follows)
    (pauses : before.channel.PausesToRetry before.outbox.queue) :
    after.channel.PausesToRetry after.outbox.queue := by
  have keeps : ∀ {first last told}, Change first last told →
      first.Follows ∧ first.channel.PausesToRetry first.outbox.queue →
      last.Follows ∧ last.channel.PausesToRetry last.outbox.queue :=
    fun change ⟨follows, pauses⟩ =>
      ⟨change.follows follows, pausesToRetry_change change follows pauses⟩
  exact (turn.preserves keeps ⟨follows, pauses⟩).2

theorem Turn.isStopped (turn : Turn before after told)
    (stops : before.channel.sender = .ended → before.channel.isStopped = true) :
    after.channel.sender = .ended → after.channel.isStopped = true :=
  turn.preserves Change.isStopped stops

/-- What a turn heeds, it attends to. -/
theorem Attends.turn (attends : before.Attends) (turn : Turn before after told)
    (follows : before.Follows) (heeds : after.Heeds) : after.Attends where
  heeds
  pauses := pausesToRetry_turn turn follows attends.pauses

/-- Settings of an outbox never change. -/
theorem Change.settings (change : Change before after told) :
    after.outbox.settings = before.outbox.settings := by
  cases change with
  | invoked _ _ _ answered => cases answered <;> rfl
  | _ => rfl

theorem Turn.settings (turn : Turn before after told) :
    after.outbox.settings = before.outbox.settings := by
  induction turn with
  | done => rfl
  | step change _ ih => exact ih.trans change.settings

/-- What is in an outbox is left alone by a channel that has ended. -/
theorem Turn.keepsWork (turn : Turn before after told)
    (ended : before.channel.sender = .ended)
    (signal : before.outbox.isSignaled = true → after.outbox.isSignaled = true) :
    before.outbox.KeepsWork after.outbox :=
  ⟨turn.of_ended ended, turn.settings, signal⟩

end Pauses

theorem Attends.sendStep {drops : Bool} {next : Station × List Report}
    (attends : station.Attends) (follows : station.Follows)
    (stepped : station.sendStep drops = some next) : next.1.Attends :=
  attends.turn (sendStep_turn stepped) follows (Heeds.sendStep attends.heeds stepped)

theorem Attends.receiveStep {next : Station × List Report} (attends : station.Attends)
    (follows : station.Follows) (stepped : station.receiveStep = some next) : next.1.Attends :=
  attends.turn (receiveStep_change stepped).turn follows (Heeds.receiveStep attends.heeds stepped)

theorem Attends.closeStep {next : Station} (attends : station.Attends)
    (follows : station.Follows) (stepped : station.closeStep = some next) : next.Attends :=
  attends.turn (closeStep_change stepped).turn follows (Heeds.closeStep attends.heeds stepped)

theorem Attends.concludeStep (attends : station.Attends) (reply : Reply) :
    (station.concludeStep reply).Attends where
  heeds := Heeds.concludeStep attends.heeds reply
  pauses pause paused :=
    ⟨(attends.pauses pause paused).landed, (attends.pauses pause paused).unended,
      (attends.pauses pause paused).queue⟩

/-! ## A channel that waits -/

/-- A time is still to come, as far as a timer can tell that rings on whole milliseconds. -/
structure IsAhead (station : Station) (time : Time) : Prop where
  unrung : station.now < Time.tick time
  exact : station.now % 1000000 = 0 → station.now < time

/-- A channel waits because there is nothing to do. -/
structure IsIdle (station : Station) (wake : Time) : Prop where
  waits : station.channel.sender = .waiting wake
  early : station.now < wake
  outbound : station.channel.outbound = []
  inFlight : ∀ call, station.channel.inFlight = some call → call.reply = none ∧
    ∀ deadline, call.deadline station.settings.defaultTimeout = some deadline →
      station.IsAhead deadline ∧ wake ≤ Time.tick deadline
  queue : station.channel.inFlight = none → station.outbox.queue.calls = [] ∨
    ∃ pause, station.channel.pausedUntil = some pause ∧
      (station.now < Time.horizon → station.IsAhead pause)
  /-- The wait ends with the pause, if not before. -/
  pause : ∀ pause, station.channel.pausedUntil = some pause → pause < Time.horizon →
    wake ≤ Time.tick pause

theorem IsAhead.of_lt_tick {time : Time} (unrung : station.now < Time.tick time) :
    station.IsAhead time :=
  ⟨unrung, fun whole => Time.lt_of_lt_tick whole unrung⟩

theorem IsAhead.of_lt {time : Time} (early : station.now < time) : station.IsAhead time :=
  ⟨Nat.lt_of_lt_of_le early (Time.le_tick time), fun _ => early⟩

/-- A running channel whose sending activity cannot go on has nothing to do. -/
theorem Attends.exists_isIdle (attends : station.Attends)
    (stops : station.channel.sender = .ended → station.channel.isStopped = true)
    (running : station.channel.isStopped = false) (stuck : station.sendStep false = none) :
    ∃ wake, station.IsIdle wake := by
  simp only [Station.sendStep] at stuck
  split at stuck
  next => cases stuck
  next => cases stuck
  next => cases stuck
  next => cases stuck
  next => cases stuck
  next wake waits =>
    split at stuck
    · cases stuck
    next asleep =>
      simp only [isAwake, running, Bool.false_or, Bool.or_eq_true, decide_eq_true_eq, not_or,
        Nat.not_le, Bool.not_eq_true] at asleep
      obtain ⟨unsignaled, early⟩ := asleep
      rcases attends.heeds.waiting wake waits with signaled | idle
      · cases unsignaled.symm.trans signaled
      · refine ⟨wake, waits, early, idle.outbound, ?_, ?_, ?_⟩
        · intro call flying
          obtain ⟨unanswered, ends⟩ := idle.inFlight call flying
          exact ⟨unanswered, fun deadline due =>
            ⟨.of_lt_tick (Nat.lt_of_lt_of_le early (ends deadline due)), ends deadline due⟩⟩
        · intro landed
          rcases idle.queue landed with empty | ⟨pause, paused, ends⟩
          · exact Or.inl empty
          · refine Or.inr ⟨pause, paused, fun counted => ?_⟩
            by_cases reachable : pause < Time.horizon
            · exact .of_lt_tick (Nat.lt_of_lt_of_le early (ends reachable))
            · exact .of_lt (Nat.lt_of_lt_of_le counted (Nat.le_of_not_lt reachable))
        · intro pause paused reachable
          have retrying := attends.pauses pause paused
          rcases idle.queue retrying.landed with empty | ⟨other, same, ends⟩
          · exact absurd empty retrying.queue
          · cases paused.symm.trans same
            exact ends reachable
  next ended => cases running.symm.trans (stops ended)

end Station

end PeerCalls
