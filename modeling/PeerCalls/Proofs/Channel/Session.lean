import PeerCalls.Proofs.Channel.Endings
import PeerCalls.Proofs.Channel.Fitting
import PeerCalls.Proofs.Channel.Waking

/-!
# A channel among others

A channel takes its own steps while others use what it shares with them: they put calls into the
queue or take some, register waiters, answer the peer's calls, send frames and close the link, and
time goes by. A session lets one thing after the other happen, and logs what can be noticed of the
channel: the frames that it hands to the link and takes from it, and its attempts to get a reply.
An attempt begins when a call is in flight, and lands when the channel takes the reply.
-/

namespace PeerCalls

/-- The sending activity has no call in its hands, and is not about to read the queue. -/
def SendStage.HasNoCall : SendStage → Prop
  | .looking | .sendingReply _ | .waiting _ | .ended => True
  | .dequeuing _ _ | .peeking _ | .sendingCall _ => False

/-- A frame has a reply to the call with an id. -/
def Frame.repliesTo (id : UInt64) (frame : Bytes) : Bool :=
  FrameKind.peek frame == some .result && peekId frame == some id

/-- A call in flight takes the reply in a frame, if it has none and the frame has one to it. -/
def Call.hear (call : Call) (frame : Bytes) : Call :=
  if Frame.repliesTo call.id frame ∧ call.reply = none then
    call.withReply (Station.replyIn call.id frame)
  else call

theorem Frame.repliesTo_iff {id : UInt64} {frame : Bytes} :
    repliesTo id frame = true ↔ FrameKind.peek frame = some .result ∧ peekId frame = some id := by
  rw [repliesTo, Bool.and_eq_true, beq_iff_eq, beq_iff_eq]

namespace Call

variable {call : Call} {frame : Bytes}

theorem hear_of_repliesTo (replies : Frame.repliesTo call.id frame = true)
    (unanswered : call.reply = none) :
    call.hear frame = call.withReply (Station.replyIn call.id frame) :=
  if_pos ⟨replies, unanswered⟩

theorem hear_of_not_repliesTo (differs : ¬ Frame.repliesTo call.id frame = true) :
    call.hear frame = call :=
  if_neg fun heard => differs heard.1

theorem hear_of_answered (answered : call.reply ≠ none) : call.hear frame = call :=
  if_neg fun heard => answered heard.2

end Call

namespace Session

/-- What can happen next. -/
inductive Event where
  /-- The sending activity takes a step. -/
  | send (drops : Bool)
  /-- The receiving activity takes a step. -/
  | receive
  | close
  /-- The execution of a call of the peer ends. -/
  | conclude (reply : Reply)
  | stop
  | wait (span : Span)
  /-- Calls come to the end of the queue. -/
  | enqueue (calls : List Call)
  /-- Somebody else serves the queue, which has these calls then. -/
  | serve (calls : List Call)
  /-- Others use the rest of what they share with the channel. -/
  | share (waiters : Waiters) (isSignaled : Bool) (answers : Answers) (left right : LinkEnd)
      (backlog : Option Backlog)

/-- What can be noticed of a channel. -/
inductive Notice where
  /-- An attempt begins, with this call in flight. -/
  | began (time : Time) (call : Call)
  /-- A frame is handed to the link. -/
  | sent (time : Time) (frame : Bytes)
  /-- A frame is taken from the link. -/
  | received (frame : Bytes)
  /-- The frame that was received last ends the receiving activity. -/
  | failed (fault : Station.FrameFault)
  /-- An attempt is over, with this reply. -/
  | landed (time : Time) (reply : Reply)
  deriving DecidableEq

/-- The channel itself does something. -/
def Event.isOwn : Event → Bool
  | .send _ | .receive | .close => true
  | _ => false

/-- The sending activity takes a step, or something else happens. -/
theorem Event.sends_or_others (event : Event) :
    (∃ drops, event = .send drops) ∨ ∀ drops, event ≠ .send drops := by
  rw [← not_exists]
  exact Classical.em _

end Session

open Session

/-- A call in flight hears the frames that are received. -/
def Call.note (call : Call) : Notice → Call
  | .received frame => call.hear frame
  | .began _ _ | .sent _ _ | .failed _ | .landed _ _ => call

namespace Station

variable {station before after : Station}

def happen (station : Station) : Event → Station
  | .send drops => ((station.sendStep drops).map Prod.fst).getD station
  | .receive => (station.receiveStep.map Prod.fst).getD station
  | .close => station.closeStep.getD station
  | .conclude reply => station.concludeStep reply
  | .stop => { station with channel := station.channel.stop }
  | .wait span => { station with now := station.now + span.nanoseconds }
  | .enqueue calls =>
    { station with outbox := { station.outbox with
        queue := { station.outbox.queue with calls := station.outbox.queue.calls ++ calls } } }
  | .serve calls =>
    { station with outbox := { station.outbox with
        queue := { station.outbox.queue with calls } } }
  | .share waiters isSignaled answers left right backlog =>
    { station with
      outbox := { station.outbox with waiters, isSignaled }
      answers
      link := { station.link with left, right }
      backlog }

/-- The frame that the next step of the sending activity hands to the link. -/
def handed? (station : Station) (drops : Bool) : Option Bytes :=
  match station.channel.sender with
  | .sendingReply frame | .sendingCall frame =>
    if drops && station.channel.isStopped then none else some frame
  | _ => none

def handing (station : Station) (drops : Bool) : List Notice :=
  (station.handed? drops).toList.map (.sent station.now)

/-- The frame that the next step of the receiving activity takes from the link. -/
def incoming? (station : Station) : Option (Bytes × Link) :=
  match station.channel.receiver, station.link.receive station.channel.side with
  | .listening, (.frame frame, link) =>
    if station.isLinkOpen && !station.channel.isStopped then some (frame, link) else none
  | _, _ => none

/-- What is noticed of attempts when the channel changes. -/
def turned (before after : Station) : List Notice :=
  match before.channel.inFlight, after.channel.inFlight with
  | none, some call => [.began before.now call]
  | some call, none => (before.replyInFlight call).toList.map (.landed before.now)
  | _, _ => []

/-- What is noticed of a frame that arrives. -/
def heard (station : Station) : List Notice :=
  match station.incoming? with
  | some (frame, link) =>
    match { station with link }.onFrame frame with
    | .ok _ => [.received frame]
    | .error fault => [.received frame, .failed fault]
  | none => []

def shown (station : Station) : Event → List Notice
  | .send drops => station.handing drops ++ station.turned (station.happen (.send drops))
  | .receive => station.heard
  | _ => []

end Station

/-- A channel with all that it uses, and what was noticed of it. -/
structure Session where
  station : Station
  log : List Notice

namespace Session

/-- A channel that begins. -/
def fresh (station : Station) : Session :=
  ⟨{ station with channel := Channel.start station.channel.contact station.channel.side }, []⟩

def happen (session : Session) (event : Event) : Session :=
  ⟨session.station.happen event, session.log ++ session.station.shown event⟩

/-- One thing after the other happens. -/
def run (session : Session) (events : List Event) : Session := events.foldl happen session

end Session

namespace Station

variable {station before after : Station}

/-! ## Frames that arrive -/

/-- What the sending activity works with stays, while something else happens. -/
structure Spares (before after : Station) : Prop where
  sender : after.channel.sender = before.channel.sender
  pausedUntil : after.channel.pausedUntil = before.channel.pausedUntil
  isStopped : before.channel.isStopped = true → after.channel.isStopped = true
  limit : after.link.maxFrameLength = before.link.maxFrameLength
  settings : after.settings = before.settings
  now : before.now ≤ after.now

namespace Spares

theorem refl (station : Station) : station.Spares station :=
  ⟨rfl, rfl, id, rfl, rfl, Nat.le_refl _⟩

theorem trans {first second third : Station} (left : first.Spares second)
    (right : second.Spares third) : first.Spares third where
  sender := right.sender.trans left.sender
  pausedUntil := right.pausedUntil.trans left.pausedUntil
  isStopped := right.isStopped ∘ left.isStopped
  limit := right.limit.trans left.limit
  settings := right.settings.trans left.settings
  now := Nat.le_trans left.now right.now

/-- A frame is taken from the link. -/
theorem of_incoming {frame : Bytes} {link : Link} (taken : station.incoming? = some (frame, link)) :
    station.Spares { station with link } := by
  unfold incoming? at taken
  split at taken
  next received =>
    split at taken
    · cases taken
      exact ⟨rfl, rfl, id, (Link.loses_of_receive received).limit, rfl, Nat.le_refl _⟩
    · cases taken
  next => cases taken

end Spares

/-- What a frame does that does not end the receiving activity: the call in flight hears it. -/
structure Reads (frame : Bytes) (before after : Station) : Prop extends Spares before after where
  inFlight : after.channel.inFlight = before.channel.inFlight.map fun call => call.hear frame

/-- If the call in flight does not care for a frame, nothing else of it is left to hear. -/
theorem map_hear_of_deaf {frame : Bytes} {inFlight : Option Call}
    (deaf : ∀ call, inFlight = some call → call.hear frame = call) :
    inFlight = inFlight.map fun call => call.hear frame := by
  rw [Option.map_congr deaf, Option.map_id']

theorem Answered.reads {frame : Bytes} {invocation : Invocation} {told : List Report}
    (answered : before.Answered invocation after told)
    (isMethod : FrameKind.peek frame = some .method) : before.Reads frame after := by
  have deaf (call : Call) : call.hear frame = call := by
    apply Call.hear_of_not_repliesTo
    rw [Frame.repliesTo_iff, isMethod]
    exact fun replies => by cases replies.1
  cases answered <;>
    exact ⟨⟨rfl, rfl, id, rfl, rfl, Nat.le_refl _⟩, map_hear_of_deaf fun call _ => deaf call⟩

theorem reads_onFrame {frame : Bytes} {next : Station × List Report}
    (read : station.onFrame frame = .ok next) : station.Reads frame next.1 := by
  obtain ⟨after, told⟩ := next
  cases onFrame_cases read with
  | invoked isMethod _ answered => exact answered.reads isMethod
  | attached isResult named flying unanswered =>
      refine ⟨⟨rfl, rfl, id, rfl, rfl, Nat.le_refl _⟩, ?_⟩
      rw [flying, Option.map_some,
        Call.hear_of_repliesTo (Frame.repliesTo_iff.mpr ⟨isResult, named⟩) unanswered]
  | ignored _ named others =>
      refine ⟨.refl _, map_hear_of_deaf ?_⟩
      intro call flies
      apply if_neg
      rintro ⟨replies, unanswered⟩
      rw [Frame.repliesTo_iff, named, Option.some.injEq] at replies
      exact others call flies replies.2.symm unanswered

/-- A frame that ends the receiving activity is no reply to any call. -/
theorem not_repliesTo_of_error {frame : Bytes} {fault : FrameFault}
    (failed : station.onFrame frame = .error fault) (id : UInt64) :
    ¬ Frame.repliesTo id frame = true := by
  rw [Frame.repliesTo_iff]
  rintro ⟨isResult, named⟩
  simp [onFrame, onResultFrame, isResult, named] at failed
  cases failed

theorem happen_receive_of_incoming {frame : Bytes} {link : Link}
    (taken : station.incoming? = some (frame, link)) :
    station.happen .receive =
      match { station with link }.onFrame frame with
      | .ok next => next.1
      | .error _ => { station with link }.endReceiving := by
  unfold incoming? at taken
  split at taken
  next listens received =>
    split at taken
    next runs =>
      cases taken
      have goesOn : ¬ (!station.isLinkOpen || station.channel.isStopped) = true := by
        simpa using runs
      simp only [happen, receiveStep, listens, if_neg goesOn, received]
      cases { station with link }.onFrame frame <;> rfl
    next => cases taken
  next => cases taken

theorem happen_receive_of_quiet (quiet : station.incoming? = none) :
    station.happen .receive = station ∨
      ∃ link, link.maxFrameLength = station.link.maxFrameLength ∧
        station.happen .receive = { station with link }.endReceiving := by
  simp only [happen, receiveStep]
  split
  next => exact .inl rfl
  next listens =>
    split
    next => exact .inr ⟨station.link, rfl, rfl⟩
    next runs =>
      split
      next => exact .inl rfl
      next link closed => exact .inr ⟨link, (Link.loses_of_receive closed).limit, rfl⟩
      next frame link received =>
        have goesOn : (station.isLinkOpen && !station.channel.isStopped) = true := by
          simpa using runs
        simp only [incoming?, listens, received, if_pos goesOn] at quiet
        cases quiet

theorem Spares.endReceiving (spares : before.Spares after) : before.Spares after.endReceiving where
  sender := spares.sender
  pausedUntil := spares.pausedUntil
  isStopped _ := rfl
  limit := spares.limit
  settings := spares.settings
  now := spares.now

/-! ## What else happens -/

theorem spares_receive (station : Station) : station.Spares (station.happen .receive) := by
  cases incoming : station.incoming? with
  | none =>
      rcases happen_receive_of_quiet incoming with same | ⟨link, limit, ends⟩
      · rw [same]
        exact .refl station
      · rw [ends]
        exact Spares.endReceiving ⟨rfl, rfl, id, limit, rfl, Nat.le_refl _⟩
  | some taken =>
      rw [happen_receive_of_incoming incoming]
      have spares := Spares.of_incoming incoming
      split
      next read => exact spares.trans (reads_onFrame read).toSpares
      next => exact spares.endReceiving

theorem spares_happen (station : Station) {event : Event} (others : ∀ drops, event ≠ .send drops) :
    station.Spares (station.happen event) := by
  cases event with
  | send drops => exact absurd rfl (others drops)
  | receive => exact station.spares_receive
  | close =>
      simp only [happen, closeStep]
      split
      · exact ⟨rfl, rfl, id, (Link.loses_close _ _).limit, rfl, Nat.le_refl _⟩
      · exact .refl station
  | stop => exact ⟨rfl, rfl, fun _ => rfl, rfl, rfl, Nat.le_refl _⟩
  | wait span => exact ⟨rfl, rfl, id, rfl, rfl, Nat.le_add_right _ _⟩
  | conclude | enqueue | serve | share => exact ⟨rfl, rfl, id, rfl, rfl, Nat.le_refl _⟩

/-- The call in flight hears the frames that arrive, and nothing else. -/
theorem inFlight_receive (station : Station) : (station.happen .receive).channel.inFlight =
    station.channel.inFlight.map fun call => station.heard.foldl Call.note call := by
  cases incoming : station.incoming? with
  | none =>
      have same : (station.happen .receive).channel.inFlight = station.channel.inFlight := by
        rcases happen_receive_of_quiet incoming with same | ⟨link, _, ends⟩
        · rw [same]
        · rw [ends]
          rfl
      simp only [heard, incoming, List.foldl_nil, Option.map_id', same]
  | some taken =>
      obtain ⟨frame, link⟩ := taken
      rw [happen_receive_of_incoming incoming]
      cases read : { station with link }.onFrame frame with
      | ok next =>
          simp only [heard, incoming, read]
          exact (reads_onFrame read).inFlight
      | error fault =>
          simp only [heard, incoming, read]
          exact map_hear_of_deaf fun call _ =>
            Call.hear_of_not_repliesTo (not_repliesTo_of_error read call.id)

theorem inFlight_happen (station : Station) {event : Event}
    (others : ∀ drops, event ≠ .send drops) :
    (station.happen event).channel.inFlight =
      station.channel.inFlight.map fun call => (station.shown event).foldl Call.note call := by
  cases event with
  | send drops => exact absurd rfl (others drops)
  | receive => exact station.inFlight_receive
  | close =>
      simp only [happen, closeStep, shown, List.foldl_nil, Option.map_id']
      split <;> rfl
  | conclude | stop | wait | enqueue | serve | share => exact Option.map_id'.symm

/-! ## Steps of the sending activity -/

/-- The sending activity has no call in its hands. It reads the queue next only if nothing is in
flight and no pause is left. -/
inductive IsReady (station : Station) : Prop where
  | idle : station.channel.sender.HasNoCall → IsReady station
  | peeks {worked : Bool} : station.channel.sender = .peeking worked →
      station.channel.inFlight = none → station.isPaused = false → IsReady station

/-- What is in flight stays, and so does the pause. -/
structure Readies (before after : Station) : Prop where
  inFlight : after.channel.inFlight = before.channel.inFlight
  pausedUntil : after.channel.pausedUntil = before.channel.pausedUntil
  isReady : after.IsReady

/-- What a step of the sending activity makes of the call in flight. -/
inductive Flight (before after : Station) : Prop where
  | stays : before.Readies after → Flight before after
  /-- The attempt has failed, and there will be another one after a pause. -/
  | retries {call : Call} {reply : Reply} : before.channel.inFlight = some call →
      before.replyInFlight call = some reply → reply.isRetryableFailure = true →
      call.isRetryable = true → before.pause.Readies after → Flight before after
  | finishes {call : Call} {reply : Reply} : before.channel.inFlight = some call →
      before.replyInFlight call = some reply →
      (reply.isRetryableFailure && call.isRetryable) = false →
      after.channel = (before.land call reply).channel → Flight before after
  /-- An attempt for the head of the queue begins. -/
  | begins {head : Call} {worked : Bool} : before.channel.sender = .peeking worked →
      before.outbox.queue.peek = some head →
      head.invocation.encode.length ≤ before.link.maxFrameLength →
      after.channel.inFlight = some (head.start before.now) →
      after.channel.sender = .sendingCall head.invocation.encode → Flight before after
  /-- An attempt begins that has failed already. -/
  | refuses {head : Call} {worked : Bool} : before.channel.sender = .peeking worked →
      before.outbox.queue.peek = some head →
      before.link.maxFrameLength < head.invocation.encode.length →
      after.channel.inFlight = some ((head.start before.now).withReply head.tooLong) →
      after.channel.sender = .looking → Flight before after

/-- The link and the signal do not matter to the call in flight. -/
theorem Flight.of_changed {link : Link} {isSignaled : Bool}
    (limit : link.maxFrameLength = station.link.maxFrameLength)
    (flight : Flight { station with link, outbox := { station.outbox with isSignaled } } after) :
    station.Flight after := by
  cases flight with
  | stays readies => exact .stays ⟨readies.inFlight, readies.pausedUntil, readies.isReady⟩
  | retries flying found fails again readies =>
      exact .retries flying found fails again
        ⟨readies.inFlight, readies.pausedUntil, readies.isReady⟩
  | finishes flying found settled lands => exact .finishes flying found settled lands
  | begins peeks isHead fits inFlight sender =>
      exact .begins peeks isHead (limit ▸ fits) inFlight sender
  | refuses peeks isHead long inFlight sender =>
      exact .refuses peeks isHead (limit ▸ long) inFlight sender

theorem Readies.idle (inFlight : after.channel.inFlight = before.channel.inFlight)
    (pausedUntil : after.channel.pausedUntil = before.channel.pausedUntil)
    (isIdle : after.channel.sender.HasNoCall) : before.Readies after :=
  ⟨inFlight, pausedUntil, .idle isIdle⟩

theorem readies_endRound (station : Station) (worked : Bool) :
    station.Readies (station.endRound worked) := by
  cases worked <;> exact .idle rfl rfl trivial

theorem readies_sendNext (station : Station) (worked : Bool) :
    station.Readies (station.sendNext worked) := by
  simp only [sendNext]
  split
  · exact readies_endRound station worked
  next free =>
    rw [Bool.or_eq_true, not_or, Bool.not_eq_true, Bool.not_eq_true, Option.isSome_eq_false_iff,
      Option.isNone_iff_eq_none] at free
    exact ⟨rfl, rfl, .peeks rfl free.1 free.2⟩

theorem flight_finishCurrent (station : Station) (worked : Bool) :
    station.Flight (station.finishCurrent worked) := by
  simp only [finishCurrent]
  split
  · exact .stays (readies_sendNext station worked)
  next call flying =>
    split
    · exact .stays (readies_sendNext station worked)
    next reply found =>
      split
      next again =>
        rw [Bool.and_eq_true] at again
        exact .retries flying found again.1 again.2 (readies_sendNext station.pause true)
      next settled => exact .finishes flying found (Bool.eq_false_iff.mpr settled) rfl

theorem flight_sendReplies (station : Station) (worked : Bool) :
    station.Flight (station.sendReplies worked) := by
  simp only [sendReplies]
  split
  · exact .stays (.idle rfl rfl trivial)
  · exact flight_finishCurrent station worked

theorem flight_look (station : Station) : station.Flight station.look := by
  simp only [look]
  split
  · exact flight_sendReplies station false
  · exact .stays (.idle rfl rfl trivial)

theorem flight_wakeUp (station : Station) : station.Flight station.wakeUp := by
  simp only [wakeUp]
  split
  · exact flight_look station
  · exact .of_changed rfl (flight_look _)

theorem flight_transmit {frame : Bytes} {drops : Bool} {goOn : Station → Station}
    (goesOn : ∀ next : Station, next.Flight (goOn next)) :
    station.Flight (station.transmit frame drops goOn) := by
  simp only [transmit]
  split
  · exact goesOn station
  · split
    next link sent =>
      exact .of_changed (Link.takes_of_send sent).limit (goesOn { station with link })
    · exact .stays (.idle rfl rfl trivial)

theorem flight_dequeueEnded (station : Station) (call : Call) (reply : Reply) :
    station.Flight (station.dequeueEnded call reply).1 := by
  simp only [dequeueEnded]
  split
  · exact .stays (.idle rfl rfl trivial)
  next queue backlog _ =>
    have readies := readies_sendNext { station with
      outbox := ({ station.outbox with queue }.complete reply).2, backlog } true
    exact .stays ⟨readies.inFlight, readies.pausedUntil, readies.isReady⟩

theorem flight_takeHead {worked : Bool} (peeks : station.channel.sender = .peeking worked) :
    station.Flight (station.takeHead worked) := by
  simp only [takeHead]
  split
  · exact .stays (readies_endRound station worked)
  next head isHead =>
    split
    next long => exact .refuses peeks isHead long rfl rfl
    next fits => exact .begins peeks isHead (Nat.le_of_not_lt fits) rfl rfl

theorem flight_send (station : Station) (drops : Bool) :
    station.Flight (station.happen (.send drops)) := by
  simp only [happen, sendStep]
  split
  next => exact flight_look station
  next => exact flight_transmit fun next => flight_sendReplies next true
  next call reply _ => exact flight_dequeueEnded station call reply
  next peeks => exact flight_takeHead peeks
  next => exact flight_transmit fun next => .stays (readies_endRound next true)
  next waits =>
    split
    · exact flight_wakeUp station
    · exact .stays (.idle rfl rfl (by rw [Option.map_none, Option.getD_none, waits]; trivial))
  next ended =>
    exact .stays (.idle rfl rfl (by rw [Option.map_none, Option.getD_none, ended]; trivial))

/-- No change takes time. -/
theorem Change.now {told : List Report} (change : Change before after told) :
    after.now = before.now := by
  cases change with
  | invoked _ _ _ answered => cases answered <;> rfl
  | _ => rfl

theorem Turn.now {told : List Report} (turn : Turn before after told) : after.now = before.now := by
  induction turn with
  | done => rfl
  | step change _ ih => exact ih.trans change.now

/-- What the channel itself does is a turn. -/
theorem turn_happen (station : Station) {event : Event} (own : event.isOwn = true) :
    ∃ told, station.Turn (station.happen event) told := by
  cases event with
  | send drops =>
      simp only [happen]
      cases stepped : station.sendStep drops with
      | none => exact ⟨[], .done⟩
      | some next => exact ⟨next.2, sendStep_turn stepped⟩
  | receive =>
      simp only [happen]
      cases stepped : station.receiveStep with
      | none => exact ⟨[], .done⟩
      | some next => exact ⟨next.2, (receiveStep_change stepped).turn⟩
  | close =>
      simp only [happen]
      cases closed : station.closeStep with
      | none => exact ⟨[], .done⟩
      | some next => exact ⟨[], (closeStep_change closed).turn⟩
  | conclude | stop | wait | enqueue | serve | share => cases own

theorem turn_send (station : Station) (drops : Bool) :
    ∃ told, station.Turn (station.happen (.send drops)) told :=
  station.turn_happen rfl

/-- A frame with a call that is dropped is gone, and the next round ends the activity. -/
theorem happen_of_dropped {frame : Bytes} {drops : Bool}
    (holds : station.channel.sender = .sendingCall frame) (dropped : station.handed? drops = none) :
    station.happen (.send drops) = station.sendAt .looking ∧ station.channel.isStopped = true := by
  simp only [handed?, holds, ite_eq_left_iff, reduceCtorEq, imp_false, Decidable.not_not] at dropped
  simp only [happen, sendStep, holds, transmit, if_pos dropped]
  rw [Bool.and_eq_true] at dropped
  exact ⟨rfl, dropped.2⟩

/-- A channel that is stopped between two rounds ends, and leaves what is in flight. -/
theorem happen_of_stopped (stopped : station.channel.isStopped = true)
    (rests : station.channel.sender = .looking ∨ station.channel.sender = .ended) (drops : Bool) :
    (station.happen (.send drops)).channel.sender = .ended ∧
      (station.happen (.send drops)).channel.isStopped = true ∧
      (station.happen (.send drops)).channel.inFlight = station.channel.inFlight := by
  rcases rests with looks | ended
  · have ends : station.happen (.send drops) = station.endSending := by
      simp only [happen, sendStep, looks, look, stopped]
      rw [Bool.not_true, Bool.and_false]
      rfl
    rw [ends]
    exact ⟨rfl, rfl, rfl⟩
  · simp only [happen, sendStep, ended]
    exact ⟨ended, stopped, rfl⟩

/-- While a frame with a call is handed over, no attempt lands or begins. -/
theorem readies_of_sendingCall {frame : Bytes} (holds : station.channel.sender = .sendingCall frame)
    (drops : Bool) : station.Readies (station.happen (.send drops)) := by
  simp only [happen, sendStep, holds, transmit]
  split
  · exact readies_endRound station true
  · split
    · exact .idle rfl rfl trivial
    · exact .idle rfl rfl trivial

end Station

end PeerCalls
