import PeerCalls.Proofs.Channel.Session
import PeerCalls.Proofs.Splitting

/-!
# Frames that close a channel

A frame closes the channel if its header is unknown, if it has the header of a call and cannot be
read, or if it has the header of a reply and is too short for an id. Every other frame leaves the
channel running. Calls of the peer leave the calls of this side alone, and replies to this side's
calls leave the answers to the peer alone, whatever ids they have.
-/

namespace PeerCalls

/-- An id is found in a frame with a header unless the frame ends before. -/
theorem peekId_eq_none_iff {frame : Bytes} {kind : FrameKind}
    (peeked : FrameKind.peek frame = some kind) : peekId frame = none ↔ frame.length < 10 := by
  simp only [peekId, peeked, ite_eq_right_iff, reduceCtorEq, imp_false, List.length_take,
    List.length_drop]
  omega

/-- A frame that closes a channel. -/
inductive Frame.IsFatal (frame : Bytes) : Prop where
  | unknownKind : FrameKind.peek frame = none → IsFatal frame
  | unreadableCall {fault : Frame.Fault} : FrameKind.peek frame = some .method →
      Invocation.decode frame = .error fault → IsFatal frame
  | replyWithoutId : FrameKind.peek frame = some .result → frame.length < 10 → IsFatal frame

open Session

namespace Station

variable {station before after : Station} {frame : Bytes} {next : Station × List Report}

/-! ## One frame -/

theorem onFrame_eq_error_iff :
    (∃ fault, station.onFrame frame = .error fault) ↔ Frame.IsFatal frame := by
  constructor
  · rintro ⟨fault, failed⟩
    simp only [onFrame] at failed
    split at failed
    next isMethod =>
      simp only [onMethodFrame] at failed
      split at failed
      next => cases failed
      next refused => exact .unreadableCall isMethod refused
    next isResult =>
      simp only [onResultFrame] at failed
      split at failed
      next => cases failed
      next nameless => exact .replyWithoutId isResult ((peekId_eq_none_iff isResult).mp nameless)
    next isUnknown => exact .unknownKind isUnknown
  · intro fatal
    cases fatal with
    | unknownKind isUnknown =>
        simp only [onFrame, isUnknown]
        exact ⟨_, rfl⟩
    | unreadableCall isMethod refused =>
        simp only [onFrame, isMethod, onMethodFrame, refused]
        exact ⟨_, rfl⟩
    | replyWithoutId isResult short =>
        simp only [onFrame, isResult, onResultFrame, (peekId_eq_none_iff isResult).mpr short]
        exact ⟨_, rfl⟩

/-- What a channel does for its own calls stays the same. -/
structure SparesCalls (before after : Station) : Prop where
  inFlight : after.channel.inFlight = before.channel.inFlight
  queue : after.outbox.queue = before.outbox.queue
  waiters : after.outbox.waiters = before.outbox.waiters
  backlog : after.backlog = before.backlog

/-- What a channel knows of the peer's calls stays the same. -/
structure SparesAnswers (before after : Station) : Prop where
  answers : after.answers = before.answers
  outbound : after.channel.outbound = before.channel.outbound

/-- Both activities of a channel go on. -/
structure GoesOn (before after : Station) : Prop where
  sender : after.channel.sender = before.channel.sender
  receiver : after.channel.receiver = before.channel.receiver
  isStopped : after.channel.isStopped = before.channel.isStopped
  hasEnded : after.channel.hasEnded = before.channel.hasEnded
  side : after.channel.side = before.channel.side
  link : after.link = before.link

theorem Answered.sparesCalls {invocation : Invocation} {told : List Report}
    (answered : before.Answered invocation after told) :
    before.GoesOn after ∧ before.SparesCalls after := by
  cases answered <;> exact ⟨⟨rfl, rfl, rfl, rfl, rfl, rfl⟩, ⟨rfl, rfl, rfl, rfl⟩⟩

namespace Handled

variable {told : List Report}

theorem goesOn (handled : before.Handled frame after told) : before.GoesOn after := by
  cases handled with
  | invoked _ _ answered => exact answered.sparesCalls.1
  | attached _ _ _ _ | ignored _ _ _ => exact ⟨rfl, rfl, rfl, rfl, rfl, rfl⟩

theorem sparesCalls (handled : before.Handled frame after told)
    (isMethod : FrameKind.peek frame = some .method) : before.SparesCalls after := by
  cases handled with
  | invoked _ _ answered => exact answered.sparesCalls.2
  | attached isResult _ _ _ | ignored isResult _ _ => cases isMethod.symm.trans isResult

theorem sparesAnswers (handled : before.Handled frame after told)
    (isResult : FrameKind.peek frame = some .result) : before.SparesAnswers after := by
  cases handled with
  | invoked isMethod _ _ => cases isMethod.symm.trans isResult
  | attached _ _ _ _ | ignored _ _ _ => exact ⟨rfl, rfl⟩

end Handled

/-- What a channel makes of a frame, in whatever state it is. -/
structure Dispatches (station : Station) (frame : Bytes) : Prop where
  fails : (∃ fault, station.onFrame frame = .error fault) ↔ Frame.IsFatal frame
  goesOn : ∀ next told, station.onFrame frame = .ok (next, told) → station.GoesOn next
  call : ∀ next told, station.onFrame frame = .ok (next, told) →
    FrameKind.peek frame = some .method → station.SparesCalls next
  reply : ∀ next told, station.onFrame frame = .ok (next, told) →
    FrameKind.peek frame = some .result → station.SparesAnswers next

theorem dispatches (station : Station) (frame : Bytes) : station.Dispatches frame where
  fails := onFrame_eq_error_iff
  goesOn _ _ read := (onFrame_cases read).goesOn
  call _ _ read isMethod := (onFrame_cases read).sparesCalls isMethod
  reply _ _ read isResult := (onFrame_cases read).sparesAnswers isResult

/-! ## The receiving activity -/

/-- The receiving activity listens, and the channel is neither stopped nor closed. -/
structure Runs (station : Station) : Prop where
  listens : station.channel.receiver = .listening
  unstopped : station.channel.isStopped = false
  isOpen : station.isLinkOpen = true

/-- A fatal frame ends the receiving activity and with it the channel, and does nothing else. With
any other frame the channel runs on. -/
structure EndsOn (station : Station) (frame : Bytes) (link : Link) : Prop where
  fatal : Frame.IsFatal frame → station.happen .receive = { station with link }.endReceiving
  harmless : ¬ Frame.IsFatal frame → (station.happen .receive).Runs

theorem runs_of_incoming {link : Link} (taken : station.incoming? = some (frame, link)) :
    Runs { station with link } := by
  unfold incoming? at taken
  split at taken
  next listens received =>
    split at taken
    next goesOn =>
      cases taken
      rw [Bool.and_eq_true, Bool.not_eq_true'] at goesOn
      refine ⟨listens, goesOn.2, ?_⟩
      rw [← goesOn.1]
      exact Link.isOpen_of_receive received
    next => cases taken
  next => cases taken

theorem endsOn_of_incoming {link : Link} (taken : station.incoming? = some (frame, link)) :
    station.EndsOn frame link := by
  have runs := runs_of_incoming taken
  constructor
  · intro fatal
    obtain ⟨fault, failed⟩ := onFrame_eq_error_iff.mpr fatal
    rw [happen_receive_of_incoming taken, failed]
  · intro harmless
    rw [happen_receive_of_incoming taken]
    cases read : { station with link }.onFrame frame with
    | error fault => exact absurd (onFrame_eq_error_iff.mp ⟨fault, read⟩) harmless
    | ok next =>
        have goesOn := (onFrame_cases read).goesOn
        refine ⟨goesOn.receiver.trans runs.listens, goesOn.isStopped.trans runs.unstopped, ?_⟩
        rw [isLinkOpen, goesOn.link, goesOn.side]
        exact runs.isOpen

/-- A receiving activity that has ended stays so. -/
theorem Change.receiver_ended {told : List Report} (change : Change before after told)
    (ended : before.channel.receiver = .ended) : after.channel.receiver = .ended := by
  cases change with
  | invoked _ _ _ answered => cases answered <;> exact ended
  | endReceiving | foundClosed _ | misread _ => rfl
  | _ => exact ended

theorem receiver_happen (ended : station.channel.receiver = .ended) (event : Event) :
    (station.happen event).channel.receiver = .ended := by
  by_cases own : event.isOwn = true
  · obtain ⟨told, turn⟩ := station.turn_happen own
    exact turn.preserves Change.receiver_ended ended
  · cases event with
    | send | receive | close => exact absurd rfl own
    | conclude | stop | wait | enqueue | serve | share => exact ended

end Station

namespace Session

open Station

/-- Receiving fails right after a fatal frame and after no other one, and no frame is taken after
that. -/
structure FailsLast (log : List Notice) : Prop where
  received : ∀ earlier frame later, log = earlier ++ .received frame :: later →
    (Frame.IsFatal frame ↔ ∃ fault rest, later = .failed fault :: rest)
  failed : ∀ earlier fault later, log = earlier ++ .failed fault :: later →
    (∃ before frame, earlier = before ++ [.received frame]) ∧ ∀ frame, .received frame ∉ later

/-- A channel closes on fatal frames and on no others, whatever it has been through. -/
structure ClosesOnFatal (session : Session) : Prop where
  dispatches : ∀ frame, session.station.Dispatches frame
  ends : ∀ frame link, session.station.incoming? = some (frame, link) →
    session.station.EndsOn frame link
  log : FailsLast session.log

namespace FailsLast

variable {log notices : List Notice} {frame : Bytes}

/-- Without frames there is nothing that fails. -/
theorem of_silent (silent : ∀ notice ∈ notices, (∀ frame, notice ≠ .received frame) ∧
    ∀ fault, notice ≠ .failed fault) : FailsLast notices where
  received earlier frame later split := by
    subst split
    exact absurd rfl ((silent (.received frame) (by simp)).1 frame)
  failed earlier fault later split := by
    subst split
    exact absurd rfl ((silent (.failed fault) (by simp)).2 fault)

theorem of_harmless (harmless : ¬ Frame.IsFatal frame) : FailsLast [.received frame] where
  received earlier other later split := by
    rcases List.singleton_eq_append_iff.mp split with ⟨rfl, same⟩ | ⟨rfl, same⟩
    · cases same
      simp [harmless]
    · cases same
  failed earlier fault later split := by
    rcases List.singleton_eq_append_iff.mp split with ⟨rfl, same⟩ | ⟨rfl, same⟩ <;> cases same

theorem of_fatal {fault : FrameFault} (fatal : Frame.IsFatal frame) :
    FailsLast [.received frame, .failed fault] where
  received earlier other later split := by
    rcases List.cons_eq_append_iff.mp split with ⟨rfl, same⟩ | ⟨rest, rfl, same⟩
    · cases same
      simp [fatal]
    · rcases List.singleton_eq_append_iff.mp same with ⟨_, same⟩ | ⟨_, same⟩ <;> cases same
  failed earlier other later split := by
    rcases List.cons_eq_append_iff.mp split with ⟨rfl, same⟩ | ⟨rest, rfl, same⟩
    · cases same
    · rcases List.singleton_eq_append_iff.mp same with ⟨rfl, same⟩ | ⟨_, same⟩ <;> cases same
      exact ⟨⟨[], frame, rfl⟩, fun _ => List.not_mem_nil⟩

/-- Logs are joined, unless something is taken after a frame that has failed. -/
theorem append (former : FailsLast log) (latter : FailsLast notices)
    (isOver : ∀ fault, .failed fault ∈ log → ∀ frame, .received frame ∉ notices) :
    FailsLast (log ++ notices) where
  received earlier frame later split := by
    rcases Splitting.append_eq_iff.mp split with ⟨rest, rfl, rfl⟩ | ⟨front, rfl, rfl⟩
    · rw [former.received earlier frame rest rfl]
      cases rest with
      | nil =>
          simp only [List.nil_append, reduceCtorEq, exists_false, false_iff, not_exists]
          intro fault more starts
          obtain ⟨⟨before, frame, same⟩, _⟩ := latter.failed [] fault more starts
          simp at same
      | cons first rest => simp
    · exact latter.received front frame later rfl
  failed earlier fault later split := by
    rcases Splitting.append_eq_iff.mp split with ⟨rest, rfl, rfl⟩ | ⟨front, rfl, rfl⟩
    · obtain ⟨follows, silent⟩ := former.failed earlier fault rest rfl
      refine ⟨follows, fun frame member => ?_⟩
      rcases List.mem_append.mp member with old | new
      · exact silent frame old
      · exact isOver fault (by simp) frame new
    · obtain ⟨⟨before, frame, rfl⟩, silent⟩ := latter.failed front fault later rfl
      exact ⟨⟨log ++ before, frame, by simp⟩, silent⟩

end FailsLast

end Session

namespace Station

variable {station : Station} {event : Event} {frame : Bytes}

/-- Only the receiving activity shows that frames are taken. -/
theorem silent_shown (others : event ≠ .receive) : ∀ notice ∈ station.shown event,
    (∀ frame, notice ≠ .received frame) ∧ ∀ fault, notice ≠ .failed fault := by
  cases event with
  | send drops =>
      intro notice member
      rcases List.mem_append.mp member with handed | turned
      · obtain ⟨frame, _, rfl⟩ := List.mem_map.mp handed
        simp
      · unfold Station.turned at turned
        split at turned
        · simp_all
        · obtain ⟨reply, _, rfl⟩ := List.mem_map.mp turned
          simp
        · cases turned
  | receive => exact absurd rfl others
  | close | conclude | stop | wait | enqueue | serve | share =>
      exact fun _ member => by cases member

theorem listens_of_received (received : .received frame ∈ station.shown event) :
    station.channel.receiver = .listening := by
  by_cases receives : event = .receive
  · subst receives
    simp only [shown, heard] at received
    split at received
    next taken => exact (runs_of_incoming taken).listens
    next => cases received
  · exact absurd rfl ((silent_shown receives _ received).1 frame)

theorem ended_of_failed {fault : FrameFault} (failed : .failed fault ∈ station.shown event) :
    (station.happen event).channel.receiver = .ended := by
  by_cases receives : event = .receive
  · subst receives
    simp only [shown, heard] at failed
    split at failed
    next taken =>
      split at failed
      next => simp at failed
      next refused =>
        rw [(endsOn_of_incoming taken).fatal (onFrame_eq_error_iff.mp ⟨_, refused⟩)]
        rfl
    next => cases failed
  · exact absurd rfl ((silent_shown receives _ failed).2 fault)

theorem failsLast_shown (station : Station) (event : Event) : FailsLast (station.shown event) := by
  by_cases receives : event = .receive
  · subst receives
    simp only [shown, heard]
    split
    next taken link _ =>
      cases read : { station with link }.onFrame taken with
      | ok next =>
          apply FailsLast.of_harmless
          intro fatal
          obtain ⟨fault, failed⟩ := onFrame_eq_error_iff.mpr fatal
          cases read.symm.trans failed
      | error fault => exact FailsLast.of_fatal (onFrame_eq_error_iff.mp ⟨fault, read⟩)
    next => exact FailsLast.of_silent fun _ member => by cases member
  · exact FailsLast.of_silent (silent_shown receives)

end Station

namespace Session

open Station

variable {session : Session}

/-- Receiving fails at the last frame that is taken, and is over then. -/
structure EndsReceiving (session : Session) : Prop where
  log : FailsLast session.log
  ended : ∀ fault, .failed fault ∈ session.log → session.station.channel.receiver = .ended

namespace EndsReceiving

variable (ends : EndsReceiving session)
include ends

theorem happen (event : Event) : EndsReceiving (session.happen event) where
  log := by
    apply ends.log.append (session.station.failsLast_shown event)
    intro fault failed frame received
    cases (ends.ended fault failed).symm.trans (listens_of_received received)
  ended fault failed := by
    rcases List.mem_append.mp failed with old | new
    · exact receiver_happen (ends.ended fault old) event
    · exact ended_of_failed new

theorem run (events : List Event) : EndsReceiving (session.run events) := by
  induction events generalizing session with
  | nil => exact ends
  | cons event rest ih => exact ih (ends.happen event)

end EndsReceiving

/-- Whatever happens to a channel, and in whatever state it was before, exactly the fatal frames
close it. -/
theorem closesOnFatal_run (station : Station) (events : List Event) :
    ClosesOnFatal (run ⟨station, []⟩ events) := by
  have begins : EndsReceiving ⟨station, []⟩ := by
    refine ⟨.of_silent fun _ member => (by cases member), fun _ member => by cases member⟩
  exact {
    dispatches := fun frame => dispatches _ frame
    ends := fun frame link taken => endsOn_of_incoming taken
    log := (begins.run events).log }

end Session

end PeerCalls
