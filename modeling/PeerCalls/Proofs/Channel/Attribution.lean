import PeerCalls.Proofs.Channel.Attempts
import PeerCalls.Proofs.Splitting

/-!
# Each attempt gets its own reply

If no queued call carries a reply, then what an attempt gets follows from what was noticed since
it began: a failure at once if its frame is too long to be sent, else the first reply to its call
that arrives, else a failure once its time is up. Other replies change nothing.
-/

namespace PeerCalls

namespace Session

/-- The frame that is received. -/
def Notice.received? : Notice → Option Bytes
  | .received frame => some frame
  | _ => none

/-- The calls that come into the queue. -/
def Event.brings : Event → List Call
  | .enqueue calls | .serve calls => calls
  | _ => []

namespace Attempt

/-- The first frame since the attempt began that has a reply to its call. -/
def answer? (attempt : Attempt) : Option Bytes :=
  (attempt.during.filterMap Notice.received?).find? (Frame.repliesTo attempt.call.id)

/-- What an attempt gets that is over at some time. -/
inductive Yields (limit : Nat) (default : Span) (attempt : Attempt) (time : Time) :
    Reply → Prop where
  /-- The frame of the call is too long, and was not sent. -/
  | tooLong : limit < attempt.frame.length → calls attempt.during = [] →
      Yields limit default attempt time attempt.call.tooLong
  | replied {frame : Bytes} {reply : Reply} : attempt.frame.length ≤ limit →
      attempt.answer? = some frame → Reply.decode frame = .ok reply →
      Yields limit default attempt time reply
  | malformed {frame : Bytes} {fault : Frame.Fault} : attempt.frame.length ≤ limit →
      attempt.answer? = some frame → Reply.decode frame = .error fault →
      Yields limit default attempt time
        (.failure attempt.call.id .rpcError ("malformed result: " ++ fault.message))
  | expired : attempt.frame.length ≤ limit → attempt.answer? = none →
      attempt.start + (attempt.call.effectiveTimeout default).nanoseconds ≤ time →
      Yields limit default attempt time
        (.failure attempt.call.id .timeout
          ("no result after " ++ (attempt.call.effectiveTimeout default).text))

/-- The attempt has its reply, and will land with it. -/
def IsSettled (limit : Nat) (attempt : Attempt) : Prop :=
  limit < attempt.frame.length ∨ attempt.answer? ≠ none

/-- How an attempt begins for a call that carries no reply. -/
structure IsFresh (limit : Nat) (attempt : Attempt) : Prop where
  started : attempt.call.startedAt = some attempt.start
  reply : attempt.call.reply =
    if limit < attempt.frame.length then some attempt.call.tooLong else none

end Attempt

/-- Each attempt gets exactly one reply, and one to its call. -/
structure Attributes (limit : Nat) (default : Span) (session : Session) : Prop where
  /-- A call is in flight while an attempt is under way. -/
  underway : session.station.channel.inFlight.isSome = (attempt? session.log).isSome
  /-- Before an attempt begins, the one before it has landed. -/
  began : ∀ earlier time call later, session.log = earlier ++ .began time call :: later →
    attempt? earlier = none
  landed : ∀ earlier time reply later, session.log = earlier ++ .landed time reply :: later →
    ∃ attempt, attempt? earlier = some attempt ∧ attempt.Yields limit default time reply
  /-- The reply that an attempt gets decides what the channel does next. -/
  taken : ∀ drops time reply, .landed time reply ∈ session.station.shown (.send drops) →
    ∃ call, session.station.channel.inFlight = some call ∧
      if reply.isRetryableFailure && call.isRetryable then
        session.station.pause.Readies (session.station.happen (.send drops))
      else (session.station.happen (.send drops)).channel =
        (session.station.land call reply).channel
  /-- A reply to another call, a further one to the same call, and one between two attempts are
  taken from the link, and nothing else happens. -/
  ignored : ∀ frame link id, session.station.incoming? = some (frame, link) →
    FrameKind.peek frame = some .result → peekId frame = some id →
    (∀ attempt, attempt? session.log = some attempt → attempt.call.id = id →
      attempt.IsSettled limit) →
    session.station.happen .receive = { session.station with link }

/-! ## What a call hears -/

end Session

open Session

/-- A call that has no reply takes the first one to it that it hears. -/
theorem Call.foldl_note_eq (call : Call) (notices : List Notice) :
    notices.foldl note call = { call with
      reply := call.reply.or
        (((notices.filterMap Notice.received?).find? (Frame.repliesTo call.id)).map
          (Station.replyIn call.id)) } := by
  induction notices generalizing call with
  | nil => simp
  | cons notice rest ih =>
      rw [List.foldl_cons, ih]
      cases notice with
      | began | sent | failed | landed => rfl
      | received frame =>
          have frames : (.received frame :: rest).filterMap Notice.received? =
              frame :: rest.filterMap Notice.received? := rfl
          rw [frames, note]
          cases carried : call.reply with
          | some reply => rw [hear_of_answered (by simp [carried])]; simp [carried]
          | none =>
              by_cases replies : Frame.repliesTo call.id frame = true
              · rw [hear_of_repliesTo replies carried, List.find?_cons_of_pos replies]
                rfl
              · rw [hear_of_not_repliesTo replies, List.find?_cons_of_neg replies, carried]

/-- The call in flight fails without a reply when its time is up. -/
theorem Station.expired_of_replyInFlight {station : Station} {call : Call} {reply : Reply}
    (unanswered : call.reply = none) (found : station.replyInFlight call = some reply) :
    ∃ deadline, call.deadline station.settings.defaultTimeout = some deadline ∧
      deadline ≤ station.now ∧ reply = .failure call.id .timeout
        ("no result after " ++ (call.effectiveTimeout station.settings.defaultTimeout).text) := by
  rw [replyInFlight, unanswered] at found
  cases due : call.deadline station.settings.defaultTimeout with
  | none =>
      simp only [due] at found
      cases found
  | some deadline =>
      simp only [due] at found
      split at found
      next late =>
        cases found
        exact ⟨deadline, rfl, late, rfl⟩
      next => cases found

namespace Session.Attempt

variable {limit : Nat} {attempt : Attempt}

theorem inFlight_eq (attempt : Attempt) :
    attempt.inFlight = { attempt.call with
      reply := attempt.call.reply.or
        (attempt.answer?.map (Station.replyIn attempt.call.id)) } :=
  attempt.call.foldl_note_eq attempt.during

namespace IsFresh

variable (fresh : attempt.IsFresh limit)
include fresh

theorem reply_of_long (long : limit < attempt.frame.length) :
    attempt.inFlight.reply = some attempt.call.tooLong := by
  rw [attempt.inFlight_eq, fresh.reply, if_pos long]
  rfl

theorem reply_of_fits (fits : attempt.frame.length ≤ limit) :
    attempt.inFlight.reply = attempt.answer?.map (Station.replyIn attempt.call.id) := by
  rw [attempt.inFlight_eq, fresh.reply, if_neg (Nat.not_lt.mpr fits)]
  rfl

theorem reply_ne_none (settled : attempt.IsSettled limit) : attempt.inFlight.reply ≠ none := by
  by_cases long : limit < attempt.frame.length
  · rw [fresh.reply_of_long long]
    simp
  · rw [fresh.reply_of_fits (Nat.le_of_not_lt long), Ne, Option.map_eq_none_iff]
    exact settled.resolve_left long

/-- The reply that the call in flight gets is the one that the attempt is to get. -/
theorem yields {station : Station} {reply : Reply}
    (unsent : limit < attempt.frame.length → calls attempt.during = [])
    (sought : station.replyInFlight attempt.inFlight = some reply) :
    attempt.Yields limit station.settings.defaultTimeout station.now reply := by
  have found := sought
  by_cases long : limit < attempt.frame.length
  · rw [Station.replyInFlight, fresh.reply_of_long long] at found
    cases found
    exact .tooLong long (unsent long)
  · have fits := Nat.le_of_not_lt long
    rw [Station.replyInFlight, fresh.reply_of_fits fits] at found
    cases answer : attempt.answer? with
    | some frame =>
        rw [answer] at found
        cases found
        simp only [Station.replyIn]
        split
        next reply decoded => exact .replied fits answer decoded
        next fault refused => exact .malformed fits answer refused
    | none =>
        have unanswered : attempt.inFlight.reply = none := by
          rw [fresh.reply_of_fits fits, answer, Option.map_none]
        obtain ⟨deadline, due, late, rfl⟩ := Station.expired_of_replyInFlight unanswered sought
        rw [attempt.inFlight_eq] at due ⊢
        rw [Call.deadline, fresh.started, Option.bind_some] at due
        rw [Time.eq_of_after? due] at late
        exact .expired fits answer late

end IsFresh

end Session.Attempt

/-! ## Replies that are ignored -/

namespace Station

variable {station : Station}

theorem happen_receive_of_ignored {frame : Bytes} {link : Link} {id : UInt64}
    (taken : station.incoming? = some (frame, link))
    (isResult : FrameKind.peek frame = some .result) (named : peekId frame = some id)
    (others : ∀ call, station.channel.inFlight = some call → call.id = id → call.reply ≠ none) :
    station.happen .receive = { station with link } := by
  have ignores : { station with link }.attach id (replyIn id frame) = { station with link } := by
    simp only [attach]
    split
    next call flying => exact if_neg fun own => others call flying own.1 own.2
    next => rfl
  simp only [happen_receive_of_incoming taken, onFrame, onResultFrame, isResult, named, ignores]
  rfl

/-- A call in the queue was there before, or has just come. -/
theorem mem_calls_happen {event : Event} {call : Call}
    (member : call ∈ (station.happen event).outbox.queue.calls) :
    call ∈ station.outbox.queue.calls ∨ call ∈ event.brings := by
  by_cases own : event.isOwn = true
  · obtain ⟨told, turn⟩ := station.turn_happen own
    obtain ⟨removed, equal⟩ := turn.removes
    rw [equal]
    exact .inl (List.mem_append_right removed member)
  · cases event with
    | send | receive | close => exact absurd rfl own
    | enqueue calls => exact List.mem_append.mp member
    | serve calls => exact .inr member
    | conclude | stop | wait | share => exact .inl member

end Station

/-! ## What each notice says -/

namespace Session

open Station

variable {limit : Nat} {default : Span} {session : Session} {event : Event}

/-- A notice says the truth about the attempt that was under way before. -/
def Notice.Agrees (limit : Nat) (default : Span) (earlier : List Notice) : Notice → Prop
  | .began _ _ => attempt? earlier = none
  | .landed time reply =>
    ∃ attempt, attempt? earlier = some attempt ∧ attempt.Yields limit default time reply
  | .sent _ _ | .received _ | .failed _ => True

theorem Notice.agrees_of_goesOn {earlier : List Notice} {notice : Notice} (goesOn : notice.GoesOn) :
    notice.Agrees limit default earlier := by
  cases notice with
  | began | landed => exact goesOn.elim
  | sent | received | failed => trivial

/-- A log in which each attempt began without a reply, and got its own. -/
structure Accounts (limit : Nat) (default : Span) (log : List Notice) : Prop where
  fresh : ∀ attempt, attempt? log = some attempt → attempt.IsFresh limit
  agrees : ∀ earlier notice later, log = earlier ++ notice :: later →
    notice.Agrees limit default earlier

namespace Accounts

variable {log notices : List Notice} {time : Time} {call : Call} {reply : Reply}
  (accounts : Accounts limit default log)
include accounts

theorem append_of_goesOn (goOn : ∀ notice ∈ notices, notice.GoesOn) :
    Accounts limit default (log ++ notices) where
  fresh attempt isUnder := by
    rw [attempt?_append_of_goesOn log goOn, Option.map_eq_some_iff] at isUnder
    obtain ⟨former, wasUnder, rfl⟩ := isUnder
    have fresh := accounts.fresh former wasUnder
    exact ⟨fresh.started, fresh.reply⟩
  agrees := by
    induction notices using List.reverseRecOn with
    | nil =>
        rw [List.append_nil]
        exact accounts.agrees
    | append_singleton notices last ih =>
        rw [Splitting.forall_mem_concat] at goOn
        rw [← List.append_assoc]
        exact Splitting.forall_split_concat.mpr ⟨ih goOn.1, Notice.agrees_of_goesOn goOn.2⟩

theorem landed (agrees : (Notice.landed time reply).Agrees limit default log) :
    Accounts limit default (log ++ [.landed time reply]) where
  fresh attempt isUnder := by
    rw [attempt?_landed] at isUnder
    cases isUnder
  agrees := Splitting.forall_split_concat.mpr ⟨accounts.agrees, agrees⟩

theorem began (none : attempt? log = none) (fresh : Attempt.IsFresh limit ⟨time, call, []⟩) :
    Accounts limit default (log ++ [.began time call]) where
  fresh attempt isUnder := by
    rw [attempt?_began] at isUnder
    cases isUnder
    exact fresh
  agrees := Splitting.forall_split_concat.mpr ⟨accounts.agrees, none⟩

end Accounts

/-- What a log says of a session in which no queued call carries a reply. -/
structure Records (limit : Nat) (default : Span) (session : Session) : Prop where
  queued : ∀ call ∈ session.station.outbox.queue.calls, call.reply = none
  accounts : Accounts limit default session.log

namespace Records

variable {settings : Settings} {drops : Bool} {call : Call}
  (records : Records limit settings.defaultTimeout session)
  (tracks : Tracks limit settings session)
include records tracks

/-- The call in flight lands with what the attempt under way is to get. -/
theorem landed {reply : Reply} (flying : session.station.channel.inFlight = some call)
    (found : session.station.replyInFlight call = some reply) :
    Accounts limit settings.defaultTimeout
      (session.log ++ (session.station.handing drops ++ [.landed session.station.now reply])) := by
  have goOn := session.station.goesOn_of_handing drops
  have handed := records.accounts.append_of_goesOn goOn
  obtain ⟨attempt, isUnder, same⟩ := Option.map_eq_some_iff.mp (tracks.inFlight.symm.trans flying)
  have isUnderThen := attempt?_append_of_goesOn session.log goOn
  rw [isUnder, Option.map_some] at isUnderThen
  rw [← List.append_assoc]
  refine handed.landed ⟨_, isUnderThen, ?_⟩
  rw [← tracks.hasSettings]
  apply (handed.fresh _ isUnderThen).yields
  · intro long
    have flies : session.station.channel.inFlight = some attempt.inFlight := by rw [flying, same]
    refine (calls_append _ _).trans ?_
    rw [(tracks.carries attempt isUnder).unsent_of_long tracks.sends long,
      calls_handing_of_long tracks.sends tracks.inOrder flies long, List.append_nil]
  · rw [attempt.inFlight_hear, foldl_note_handing, same]
    exact found

/-- An attempt for the head of the queue begins. -/
theorem began {head : Call} {worked : Bool}
    (peeks : session.station.channel.sender = .peeking worked)
    (isHead : session.station.outbox.queue.peek = some head)
    (flies : (session.station.happen (.send drops)).channel.inFlight = some call)
    (fresh : head.reply = none → Attempt.IsFresh limit ⟨session.station.now, call, []⟩) :
    Accounts limit settings.defaultTimeout
      (session.log ++ session.station.shown (.send drops)) := by
  have idle := (tracks.inOrder.peeking _ peeks).1
  rw [shown_of_begins peeks idle flies]
  apply records.accounts.began
  · exact Option.map_eq_none_iff.mp (tracks.inFlight.symm.trans idle)
  · exact fresh (records.queued head (List.mem_of_head? isHead))

theorem send (drops : Bool) : Accounts limit settings.defaultTimeout
    (session.log ++ session.station.shown (.send drops)) := by
  cases session.station.flight_send drops with
  | stays readies =>
      rw [shown_of_stays readies.inFlight]
      exact records.accounts.append_of_goesOn (session.station.goesOn_of_handing drops)
  | retries flying found _ _ readies =>
      rw [shown_of_lands flying found readies.inFlight]
      exact records.landed tracks flying found
  | finishes flying found _ lands =>
      rw [shown_of_lands flying found (congrArg Channel.inFlight lands)]
      exact records.landed tracks flying found
  | begins peeks isHead fits flies _ =>
      rw [tracks.isLimit] at fits
      refine records.began tracks peeks isHead flies fun unanswered => ⟨rfl, ?_⟩
      exact unanswered.trans (if_neg (Nat.not_lt.mpr fits)).symm
  | refuses peeks isHead long flies _ =>
      rw [tracks.isLimit] at long
      exact records.began tracks peeks isHead flies fun _ => ⟨rfl, (if_pos long).symm⟩

theorem happen (event : Event) (unanswered : ∀ call ∈ event.brings, call.reply = none) :
    Records limit settings.defaultTimeout (session.happen event) where
  queued call member := by
    rcases mem_calls_happen member with old | new
    · exact records.queued call old
    · exact unanswered call new
  accounts := by
    rcases event.sends_or_others with ⟨drops, rfl⟩ | others
    · exact records.send tracks drops
    · apply records.accounts.append_of_goesOn
      exact fun notice member =>
        (session.station.goesOn_of_shown others notice member).1

theorem run (events : List Event)
    (unanswered : ∀ event ∈ events, ∀ call ∈ event.brings, call.reply = none) :
    Records limit settings.defaultTimeout (session.run events) := by
  induction events generalizing session with
  | nil => exact records
  | cons event rest ih =>
      have first := unanswered event List.mem_cons_self
      exact ih (records.happen tracks event first) (tracks.happen event)
        fun other member => unanswered other (List.mem_cons_of_mem event member)

end Records

/-- Whatever happens to a channel with calls that carry no reply, each of its attempts gets
exactly one reply, and one to its call. -/
theorem attributes_run (station : Station) (events : List Event)
    (queued : ∀ call ∈ station.outbox.queue.calls, call.reply = none)
    (unanswered : ∀ event ∈ events, ∀ call ∈ event.brings, call.reply = none) :
    Attributes station.link.maxFrameLength station.settings.defaultTimeout
      ((Session.fresh station).run events) := by
  have tracks := (Tracks.fresh station).run events
  have begins : Records station.link.maxFrameLength station.settings.defaultTimeout
      (Session.fresh station) := by
    refine ⟨queued, fun _ isUnder => (by cases isUnder), ?_⟩
    intro earlier notice later split
    simp [Session.fresh] at split
  have records := begins.run (Tracks.fresh station) events unanswered
  constructor
  case underway => rw [tracks.inFlight, Option.isSome_map]
  case began =>
    exact fun earlier time call => records.accounts.agrees earlier (.began time call)
  case landed =>
    exact fun earlier time reply => records.accounts.agrees earlier (.landed time reply)
  case taken =>
    intro drops time reply landed
    obtain ⟨drops, call, same, _, lands⟩ := exists_lands tracks.inOrder landed
    cases same
    exact ⟨call, lands.flying, lands.next⟩
  case ignored =>
    intro frame link id taken isResult named settled
    refine happen_receive_of_ignored taken isResult named ?_
    intro call flying same
    obtain ⟨attempt, isUnder, rfl⟩ := Option.map_eq_some_iff.mp (tracks.inFlight.symm.trans flying)
    apply (records.accounts.fresh attempt isUnder).reply_ne_none
    apply settled attempt isUnder
    rw [← same, Call.id_eq_of_reset_eq attempt.reset_inFlight]

/-- The head of the queue is sent. Then a reply to another call arrives, and one to this call. -/
def misdirected : List Event :=
  [.send false, .send false, .send false,
    .share .none false (.new 10)
      ⟨true, true, [Reply.encode ⟨2, .success [7]⟩, Reply.encode ⟨1, .success [8]⟩]⟩
      ⟨true, true, []⟩ none,
    .receive, .receive, .enqueue [.new .server ⟨2, "g", []⟩], .wait (.ofMilliseconds 5),
    .send false]

theorem attributes_misdirected :
    ((fresh (beginning (persistent (.ofMilliseconds 1)))).run misdirected).log =
      [.began 0 ((persistent (.ofMilliseconds 1)).start 0),
        .sent 0 (Invocation.encode ⟨1, "f", []⟩),
        .received (Reply.encode ⟨2, .success [7]⟩), .received (Reply.encode ⟨1, .success [8]⟩),
        .landed 5000000 ⟨1, .success [8]⟩] ∧
    Attributes 1000 (.ofSeconds 30)
      ((fresh (beginning (persistent (.ofMilliseconds 1)))).run misdirected) := by
  constructor
  · decide
  · exact attributes_run (beginning (persistent (.ofMilliseconds 1))) misdirected (by decide)
      (by decide)

end Session

end PeerCalls
