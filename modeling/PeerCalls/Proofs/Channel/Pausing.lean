import PeerCalls.Proofs.Channel.Attempts
import PeerCalls.Proofs.Splitting

/-!
# A failed call is sent again after a pause

When an attempt fails and another one is worth it, the call stays at the head of the queue, and
nothing of the queue is sent before the pause is over. If nobody else serves the queue, the next
frame with a call is then the same one again, whatever else happens meanwhile.
-/

namespace PeerCalls

namespace Session

/-- Somebody else serves the queue. -/
def Event.isServe : Event → Bool
  | .serve _ => true
  | _ => false

/-- What is sent after an attempt: nothing before a time, and then the same frame. -/
structure Resends (wake : Time) (frame : Bytes) (sent : List (Time × Bytes)) : Prop where
  notBefore : ∀ entry ∈ sent, wake ≤ entry.1
  same : ∀ entry ∈ sent.head?, entry.2 = frame

/-- An attempt that fails and is worth another one has sent the frame of its call once, and the
next frame with a call is this one again, after a pause. -/
def PausesAndResends (delay : Span) (log : List Notice) : Prop :=
  ∀ earlier time reply later, log = earlier ++ .landed time reply :: later →
    ∃ attempt, attempt? earlier = some attempt ∧
      (reply.isRetryableFailure = true → attempt.call.isRetryable = true →
        (calls attempt.during).map Prod.snd = [attempt.frame] ∧
        Resends (time + delay.nanoseconds) attempt.frame (calls later))

end Session

open Session

namespace Station

variable {station : Station} {event : Event} {call : Call} {drops : Bool}

/-! ## Frames with calls -/

theorem calls_send (station : Station) (drops : Bool) :
    calls (station.shown (.send drops)) = calls (station.handing drops) := by
  have none : calls (station.turned (station.happen (.send drops))) = [] := by
    simp only [turned]
    split
    · rfl
    · cases station.replyInFlight _ <;> rfl
    · rfl
  rw [shown, calls_append, none, List.append_nil]

/-- What is sent in a step is sent now. -/
theorem time_of_calls_shown : ∀ entry ∈ calls (station.shown event), entry.1 = station.now := by
  rcases event.sends_or_others with ⟨drops, rfl⟩ | others
  · rw [calls_send, handing]
    cases station.handed? drops with
    | none => exact fun _ member => by cases member
    | some frame =>
        rw [Option.toList_some, List.map_singleton, calls_sent]
        split <;> simp
  · rw [calls_of_shown others]
    exact fun _ member => by cases member

theorem now_happen (station : Station) (event : Event) :
    station.now ≤ (station.happen event).now := by
  rcases event.sends_or_others with ⟨drops, rfl⟩ | others
  · obtain ⟨told, turn⟩ := station.turn_send drops
    exact Nat.le_of_eq turn.now.symm
  · exact (station.spares_happen others).now

/-! ## The head of the queue -/

theorem follows_happen (follows : station.Follows) (alone : event.isServe = false) :
    (station.happen event).Follows := by
  by_cases own : event.isOwn = true
  · obtain ⟨told, turn⟩ := station.turn_happen own
    exact turn.follows follows
  · cases event with
    | send | receive | close => exact absurd rfl own
    | stop => exact Channel.Follows.stop follows
    | enqueue calls => exact Channel.Follows.append follows calls
    | serve calls => cases alone
    | conclude | wait | share => exact follows.of_eq rfl rfl rfl

/-- The head of the queue stays there as long as no call is about to leave the queue. -/
theorem heads_happen (heads : station.outbox.queue.Heads call) (alone : event.isServe = false)
    (unfinished : ∀ call reply, station.channel.sender ≠ .dequeuing call reply) :
    (station.happen event).outbox.queue.Heads call := by
  cases event with
  | send drops =>
      simp only [happen]
      cases stepped : station.sendStep drops with
      | none => exact heads
      | some next =>
          have same := (keepsCalls_sendStep stepped unfinished).1
          exact same ▸ heads
  | receive =>
      simp only [happen]
      cases stepped : station.receiveStep with
      | none => exact heads
      | some next =>
          have same := (keepsCalls_receiveStep stepped).1
          exact same ▸ heads
  | close =>
      simp only [happen, closeStep]
      split <;> exact heads
  | enqueue calls => exact heads.append calls
  | serve calls => cases alone
  | conclude | stop | wait | share => exact heads

/-! ## Where the sending activity is -/

/-- A pause is over when the queue is read. -/
theorem le_now_of_peeking {worked : Bool} {wake : Time} (inOrder : station.InOrder)
    (peeks : station.channel.sender = .peeking worked)
    (paused : station.channel.pausedUntil = some wake) : wake ≤ station.now :=
  isPaused_eq_false_iff.mp (inOrder.peeking worked peeks).2 wake paused

theorem IsReady.ne_dequeuing (isReady : station.IsReady) (call : Call) (reply : Reply) :
    station.channel.sender ≠ .dequeuing call reply := by
  intro ends
  cases isReady with
  | idle isIdle =>
      rw [ends] at isIdle
      exact isIdle
  | peeks peeks => cases peeks.symm.trans ends

end Station

namespace Session

open Station

variable {limit : Nat} {settings : Settings} {session : Session} {station : Station} {event : Event}
  {wake : Time} {call : Call} {sent : List (Time × Bytes)} {drops : Bool}

/-! ## Waiting to send a call again -/

/-- A channel that has not sent a call again after it failed. -/
inductive Awaits (wake : Time) (call : Call) (station : Station) : Prop where
  | pauses : station.channel.inFlight = none → station.channel.pausedUntil = some wake →
      (∀ call reply, station.channel.sender ≠ .dequeuing call reply) →
      station.outbox.queue.Heads call → Awaits wake call station
  | ready : wake ≤ station.now → station.channel.sender = .sendingCall call.invocation.encode →
      Awaits wake call station
  /-- The channel was stopped, and will not send anything. -/
  | stopped : wake ≤ station.now → station.channel.isStopped = true →
      (station.channel.sender = .looking ∨ station.channel.sender = .ended) →
      Awaits wake call station

/-- What a channel still has to do for a call that has failed. -/
inductive Owes (wake : Time) (call : Call) (station : Station) (sent : List (Time × Bytes)) :
    Prop where
  | awaits : sent = [] → Awaits wake call station → Owes wake call station sent
  | resent : sent ≠ [] → wake ≤ station.now → Resends wake call.invocation.encode sent →
      Owes wake call station sent

theorem Owes.resends (owes : Owes wake call station sent) :
    Resends wake call.invocation.encode sent := by
  cases owes with
  | awaits none _ =>
      rw [none]
      exact ⟨fun _ member => (by cases member), fun _ member => by cases member⟩
  | resent _ _ resends => exact resends

theorem Awaits.others (awaits : Awaits wake call station) (others : ∀ drops, event ≠ .send drops)
    (alone : event.isServe = false) : Awaits wake call (station.happen event) := by
  have spares := station.spares_happen others
  cases awaits with
  | pauses idle paused unfinished heads =>
      refine .pauses ?_ (spares.pausedUntil.trans paused) ?_ (heads_happen heads alone unfinished)
      · rw [station.inFlight_happen others, idle]
        rfl
      · rw [spares.sender]
        exact unfinished
  | ready late holds => exact .ready (Nat.le_trans late spares.now) (spares.sender.trans holds)
  | stopped late stops rests =>
      refine .stopped (Nat.le_trans late spares.now) (spares.isStopped stops) ?_
      rw [spares.sender]
      exact rests

theorem Awaits.send (awaits : Awaits wake call station) (inOrder : station.InOrder)
    (sends : station.channel.SendsWithin limit) (isLimit : station.link.maxFrameLength = limit)
    (fits : call.invocation.encode.length ≤ limit) (drops : Bool) :
    Owes wake call (station.happen (.send drops)) (calls (station.handing drops)) := by
  have now := now_happen station (.send drops)
  cases awaits with
  | pauses idle paused unfinished heads =>
      have none : calls (station.handing drops) = [] := by
        apply calls_handing_of_ne sends
        intro frame holds
        obtain ⟨call, flies, _⟩ := inOrder.sendingCall frame holds
        cases idle.symm.trans flies
      refine .awaits none ?_
      cases station.flight_send drops with
      | stays readies =>
          exact .pauses (readies.inFlight.trans idle) (readies.pausedUntil.trans paused)
            readies.isReady.ne_dequeuing (heads_happen heads rfl unfinished)
      | retries flying | finishes flying => cases idle.symm.trans flying
      | begins peeks isHead _ _ holds =>
          obtain ⟨head, isHere, same⟩ := heads
          cases isHere.symm.trans isHead
          rw [← Call.invocation_eq_of_reset_eq same] at holds
          exact .ready (Nat.le_trans (le_now_of_peeking inOrder peeks paused) now) holds
      | refuses peeks isHead long _ _ =>
          obtain ⟨head, isHere, same⟩ := heads
          cases isHere.symm.trans isHead
          rw [isLimit, ← Call.invocation_eq_of_reset_eq same] at long
          exact absurd fits (Nat.not_le.mpr long)
  | ready late holds =>
      rcases calls_handing_of_sendingCall holds drops with ⟨drop, none⟩ | handed
      · obtain ⟨looks, stopped⟩ := happen_of_dropped holds drop
        refine .awaits none ?_
        rw [looks]
        exact .stopped late stopped (.inl rfl)
      · rw [handed]
        refine .resent (List.cons_ne_nil _ _) (Nat.le_trans late now) ⟨?_, ?_⟩
        · exact List.forall_mem_singleton.mpr late
        · simp
  | stopped late stops rests =>
      obtain ⟨ended, stops, _⟩ := happen_of_stopped stops rests drops
      exact .awaits (calls_handing_of_rests rests)
        (.stopped (Nat.le_trans late now) stops (.inr ended))

theorem Owes.happen (owes : Owes wake call station sent) (inOrder : station.InOrder)
    (sends : station.channel.SendsWithin limit) (isLimit : station.link.maxFrameLength = limit)
    (fits : call.invocation.encode.length ≤ limit) (alone : event.isServe = false) :
    Owes wake call (station.happen event) (sent ++ calls (station.shown event)) := by
  cases owes with
  | awaits none awaits =>
      rw [none, List.nil_append]
      rcases event.sends_or_others with ⟨drops, rfl⟩ | others
      · rw [calls_send]
        exact awaits.send inOrder sends isLimit fits drops
      · exact .awaits (calls_of_shown others) (awaits.others others alone)
  | resent some late resends =>
      refine .resent (List.append_ne_nil_of_left_ne_nil some _)
        (Nat.le_trans late (now_happen station event)) ⟨?_, ?_⟩
      · intro entry member
        rcases List.mem_append.mp member with old | new
        · exact resends.notBefore entry old
        · rw [time_of_calls_shown entry new]
          exact late
      · cases sent with
        | nil => exact absurd rfl some
        | cons first rest => exact resends.same

/-! ## Runs -/

/-- Each call that has failed and is worth another attempt is sent again, or still to be sent. -/
structure Retries (limit : Nat) (delay : Span) (session : Session) : Prop where
  follows : session.station.Follows
  owes : ∀ earlier time reply later, session.log = earlier ++ .landed time reply :: later →
    ∃ attempt, attempt? earlier = some attempt ∧
      (reply.isRetryableFailure = true → attempt.call.isRetryable = true →
        (calls attempt.during).map Prod.snd = [attempt.frame] ∧ attempt.frame.length ≤ limit ∧
        Owes (time + delay.nanoseconds) attempt.call session.station (calls later))

namespace Retries

/-- An attempt that lands has sent its frame once, unless that was too long. -/
theorem sent_of_lands {attempt : Attempt} {reply : Reply} (tracks : Tracks limit settings session)
    (isUnder : attempt? session.log = some attempt)
    (lands : session.station.Lands drops attempt.inFlight reply)
    (isOver : (session.station.happen (.send drops)).channel.inFlight = none)
    (fails : reply.isRetryableFailure = true) :
    (calls (attempt.hear (session.station.handing drops)).during).map Prod.snd = [attempt.frame] ∧
      attempt.frame.length ≤ limit := by
  have same : attempt.inFlight.invocation = attempt.call.invocation :=
    Call.invocation_eq_of_reset_eq attempt.reset_inFlight
  have all : calls (attempt.hear (session.station.handing drops)).during =
      calls attempt.during ++ calls (session.station.handing drops) := calls_append _ _
  cases tracks.carries attempt isUnder with
  | ready holds _ =>
      have readies := readies_of_sendingCall holds drops
      cases (readies.inFlight.trans lands.flying).symm.trans isOver
  | refused long _ =>
      rw [Attempt.frame, ← same] at long
      obtain ⟨message, rfl⟩ := replyInFlight_of_long tracks.sends _ lands.flying lands.found long
      cases fails
  | sent fits sent others =>
      rw [all, sent, calls_handing_of_ne tracks.sends others]
      exact ⟨rfl, fits⟩
  | dropped _ stops rests =>
      obtain ⟨_, _, stays⟩ := happen_of_stopped stops rests drops
      cases (stays.trans lands.flying).symm.trans isOver

/-- A call that fails is to be sent again from now on. -/
theorem landed {reply : Reply} (tracks : Tracks limit settings session)
    (follows : session.station.Follows) (lands : session.station.Lands drops call reply) :
    ∃ attempt, attempt? (session.log ++ session.station.handing drops) = some attempt ∧
      (reply.isRetryableFailure = true → attempt.call.isRetryable = true →
        (calls attempt.during).map Prod.snd = [attempt.frame] ∧ attempt.frame.length ≤ limit ∧
        Owes (session.station.now + settings.retryDelay.nanoseconds) attempt.call
          (session.station.happen (.send drops)) []) := by
  obtain ⟨attempt, isUnder, rfl⟩ :=
    Option.map_eq_some_iff.mp (tracks.inFlight.symm.trans lands.flying)
  refine ⟨attempt.hear (session.station.handing drops), ?_, ?_⟩
  · rw [attempt?_append_of_goesOn session.log (session.station.goesOn_of_handing drops), isUnder,
      Option.map_some]
  · intro fails again
    have readies := lands.next
    rw [fails, (Call.isRetryable_eq_of_reset_eq attempt.reset_inFlight).trans again] at readies
    have heads := follows.inFlight _ lands.flying
    have unfinished (call : Call) (reply : Reply) :
        session.station.channel.sender ≠ .dequeuing call reply := by
      intro ends
      cases lands.flying.symm.trans (follows.dequeuing call reply ends).1
    obtain ⟨sent, fits⟩ := sent_of_lands tracks isUnder lands readies.inFlight fails
    refine ⟨sent, fits, .awaits rfl (.pauses readies.inFlight ?_ readies.isReady.ne_dequeuing ?_)⟩
    · rw [readies.pausedUntil, ← tracks.hasSettings]
      rfl
    · exact heads_happen (heads.reset_eq attempt.reset_inFlight.symm) rfl unfinished

theorem happen (retries : Retries limit settings.retryDelay session)
    (tracks : Tracks limit settings session) (alone : event.isServe = false) :
    Retries limit settings.retryDelay (session.happen event) where
  follows := follows_happen retries.follows alone
  owes := by
    intro earlier time reply later split
    rcases Splitting.append_eq_iff.mp split with ⟨before, wasThere, rfl⟩ | ⟨front, rfl, isNew⟩
    · obtain ⟨attempt, isUnder, owes⟩ := retries.owes earlier time reply before wasThere
      refine ⟨attempt, isUnder, fun fails again => ?_⟩
      obtain ⟨sent, fits, owes⟩ := owes fails again
      refine ⟨sent, fits, ?_⟩
      rw [calls_append]
      exact owes.happen tracks.inOrder tracks.sends tracks.isLimit fits alone
    · obtain ⟨drops, call, rfl, rfl, lands⟩ := exists_lands tracks.inOrder
        (isNew ▸ List.mem_append_right front List.mem_cons_self)
      rcases Splitting.concat_eq_iff.mp (lands.shown.symm.trans isNew) with
        ⟨rfl, _, rfl⟩ | ⟨init, _, handed⟩
      · exact landed tracks retries.follows lands
      · have isLanding : .landed session.station.now reply ∈ session.station.handing drops := by
          rw [handed]
          exact List.mem_append_right front List.mem_cons_self
        exact (session.station.goesOn_of_handing drops _ isLanding).elim

theorem run (retries : Retries limit settings.retryDelay session)
    (tracks : Tracks limit settings session) (events : List Event)
    (alone : ∀ event ∈ events, event.isServe = false) :
    Retries limit settings.retryDelay (session.run events) := by
  induction events generalizing session with
  | nil => exact retries
  | cons event rest ih =>
      have first := alone event List.mem_cons_self
      exact ih (retries.happen tracks first) (tracks.happen event)
        fun other member => alone other (List.mem_cons_of_mem event member)

end Retries

/-- Whatever happens to a channel that alone serves its queue, it does not send anything of the
queue in the pause after a failure, and then sends the same frame again. -/
theorem pausesAndResends_run (station : Station) (events : List Event)
    (alone : ∀ event ∈ events, event.isServe = false) :
    PausesAndResends station.settings.retryDelay ((Session.fresh station).run events).log := by
  have begins : Retries station.link.maxFrameLength station.settings.retryDelay
      (Session.fresh station) := by
    refine ⟨.start _ _ _, ?_⟩
    intro earlier time reply later split
    simp [Session.fresh] at split
  have retries := begins.run (Tracks.fresh station) events alone
  intro earlier time reply later split
  obtain ⟨attempt, isUnder, owes⟩ := retries.owes earlier time reply later split
  refine ⟨attempt, isUnder, fun fails again => ?_⟩
  obtain ⟨sent, _, owes⟩ := owes fails again
  exact ⟨sent, owes.resends⟩

/-- A channel with a call that is sent again if it gets no reply within a millisecond. -/
def insistent : Station :=
  let station := beginning (persistent (.ofMilliseconds 1))
  { station with outbox := { station.outbox with settings := .standard } }

/-- The call gets no reply, and another call comes into the queue during the pause. -/
def unanswered : List Event :=
  [.send false, .send false, .send false, .send false, .wait (.ofMilliseconds 1), .send false,
    .send false, .enqueue [.new .server ⟨2, "g", []⟩], .wait (.ofMilliseconds 99), .send false,
    .wait (.ofMilliseconds 1), .send false, .send false, .send false]

theorem pausesAndResends_unanswered :
    ((fresh insistent).run unanswered).log =
      [.began 0 ((persistent (.ofMilliseconds 1)).start 0),
        .sent 0 (Invocation.encode ⟨1, "f", []⟩),
        .landed 1000000 (.failure 1 .timeout "no result after 1ms"),
        .began 101000000 ((persistent (.ofMilliseconds 1)).start 101000000),
        .sent 101000000 (Invocation.encode ⟨1, "f", []⟩)] ∧
    PausesAndResends (.ofMilliseconds 100) ((fresh insistent).run unanswered).log :=
  ⟨by decide, pausesAndResends_run insistent unanswered (by decide)⟩

end Session

end PeerCalls
