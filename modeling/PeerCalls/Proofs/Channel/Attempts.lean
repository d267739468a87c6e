import PeerCalls.Proofs.Channel.Session

/-!
# Attempts

The log of a session tells which attempt is under way. Its call is the one in flight, with what it
has heard since the attempt began. A frame that is sent with a call is the frame of the attempt
under way, and each attempt that is not refused sends its frame once, unless the channel is
stopped before.
-/

namespace PeerCalls

namespace Session

/-- An attempt to get a reply to a call. -/
structure Attempt where
  start : Time
  /-- The call that was in flight when the attempt began. -/
  call : Call
  /-- What was noticed since. -/
  during : List Notice

namespace Attempt

/-- The attempt that is under way after something was noticed. -/
def next (attempt : Option Attempt) : Notice → Option Attempt
  | .began time call => some ⟨time, call, []⟩
  | .landed _ _ => none
  | notice => attempt.map fun attempt => { attempt with during := attempt.during ++ [notice] }

/-- An attempt with what was noticed further. -/
def hear (attempt : Attempt) (notices : List Notice) : Attempt :=
  { attempt with during := attempt.during ++ notices }

/-- The call after all that it has heard. -/
def inFlight (attempt : Attempt) : Call := attempt.during.foldl Call.note attempt.call

def frame (attempt : Attempt) : Bytes := attempt.call.invocation.encode

end Attempt

/-- The attempt that is under way. -/
def attempt? (log : List Notice) : Option Attempt := log.foldl Attempt.next none

namespace Notice

/-- A frame with a call that is sent, and when. -/
def call? : Notice → Option (Time × Bytes)
  | .sent time frame => if FrameKind.peek frame = some .method then some (time, frame) else none
  | _ => none

/-- An attempt goes on. -/
def GoesOn : Notice → Prop
  | .began _ _ | .landed _ _ => False
  | .sent _ _ | .received _ | .failed _ => True

end Notice

/-- The frames with calls that are sent. -/
def calls (log : List Notice) : List (Time × Bytes) := log.filterMap Notice.call?

/-! ## Attempts that go on -/

section Logs

variable {log notices : List Notice} {attempt : Attempt}

theorem attempt?_append (log notices : List Notice) :
    attempt? (log ++ notices) = notices.foldl Attempt.next (attempt? log) := List.foldl_append

theorem calls_append (log notices : List Notice) :
    calls (log ++ notices) = calls log ++ calls notices := List.filterMap_append

theorem Attempt.next_of_goesOn {notice : Notice} (goesOn : notice.GoesOn)
    (attempt : Option Attempt) :
    next attempt notice = attempt.map fun attempt => attempt.hear [notice] := by
  cases notice with
  | sent | received | failed => rfl
  | began | landed => exact goesOn.elim

/-- An attempt goes on as long as no other one begins and it does not land. -/
theorem attempt?_append_of_goesOn (log : List Notice) (goOn : ∀ notice ∈ notices, notice.GoesOn) :
    attempt? (log ++ notices) = (attempt? log).map fun attempt => attempt.hear notices := by
  rw [attempt?_append]
  generalize attempt? log = attempt
  induction notices generalizing attempt with
  | nil => cases attempt <;> simp [Attempt.hear]
  | cons notice rest ih =>
      rw [List.foldl_cons, Attempt.next_of_goesOn (goOn notice List.mem_cons_self),
        ih fun other member => goOn other (List.mem_cons_of_mem notice member)]
      cases attempt <;> simp [Attempt.hear]

theorem calls_sent (time : Time) (frame : Bytes) : calls [.sent time frame] =
    if FrameKind.peek frame = some .method then [(time, frame)] else [] := by
  simp only [calls, List.filterMap_cons, Notice.call?, List.filterMap_nil]
  split <;> simp_all

theorem Attempt.inFlight_hear (attempt : Attempt) (notices : List Notice) :
    (attempt.hear notices).inFlight = notices.foldl Call.note attempt.inFlight := List.foldl_append

end Logs

end Session

open Session

/-- A call that hears of something stays the same but for its reply. -/
theorem Call.reset_note (call : Call) (notice : Notice) :
    (call.note notice).reset = call.reset := by
  cases notice with
  | received frame =>
      simp only [note, hear]
      split <;> rfl
  | began | sent | failed | landed => rfl

theorem Call.reset_foldl_note (call : Call) (notices : List Notice) :
    (notices.foldl note call).reset = call.reset := by
  induction notices generalizing call with
  | nil => rfl
  | cons notice rest ih => exact (ih _).trans (call.reset_note notice)

theorem Session.Attempt.reset_inFlight (attempt : Attempt) :
    attempt.inFlight.reset = attempt.call.reset := attempt.call.reset_foldl_note _

namespace Station

variable {station before after : Station} {limit : Nat} {event : Event} {drops : Bool}

/-! ## What is shown -/

/-- Other events show that frames arrive, and nothing else. -/
theorem goesOn_of_shown (station : Station) (others : ∀ drops, event ≠ .send drops) :
    ∀ notice ∈ station.shown event, notice.GoesOn ∧ notice.call? = none := by
  cases event with
  | send drops => exact absurd rfl (others drops)
  | receive =>
      simp only [shown, heard]
      split
      · split <;> simp [Notice.GoesOn, Notice.call?]
      · simp
  | close | conclude | stop | wait | enqueue | serve | share =>
      exact fun _ member => by cases member

theorem calls_of_shown (others : ∀ drops, event ≠ .send drops) :
    calls (station.shown event) = [] :=
  List.filterMap_eq_nil_iff.mpr fun notice member =>
    (station.goesOn_of_shown others notice member).2

theorem goesOn_of_handing (station : Station) (drops : Bool) :
    ∀ notice ∈ station.handing drops, notice.GoesOn := by
  intro notice member
  obtain ⟨frame, _, rfl⟩ := List.mem_map.mp member
  trivial

theorem foldl_note_handing (call : Call) : (station.handing drops).foldl Call.note call = call := by
  rw [handing]
  cases station.handed? drops <;> rfl

theorem calls_handing_of_sendingCall {invocation : Invocation}
    (holds : station.channel.sender = .sendingCall invocation.encode) (drops : Bool) :
    station.handed? drops = none ∧ calls (station.handing drops) = [] ∨
      calls (station.handing drops) = [(station.now, invocation.encode)] := by
  simp only [handing, handed?, holds]
  split
  · exact .inl ⟨rfl, rfl⟩
  · exact .inr ((calls_sent _ _).trans (if_pos invocation.peek_encode))

/-- Other frames have no calls. -/
theorem calls_handing_of_ne (sends : station.channel.SendsWithin limit)
    (others : ∀ frame, station.channel.sender ≠ .sendingCall frame) :
    calls (station.handing drops) = [] := by
  simp only [handing, handed?]
  split
  next frame holds =>
    obtain ⟨reply, rfl⟩ := sends.reply frame holds
    split
    · rfl
    · refine (calls_sent _ _).trans (if_neg ?_)
      rw [reply.peek_frameWithin]
      simp
  next frame holds => exact absurd holds (others frame)
  next => rfl

/-- Between two rounds nothing is handed over. -/
theorem calls_handing_of_rests
    (rests : station.channel.sender = .looking ∨ station.channel.sender = .ended) :
    calls (station.handing drops) = [] := by
  rcases rests with looks | ended
  · simp only [handing, handed?, looks, Option.toList_none, List.map_nil, calls, List.filterMap_nil]
  · simp only [handing, handed?, ended, Option.toList_none, List.map_nil, calls, List.filterMap_nil]

theorem shown_of_stays
    (same : (station.happen (.send drops)).channel.inFlight = station.channel.inFlight) :
    station.shown (.send drops) = station.handing drops := by
  rw [shown, turned, same]
  split
  next idle flies => cases idle.symm.trans flies
  next flies idle => cases flies.symm.trans idle
  next => exact List.append_nil _

theorem shown_of_lands {call : Call} {reply : Reply} (flying : station.channel.inFlight = some call)
    (found : station.replyInFlight call = some reply)
    (idle : (station.happen (.send drops)).channel.inFlight = none) :
    station.shown (.send drops) = station.handing drops ++ [.landed station.now reply] := by
  simp only [shown, turned, flying, idle, found, Option.toList_some, List.map_cons, List.map_nil]

theorem shown_of_begins {call : Call} {worked : Bool}
    (peeks : station.channel.sender = .peeking worked) (idle : station.channel.inFlight = none)
    (flies : (station.happen (.send drops)).channel.inFlight = some call) :
    station.shown (.send drops) = [.began station.now call] := by
  simp only [shown, handing, handed?, peeks, turned, idle, flies, Option.toList_none, List.map_nil,
    List.nil_append]

/-- A call lands with a reply in a step of the sending activity. -/
structure Lands (station : Station) (drops : Bool) (call : Call) (reply : Reply) : Prop where
  flying : station.channel.inFlight = some call
  found : station.replyInFlight call = some reply
  shown : station.shown (.send drops) =
    station.handing drops ++ [.landed station.now reply]
  /-- The reply decides what the channel does next. -/
  next : if reply.isRetryableFailure && call.isRetryable then
      station.pause.Readies (station.happen (.send drops))
    else (station.happen (.send drops)).channel = (station.land call reply).channel

/-! ## What the sending activity has in hand -/

/-- What the sending activity is about to do fits what is in flight. -/
structure InOrder (station : Station) : Prop where
  peeking : ∀ worked, station.channel.sender = .peeking worked →
    station.channel.inFlight = none ∧ station.isPaused = false
  sendingCall : ∀ frame, station.channel.sender = .sendingCall frame →
    ∃ call, station.channel.inFlight = some call ∧ frame = call.invocation.encode

theorem IsReady.ne_sendingCall (isReady : station.IsReady) (frame : Bytes) :
    station.channel.sender ≠ .sendingCall frame := by
  intro holds
  cases isReady with
  | idle isIdle =>
      rw [holds] at isIdle
      exact isIdle
  | peeks peeks => cases peeks.symm.trans holds

theorem IsReady.inOrder (isReady : station.IsReady) : station.InOrder where
  peeking worked peeks := by
    cases isReady with
    | idle isIdle =>
        rw [peeks] at isIdle
        exact isIdle.elim
    | peeks _ idle unpaused => exact ⟨idle, unpaused⟩
  sendingCall frame holds := absurd holds (isReady.ne_sendingCall frame)

theorem Flight.inOrder (flight : before.Flight after) : after.InOrder := by
  cases flight with
  | stays readies => exact readies.isReady.inOrder
  | retries _ _ _ _ readies => exact readies.isReady.inOrder
  | finishes _ _ _ lands =>
      constructor
      · intro worked peeks
        rw [lands] at peeks
        cases peeks
      · intro frame holds
        rw [lands] at holds
        cases holds
  | begins _ _ _ flies sender =>
      constructor
      · exact fun worked peeks => by cases sender.symm.trans peeks
      · intro frame holds
        cases sender.symm.trans holds
        exact ⟨_, flies, rfl⟩
  | refuses _ _ _ _ sender =>
      constructor
      · exact fun worked peeks => by cases sender.symm.trans peeks
      · exact fun frame holds => by cases sender.symm.trans holds

theorem isPaused_eq_false_iff : station.isPaused = false ↔
    ∀ wake, station.channel.pausedUntil = some wake → wake ≤ station.now := by
  rw [isPaused, Option.any_eq_false]
  simp only [decide_eq_false_iff_not, Nat.not_lt]

/-- A pause that is over stays over. -/
theorem Spares.isPaused (spares : before.Spares after) (unpaused : before.isPaused = false) :
    after.isPaused = false := by
  rw [isPaused_eq_false_iff, spares.pausedUntil]
  intro wake paused
  exact Nat.le_trans (isPaused_eq_false_iff.mp unpaused wake paused) spares.now

theorem InOrder.happen (inOrder : station.InOrder) (event : Event) :
    (station.happen event).InOrder := by
  rcases event.sends_or_others with ⟨drops, rfl⟩ | others
  · exact (station.flight_send drops).inOrder
  · have spares := station.spares_happen others
    have inFlight := station.inFlight_happen others
    constructor
    · intro worked peeks
      rw [spares.sender] at peeks
      obtain ⟨idle, unpaused⟩ := inOrder.peeking worked peeks
      rw [inFlight, idle]
      exact ⟨rfl, spares.isPaused unpaused⟩
    · intro frame holds
      rw [spares.sender] at holds
      obtain ⟨call, flying, rfl⟩ := inOrder.sendingCall frame holds
      rw [inFlight, flying]
      refine ⟨_, rfl, ?_⟩
      rw [Call.invocation_eq_of_reset_eq (call.reset_foldl_note _)]

/-- What an attempt lands with is the reply of the call in flight. -/
theorem exists_lands (inOrder : station.InOrder) {time : Time} {reply : Reply}
    (landed : .landed time reply ∈ station.shown event) :
    ∃ drops call, event = .send drops ∧ time = station.now ∧ station.Lands drops call reply := by
  rcases event.sends_or_others with ⟨drops, rfl⟩ | others
  · cases station.flight_send drops with
    | stays readies =>
        rw [shown_of_stays readies.inFlight] at landed
        exact (station.goesOn_of_handing drops _ landed).elim
    | @retries call _ flying found fails again readies =>
        have shown := shown_of_lands flying found readies.inFlight
        rw [shown, List.mem_append, List.mem_singleton] at landed
        cases landed.resolve_left fun handed => station.goesOn_of_handing drops _ handed
        refine ⟨drops, call, rfl, rfl, flying, found, shown, ?_⟩
        rw [fails, again]
        exact readies
    | @finishes call _ flying found settled lands =>
        have shown := shown_of_lands flying found (congrArg Channel.inFlight lands)
        rw [shown, List.mem_append, List.mem_singleton] at landed
        cases landed.resolve_left fun handed => station.goesOn_of_handing drops _ handed
        refine ⟨drops, call, rfl, rfl, flying, found, shown, ?_⟩
        rw [settled]
        exact lands
    | begins peeks _ _ flies _ | refuses peeks _ _ flies _ =>
        rw [shown_of_begins peeks (inOrder.peeking _ peeks).1 flies] at landed
        simp at landed
  · exact (station.goesOn_of_shown others _ landed).1.elim

theorem sendsWithin_happen (isLimit : station.link.maxFrameLength = limit)
    (sends : station.channel.SendsWithin limit) (event : Event) :
    (station.happen event).channel.SendsWithin limit := by
  by_cases own : event.isOwn = true
  · obtain ⟨told, turn⟩ := station.turn_happen own
    exact (turn.sendsWithin isLimit sends).1
  · cases event with
    | send | receive | close => exact absurd rfl own
    | stop => exact sends.stop
    | conclude | wait | enqueue | serve | share => exact sends.of_eq rfl rfl

theorem limit_happen (event : Event) :
    (station.happen event).link.maxFrameLength = station.link.maxFrameLength := by
  rcases event.sends_or_others with ⟨drops, rfl⟩ | others
  · obtain ⟨told, turn⟩ := station.turn_send drops
    exact turn.keeps.limit
  · exact (station.spares_happen others).limit

theorem settings_happen (event : Event) : (station.happen event).settings = station.settings := by
  rcases event.sends_or_others with ⟨drops, rfl⟩ | others
  · obtain ⟨told, turn⟩ := station.turn_send drops
    exact turn.settings
  · exact (station.spares_happen others).settings

end Station

namespace Session

open Station

variable {limit : Nat} {settings : Settings} {station : Station} {attempt : Attempt}

/-- How far an attempt has come with its frame. -/
inductive Carries (limit : Nat) (station : Station) (attempt : Attempt) : Prop where
  | ready : station.channel.sender = .sendingCall attempt.frame → calls attempt.during = [] →
      Carries limit station attempt
  | refused : limit < attempt.frame.length → calls attempt.during = [] →
      Carries limit station attempt
  | sent {time : Time} : attempt.frame.length ≤ limit →
      calls attempt.during = [(time, attempt.frame)] →
      (∀ frame, station.channel.sender ≠ .sendingCall frame) → Carries limit station attempt
  /-- The channel is stopped, and has not sent the frame. -/
  | dropped : calls attempt.during = [] → station.channel.isStopped = true →
      (station.channel.sender = .looking ∨ station.channel.sender = .ended) →
      Carries limit station attempt

/-- A session whose log tells which attempt is under way. -/
structure Tracks (limit : Nat) (settings : Settings) (session : Session) : Prop where
  isLimit : session.station.link.maxFrameLength = limit
  hasSettings : session.station.settings = settings
  sends : session.station.channel.SendsWithin limit
  inOrder : session.station.InOrder
  inFlight : session.station.channel.inFlight = (attempt? session.log).map Attempt.inFlight
  carries : ∀ attempt, attempt? session.log = some attempt →
    Carries limit session.station attempt

theorem Carries.others {event : Event} (carries : Carries limit station attempt)
    (others : ∀ drops, event ≠ .send drops) :
    Carries limit (station.happen event) (attempt.hear (station.shown event)) := by
  have spares := station.spares_happen others
  have same : calls (attempt.hear (station.shown event)).during = calls attempt.during := by
    rw [Attempt.hear, calls_append, calls_of_shown others, List.append_nil]
  cases carries with
  | ready holds unsent => exact .ready (spares.sender.trans holds) (same.trans unsent)
  | refused long unsent => exact .refused long (same.trans unsent)
  | sent fits sent others =>
      refine .sent fits (same.trans sent) ?_
      rw [spares.sender]
      exact others
  | dropped unsent stopped rests =>
      refine .dropped (same.trans unsent) (spares.isStopped stopped) ?_
      rw [spares.sender]
      exact rests

/-- A frame that is too long is not handed to the link. -/
theorem calls_handing_of_long {drops : Bool} (sends : station.channel.SendsWithin limit)
    (inOrder : station.InOrder) (flying : station.channel.inFlight = some attempt.inFlight)
    (long : limit < attempt.frame.length) : calls (station.handing drops) = [] := by
  apply calls_handing_of_ne sends
  intro frame holds
  obtain ⟨call, flies, rfl⟩ := inOrder.sendingCall frame holds
  cases flying.symm.trans flies
  have fits := sends.call _ holds
  rw [Call.invocation_eq_of_reset_eq attempt.reset_inFlight] at fits
  exact absurd fits (Nat.not_le.mpr long)

theorem Carries.unsent_of_long (carries : Carries limit station attempt)
    (sends : station.channel.SendsWithin limit) (long : limit < attempt.frame.length) :
    calls attempt.during = [] := by
  cases carries with
  | ready holds _ => exact absurd (sends.call _ holds) (Nat.not_le.mpr long)
  | sent fits => exact absurd fits (Nat.not_le.mpr long)
  | refused _ unsent | dropped unsent => exact unsent

/-- A step of the sending activity in which the attempt goes on. -/
theorem Carries.send {drops : Bool} (carries : Carries limit station attempt)
    (sends : station.channel.SendsWithin limit) (inOrder : station.InOrder)
    (flying : station.channel.inFlight = some attempt.inFlight)
    (isReady : (station.happen (.send drops)).IsReady) :
    Carries limit (station.happen (.send drops)) (attempt.hear (station.handing drops)) := by
  have all : calls (attempt.hear (station.handing drops)).during =
      calls attempt.during ++ calls (station.handing drops) := calls_append _ _
  cases carries with
  | ready holds unsent =>
      rw [unsent, List.nil_append] at all
      rcases calls_handing_of_sendingCall holds drops with ⟨drop, none⟩ | handed
      · obtain ⟨looks, stopped⟩ := happen_of_dropped holds drop
        refine .dropped (all.trans none) ?_ ?_ <;> rw [looks]
        · exact stopped
        · exact .inl rfl
      · exact .sent (sends.call _ holds) (all.trans handed) isReady.ne_sendingCall
  | refused long unsent =>
      refine .refused long ?_
      rw [all, unsent, calls_handing_of_long sends inOrder flying long]
      rfl
  | sent fits sent others =>
      rw [sent, calls_handing_of_ne sends others, List.append_nil] at all
      exact .sent fits all isReady.ne_sendingCall
  | dropped unsent stopped rests =>
      rw [unsent, calls_handing_of_rests rests, List.append_nil] at all
      obtain ⟨ended, stops, _⟩ := happen_of_stopped stopped rests drops
      exact .dropped all stops (.inr ended)

/-- An attempt that begins, and has not sent anything. -/
theorem attempt?_began (log : List Notice) (time : Time) (call : Call) :
    attempt? (log ++ [.began time call]) = some ⟨time, call, []⟩ := by
  rw [attempt?_append]
  rfl

theorem attempt?_landed (log : List Notice) (time : Time) (reply : Reply) :
    attempt? (log ++ [.landed time reply]) = none := by
  rw [attempt?_append]
  rfl

/-- An attempt that lands is over. -/
theorem attempt?_handing_landed (log : List Notice) (station : Station) (drops : Bool)
    (reply : Reply) :
    attempt? (log ++ (station.handing drops ++ [.landed station.now reply])) = none := by
  rw [← List.append_assoc, attempt?_landed]

namespace Tracks

variable {session : Session}

theorem fresh (station : Station) :
    Tracks station.link.maxFrameLength station.settings (fresh station) where
  isLimit := rfl
  hasSettings := rfl
  sends := .start _ _ _
  inOrder := IsReady.inOrder (.idle trivial)
  inFlight := rfl
  carries attempt isUnder := by cases isUnder

section Step

variable (tracks : Tracks limit settings session)
include tracks

theorem others {event : Event} (others : ∀ drops, event ≠ .send drops) :
    (session.happen event).station.channel.inFlight =
        (attempt? (session.happen event).log).map Attempt.inFlight ∧
      ∀ attempt, attempt? (session.happen event).log = some attempt →
        Carries limit (session.happen event).station attempt := by
  have goOn := attempt?_append_of_goesOn session.log fun notice member =>
    (session.station.goesOn_of_shown others notice member).1
  constructor
  · change (session.station.happen event).channel.inFlight = _
    rw [session.station.inFlight_happen others, tracks.inFlight, Session.happen, goOn,
      Option.map_map, Option.map_map]
    congr 1
    funext attempt
    exact (attempt.inFlight_hear _).symm
  · intro attempt isUnder
    rw [Session.happen, goOn, Option.map_eq_some_iff] at isUnder
    obtain ⟨former, wasUnder, rfl⟩ := isUnder
    exact (tracks.carries former wasUnder).others others

theorem send (drops : Bool) :
    (session.happen (.send drops)).station.channel.inFlight =
        (attempt? (session.happen (.send drops)).log).map Attempt.inFlight ∧
      ∀ attempt, attempt? (session.happen (.send drops)).log = some attempt →
        Carries limit (session.happen (.send drops)).station attempt := by
  change (session.station.happen _).channel.inFlight =
    (attempt? (session.log ++ session.station.shown _)).map _ ∧
    ∀ attempt, attempt? (session.log ++ session.station.shown _) = some attempt → _
  cases session.station.flight_send drops with
  | stays readies =>
      rw [shown_of_stays readies.inFlight,
        attempt?_append_of_goesOn session.log (session.station.goesOn_of_handing drops),
        readies.inFlight, tracks.inFlight, Option.map_map]
      constructor
      · congr 1
        funext attempt
        rw [Function.comp_apply, attempt.inFlight_hear, foldl_note_handing]
      · intro attempt isUnder
        obtain ⟨former, wasUnder, rfl⟩ := Option.map_eq_some_iff.mp isUnder
        refine (tracks.carries former wasUnder).send tracks.sends tracks.inOrder ?_ readies.isReady
        rw [tracks.inFlight, wasUnder, Option.map_some]
  | retries flying found _ _ readies =>
      rw [shown_of_lands flying found readies.inFlight, attempt?_handing_landed]
      exact ⟨readies.inFlight, fun _ isUnder => by cases isUnder⟩
  | finishes flying found _ lands =>
      have idle := congrArg Channel.inFlight lands
      rw [shown_of_lands flying found idle, attempt?_handing_landed]
      exact ⟨idle, fun _ isUnder => by cases isUnder⟩
  | begins peeks _ fits flies holds =>
      rw [shown_of_begins peeks (tracks.inOrder.peeking _ peeks).1 flies, attempt?_began]
      refine ⟨flies, fun attempt isUnder => ?_⟩
      cases isUnder
      exact .ready holds rfl
  | refuses peeks _ long flies looks =>
      rw [shown_of_begins peeks (tracks.inOrder.peeking _ peeks).1 flies, attempt?_began]
      refine ⟨flies, fun attempt isUnder => ?_⟩
      cases isUnder
      rw [tracks.isLimit] at long
      exact .refused long rfl

theorem happen (event : Event) : Tracks limit settings (session.happen event) := by
  have follows : (session.happen event).station.channel.inFlight =
        (attempt? (session.happen event).log).map Attempt.inFlight ∧
      ∀ attempt, attempt? (session.happen event).log = some attempt →
        Carries limit (session.happen event).station attempt := by
    rcases event.sends_or_others with ⟨drops, rfl⟩ | others
    · exact tracks.send drops
    · exact tracks.others others
  exact {
    isLimit := (limit_happen event).trans tracks.isLimit
    hasSettings := (settings_happen event).trans tracks.hasSettings
    sends := sendsWithin_happen tracks.isLimit tracks.sends event
    inOrder := tracks.inOrder.happen event
    inFlight := follows.1
    carries := follows.2 }

theorem run (events : List Event) : Tracks limit settings (session.run events) := by
  induction events generalizing session with
  | nil => exact tracks
  | cons event rest ih => exact ih (tracks.happen event)

end Step

end Tracks

end Session

end PeerCalls
