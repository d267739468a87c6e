import PeerCalls.Proofs.Pair.Station

/-!
# A turn keeps a station justified

Each change of a station is looked at once. Only an invocation that arrives changes
the answers, and then the history learns it; a reply is given to a waiter when the
call in flight leaves the queue, and an execution that is over is recorded.
-/

namespace PeerCalls

variable {history : History}

/-- The frame of a reply is one of a reply that was given, if the link takes it. -/
theorem History.Answered.replyFrame {side : Side} {reply : Reply}
    (answered : history.Answered side.other reply) (station : Station) :
    history.AtStage side station.link.maxFrameLength
      (.sendingReply (station.replyFrame reply)) := by
  intro fits
  simp only [Station.replyFrame] at fits ⊢
  split
  next => exact ⟨reply, answered, rfl⟩
  next long =>
    rw [if_neg long] at fits
    exact ⟨_, answered.instead (Nat.lt_of_not_le long) fits, rfl⟩

namespace Station

namespace Justified

variable {station : Station}

/-! ## Parts of a station -/

theorem setLink (justified : station.Justified history) {link : Link}
    (limit : link.maxFrameLength = station.link.maxFrameLength) (carries : link.Justified history) :
    Station.Justified history { station with link } where
  channel := limit ▸ justified.channel
  outbox := justified.outbox
  answers := justified.answers
  link := carries
  calls := justified.calls

theorem loses (justified : station.Justified history) {link : Link}
    (loses : station.link.Loses link) : Station.Justified history { station with link } :=
  justified.setLink loses.limit
    ⟨loses.limit ▸ justified.link.limit, fun side frame member =>
      justified.link.frames side frame (loses.frames member)⟩

theorem setChannel (justified : station.Justified history) {channel : Channel}
    (side : channel.side = station.channel.side)
    (holds : channel.Justified history station.link.maxFrameLength) :
    Station.Justified history { station with channel } where
  channel := holds
  outbox := side ▸ justified.outbox
  answers := side ▸ justified.answers
  link := justified.link
  calls := justified.calls

theorem sendAt (justified : station.Justified history) {stage : SendStage}
    (holds : history.AtStage station.channel.side station.link.maxFrameLength stage) :
    (station.sendAt stage).Justified history :=
  justified.setChannel rfl
    ⟨justified.channel.inFlight, justified.channel.reply, holds, justified.channel.outbound⟩

theorem endSending (justified : station.Justified history) :
    station.endSending.Justified history :=
  justified.setChannel rfl
    ⟨justified.channel.inFlight, justified.channel.reply, trivial, justified.channel.outbound⟩

theorem endReceiving (justified : station.Justified history) :
    station.endReceiving.Justified history :=
  justified.setChannel rfl
    ⟨justified.channel.inFlight, justified.channel.reply, justified.channel.sender,
      justified.channel.outbound⟩

/-- What is in flight is replaced. -/
theorem setInFlight (justified : station.Justified history) {inFlight : Option Call}
    {pausedUntil : Option Time}
    (issued : ∀ call, inFlight = some call → history.Issued station.channel.side call)
    (replied : ∀ call reply, inFlight = some call → call.reply = some reply →
      history.Ends station.channel.side call reply) :
    Station.Justified history
      { station with channel := { station.channel with inFlight, pausedUntil } } :=
  justified.setChannel rfl ⟨issued, replied, justified.channel.sender, justified.channel.outbound⟩

/-- A signal is set or taken. -/
theorem setSignal (justified : station.Justified history) (isSignaled : Bool) :
    Station.Justified history { station with outbox := { station.outbox with isSignaled } } where
  channel := justified.channel
  outbox := ⟨justified.outbox.queue, justified.outbox.waiters, justified.outbox.replies⟩
  answers := justified.answers
  link := justified.link
  calls := justified.calls

theorem pushReply (justified : station.Justified history) {reply : Reply}
    (answered : history.Answered station.channel.side.other reply) :
    (station.pushReply reply).Justified history := by
  have pushed : Station.Justified history { station with channel :=
      { station.channel with outbound := station.channel.outbound ++ [reply] } } := by
    refine justified.setChannel rfl ⟨justified.channel.inFlight, justified.channel.reply,
      justified.channel.sender, ?_⟩
    intro other member
    rcases List.mem_append.mp member with old | new
    · exact justified.channel.outbound other old
    · cases List.mem_singleton.mp new
      exact answered
  exact pushed.setSignal true

/-- A station whose answers have learned something is justified by what the history
then is. -/
theorem learn (justified : station.Justified history) {answers : Answers}
    (learns : ∀ id, station.answers.IsOver id → answers.IsOver id)
    (replies : ∀ reply ∈ answers.replies,
      (history.learn station.channel.side answers).Answered station.channel.side.other reply) :
    Station.Justified (history.learn station.channel.side answers) { station with answers } := by
  have continues : history.Continues (history.learn station.channel.side answers) :=
    History.continues_learn fun id isOver => learns id (justified.answers.same ▸ isOver)
  exact {
    channel := continues.channel justified.channel
    outbox := continues.outbox justified.outbox rfl
    answers := ⟨History.answers_learn_self answers, replies⟩
    link := continues.link justified.link
    calls := justified.calls }

/-! ## Replies in flight -/

/-- The reply of the call in flight: one that has arrived, or a timeout. -/
theorem replyInFlight (justified : station.Justified history) {call : Call} {reply : Reply}
    (flying : station.channel.inFlight = some call)
    (found : station.replyInFlight call = some reply) :
    history.Ends station.channel.side call reply := by
  simp only [Station.replyInFlight] at found
  split at found
  next arrived replied =>
    cases found
    exact justified.channel.reply call reply flying replied
  next =>
    split at found
    next =>
      split at found
      · cases found
        exact ⟨rfl, Or.inr (Or.inl rfl)⟩
      · cases found
    next => cases found

/-- A frame in the hands of a channel may arrive at the other end. -/
theorem hand (justified : station.Justified history) {frame : Bytes} {link : Link}
    (holds : station.Holds frame)
    (takes : station.link.Takes station.channel.side frame link) :
    Station.Justified history { station with link } := by
  apply justified.setLink takes.limit
  refine ⟨takes.limit ▸ justified.link.limit, ?_⟩
  intro side content member
  rcases takes.frames member with old | ⟨rfl, rfl⟩
  · exact justified.link.frames side content old
  · have sender := justified.channel.sender
    rcases holds with stage | stage <;> rw [stage] at sender
    · exact Or.inr (sender takes.fits)
    · obtain ⟨call, due, equal⟩ := sender
      left
      rw [Side.other_other]
      exact ⟨call, due, ⟨_, justified.link.limit, equal ▸ takes.fits⟩, equal⟩

/-- The call in flight has ended, and leaves the queue. -/
theorem dequeue (justified : station.Justified history) {call : Call} {reply : Reply}
    {taken : Option Call} {queue : Queue} {backlog : Option Backlog}
    (ended : station.channel.sender = .dequeuing call reply)
    (dequeued : station.outbox.queue.dequeueIfHead station.backlog call.id =
      (.ok taken, queue, backlog)) :
    Outbox.Justified history station.channel.side
      ({ station.outbox with queue }.complete reply).2 := by
  have stage := justified.channel.sender
  rw [ended] at stage
  obtain ⟨issued, ends, isLast⟩ := stage
  have changes := station.outbox.waiters.changes_complete reply
  refine ⟨?_, justified.outbox.waiters.changes changes, ?_⟩
  · obtain ⟨removed, equal, settled⟩ := justified.outbox.queue
    have result := station.outbox.queue.dequeueIfHead_cases station.backlog call.id
    rw [dequeued] at result
    cases result with
    | @taken head rest _ isHead sameId =>
        refine ⟨removed ++ [head], by rw [equal, isHead, List.append_assoc]; rfl, ?_⟩
        intro other member
        rcases List.mem_append.mp member with old | new
        · exact settled other old
        · rw [List.mem_singleton.mp new, sameId]
          exact ends.settled issued isLast
    | mismatch => exact ⟨removed, equal, settled⟩
  · intro number given resolved
    rcases changes.resolved resolved with old | ⟨new, _⟩
    · exact justified.outbox.replies number given old
    · cases new
      exact ⟨call, issued, ends⟩

/-- The head of the queue is due. -/
theorem head (justified : station.Justified history) {call : Call}
    (isHead : station.outbox.queue.peek = some call) :
    call ∈ history.calls station.channel.side ∧ history.Due station.channel.side call := by
  obtain ⟨removed, equal, settled⟩ := justified.outbox.queue
  obtain ⟨rest, isCons⟩ : ∃ rest, station.outbox.queue.calls = call :: rest :=
    List.head?_eq_some_iff.mp isHead
  rw [isCons] at equal
  exact ⟨by simp [equal], removed, rest, equal, settled⟩

end Justified

/-! ## All changes -/

/-- What an activity makes of a station and of the history, and what it reports, is
justified. -/
structure Advances (history : History) (before after : Station) (told : List Report) : Prop where
  justified : after.Justified (history.learn before.channel.side after.answers)
  continues : history.Continues (history.learn before.channel.side after.answers)
  told : ∀ report ∈ told,
    report.Justified (history.learn before.channel.side after.answers) before.channel.side

variable {before after station : Station} {told : List Report}

/-- Answers that stay as they are teach nothing. -/
theorem Justified.advances (justified : before.Justified history)
    (answers : after.answers = before.answers) (holds : after.Justified history)
    (reports : ∀ report ∈ told, report.Justified history before.channel.side) :
    Advances history before after told := by
  have same := History.learn_eq_self (justified.answers.same.trans answers.symm)
  constructor
  · rw [same]
    exact holds
  · rw [same]
    exact .refl history
  · rw [same]
    exact reports

/-- Answers that stay as they are teach nothing, and there is nothing to report. -/
theorem Justified.advances_silently (justified : before.Justified history)
    (answers : after.answers = before.answers) (holds : after.Justified history) :
    Advances history before after [] :=
  justified.advances answers holds (by simp)

theorem Answered.advances {invocation : Invocation} (justified : station.Justified history)
    (asked : Report.Justified history station.channel.side (.execute invocation))
    (answered : Answered station invocation after told) :
    Advances history station after told := by
  cases answered with
  | execute unknown =>
      have learns : ∀ id, station.answers.IsOver id →
          Answers.IsOver { station.answers with
            executing := invocation.id :: station.answers.executing } id := by
        intro id isOver
        refine ⟨?_, isOver.2⟩
        rw [List.mem_cons, not_or]
        refine ⟨?_, isOver.1⟩
        rintro rfl
        exact unknown isOver.isKnown
      have continues := History.continues_learn fun id isOver =>
        learns id (justified.answers.same ▸ isOver)
      refine ⟨?_, continues, ?_⟩
      · apply justified.learn learns
        exact fun reply member => continues.answered (justified.answers.replies reply member)
      · intro report member
        cases List.mem_singleton.mp member
        exact continues.report asked
  | inProgress running => exact justified.advances_silently rfl justified
  | cached idle kept same =>
      exact justified.advances_silently rfl
        (justified.pushReply (justified.answers.replies _ kept))
  | obsolete idle forgotten =>
      have fits : (Bytes.ofText "").length ≤ Invocation.maxFieldLength := by decide
      refine justified.advances_silently rfl (justified.pushReply ⟨?_, fits, rfl⟩)
      rw [Side.other_other, justified.answers.same]
      exact ⟨idle, Or.inr forgotten⟩

/-- Every change keeps a station justified. -/
theorem Change.advances (change : Change before after told)
    (justified : before.Justified history) : Advances history before after told := by
  cases change with
  | hear => exact justified.advances_silently rfl (justified.setSignal false)
  | hand holds sent =>
      exact justified.advances_silently rfl (justified.hand holds (Link.takes_of_send sent))
  | handFails _ failed =>
      exact justified.advances_silently rfl
        (justified.loses (Link.loses_of_send_error failed)).endSending
  | endSending _ => exact justified.advances_silently rfl justified.endSending
  | goOn _ | wait _ | peek _ _ =>
      exact justified.advances_silently rfl (justified.sendAt trivial)
  | @takeReply reply others _ waiting =>
      have answered : history.Answered before.channel.side.other reply := by
        apply justified.channel.outbound
        rw [waiting]
        exact List.mem_cons_self
      have taken : Station.Justified history
          { before with channel := { before.channel with outbound := others } } := by
        refine justified.setChannel rfl ⟨justified.channel.inFlight, justified.channel.reply,
          justified.channel.sender, ?_⟩
        intro other member
        apply justified.channel.outbound
        rw [waiting]
        exact List.mem_cons_of_mem reply member
      exact justified.advances_silently rfl (taken.sendAt (answered.replyFrame before))
  | retry _ _ _ _ _ =>
      exact justified.advances_silently rfl
        (justified.setInFlight (fun _ flying => by cases flying) fun _ _ flying => by cases flying)
  | @finish call reply _ flying found isLast =>
      have landed : Station.Justified history
          { before with channel := { before.channel with inFlight := none } } :=
        justified.setInFlight (fun _ flying => by cases flying) fun _ _ flying => by cases flying
      have issued := (justified.channel.inFlight call flying).reset_eq rfl
      have ends := justified.replyInFlight flying found
      exact justified.advances_silently rfl (landed.sendAt ⟨issued, ⟨ends.id, ends.cause⟩, isLast⟩)
  | @dequeue call reply _ _ _ ended dequeued =>
      have stage := justified.channel.sender
      rw [ended] at stage
      refine justified.advances rfl ?_ ?_
      · exact {
          channel := ⟨justified.channel.inFlight, justified.channel.reply, trivial,
            justified.channel.outbound⟩
          outbox := justified.dequeue ended dequeued
          answers := justified.answers
          link := justified.link
          calls := justified.calls }
      · intro report member
        cases List.mem_singleton.mp member
        exact ⟨stage.1, stage.2.1⟩
  | @dequeueFails call reply fault queue backlog _ failed =>
      have result := before.outbox.queue.dequeueIfHead_cases before.backlog call.id
      rw [failed] at result
      cases result
      have kept : Station.Justified history { before with backlog } := ⟨justified.channel,
        justified.outbox, justified.answers, justified.link, justified.calls⟩
      exact justified.advances_silently rfl kept.endSending
  | @takeHead head _ _ isHead fits =>
      obtain ⟨member, due⟩ := justified.head isHead
      have taken : Station.Justified history { before with channel :=
          { before.channel with
            inFlight := some (head.start before.now), pausedUntil := none } } := by
        apply justified.setInFlight
        · intro call flying
          cases flying
          exact ⟨head, member, rfl⟩
        · intro call reply flying replied
          cases flying
          cases (justified.calls _ head member).unanswered.symm.trans replied
      exact justified.advances_silently rfl (taken.sendAt ⟨head, due, rfl⟩)
  | @refuseHead head _ message _ isHead long =>
      obtain ⟨member, due⟩ := justified.head isHead
      refine justified.advances_silently rfl (justified.setInFlight ?_ ?_)
      · intro call flying
        cases flying
        exact ⟨head, member, rfl⟩
      · intro call reply flying replied
        cases flying
        cases replied
        exact ⟨rfl, Or.inr (Or.inr ⟨rfl, _, justified.link.limit, long⟩)⟩
  | endReceiving => exact justified.advances_silently rfl justified.endReceiving
  | foundClosed received =>
      exact justified.advances_silently rfl
        (justified.loses (Link.loses_of_receive received)).endReceiving
  | misread received =>
      exact justified.advances_silently rfl
        (justified.loses (Link.loses_of_receive received)).endReceiving
  | invoked received isMethod decoded answered =>
      have taken := justified.loses (Link.loses_of_receive received)
      have arrives := justified.link.frames _ _ (Link.mem_inbox_of_receive received)
      have advances := answered.advances taken (arrives.call justified.calls isMethod decoded)
      exact ⟨advances.justified, advances.continues, advances.told⟩
  | @attach frame link call received isResult peeked flying unanswered =>
      have taken := justified.loses (Link.loses_of_receive received)
      have arrives := justified.link.frames _ _ (Link.mem_inbox_of_receive received)
      obtain ⟨sameId, answered⟩ := arrives.reply isResult peeked
      have attached : Station.Justified history
          { before with
            link
            channel := { before.channel with
              inFlight := some (call.withReply (replyIn call.id frame)) } } := by
        apply taken.setInFlight
        · intro other attached
          cases attached
          exact (justified.channel.inFlight call flying).reset_eq rfl
        · intro other reply attached replied
          cases attached
          cases replied
          exact ⟨sameId, Or.inl answered⟩
      exact justified.advances_silently rfl (attached.setSignal true)
  | ignore received _ =>
      exact justified.advances_silently rfl (justified.loses (Link.loses_of_receive received))
  | close _ _ _ =>
      have closed := justified.loses (Link.loses_close before.link before.channel.side)
      exact justified.advances_silently rfl (closed.setChannel rfl ⟨justified.channel.inFlight,
        justified.channel.reply, closed.channel.sender, justified.channel.outbound⟩)

/-- Every turn keeps a station justified. -/
theorem Turn.advances {first last : Station} (turn : Turn first last told)
    (justified : first.Justified history) : Advances history first last told := by
  induction turn generalizing history with
  | done => exact justified.advances_silently rfl justified
  | @step first second last told rest change _ ih =>
      have begins := change.advances justified
      have goesOn := ih begins.justified
      have learned : (history.learn first.channel.side second.answers).learn second.channel.side
          last.answers = history.learn first.channel.side last.answers := by
        rw [change.keeps.side, History.learn_learn]
      constructor
      · rw [← learned]
        exact goesOn.justified
      · rw [← learned]
        exact begins.continues.trans goesOn.continues
      · rw [← learned]
        intro report member
        rcases List.mem_append.mp member with early | late
        · exact goesOn.continues.report (begins.told report early)
        · exact change.keeps.side ▸ goesOn.told report late

/-! ## Executions that are over -/

/-- The verdict on an execution is its value, or the failure of a service. -/
theorem verdict_cases (conclusion : Conclusion) :
    (∃ value, conclusion = .value value ∧ conclusion.verdict = .success value) ∨
      ∃ message, conclusion.verdict = .failure .remoteException message := by
  cases conclusion with
  | value content =>
      simp only [Conclusion.verdict]
      split
      · exact Or.inl ⟨content, rfl, rfl⟩
      · exact Or.inr ⟨_, rfl⟩
  | failed message =>
      simp only [Conclusion.verdict]
      split <;> exact Or.inr ⟨_, rfl⟩
  | broken => exact Or.inr ⟨_, rfl⟩

theorem fits_verdict (conclusion : Conclusion) : conclusion.verdict.Fits := by
  cases conclusion with
  | value content =>
      simp only [Conclusion.verdict]
      split
      next fits => exact fits
      next =>
        have fits : (Bytes.ofText "return value is too long").length ≤
            Invocation.maxFieldLength := by decide
        exact fits
  | failed message =>
      simp only [Conclusion.verdict]
      split
      next fits =>
        rw [← Bytes.length_ofText] at fits
        exact fits
      next =>
        have fits : (Bytes.ofText "failure message is too long").length ≤
            Invocation.maxFieldLength := by decide
        exact fits
  | broken =>
      have fits : (Bytes.ofText "method execution panicked").length ≤
          Invocation.maxFieldLength := by decide
      exact fits

/-- The reply to an execution that is over is one that was given, once it is recorded. -/
theorem answered_conclude (station : Station) {call : Call} {conclusion : Conclusion}
    (member : call ∈ history.calls station.channel.side.other)
    (concluded : history.concluded station.channel.side call.invocation conclusion) :
    (history.learn station.channel.side
      (station.answers.record ⟨call.id, conclusion.verdict⟩)).Answered
        station.channel.side.other ⟨call.id, conclusion.verdict⟩ where
  isOver := by
    rw [Side.other_other, History.answers_learn_self]
    exact station.answers.isOver_record_self _
  fits := fits_verdict conclusion
  backed := by
    rw [← Side.other_other station.channel.side] at concluded
    simp only [History.Backs]
    rcases verdict_cases conclusion with ⟨value, rfl, verdict⟩ | ⟨message, verdict⟩
    · rw [verdict]
      exact ⟨call, member, rfl, concluded⟩
    · rw [verdict]
      exact ⟨call, member, rfl, conclusion, concluded⟩

/-- When an execution is over, its reply is recorded and sent. -/
theorem Justified.conclude (justified : station.Justified history) {call : Call}
    {conclusion : Conclusion} (member : call ∈ history.calls station.channel.side.other)
    (concluded : history.concluded station.channel.side call.invocation conclusion) :
    Advances history station (station.concludeStep ⟨call.id, conclusion.verdict⟩) [] := by
  have answered := station.answered_conclude member concluded
  have learns : ∀ id, station.answers.IsOver id →
      (station.answers.record ⟨call.id, conclusion.verdict⟩).IsOver id :=
    fun id isOver => isOver.record _
  have continues := History.continues_learn fun id isOver =>
    learns id (justified.answers.same ▸ isOver)
  refine ⟨?_, continues, by simp⟩
  refine Justified.pushReply (justified.learn learns ?_) answered
  intro reply kept
  rcases Answers.eq_or_mem_of_mem_record kept with rfl | old
  · exact answered
  · exact continues.answered (justified.answers.replies reply old)

end Station

end PeerCalls
