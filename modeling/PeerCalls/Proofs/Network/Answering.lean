import PeerCalls.Proofs.Network.AtMostOnce
import PeerCalls.Proofs.Network.Places

/-!
# Who answers a call

A call that arrives is answered at once, or it is executed and answered when the execution
ends. The answer goes to the channel that asked for the execution. If the same call arrives
at another channel meanwhile, then that channel gets no answer: not at once, because the
call is being executed, and not later, because the answer goes elsewhere. All other calls
are answered by the channels at which they arrive.
-/

namespace PeerCalls

namespace Network

/-- The replies that a channel has yet to send. -/
def outbound (network : Network) (channel : Nat) : List Reply :=
  ((network.channels[channel]?).map (·.channel.outbound)).getD []

/-- The replies that a channel gets to send in a happening. -/
def pushed (network : Network) (happening : Happening) (channel : Nat) : List Reply :=
  ((network.happen happening).outbound channel).drop (network.outbound channel).length

/-- The replies that a channel gets to send in a run. -/
def pushedIn (channel : Nat) : Network → List Happening → List Reply
  | _, [] => []
  | network, happening :: rest =>
      network.pushed happening channel ++ pushedIn channel (network.happen happening) rest

/-- A channel gets to send a reply to the call with an id in a run. -/
def GetsReply (network : Network) (happenings : List Happening) (channel : Nat) (id : UInt64) :
    Prop :=
  ∃ reply ∈ pushedIn channel network happenings, reply.id = id

instance (network : Network) (happenings : List Happening) (channel : Nat) (id : UInt64) :
    Decidable (network.GetsReply happenings channel id) :=
  inferInstanceAs (Decidable (∃ reply ∈ _, _))

/-- The next frame that a channel takes from its link is a call. -/
def Hears (network : Network) (channel : Nat) (invocation : Invocation) : Prop :=
  ∃ station frame link, network.station? channel = some station ∧
    station.channel.receiver = .listening ∧ station.isLinkOpen = true ∧
    station.channel.isStopped = false ∧ station.Receives frame link ∧
    FrameKind.peek frame = some .method ∧ Invocation.decode frame = .ok invocation

/-- No execution is in progress for a cache of answers. -/
def IsIdle (network : Network) (answers : Nat) : Prop :=
  ∀ execution ∈ network.executions, network.worksOn answers execution.channel = false

instance (network : Network) (answers : Nat) : Decidable (network.IsIdle answers) :=
  inferInstanceAs (Decidable (∀ execution ∈ _, _))

/-! ## Executions that are in progress -/

/-- A reply awaits each call that is being executed. -/
structure AwaitsReplies (network : Network) : Prop where
  admits : AdmitsOnce network
  stationed : ∀ execution ∈ network.executions,
    ∃ station, network.station? execution.channel = some station
  executing : ∀ {answers : Nat} {entry : Answers}, network.answers[answers]? = some entry →
    ∀ id ∈ entry.executing, ∃ execution ∈ network.executions,
      execution.invocation.id = id ∧ network.worksOn answers execution.channel = true

end Network

namespace Station

variable {before after first last : Station} {told : List Report}

/-- What is being executed from now on is executed because of a report. -/
theorem Change.executing (change : Change before after told) {id : UInt64}
    (member : id ∈ after.answers.executing) :
    id ∈ before.answers.executing ∨
      ∃ invocation, .execute invocation ∈ told ∧ invocation.id = id := by
  cases change with
  | @invoked _ _ invocation _ _ _ _ _ answered =>
      cases answered with
      | execute _ =>
          rcases List.mem_cons.mp member with rfl | old
          · exact Or.inr ⟨invocation, List.mem_singleton_self _, rfl⟩
          · exact Or.inl old
      | inProgress _ | cached _ _ _ | obsolete _ _ => exact Or.inl member
  | _ => exact Or.inl member

theorem Turn.executing (turn : Turn first last told) {id : UInt64}
    (member : id ∈ last.answers.executing) :
    id ∈ first.answers.executing ∨
      ∃ invocation, .execute invocation ∈ told ∧ invocation.id = id := by
  induction turn with
  | done => exact Or.inl member
  | step change _ ih =>
      rcases ih member with old | ⟨invocation, reported, same⟩
      · rcases change.executing old with older | ⟨invocation, reported, same⟩
        · exact Or.inl older
        · exact Or.inr ⟨invocation, List.mem_append_left _ reported, same⟩
      · exact Or.inr ⟨invocation, List.mem_append_right _ reported, same⟩

end Station

namespace Network

variable {network before after next : Network} {happening : Happening} {execution : Execution}

theorem KeepsPlaces.worksOn (keeps : KeepsPlaces before after) {answers channel : Nat}
    (works : before.worksOn answers channel = true) : after.worksOn answers channel = true := by
  rw [Network.worksOn, Option.any_eq_true] at works ⊢
  obtain ⟨place, found, same⟩ := works
  obtain ⟨later, foundLater, _, sameAnswers, _⟩ := keeps.channels.kept found
  exact ⟨later, foundLater, by rw [sameAnswers]; exact same⟩

/-- An execution goes on, maybe as one that has begun. -/
structure GoesOn (execution later : Execution) : Prop where
  channel : later.channel = execution.channel
  invocation : later.invocation = execution.invocation

/-- An execution has ended, and its channel has the reply. -/
structure IsReplied (execution : Execution) (before after : Network) : Prop where
  pushed : ∃ reply, reply.id = execution.invocation.id ∧
    after.outbound execution.channel = before.outbound execution.channel ++ [reply]
  idle : ∀ {answers : Nat} {entry : Answers}, before.worksOn answers execution.channel = true →
    after.answers[answers]? = some entry → execution.invocation.id ∉ entry.executing

theorem goesOn_of_mem {executions : List Execution} (member : execution ∈ executions) :
    ∃ later ∈ executions, GoesOn execution later :=
  ⟨execution, member, rfl, rfl⟩

/-- An execution that ends is replied to. -/
theorem isReplied_endExecution {conclusion : Conclusion} {station : Station}
    (there : network.station? execution.channel = some station) :
    IsReplied execution network (network.endExecution execution conclusion) := by
  have still : ((network.dropExecution execution.number).note
      (.executed execution.channel execution.invocation conclusion)).station? execution.channel =
        some station := there
  obtain ⟨place, _, _, _, foundStill, _, _, _, rfl⟩ := station?_eq_some_iff.mp still
  have found : network.channels[execution.channel]? = some place := foundStill
  simp only [endExecution, still]
  constructor
  · refine ⟨⟨execution.invocation.id, conclusion.verdict⟩, rfl, ?_⟩
    rw [outbound, channels_setStation _ foundStill, if_pos rfl, outbound, found]
    rfl
  · intro answers entry works foundEntry
    rw [worksOn, found, Option.any_some, beq_iff_eq] at works
    rw [answers_setStation _ foundStill, if_pos works.symm] at foundEntry
    obtain ⟨old, _, rfl⟩ := Option.map_eq_some_iff.mp foundEntry
    simp [Station.concludeStep, Station.pushReply]

/-- The other executions stay as they are. -/
theorem executions_endExecution (numbers : network.HasNumbers)
    (member : execution ∈ network.executions) (conclusion : Conclusion) :
    ∃ left right, network.executions = left ++ execution :: right ∧
      (network.endExecution execution conclusion).executions = left ++ right := by
  obtain ⟨left, right, split, executions⟩ :=
    (finishes_dropExecution numbers member conclusion).executions
  refine ⟨left, right, split, ?_⟩
  rw [← executions, endExecution]
  split
  next => rfl
  next station there =>
    obtain ⟨place, _, _, _, found, _⟩ := station?_eq_some_iff.mp there
    rw [executions_setStation _ found]

section Takes

variable (takes : Takes before happening after) (awake : happening.sleeps = false)
include takes awake

/-- An execution in progress goes on, or it is replied to. -/
theorem Takes.goesOn (awaits : AwaitsReplies before) (member : execution ∈ before.executions) :
    (∃ later ∈ after.executions, GoesOn execution later) ∨ IsReplied execution before after := by
  cases takes with
  | quiet quiet =>
      rw [quiet.executions]
      exact Or.inl (goesOn_of_mem member)
  | @turn _ channel station next found turn =>
      obtain ⟨place, _, _, _, foundPlace, _⟩ := station?_eq_some_iff.mp found
      obtain ⟨fresh, executions, _⟩ := executions_afterStep foundPlace next
      rw [executions]
      exact Or.inl (goesOn_of_mem (List.mem_append_left fresh member))
  | @begin _ begun begunMember ready =>
      have begins := begins_beginExecution awaits.admits.numbers begunMember
        (Array.getElem?_eq_getElem (awaits.admits.pending _ begunMember))
      obtain ⟨left, right, wake, conclusion, split, executions⟩ := begins.executions
      rw [split, List.mem_append, List.mem_cons] at member
      rw [executions]
      rcases member with inLeft | rfl | inRight
      · exact Or.inl (goesOn_of_mem (by simp [inLeft]))
      · exact Or.inl ⟨_, List.mem_append_right _ List.mem_cons_self, rfl, rfl⟩
      · exact Or.inl (goesOn_of_mem (by simp [inRight]))
  | @conclude _ ended wake conclusion endedMember busy =>
      obtain ⟨left, right, split, executions⟩ :=
        executions_endExecution awaits.admits.numbers endedMember conclusion
      obtain ⟨station, there⟩ := awaits.stationed ended endedMember
      rw [split, List.mem_append, List.mem_cons] at member
      rw [executions]
      rcases member with inLeft | rfl | inRight
      · exact Or.inl (goesOn_of_mem (List.mem_append_left right inLeft))
      · exact Or.inr (isReplied_endExecution there)
      · exact Or.inl (goesOn_of_mem (List.mem_append_right left inRight))
  | accept accepts =>
      rw [accepts.executions]
      exact Or.inl (goesOn_of_mem member)
  | handle _ =>
      rw [setBacklog_eq]
      exact Or.inl (goesOn_of_mem member)
  | sleep => cases awake

/-- Whatever is executed was executed before, or its channel has all that it works on. -/
theorem Takes.stationed (awaits : AwaitsReplies before) :
    ∀ execution ∈ after.executions,
      ∃ station, before.station? execution.channel = some station := by
  cases takes with
  | quiet quiet =>
      rw [quiet.executions]
      exact awaits.stationed
  | @turn _ channel station next found turn =>
      obtain ⟨place, _, _, _, foundPlace, _⟩ := station?_eq_some_iff.mp found
      obtain ⟨fresh, executions, begun⟩ := executions_afterStep foundPlace next
      intro execution member
      rw [executions, List.mem_append] at member
      rcases member with old | new
      · exact awaits.stationed execution old
      · rw [begun.channel execution new]
        exact ⟨station, found⟩
  | @begin _ begun begunMember ready =>
      have begins := begins_beginExecution awaits.admits.numbers begunMember
        (Array.getElem?_eq_getElem (awaits.admits.pending _ begunMember))
      obtain ⟨left, right, wake, conclusion, split, executions⟩ := begins.executions
      intro execution member
      rw [executions, List.mem_append, List.mem_cons] at member
      rcases member with inLeft | rfl | inRight
      · exact awaits.stationed execution (by simp [split, inLeft])
      · exact awaits.stationed begun begunMember
      · exact awaits.stationed execution (by simp [split, inRight])
  | @conclude _ ended wake conclusion endedMember busy =>
      obtain ⟨left, right, split, executions⟩ :=
        executions_endExecution awaits.admits.numbers endedMember conclusion
      intro execution member
      rw [executions, List.mem_append] at member
      apply awaits.stationed
      rw [split]
      simp only [List.mem_append, List.mem_cons]
      tauto
  | accept accepts =>
      rw [accepts.executions]
      exact awaits.stationed
  | handle _ =>
      rw [setBacklog_eq]
      exact awaits.stationed
  | sleep => cases awake

/-- What is being executed was being executed before, or an execution is in progress. -/
theorem Takes.executing {answers : Nat} {entry : Answers} {id : UInt64}
    (found : after.answers[answers]? = some entry) (member : id ∈ entry.executing) :
    (∃ old, before.answers[answers]? = some old ∧ id ∈ old.executing) ∨
      ∃ execution ∈ after.executions, execution.invocation.id = id ∧
        after.worksOn answers execution.channel = true := by
  cases takes with
  | quiet quiet =>
      rcases quiet.answers.cases found with ⟨old, foundOld, rfl⟩ | ⟨_, capacity, rfl⟩
      · exact Or.inl ⟨old, foundOld, member⟩
      · cases member
  | @turn _ channel station next there turn =>
      obtain ⟨place, _, old, _, foundPlace, _, foundOld, _, rfl⟩ := station?_eq_some_iff.mp there
      have reported := reported_afterStep before channel next
      rw [reported.same, answers_setStation next.1 foundPlace] at found
      split at found
      next here =>
        subst here
        rw [foundOld, Option.map_some, Option.some.injEq] at found
        subst found
        rcases turn.executing member with older | ⟨invocation, told, same⟩
        · exact Or.inl ⟨old, foundOld, older⟩
        · obtain ⟨execution, began, here, rfl⟩ :=
            exists_execution_afterStep foundPlace next told
          refine Or.inr ⟨execution, began, same, ?_⟩
          rw [here, worksOn, reported.same, channels_setStation next.1 foundPlace, if_pos rfl]
          exact beq_self_eq_true place.answers
      next => exact Or.inl ⟨entry, found, member⟩
  | begin _ _ =>
      simp only [beginExecution] at found
      split at found <;> exact Or.inl ⟨entry, found, member⟩
  | @conclude _ ended _ conclusion _ _ =>
      simp only [endExecution] at found
      split at found
      next => exact Or.inl ⟨entry, found, member⟩
      next station there =>
        obtain ⟨place, _, old, _, foundPlace, _, foundOld, _, rfl⟩ :=
          station?_eq_some_iff.mp there
        rw [answers_setStation _ foundPlace] at found
        split at found
        next here =>
          subst here
          rw [foundOld, Option.map_some, Option.some.injEq] at found
          subst found
          exact Or.inl ⟨old, foundOld, List.mem_of_mem_filter member⟩
        next => exact Or.inl ⟨entry, found, member⟩
  | accept accepts =>
      rw [accepts.answers] at found
      exact Or.inl ⟨entry, found, member⟩
  | handle _ =>
      rw [setBacklog_eq] at found
      exact Or.inl ⟨entry, found, member⟩
  | sleep => cases awake

end Takes

theorem AwaitsReplies.happen (awaits : AwaitsReplies before) (awake : happening.sleeps = false) :
    AwaitsReplies (before.happen happening) := by
  have takes := takes_happen before happening
  have keeps := takes.keepsPlaces awake
  refine ⟨awaits.admits.happen happening, ?_, ?_⟩
  · intro execution member
    exact keeps.exists_station (takes.stationed awake awaits execution member)
  · intro answers entry found id member
    rcases takes.executing awake found member with ⟨old, foundOld, older⟩ | began
    · obtain ⟨execution, isExecuted, same, works⟩ := awaits.executing foundOld id older
      rcases takes.goesOn awake awaits isExecuted with ⟨later, isLater, goesOn⟩ | replied
      · refine ⟨later, isLater, ?_, ?_⟩
        · rw [goesOn.invocation, same]
        · rw [goesOn.channel]
          exact keeps.worksOn works
      · -- With the execution its id goes away, but it is still there.
        exact absurd (same ▸ member) (replied.idle works found)
    · exact began

theorem awaitsReplies_empty : AwaitsReplies empty where
  admits := admitsOnce_empty
  stationed execution member := by cases member
  executing found := by cases found

/-- Nobody waits for others to do something. -/
def IsAwake (happenings : List Happening) : Prop :=
  ∀ happening ∈ happenings, happening.sleeps = false

instance (happenings : List Happening) : Decidable (IsAwake happenings) :=
  inferInstanceAs (Decidable (∀ happening ∈ _, _))

theorem AwaitsReplies.run {happenings : List Happening} (awaits : AwaitsReplies network)
    (awake : IsAwake happenings) : AwaitsReplies (network.run happenings) := by
  induction happenings generalizing network with
  | nil => exact awaits
  | cons happening rest ih =>
      apply ih (awaits.happen (awake happening List.mem_cons_self))
      exact fun other member => awake other (List.mem_cons_of_mem happening member)

/-! ## Replies that are given -/

theorem worksOn_run {happenings : List Happening} (awake : IsAwake happenings)
    {answers channel : Nat} (works : network.worksOn answers channel = true) :
    (network.run happenings).worksOn answers channel = true := by
  induction happenings generalizing network with
  | nil => exact works
  | cons happening rest ih =>
      have awakeNow := awake happening List.mem_cons_self
      apply ih (fun other member => awake other (List.mem_cons_of_mem happening member))
      exact ((takes_happen network happening).keepsPlaces awakeNow).worksOn works

/-- An execution in progress is still in progress after a run, or its channel has got the
reply. -/
theorem AwaitsReplies.replies {happenings : List Happening} (awaits : AwaitsReplies network)
    (awake : IsAwake happenings) (member : execution ∈ network.executions) :
    (∃ later ∈ (network.run happenings).executions, GoesOn execution later) ∨
      network.GetsReply happenings execution.channel execution.invocation.id := by
  -- An execution changes as it begins, so the induction is about all of them.
  induction happenings generalizing network execution with
  | nil => exact Or.inl (goesOn_of_mem member)
  | cons happening rest ih =>
      have awakeNow := awake happening List.mem_cons_self
      have awakeLater : IsAwake rest :=
        fun other isLater => awake other (List.mem_cons_of_mem happening isLater)
      rcases (takes_happen network happening).goesOn awakeNow awaits member with
        ⟨next, isNext, goesOn⟩ | replied
      · rcases ih (awaits.happen awakeNow) awakeLater isNext with
          ⟨later, isLater, goesOnLater⟩ | ⟨reply, given, same⟩
        · exact Or.inl ⟨later, isLater, goesOnLater.channel.trans goesOn.channel,
            goesOnLater.invocation.trans goesOn.invocation⟩
        · rw [goesOn.channel] at given
          rw [goesOn.invocation] at same
          exact Or.inr ⟨reply, List.mem_append_right _ given, same⟩
      · obtain ⟨reply, same, equal⟩ := replied.pushed
        refine Or.inr ⟨reply, List.mem_append_left _ ?_, same⟩
        rw [pushed, equal, List.drop_left]
        exact List.mem_singleton_self reply

theorem outbound_afterStep {channel : Nat} {station : Station} (next : Station × List Report)
    (there : network.station? channel = some station) :
    (network.afterStep channel next).outbound channel = next.1.channel.outbound ∧
      network.outbound channel = station.channel.outbound := by
  obtain ⟨place, _, _, _, found, _, _, _, rfl⟩ := station?_eq_some_iff.mp there
  rw [(reported_afterStep network channel next).same]
  constructor
  · simp [outbound, channels_setStation next.1 found]
  · simp [outbound, found]

/-- A channel takes a call from its link. -/
theorem Hears.receives {channel : Nat} {invocation : Invocation}
    (hears : network.Hears channel invocation) :
    ∃ station link, network.station? channel = some station ∧
      network.happen (.move (.receive channel)) =
        network.afterStep channel ({ station with link }.onInvocation invocation) := by
  obtain ⟨station, frame, link, there, listens, isOpen, runs, received, isMethod, decoded⟩ := hears
  refine ⟨station, link, there, ?_⟩
  have stepped : station.receiveStep = some ({ station with link }.onInvocation invocation) := by
    rw [Station.Receives] at received
    simp [Station.receiveStep, listens, isOpen, runs, received, Station.onFrame, isMethod,
      Station.onMethodFrame, decoded]
  simp [happen, move?, receive?, there, stepped]

/-- A call that arrives is answered at once, or it is executed from now on, or it is being
executed. -/
theorem Hears.happen {channel answers : Nat} {invocation : Invocation}
    (hears : network.Hears channel invocation) (works : network.worksOn answers channel = true) :
    (∃ reply ∈ network.pushed (.move (.receive channel)) channel, reply.id = invocation.id) ∨
    (∃ execution ∈ (network.happen (.move (.receive channel))).executions,
      execution.channel = channel ∧ execution.invocation = invocation) ∨
    ∃ entry, network.answers[answers]? = some entry ∧ invocation.id ∈ entry.executing := by
  obtain ⟨station, link, there, happens⟩ := hears.receives
  have answered := { station with link }.onInvocation_answered invocation
  generalize { station with link }.onInvocation invocation = next at answered happens
  obtain ⟨outboundAfter, outboundBefore⟩ := outbound_afterStep next there
  obtain ⟨place, _, entry, _, foundPlace, _, foundEntry, _, isStation⟩ :=
    station?_eq_some_iff.mp there
  rw [worksOn, foundPlace, Option.any_some, beq_iff_eq] at works
  subst works
  have began : ∀ asked, .execute asked ∈ next.2 →
      ∃ execution ∈ (network.afterStep channel next).executions,
        execution.channel = channel ∧ execution.invocation = asked :=
    fun asked told => exists_execution_afterStep foundPlace next told
  rw [pushed, happens, outboundAfter, outboundBefore]
  obtain ⟨after, told⟩ := next
  cases answered with
  | execute _ =>
      exact Or.inr (Or.inl (began invocation (List.mem_singleton_self _)))
  | inProgress running =>
      refine Or.inr (Or.inr ⟨entry, foundEntry, ?_⟩)
      subst isStation
      exact running
  | @cached reply _ _ same => exact Or.inl ⟨reply, by simp, same⟩
  | obsolete _ _ =>
      exact Or.inl ⟨Reply.failure invocation.id .obsoleteCommand "", by simp, rfl⟩

/-- What is in progress at the end is none of what had to end. -/
theorem IsIdle.not_goesOn {happenings : List Happening} {answers : Nat}
    (idle : (network.run happenings).IsIdle answers) (awake : IsAwake happenings)
    (works : network.worksOn answers execution.channel = true) :
    ¬ ∃ later ∈ (network.run happenings).executions, GoesOn execution later := by
  rintro ⟨later, member, goesOn⟩
  have still := worksOn_run awake works
  rw [← goesOn.channel, idle later member] at still
  cases still

/-- An execution that is in progress, for a cache of answers that is idle at the end, is
replied to. -/
theorem AwaitsReplies.replied {happenings : List Happening} {answers : Nat}
    (awaits : AwaitsReplies network) (awake : IsAwake happenings)
    (idle : (network.run happenings).IsIdle answers) (member : execution ∈ network.executions)
    (works : network.worksOn answers execution.channel = true) :
    network.GetsReply happenings execution.channel execution.invocation.id :=
  (awaits.replies awake member).resolve_left (idle.not_goesOn awake works)

/-- The channel at which a call arrives gets a reply to it, unless the call is being executed
for another channel. -/
theorem AwaitsReplies.answers {channel answers : Nat} {invocation : Invocation}
    {later : List Happening} (awaits : AwaitsReplies network)
    (awake : IsAwake (.move (.receive channel) :: later)) (hears : network.Hears channel invocation)
    (works : network.worksOn answers channel = true)
    (idle : (network.run (.move (.receive channel) :: later)).IsIdle answers) :
    network.GetsReply (.move (.receive channel) :: later) channel invocation.id ∨
    ∃ execution ∈ network.executions, execution.invocation.id = invocation.id ∧
      execution.channel ≠ channel ∧ network.worksOn answers execution.channel = true ∧
      network.GetsReply (.move (.receive channel) :: later) execution.channel invocation.id := by
  have awakeLater : IsAwake later :=
    fun other member => awake other (List.mem_cons_of_mem _ member)
  have received := takes_happen network (.move (.receive channel))
  rcases hears.happen works with
    ⟨reply, given, same⟩ | ⟨execution, began, rfl, rfl⟩ | ⟨entry, found, running⟩
  · exact Or.inl ⟨reply, List.mem_append_left _ given, same⟩
  · have worksNow := (received.keepsPlaces rfl).worksOn works
    obtain ⟨reply, given, same⟩ := (awaits.happen rfl).replied awakeLater idle began worksNow
    exact Or.inl ⟨reply, List.mem_append_right _ given, same⟩
  · obtain ⟨execution, member, same, worksToo⟩ := awaits.executing found _ running
    have replied := awaits.replied awake idle member worksToo
    rw [same] at replied
    by_cases here : execution.channel = channel
    · exact Or.inl (here ▸ replied)
    · exact Or.inr ⟨execution, member, same, here, worksToo, replied⟩

/-- A call arrives at a channel of any network, and at the end no execution is in progress
for the cache of answers on which the channel works. Then the channel gets a reply to the
call, unless the call is being executed for another channel when it arrives. In that case
the other channel gets the reply. -/
theorem getsReply_or_answersElsewhere {earlier later : List Happening} {channel answers : Nat}
    {invocation : Invocation} (awake : IsAwake (earlier ++ .move (.receive channel) :: later))
    (hears : (empty.run earlier).Hears channel invocation)
    (works : (empty.run earlier).worksOn answers channel = true)
    (idle : (empty.run (earlier ++ .move (.receive channel) :: later)).IsIdle answers) :
    (empty.run earlier).GetsReply (.move (.receive channel) :: later) channel invocation.id ∨
    ∃ execution ∈ (empty.run earlier).executions, execution.invocation.id = invocation.id ∧
      execution.channel ≠ channel ∧ (empty.run earlier).worksOn answers execution.channel = true ∧
      (empty.run earlier).GetsReply (.move (.receive channel) :: later) execution.channel
        invocation.id := by
  have awakeEarlier : IsAwake earlier := fun _ member => awake _ (List.mem_append_left _ member)
  have awakeRest : IsAwake (.move (.receive channel) :: later) :=
    fun _ member => awake _ (List.mem_append_right _ member)
  rw [run, List.foldl_append] at idle
  exact (awaitsReplies_empty.run awakeEarlier).answers awakeRest hears works idle

/-- A call of a method that takes a second. -/
def slowCall : Invocation := ⟨5, "Slow", []⟩

/-- The service takes a second. -/
def slowService : Service := fun _ _ => ⟨Span.ofSeconds 1, .value [7]⟩

/-- A channel is stopped while it executes a call, and the call comes again at the next
channel. -/
def stoppedMeanwhile : List Happening :=
  [.addOutbox .server none Settings.standard, .addAnswers 10, .addLink 1000, .addLink 1000,
    .startChannel ⟨.server, none⟩ .left 0 0 0 slowService,
    .act (.send 0 .right slowCall.encode), .move (.receive 0), .move (.execute 0),
    .act (.stopChannel 0), .startChannel ⟨.server, none⟩ .left 1 0 0 slowService,
    .act (.send 1 .right slowCall.encode)]

/-- The execution ends. -/
def ends : List Happening := [.pass (Span.ofSeconds 1).nanoseconds, .move (.execute 0)]

theorem hears_stoppedMeanwhile : (empty.run stoppedMeanwhile).Hears 1 slowCall :=
  ⟨_, slowCall.encode, _, rfl, rfl, rfl, rfl, rfl, by decide, by decide⟩

/-- The reply goes to the channel that is stopped. -/
theorem answersElsewhere_stoppedMeanwhile :
    ¬ (empty.run stoppedMeanwhile).GetsReply (.move (.receive 1) :: ends) 1 5 ∧
    ∃ execution ∈ (empty.run stoppedMeanwhile).executions, execution.channel ≠ 1 ∧
      (empty.run stoppedMeanwhile).GetsReply (.move (.receive 1) :: ends) execution.channel 5 := by
  have unanswered :
      ¬ (empty.run stoppedMeanwhile).GetsReply (.move (.receive 1) :: ends) 1 5 := by
    decide +kernel
  have awake : IsAwake (stoppedMeanwhile ++ .move (.receive 1) :: ends) := by decide
  have works : (empty.run stoppedMeanwhile).worksOn 0 1 = true := by decide +kernel
  have idle : (empty.run (stoppedMeanwhile ++ .move (.receive 1) :: ends)).IsIdle 0 := by
    decide +kernel
  rcases getsReply_or_answersElsewhere awake hears_stoppedMeanwhile works idle with
    answered | ⟨execution, member, _, elsewhere, _, replied⟩
  · exact absurd answered unanswered
  · exact ⟨unanswered, execution, member, elsewhere, replied⟩

/-- A channel goes on. -/
def isRunning (network : Network) (channel : Nat) : Bool :=
  (network.channels[channel]?).any fun place => !place.channel.isStopped

/-- Every call that arrives is answered by the channel at which it arrives, as soon as no
execution is in progress. -/
def AnswersAll (start : Network) (happenings : List Happening) : Prop :=
  ∀ earlier later channel invocation,
    happenings = earlier ++ .move (.receive channel) :: later →
    (start.run earlier).Hears channel invocation → (start.run happenings).executions = [] →
    (start.run happenings).isRunning channel = true →
    (start.run earlier).GetsReply (.move (.receive channel) :: later) channel invocation.id

/-- A call that comes again at the next channel is never answered there. -/
theorem not_answersAll_stoppedMeanwhile :
    ¬ empty.AnswersAll (stoppedMeanwhile ++ .move (.receive 1) :: ends) := by
  intro answersAll
  have idle : (empty.run (stoppedMeanwhile ++ .move (.receive 1) :: ends)).executions = [] := by
    decide +kernel
  have running :
      (empty.run (stoppedMeanwhile ++ .move (.receive 1) :: ends)).isRunning 1 = true := by
    decide +kernel
  have answered :=
    answersAll stoppedMeanwhile ends 1 slowCall rfl hears_stoppedMeanwhile idle running
  revert answered
  decide +kernel

end Network

end PeerCalls
