import PeerCalls.Proofs.Pair.Runs
import PeerCalls.Proofs.Splitting

/-!
# Executions follow each other

If all calls of a side are retried, then the other side executes them in the order in
which the queue took them, and one after the other. A call leaves the queue only when
its execution is over or will never begin, and only then the next one is sent; what is
sent of a call that is over is not executed any more. A call that is too long for one
link leaves the queue although it may be executed by way of another link, so all links
have to carry frames of the same length.
-/

namespace PeerCalls

namespace History

variable {history before after : History} {side : Side}

/-- All calls of a side are retried, and a call that fits on one link fits on all. -/
structure Retries (history : History) (side : Side) : Prop where
  distinct : ((history.calls side).map Call.id).Nodup
  retried : ∀ call ∈ history.calls side, call.isRetryable = true
  alike : ∀ {first second : Nat}, history.limit first → history.limit second → first = second

theorem Continues.retries (continues : before.Continues after) (retries : after.Retries side) :
    before.Retries side where
  distinct := ((continues.calls side).sublist.map Call.id).nodup retries.distinct
  retried call member := retries.retried call (continues.mem member)
  alike first second := retries.alike (continues.limit first) (continues.limit second)

/-- A retried call that fits on the links is over once it is settled. -/
theorem Retries.isOver (retries : history.Retries side) {call : Call}
    (member : call ∈ history.calls side) (fits : history.Fits call)
    (settled : history.Settled side call.id) : (history.answers side.other).IsOver call.id := by
  rcases settled with isOver | ⟨other, otherMember, sameId, reason⟩
  · exact isOver
  · cases List.inj_on_of_nodup_map retries.distinct otherMember member sameId
    rcases reason with unretried | ⟨limit, there, long⟩
    · cases unretried.symm.trans (retries.retried call member)
    · obtain ⟨otherLimit, otherThere, short⟩ := fits
      cases retries.alike there otherThere
      exact absurd short (Nat.not_le_of_lt long)

/-- Calls before one that is due are settled. -/
theorem Due.settled {other call : Call} {earlier later : List Call} (due : history.Due side other)
    (distinct : ((history.calls side).map Call.id).Nodup)
    (split : history.calls side = earlier ++ call :: later) (member : other.id ∈ later.map Call.id) :
    history.Settled side call.id := by
  obtain ⟨same, sameMember, sameId⟩ := List.mem_map.mp member
  obtain ⟨between, rest, rfl⟩ := List.append_of_mem sameMember
  obtain ⟨former, last, equal, settled⟩ := due
  have regrouped : history.calls side = (earlier ++ call :: between) ++ same :: rest := by
    rw [split, List.append_assoc, List.cons_append]
  obtain ⟨rfl, _, _⟩ := Network.eq_of_split distinct regrouped equal sameId
  exact settled call (List.mem_append_right _ List.mem_cons_self)

end History

namespace Pair

variable (pair : Pair) (network : Network) (side : Side)

/-- The other side executes the calls of a side one after the other. -/
structure ExecutesInOrder : Prop where
  /-- Calls are executed in the order in which the queue took them. -/
  order : (network.executedFor (pair.answers side.other)).Sublist
    ((pair.calls network side).map Call.invocation)
  /-- When an execution begins, those that began before are over. -/
  apart : ∀ past channel invocation future,
    network.events = past ++ .executing channel invocation :: future →
    network.worksOn (pair.answers side.other) channel = true →
    ∀ other former, .executing other former ∈ past →
      network.worksOn (pair.answers side.other) other = true →
        ∃ conclusion, .executed other former conclusion ∈ past

variable {pair network side} {before after : Network}

/-- An execution begins, or the log says nothing of executions that begin. -/
theorem Step.begins_or_silent (justified : pair.Justified before) (step : pair.Step before after) :
    (∃ execution ∈ before.executions, execution.stage = .ready ∧
      after = before.beginExecution execution) ∨
    ∃ others, after.events = before.events ++ others ∧
      ∀ channel invocation, .executing channel invocation ∉ others := by
  cases step with
  | clock | channels _ | outboxes _ | links _ | issue _ | enter _ _ _ =>
      exact Or.inr ⟨[], (List.append_nil _).symm, nofun⟩
  | @turn channel station next found turn =>
      obtain ⟨place, _, _, _, foundPlace, _, _, _, _⟩ := Network.station?_eq_some_iff.mp found
      exact Or.inr ⟨_, Network.events_afterStep foundPlace next,
        Network.no_executing_of_reports channel next.2⟩
  | begin member ready => exact Or.inl ⟨_, member, ready, rfl⟩
  | @conclude execution _ conclusion _ _ =>
      exact Or.inr ⟨_, (justified.leaves execution conclusion).events, by simp⟩
  | accept _ _ _ accepts _ => exact Or.inr ⟨_, accepts.events, by simp⟩
  | «return» _ _ _ _ _ => exact Or.inr ⟨_, Network.events_note _ _, by simp⟩

/-- Channels stay with the answers of their side. -/
theorem Justified.keepsChannels (justified : pair.Justified before) (later : pair.Justified after)
    (goesOn : pair.GoesOn before after) : Network.KeepsChannels before after := by
  intro channel place found
  have onSide := goesOn.sides (side?_eq_some_iff.mpr ⟨place, found, rfl⟩)
  obtain ⟨laterPlace, foundLater, sameSide⟩ := side?_eq_some_iff.mp onSide
  refine ⟨laterPlace, foundLater, ?_⟩
  rw [(later.channels channel laterPlace foundLater).1.answers, sameSide,
    (justified.channels channel place found).1.answers]

/-- The log grows. What begins now begins after those before it are over. -/
theorem ExecutesInOrder.append (inOrder : pair.ExecutesInOrder before side)
    (keeps : Network.KeepsChannels before after) (once : before.AdmitsOnce) {others : List Event}
    (events : after.events = before.events ++ others)
    (order : (after.executedFor (pair.answers side.other)).Sublist
      ((pair.calls after side).map Call.invocation))
    (apart : ∀ past channel invocation future,
      others = past ++ .executing channel invocation :: future →
      after.worksOn (pair.answers side.other) channel = true →
      ∀ other former, .executing other former ∈ before.events ++ past →
        after.worksOn (pair.answers side.other) other = true →
          ∃ conclusion, .executed other former conclusion ∈ before.events ++ past) :
    pair.ExecutesInOrder after side where
  order := order
  apart := by
    intro past channel invocation future split works other former member otherWorks
    rw [events] at split
    rcases Splitting.append_eq_iff.mp split with ⟨middle, equal, _⟩ | ⟨new, rfl, equal⟩
    · have began : ∀ {channel invocation}, .executing channel invocation ∈ before.events →
          after.worksOn (pair.answers side.other) channel =
            before.worksOn (pair.answers side.other) channel :=
        fun begun => keeps.worksOn (once.begun _ _ begun) _
      have here : .executing channel invocation ∈ before.events := by simp [equal]
      have there : .executing other former ∈ before.events := by simp [equal, member]
      exact inOrder.apart past channel invocation middle equal (began here ▸ works) other former
        member (began there ▸ otherWorks)
    · exact apart new channel invocation future equal works other former member otherWorks

/-- Nothing begins on the other side. -/
theorem ExecutesInOrder.silent (inOrder : pair.ExecutesInOrder before side)
    (keeps : Network.KeepsChannels before after) (once : before.AdmitsOnce)
    (goesOn : pair.GoesOn before after) {others : List Event}
    (events : after.events = before.events ++ others)
    (silent : ∀ channel invocation, .executing channel invocation ∈ others →
      after.worksOn (pair.answers side.other) channel = false) :
    pair.ExecutesInOrder after side := by
  refine inOrder.append keeps once events ?_ ?_
  · have unbegun : others.filterMap (after.executedBy? (pair.answers side.other)) = [] := by
      rw [List.filterMap_eq_nil_iff]
      intro event member
      cases event with
      | executing channel invocation => simp [Network.executedBy?, silent _ _ member]
      | _ => rfl
    rw [keeps.executedFor once.begun events, unbegun, List.append_nil]
    exact inOrder.order.trans ((goesOn.continues.calls side).sublist.map Call.invocation)
  · intro past channel invocation future split works
    have member : .executing channel invocation ∈ others := by simp [split]
    cases (silent channel invocation member).symm.trans works

/-- What is asked of the other side is a call that is due. -/
theorem Reports.due {channel : Nat} {invocation : Invocation}
    (reports : pair.Reports network channel (.execute invocation))
    (onSide : network.side? channel = some side.other) :
    ∃ call, (pair.history network).Due side call ∧ (pair.history network).Fits call ∧
      call.invocation = invocation := by
  obtain ⟨reporting, reportingSide, call, due, fits, equal⟩ := reports
  cases onSide.symm.trans reportingSide
  rw [Side.other_other] at due
  exact ⟨call, due, fits, equal⟩

namespace Sound

variable (sound : pair.Sound network) (retries : (pair.history network).Retries side)
include sound retries

/-- A call of which an execution is under way is not settled. -/
theorem not_settled {execution : Execution} (member : execution ∈ network.executions)
    (onSide : network.side? execution.channel = some side.other) :
    ¬ (pair.history network).Settled side execution.invocation.id := by
  intro settled
  obtain ⟨call, ⟨earlier, later, split, _⟩, fits, equal⟩ :=
    (sound.justified.executions execution member).due onSide
  have isOver := retries.isOver (split ▸ List.mem_append_right _ List.mem_cons_self) fits
    (by rwa [Call.id, equal])
  rw [Call.id, equal] at isOver
  exact isOver.1 (sound.executes.running execution member side.other onSide)

/-- An execution of a settled call that has begun is over. -/
theorem concluded {channel : Nat} {invocation : Invocation}
    (began : .executing channel invocation ∈ network.events)
    (onSide : network.side? channel = some side.other)
    (settled : (pair.history network).Settled side invocation.id) :
    ∃ conclusion, .executed channel invocation conclusion ∈ network.events := by
  rcases sound.executes.ends channel invocation began with ⟨execution, member, rfl, rfl⟩ | ended
  · exact absurd settled (sound.not_settled retries member onSide)
  · exact ended

omit retries in
/-- What the other side has begun to execute is a call that is due. -/
theorem executed_due {invocation : Invocation}
    (executed : invocation ∈ network.executedFor (pair.answers side.other)) :
    ∃ call, (pair.history network).Due side call ∧ call.invocation = invocation := by
  obtain ⟨channel, logged, works⟩ := Network.mem_executedFor_iff.mp executed
  obtain ⟨call, due, _, equal⟩ := (sound.justified.executing channel invocation logged).due
    (sound.justified.worksOn_iff.mp works)
  exact ⟨call, due, equal⟩

/-- When an execution is about to begin, only calls before its call have been
executed. -/
theorem executed_before {execution : Execution} (member : execution ∈ network.executions)
    (ready : execution.stage = .ready)
    (works : network.worksOn (pair.answers side.other) execution.channel = true)
    {call : Call} {earlier later : List Call}
    (split : pair.calls network side = earlier ++ call :: later)
    (invocation : call.invocation = execution.invocation)
    (order : (network.executedFor (pair.answers side.other)).Sublist
      ((pair.calls network side).map Call.invocation)) :
    (network.executedFor (pair.answers side.other)).Sublist (earlier.map Call.invocation) := by
  rw [split, List.map_append, List.sublist_append_iff] at order
  obtain ⟨first, second, equal, sublist, others⟩ := order
  cases second with
  | nil => rwa [equal, List.append_nil]
  | cons executed _ =>
      exfalso
      have began : executed ∈ network.executedFor (pair.answers side.other) := by simp [equal]
      have inside : executed ∈ (call :: later).map Call.invocation :=
        others.subset List.mem_cons_self
      rw [List.map_cons, List.mem_cons] at inside
      rcases inside with same | isLater
      · -- The call itself would be executed for the second time.
        have isReady : network.isReadyFor (pair.answers side.other) execution = true := by
          simp [Network.isReadyFor, ready, works]
        apply sound.once.not_executed member isReady
        rw [← invocation, ← same]
        exact List.mem_map_of_mem began
      · -- A later call is executed only if this one is settled.
        obtain ⟨laterCall, due, rfl⟩ := sound.executed_due began
        have laterId : laterCall.id ∈ later.map Call.id := by
          obtain ⟨same, sameMember, equal⟩ := List.mem_map.mp isLater
          exact List.mem_map.mpr ⟨same, sameMember, congrArg Invocation.id equal⟩
        have settled := due.settled retries.distinct split laterId
        rw [Call.id, invocation] at settled
        exact sound.not_settled retries member (sound.justified.worksOn_iff.mp works) settled

end Sound

/-- An execution begins. -/
theorem ExecutesInOrder.begin {execution : Execution} (inOrder : pair.ExecutesInOrder before side)
    (retries : (pair.history before).Retries side) (sound : pair.Sound before)
    (keeps : Network.KeepsChannels before after) (goesOn : pair.GoesOn before after)
    (member : execution ∈ before.executions) (ready : execution.stage = .ready)
    (begins : Begins execution before after) : pair.ExecutesInOrder after side := by
  have worksOn : after.worksOn = before.worksOn := by
    funext answers channel
    rw [Network.worksOn, Network.worksOn, begins.same]
  cases works : before.worksOn (pair.answers side.other) execution.channel with
  | false =>
      refine inOrder.silent keeps sound.once goesOn begins.events ?_
      intro channel invocation new
      cases List.mem_singleton.mp new
      rw [worksOn, works]
  | true =>
      obtain ⟨call, ⟨earlier, later, split, settled⟩, _, equal⟩ :=
        (sound.justified.executions execution member).due (sound.justified.worksOn_iff.mp works)
      have executed := sound.executed_before retries member ready works split equal inOrder.order
      refine inOrder.append keeps sound.once begins.events ?_ ?_
      · have calls : (pair.calls before side).map Call.invocation =
            earlier.map Call.invocation ++ execution.invocation :: later.map Call.invocation := by
          rw [← equal, ← List.map_cons, ← List.map_append]
          exact congrArg _ split
        have added : [Event.executing execution.channel execution.invocation].filterMap
            (after.executedBy? (pair.answers side.other)) = [execution.invocation] := by
          simp [Network.executedBy?, worksOn, works]
        rw [keeps.executedFor sound.once.begun begins.events, added]
        refine List.Sublist.trans ?_ ((goesOn.continues.calls side).sublist.map Call.invocation)
        simp only [history, calls]
        exact executed.append (List.singleton_sublist.mpr List.mem_cons_self)
      · intro past channel invocation future new _ other former began otherWorks
        have isNil : past = [] := by
          rcases List.singleton_eq_append_iff.mp new with ⟨isNil, _⟩ | ⟨_, rest⟩
          · exact isNil
          · cases rest
        subst isNil
        rw [List.append_nil] at began ⊢
        rw [worksOn] at otherWorks
        have inside : former ∈ earlier.map Call.invocation :=
          executed.subset (Network.mem_executedFor_iff.mpr ⟨other, began, otherWorks⟩)
        obtain ⟨formerCall, formerMember, rfl⟩ := List.mem_map.mp inside
        exact sound.concluded retries began (sound.justified.worksOn_iff.mp otherWorks)
          (settled formerCall formerMember)

theorem ExecutesInOrder.step (inOrder : pair.ExecutesInOrder before side)
    (retries : (pair.history before).Retries side) (sound : pair.Sound before)
    (later : pair.Sound after) (step : pair.Step before after) :
    pair.ExecutesInOrder after side := by
  have goesOn := step.goesOn sound.justified
  have keeps := sound.justified.keepsChannels later.justified goesOn
  rcases step.begins_or_silent sound.justified with
    ⟨execution, member, ready, rfl⟩ | ⟨others, events, silent⟩
  · obtain ⟨_, onSide, _⟩ := sound.justified.executions execution member
    obtain ⟨place, found, _⟩ := side?_eq_some_iff.mp onSide
    exact inOrder.begin retries sound keeps goesOn member ready
      (Network.begins_beginExecution sound.once.numbers member found)
  · exact inOrder.silent keeps sound.once goesOn events fun channel invocation member =>
      absurd member (silent channel invocation)

/-- Two peers begin at rest. If all calls of a side are retried and have different ids,
and all links carry frames of the same length, then the other side executes them in the
order in which the queue took them, and each execution is over when the next one
begins. -/
theorem executesInOrder_run {start : Network} {happenings : List Happening}
    (rest : pair.IsAtRest start) (obeys : Network.Obeys pair.Admits start happenings)
    (distinct : ((pair.calls (start.run happenings) side).map Call.id).Nodup)
    (retried : ∀ call ∈ pair.calls (start.run happenings) side, call.isRetryable = true)
    (alike : ∀ link ∈ (start.run happenings).links, ∀ other ∈ (start.run happenings).links,
      link.maxFrameLength = other.maxFrameLength) :
    pair.ExecutesInOrder (start.run happenings) side := by
  have begins : pair.ExecutesInOrder start side := by
    constructor
    · simp [Network.executedFor, rest.events]
    · simp [rest.events]
  have steps : ∀ {before after : Network}, pair.Sound before → pair.Sound after →
      pair.Step before after →
      ((pair.history before).Retries side → pair.ExecutesInOrder before side) →
      (pair.history after).Retries side → pair.ExecutesInOrder after side := by
    intro before after sound later step inOrder retries
    have earlier := (step.goesOn sound.justified).continues.retries retries
    exact (inOrder earlier).step earlier sound later step
  have holds := @run_preserves pair start
    (fun network => (pair.history network).Retries side → pair.ExecutesInOrder network side)
    steps happenings obeys rest.sound fun _ => begins
  refine holds.2 ⟨distinct, retried, ?_⟩
  rintro _ _ ⟨place, link, found, rfl⟩ ⟨otherPlace, other, otherFound, rfl⟩
  exact alike link (Array.mem_of_getElem? found) other (Array.mem_of_getElem? otherFound)

/-- Two calls that are retried. -/
def patientCalls : List Call :=
  [{ Call.new .server ⟨1, "first", []⟩ with
      policy := some .retry, timeout := some (Span.ofSeconds 1) },
    { Call.new .server ⟨2, "second", []⟩ with policy := some .latest }]

/-- The link breaks while the first call is executed, and another attempt times out before
the execution is over. A third one is answered, and the second call follows. -/
def repeatedAttempts : List Happening :=
  [.addLink 1000, .startChannel ⟨.server, none⟩ .left 0 0 0 fun _ _ => .atOnce .broken,
    .startChannel ⟨.client "c", none⟩ .right 0 1 1 fun _ _ => ⟨Span.ofSeconds 2, .value []⟩,
    .move (.send 0 false), .move (.send 0 false), .move (.send 0 false), .move (.receive 1),
    .move (.execute 0), .cut 0 .left, .pass 1000000000, .addLink 1000,
    .startChannel ⟨.server, none⟩ .left 1 0 0 fun _ _ => .atOnce .broken,
    .startChannel ⟨.client "c", none⟩ .right 1 1 1 fun _ _ => .atOnce (.value []),
    .move (.send 2 false), .move (.send 2 false), .move (.send 2 false), .move (.receive 3),
    .pass 2000000000, .move (.send 2 false), .move (.send 2 false), .move (.execute 0),
    .pass 2100000000, .move (.send 2 false), .move (.send 2 false), .move (.send 2 false),
    .move (.receive 3), .move (.send 3 false), .move (.send 3 false),
    .move (.receive 2), .move (.send 2 false), .move (.send 2 false), .move (.send 2 false),
    .move (.send 2 false), .move (.receive 3), .move (.execute 1)]

theorem executesInOrder_repeatedAttempts :
    (neighbours patientCalls).ExecutesInOrder ((beforeMeeting patientCalls).run repeatedAttempts)
      .left ∧
    ((beforeMeeting patientCalls).run repeatedAttempts).executedFor 1 =
      [⟨1, "first", []⟩, ⟨2, "second", []⟩] := by
  have rest := @isAtRest_beforeMeeting patientCalls (by decide +kernel)
  have obeys : Network.Obeys (neighbours patientCalls).Admits (beforeMeeting patientCalls)
      repeatedAttempts := by decide +kernel
  exact ⟨executesInOrder_run rest obeys (by decide +kernel) (by decide +kernel)
    (by decide +kernel), by decide +kernel⟩

end Pair

end PeerCalls
