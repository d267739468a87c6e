import PeerCalls.Proofs.Pair.Errands

/-!
# Executions between two peers

An execution is under way until it is over: the log says that it began and, at the end,
how it ended, and in between the answers of its side know that it is under way. On each
side the executions under way have different ids.
-/

namespace PeerCalls

/-- The event is about an execution. -/
def Event.IsOfExecution : Event → Prop
  | .executing _ _ | .executed _ _ _ => True
  | .accepted _ _ _ | .returned _ _ | .ended _ _ _ | .arrived _ _ | .closed _ => False

namespace Pair

variable (pair : Pair)

/-- What is under way, and what the log says of it. -/
structure Executes (network : Network) : Prop where
  began : ∀ channel invocation conclusion,
    .executed channel invocation conclusion ∈ network.events →
      .executing channel invocation ∈ network.events
  busy : ∀ execution ∈ network.executions, execution.stage ≠ .ready →
    .executing execution.channel execution.invocation ∈ network.events
  ends : ∀ channel invocation, .executing channel invocation ∈ network.events →
    (∃ execution ∈ network.executions,
      execution.channel = channel ∧ execution.invocation = invocation) ∨
    ∃ conclusion, .executed channel invocation conclusion ∈ network.events
  running : ∀ execution ∈ network.executions, ∀ side,
    network.side? execution.channel = some side →
      execution.invocation.id ∈ ((pair.history network).answers side).executing
  alone : ∀ execution ∈ network.executions, ∀ other ∈ network.executions,
    network.side? execution.channel = network.side? other.channel →
      execution.invocation.id = other.invocation.id → execution = other

variable {pair} {before after network : Network}

/-- The side of an execution under way stays the same. -/
theorem Justified.side_eq (justified : pair.Justified before) (goesOn : pair.GoesOn before after)
    {execution : Execution} (member : execution ∈ before.executions) :
    after.side? execution.channel = before.side? execution.channel := by
  obtain ⟨side, onSide, _⟩ := justified.executions execution member
  rw [onSide, goesOn.sides onSide]

/-- Nothing happens to executions. -/
theorem Executes.idle {others : List Event} (executes : pair.Executes before)
    (justified : pair.Justified before) (goesOn : pair.GoesOn before after)
    (executions : after.executions = before.executions)
    (events : after.events = before.events ++ others)
    (silent : ∀ event ∈ others, ¬ event.IsOfExecution)
    (answers : after.answers = before.answers) : pair.Executes after where
  began channel invocation conclusion member := by
    rw [events] at member ⊢
    have old := (List.mem_append.mp member).resolve_right fun new => silent _ new trivial
    exact List.mem_append_left _ (executes.began channel invocation conclusion old)
  busy := by
    rw [executions, events]
    exact fun execution member begun =>
      List.mem_append_left _ (executes.busy execution member begun)
  ends channel invocation member := by
    rw [events] at member
    have old := (List.mem_append.mp member).resolve_right fun new => silent _ new trivial
    rw [executions, events]
    refine (executes.ends channel invocation old).imp_right ?_
    rintro ⟨conclusion, concluded⟩
    exact ⟨conclusion, List.mem_append_left _ concluded⟩
  running := by
    rw [executions]
    intro execution member side onSide
    rw [justified.side_eq goesOn member] at onSide
    simp only [history, answers]
    exact executes.running execution member side onSide
  alone := by
    rw [executions]
    intro execution member other otherMember
    rw [justified.side_eq goesOn member, justified.side_eq goesOn otherMember]
    exact executes.alone execution member other otherMember

/-- A service begins to execute an invocation. -/
theorem Executes.begin {execution : Execution} (executes : pair.Executes network)
    (justified : pair.Justified network) (numbers : network.HasNumbers)
    (member : execution ∈ network.executions) :
    pair.Executes (network.beginExecution execution) := by
  obtain ⟨side, onSide, _⟩ := justified.executions execution member
  obtain ⟨place, found, _⟩ := side?_eq_some_iff.mp onSide
  simp only [Network.beginExecution, found]
  generalize replaced : ({ execution with stage := .busy _ _ } : Execution) = replacement
  have channel : replacement.channel = execution.channel := by rw [← replaced]
  have invocation : replacement.invocation = execution.invocation := by rw [← replaced]
  have number : replacement.number = execution.number := by rw [← replaced]
  have events := Network.events_note (network.setExecution replacement)
    (.executing execution.channel execution.invocation)
  generalize equal : (network.setExecution replacement).note
    (.executing execution.channel execution.invocation) = after at events
  have executions : ∀ other, other ∈ after.executions ↔ ∃ old ∈ network.executions,
      (if old.number = replacement.number then replacement else old) = other := by
    intro other
    rw [← equal]
    exact List.mem_map
  -- Only the execution that begins is replaced, and only its stage is new.
  have same : ∀ old ∈ network.executions, old.number = replacement.number → old = execution :=
    fun old oldMember equal => List.inj_on_of_nodup_map numbers oldMember member (equal.trans number)
  have keepsChannel : ∀ old ∈ network.executions,
      (if old.number = replacement.number then replacement else old).channel = old.channel := by
    intro old oldMember
    split
    next equal => rw [channel, same old oldMember equal]
    next => rfl
  have keepsInvocation : ∀ old ∈ network.executions,
      (if old.number = replacement.number then replacement else old).invocation =
        old.invocation := by
    intro old oldMember
    split
    next equal => rw [invocation, same old oldMember equal]
    next => rfl
  have sides : after.side? = network.side? := by rw [← equal]; rfl
  have answers : (pair.history after).answers = (pair.history network).answers := by
    rw [← equal]
    rfl
  exact {
    began := by
      intro channel invocation conclusion ended
      rw [events] at ended ⊢
      have old := (List.mem_append.mp ended).resolve_right (by simp)
      exact List.mem_append_left _ (executes.began channel invocation conclusion old)
    busy := by
      intro other otherMember begun
      obtain ⟨old, oldMember, rfl⟩ := (executions other).mp otherMember
      rw [events, keepsChannel old oldMember, keepsInvocation old oldMember]
      split at begun
      next equal =>
        rw [same old oldMember equal]
        exact List.mem_append_right _ (List.mem_singleton_self _)
      next => exact List.mem_append_left _ (executes.busy old oldMember begun)
    ends := by
      intro channel invocation begun
      rw [events] at begun ⊢
      have stays : ∀ old ∈ network.executions, old.channel = channel →
          old.invocation = invocation → ∃ execution ∈ after.executions,
            execution.channel = channel ∧ execution.invocation = invocation :=
        fun old oldMember sameChannel sameInvocation =>
          ⟨_, (executions _).mpr ⟨old, oldMember, rfl⟩,
            (keepsChannel old oldMember).trans sameChannel,
            (keepsInvocation old oldMember).trans sameInvocation⟩
      rcases List.mem_append.mp begun with old | new
      · rcases executes.ends channel invocation old with
          ⟨old, oldMember, sameChannel, sameInvocation⟩ | ⟨conclusion, ended⟩
        · exact Or.inl (stays old oldMember sameChannel sameInvocation)
        · exact Or.inr ⟨conclusion, List.mem_append_left _ ended⟩
      · cases List.mem_singleton.mp new
        exact Or.inl (stays execution member rfl rfl)
    running := by
      intro other otherMember side onSide
      obtain ⟨old, oldMember, rfl⟩ := (executions other).mp otherMember
      rw [sides, keepsChannel old oldMember] at onSide
      rw [answers, keepsInvocation old oldMember]
      exact executes.running old oldMember side onSide
    alone := by
      intro first firstMember second secondMember sameSide sameId
      obtain ⟨old, oldMember, rfl⟩ := (executions first).mp firstMember
      obtain ⟨other, otherMember, rfl⟩ := (executions second).mp secondMember
      rw [sides, keepsChannel old oldMember, keepsChannel other otherMember] at sameSide
      rw [keepsInvocation old oldMember, keepsInvocation other otherMember] at sameId
      rw [executes.alone old oldMember other otherMember sameSide sameId] }

/-- Executions are added for what the answers did not know before. -/
theorem Executes.turn {channel : Nat} {station : Station} {next : Station × List Report}
    (executes : pair.Executes network) (justified : pair.Justified network)
    (found : network.station? channel = some station) (turn : station.Turn next.1 next.2) :
    pair.Executes (network.afterStep channel next) := by
  obtain ⟨holds, onSide⟩ := justified.station found
  have goesOn : pair.GoesOn network (network.afterStep channel next) :=
    Step.goesOn justified (.turn found turn)
  have admits := turn.admits
  have reported := Network.reported_afterStep network channel next
  obtain ⟨place, _, _, _, foundPlace, _, _, _, _⟩ := Network.station?_eq_some_iff.mp found
  obtain ⟨fresh, executions, begun⟩ := Network.executions_afterStep foundPlace next
  have events := Network.events_afterStep foundPlace next
  have silent : ∀ event ∈ next.2.filterMap (Report.event? channel), ¬ event.IsOfExecution := by
    intro event member
    obtain ⟨report, _, noted⟩ := List.mem_filterMap.mp member
    cases report <;> cases noted
    exact id
  have answers : ∀ side, (pair.history (network.afterStep channel next)).answers side =
      ((pair.history network).learn station.channel.side next.1.answers).answers side := by
    intro side
    rw [← answers_setStation justified found side]
    simp only [history]
    rw [reported.same]
  have before : (pair.history network).answers station.channel.side = station.answers :=
    holds.answers.same
  -- What was under way still is, and what is new is under way from now on.
  have stays : ∀ side id, id ∈ ((pair.history network).answers side).executing →
      id ∈ ((pair.history (network.afterStep channel next)).answers side).executing := by
    intro side id running
    rw [answers]
    by_cases same : side = station.channel.side
    · subst same
      rw [History.answers_learn_self]
      exact admits.stays id (before ▸ running)
    · simp only [History.learn]
      rwa [Function.update_of_ne same]
  have ids : fresh.map (fun execution => execution.invocation.id) = Report.admitted next.2 := by
    rw [Report.admitted, ← begun.invocations, List.map_map]
    rfl
  have isNew : ∀ execution ∈ fresh, execution.invocation.id ∈ Report.admitted next.2 := by
    intro execution member
    rw [← ids]
    exact List.mem_map_of_mem member
  have freshSide : ∀ execution ∈ fresh,
      (network.afterStep channel next).side? execution.channel = some station.channel.side :=
    fun execution member => begun.channel execution member ▸ goesOn.sides onSide
  have apart : ∀ old ∈ network.executions, ∀ execution ∈ fresh,
      (network.afterStep channel next).side? old.channel =
        (network.afterStep channel next).side? execution.channel →
      old.invocation.id ≠ execution.invocation.id := by
    intro old oldMember execution member sameSide sameId
    rw [freshSide execution member, justified.side_eq goesOn oldMember] at sameSide
    have running := executes.running old oldMember _ sameSide
    rw [before, sameId] at running
    exact admits.unknown _ (isNew execution member) (Or.inl running)
  exact {
    began := by
      intro other invocation conclusion member
      rw [events] at member ⊢
      have old := (List.mem_append.mp member).resolve_right fun new => silent _ new trivial
      exact List.mem_append_left _ (executes.began other invocation conclusion old)
    busy := by
      intro execution member begins
      rw [executions] at member
      rw [events]
      rcases List.mem_append.mp member with old | new
      · exact List.mem_append_left _ (executes.busy execution old begins)
      · exact absurd (begun.ready execution new) begins
    ends := by
      intro other invocation member
      rw [events] at member ⊢
      rw [executions]
      have old := (List.mem_append.mp member).resolve_right fun new => silent _ new trivial
      rcases executes.ends other invocation old with ⟨execution, stays, same⟩ | ⟨conclusion, ended⟩
      · exact Or.inl ⟨execution, List.mem_append_left _ stays, same⟩
      · exact Or.inr ⟨conclusion, List.mem_append_left _ ended⟩
    running := by
      intro execution member side executionSide
      rw [executions] at member
      rcases List.mem_append.mp member with old | new
      · rw [justified.side_eq goesOn old] at executionSide
        exact stays side _ (executes.running execution old side executionSide)
      · cases (freshSide execution new).symm.trans executionSide
        rw [answers, History.answers_learn_self]
        exact admits.begun _ (isNew execution new)
    alone := by
      intro first firstMember second secondMember sameSide sameId
      rw [executions] at firstMember secondMember
      rcases List.mem_append.mp firstMember with old | new
      · rcases List.mem_append.mp secondMember with otherOld | otherNew
        · rw [justified.side_eq goesOn old, justified.side_eq goesOn otherOld] at sameSide
          exact executes.alone first old second otherOld sameSide sameId
        · exact absurd sameId (apart first old second otherNew sameSide)
      · rcases List.mem_append.mp secondMember with otherOld | otherNew
        · exact absurd sameId.symm (apart second otherOld first new sameSide.symm)
        · have nodup := admits.nodup
          rw [← ids] at nodup
          exact List.inj_on_of_nodup_map nodup new otherNew sameId }

/-- What an execution that is over leaves behind. -/
structure Leaves (pair : Pair) (execution : Execution) (conclusion : Conclusion)
    (before after : Network) : Prop where
  executions : after.executions = (before.dropExecution execution.number).executions
  events : after.events = before.events ++
    [.executed execution.channel execution.invocation conclusion]
  running : ∀ side id, id ∈ ((pair.history before).answers side).executing →
    (before.side? execution.channel = some side → id ≠ execution.invocation.id) →
    id ∈ ((pair.history after).answers side).executing

theorem Justified.leaves (justified : pair.Justified network) (execution : Execution)
    (conclusion : Conclusion) :
    Leaves pair execution conclusion network (network.endExecution execution conclusion) := by
  have events := Network.events_note (network.dropExecution execution.number)
    (.executed execution.channel execution.invocation conclusion)
  have dropped := justified.drop execution conclusion
  simp only [Network.endExecution]
  split
  · exact ⟨rfl, events, fun _ _ running _ => running⟩
  next station found =>
    obtain ⟨holds, onSide⟩ := dropped.station found
    obtain ⟨place, _, _, _, foundPlace, _, _, _, _⟩ := Network.station?_eq_some_iff.mp found
    refine ⟨Network.executions_setStation _ foundPlace,
      (Network.events_setStation _ foundPlace).trans events, ?_⟩
    intro side id running different
    rw [answers_setStation dropped found side]
    by_cases same : side = station.channel.side
    · subst same
      rw [History.answers_learn_self]
      have before : (pair.history network).answers station.channel.side = station.answers :=
        holds.answers.same
      rw [before] at running
      exact List.mem_filter.mpr ⟨running, by simpa using different onSide⟩
    · simp only [History.learn]
      rwa [Function.update_of_ne same]

theorem Executes.conclude {execution : Execution} (executes : pair.Executes network)
    (justified : pair.Justified network) (numbers : network.HasNumbers)
    (member : execution ∈ network.executions) {wake : Time} {conclusion : Conclusion}
    (busy : execution.stage = .busy wake conclusion) :
    pair.Executes (network.endExecution execution conclusion) := by
  have goesOn := Step.goesOn justified (.conclude member busy)
  obtain ⟨executions, events, running⟩ := justified.leaves execution conclusion
  have begun : .executing execution.channel execution.invocation ∈ network.events := by
    apply executes.busy execution member
    rw [busy]
    exact nofun
  have remains : ∀ other, other ∈ (network.endExecution execution conclusion).executions ↔
      other ∈ network.executions ∧ other ≠ execution := by
    intro other
    rw [executions, Network.dropExecution, List.mem_filter, bne_iff_ne]
    refine and_congr_right fun otherMember => not_congr ⟨fun same => ?_, fun same => same ▸ rfl⟩
    exact List.inj_on_of_nodup_map numbers otherMember member same
  exact {
    began := by
      intro channel invocation other ended
      rw [events] at ended ⊢
      rcases List.mem_append.mp ended with old | new
      · exact List.mem_append_left _ (executes.began channel invocation other old)
      · cases List.mem_singleton.mp new
        exact List.mem_append_left _ begun
    busy := by
      intro other otherMember begins
      rw [events]
      exact List.mem_append_left _ (executes.busy other ((remains other).mp otherMember).1 begins)
    ends := by
      intro channel invocation begins
      rw [events] at begins ⊢
      have old := (List.mem_append.mp begins).resolve_right (by simp)
      rcases executes.ends channel invocation old with
        ⟨other, otherMember, rfl, rfl⟩ | ⟨other, ended⟩
      · by_cases same : other = execution
        · subst same
          exact Or.inr ⟨conclusion, List.mem_append_right _ (List.mem_singleton_self _)⟩
        · exact Or.inl ⟨other, (remains other).mpr ⟨otherMember, same⟩, rfl, rfl⟩
      · exact Or.inr ⟨other, List.mem_append_left _ ended⟩
    running := by
      intro other otherMember side onSide
      obtain ⟨old, different⟩ := (remains other).mp otherMember
      rw [justified.side_eq goesOn old] at onSide
      apply running side _ (executes.running other old side onSide)
      intro sameSide sameId
      exact different (executes.alone other old execution member
        (onSide.trans sameSide.symm) sameId)
    alone := by
      intro first firstMember second secondMember
      have firstOld := ((remains first).mp firstMember).1
      have secondOld := ((remains second).mp secondMember).1
      rw [justified.side_eq goesOn firstOld, justified.side_eq goesOn secondOld]
      exact executes.alone first firstOld second secondOld }

/-- Every step keeps to what the log says of executions. -/
theorem Executes.step (executes : pair.Executes before) (justified : pair.Justified before)
    (numbers : before.HasNumbers) (step : pair.Step before after) : pair.Executes after := by
  have goesOn := step.goesOn justified
  have unchanged : ∀ {after : Network}, pair.GoesOn before after →
      after.executions = before.executions → after.events = before.events →
      after.answers = before.answers → pair.Executes after := by
    intro after goesOn executions events answers
    have silent : after.events = before.events ++ [] := events.trans (List.append_nil _).symm
    exact executes.idle justified goesOn executions silent (by simp) answers
  cases step with
  | clock | channels _ | outboxes _ | links _ | issue _ | enter _ _ _ =>
      exact unchanged goesOn rfl rfl rfl
  | turn found turn => exact executes.turn justified found turn
  | begin member _ => exact executes.begin justified numbers member
  | conclude member busy => exact executes.conclude justified numbers member busy
  | accept _ _ _ accepts _ =>
      exact executes.idle justified goesOn accepts.executions accepts.events
        (by simp [Event.IsOfExecution]) accepts.answers
  | «return» _ _ _ _ _ =>
      exact executes.idle justified goesOn rfl (Network.events_note _ _)
        (by simp [Event.IsOfExecution]) rfl

end Pair

end PeerCalls
