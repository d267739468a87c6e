import PeerCalls.Proofs.Channel.Admission
import PeerCalls.Proofs.Network.Executions
import PeerCalls.Proofs.Network.Reports
import PeerCalls.Proofs.Network.Steps

/-!
# No call is executed twice

All channels that work on the same cache of answers share it: one after the other or
side by side. In every run at most one execution begins for each id that arrives at
one of them. The invariant counts, next to the executions that have begun, those
that are about to begin, and says that the answers know the ids of both.
-/

namespace PeerCalls.Network

/-- A channel works on a cache of answers. -/
def worksOn (network : Network) (answers channel : Nat) : Bool :=
  (network.channels[channel]?).any (·.answers == answers)

/-- The invocation that a service begins to execute for a cache of answers. -/
def executedBy? (network : Network) (answers : Nat) : Event → Option Invocation
  | .executing channel invocation =>
      if network.worksOn answers channel then some invocation else none
  | _ => none

/-- The invocations that services have begun to execute for a cache of answers, in
this order. -/
def executedFor (network : Network) (answers : Nat) : List Invocation :=
  network.events.filterMap (network.executedBy? answers)

theorem mem_executedFor_iff {network : Network} {answers : Nat} {invocation : Invocation} :
    invocation ∈ network.executedFor answers ↔ ∃ channel,
      .executing channel invocation ∈ network.events ∧ network.worksOn answers channel = true := by
  simp only [executedFor, List.mem_filterMap]
  constructor
  · rintro ⟨event, logged, begun⟩
    cases event with
    | executing channel other =>
        simp only [executedBy?, Option.ite_none_right_eq_some, Option.some.injEq] at begun
        obtain ⟨works, rfl⟩ := begun
        exact ⟨channel, logged, works⟩
    | _ => cases begun
  · rintro ⟨channel, logged, works⟩
    exact ⟨_, logged, by simp [executedBy?, works]⟩

/-- The execution is about to begin for a cache of answers. -/
def isReadyFor (network : Network) (answers : Nat) (execution : Execution) : Bool :=
  execution.stage = .ready && network.worksOn answers execution.channel

/-- The invocations that are about to be executed for a cache of answers. -/
def readyFor (network : Network) (answers : Nat) : List Invocation :=
  (network.executions.filter (network.isReadyFor answers)).map Execution.invocation

/-- All invocations that were admitted for a cache of answers. -/
def admittedFor (network : Network) (answers : Nat) : List Invocation :=
  network.executedFor answers ++ network.readyFor answers

/-- Every id is admitted once. -/
structure AdmitsOnce (network : Network) : Prop where
  begun : ∀ channel invocation, .executing channel invocation ∈ network.events →
    channel < network.channels.size
  pending : ∀ execution ∈ network.executions, execution.channel < network.channels.size
  numbers : network.HasNumbers
  numbered : ∀ execution ∈ network.executions, execution.number < network.nextNumber
  once : ∀ answers, ((network.admittedFor answers).map Invocation.id).Nodup
  known : ∀ answers, ∀ invocation ∈ network.admittedFor answers,
    ∃ entry, network.answers[answers]? = some entry ∧ entry.IsKnown invocation.id

/-- What is about to be executed was not executed before. -/
theorem AdmitsOnce.not_executed {network : Network} (holds : network.AdmitsOnce) {answers : Nat}
    {execution : Execution} (member : execution ∈ network.executions)
    (ready : network.isReadyFor answers execution = true) :
    execution.invocation.id ∉ (network.executedFor answers).map Invocation.id := by
  have once := holds.once answers
  rw [admittedFor, List.map_append, List.nodup_append] at once
  have pending : execution.invocation ∈ network.readyFor answers :=
    List.mem_map_of_mem (List.mem_filter.mpr ⟨member, ready⟩)
  exact fun again => once.2.2 _ again _ (List.mem_map_of_mem pending) rfl

/-! ## Channels stay with their answers -/

/-- No channel goes away or changes the answers that it works on. -/
def KeepsChannels (before after : Network) : Prop :=
  ∀ ⦃channel : Nat⦄ ⦃place : ChannelPlace⦄, before.channels[channel]? = some place →
    ∃ later : ChannelPlace, after.channels[channel]? = some later ∧ later.answers = place.answers

section Keeps

variable {before after : Network} (keeps : KeepsChannels before after)
include keeps

theorem KeepsChannels.worksOn {channel : Nat} (there : channel < before.channels.size)
    (answers : Nat) : after.worksOn answers channel = before.worksOn answers channel := by
  obtain ⟨later, found, same⟩ := keeps (Array.getElem?_eq_getElem there)
  simp [Network.worksOn, found, there, same]

theorem KeepsChannels.size : before.channels.size ≤ after.channels.size := by
  apply Nat.le_of_not_lt
  intro fewer
  obtain ⟨later, found, _⟩ := keeps (Array.getElem?_eq_getElem fewer)
  simp at found

theorem KeepsChannels.executedFor {others : List Event}
    (begun : ∀ channel invocation, .executing channel invocation ∈ before.events →
      channel < before.channels.size)
    (events : after.events = before.events ++ others) (answers : Nat) :
    after.executedFor answers =
      before.executedFor answers ++ others.filterMap (after.executedBy? answers) := by
  rw [Network.executedFor, events, List.filterMap_append]
  congr 1
  apply List.filterMap_congr
  intro event member
  cases event with
  | executing channel invocation =>
      simp only [executedBy?, keeps.worksOn (begun channel invocation member)]
  | _ => rfl

theorem KeepsChannels.readyFor
    (pending : ∀ execution ∈ before.executions, execution.channel < before.channels.size)
    {executions : List Execution} (fewer : ∀ execution ∈ executions, execution ∈ before.executions)
    (answers : Nat) :
    executions.filter (after.isReadyFor answers) =
      executions.filter (before.isReadyFor answers) := by
  apply List.filter_congr
  intro execution member
  simp only [isReadyFor, keeps.worksOn (pending execution (fewer execution member))]

end Keeps

/-! ## What a happening preserves -/

variable {before after : Network}

/-- Answers only learn. -/
def Learns (before after : Network) : Prop :=
  ∀ ⦃place : Nat⦄ ⦃entry : Answers⦄, before.answers[place]? = some entry →
    ∃ later, after.answers[place]? = some later ∧ ∀ id, entry.IsKnown id → later.IsKnown id

theorem learns_of_eq (same : after.answers = before.answers) : Learns before after :=
  fun _ _ found => ⟨_, same ▸ found, fun _ known => known⟩

section Idle

variable {others : List Event} (holds : AdmitsOnce before) (keeps : KeepsChannels before after)
  (events : after.events = before.events ++ others)
  (silent : ∀ channel invocation, .executing channel invocation ∉ others)
  (executions : after.executions.Sublist before.executions)
include holds keeps events silent executions

/-- While nothing begins, nothing is admitted. -/
theorem AdmitsOnce.admittedFor_sublist (answers : Nat) :
    (after.admittedFor answers).Sublist (before.admittedFor answers) := by
  have unbegun : others.filterMap (after.executedBy? answers) = [] := by
    rw [List.filterMap_eq_nil_iff]
    intro event member
    cases event with
    | executing channel invocation => exact absurd member (silent channel invocation)
    | _ => rfl
  rw [admittedFor, keeps.executedFor holds.begun events, unbegun, List.append_nil, admittedFor]
  refine List.Sublist.append (List.Sublist.refl _) ?_
  rw [readyFor, keeps.readyFor holds.pending fun _ member => executions.subset member]
  exact (executions.filter _).map _

/-- Nothing begins: executions end, and other things are logged. -/
theorem AdmitsOnce.idle (learns : Learns before after)
    (nextNumber : before.nextNumber ≤ after.nextNumber) : AdmitsOnce after := by
  have fewer := holds.admittedFor_sublist keeps events silent executions
  exact {
    begun := by
      intro channel invocation member
      rw [events] at member
      have old := (List.mem_append.mp member).resolve_right (silent channel invocation)
      exact Nat.lt_of_lt_of_le (holds.begun channel invocation old) keeps.size
    pending := fun execution member =>
      Nat.lt_of_lt_of_le (holds.pending execution (executions.subset member)) keeps.size
    numbers := (executions.map _).nodup holds.numbers
    numbered := fun execution member =>
      Nat.lt_of_lt_of_le (holds.numbered execution (executions.subset member)) nextNumber
    once := fun answers => ((fewer answers).map _).nodup (holds.once answers)
    known := by
      intro answers invocation member
      obtain ⟨entry, found, known⟩ := holds.known answers invocation ((fewer answers).subset member)
      obtain ⟨later, foundLater, grown⟩ := learns found
      exact ⟨later, foundLater, grown _ known⟩ }

end Idle

theorem AdmitsOnce.begins {execution : Execution} (holds : AdmitsOnce before)
    (ready : execution.stage = .ready) (begins : Begins execution before after) :
    AdmitsOnce after := by
  obtain ⟨left, right, wake, conclusion, split, executions⟩ := begins.executions
  have channels : after.channels = before.channels := by rw [begins.same]
  have answers : after.answers = before.answers := by rw [begins.same]
  have nextNumber : after.nextNumber = before.nextNumber := by rw [begins.same]
  have keeps : KeepsChannels before after := fun _ _ found => ⟨_, channels ▸ found, rfl⟩
  have worksOn : after.worksOn = before.worksOn := by
    funext answers channel
    rw [Network.worksOn, Network.worksOn, channels]
  have isReadyFor : after.isReadyFor = before.isReadyFor := by
    funext answers other
    rw [Network.isReadyFor, Network.isReadyFor, worksOn]
  -- What was about to be executed is executed.
  have moved : ∀ answers, (after.admittedFor answers).Perm (before.admittedFor answers) := by
    intro answers
    rw [admittedFor, keeps.executedFor holds.begun begins.events, admittedFor, readyFor, readyFor,
      executions, split, isReadyFor]
    by_cases works : before.worksOn answers execution.channel = true
    · simp only [executedBy?, worksOn, works, Network.isReadyFor, ready, List.filter_append,
        List.filter_cons, List.filterMap_cons, List.filterMap_nil, List.map_append,
        List.map_cons, List.append_assoc, List.singleton_append, decide_true, Bool.true_and, if_true,
        reduceCtorEq, decide_false, Bool.false_and, Bool.false_eq_true, if_false]
      exact List.perm_middle.symm.append_left _
    · simp [executedBy?, worksOn, works, Network.isReadyFor, ready]
  have kept : ∀ other ∈ after.executions, ∃ old ∈ before.executions,
      old.channel = other.channel ∧ old.number = other.number := by
    intro other member
    rw [executions, List.mem_append, List.mem_cons] at member
    rw [split]
    rcases member with old | rfl | old
    · exact ⟨other, List.mem_append_left _ old, rfl, rfl⟩
    · exact ⟨execution, by simp, rfl, rfl⟩
    · exact ⟨other, by simp [old], rfl, rfl⟩
  exact {
    begun := by
      intro channel invocation member
      rw [begins.events, List.mem_append, List.mem_singleton] at member
      rw [channels]
      rcases member with old | new
      · exact holds.begun channel invocation old
      · cases new
        exact holds.pending execution (by simp [split])
    pending := by
      intro other member
      obtain ⟨old, oldMember, channel, _⟩ := kept other member
      rw [channels, ← channel]
      exact holds.pending old oldMember
    numbers := by
      rw [HasNumbers, executions]
      have numbers := holds.numbers
      rw [HasNumbers, split] at numbers
      simpa using numbers
    numbered := by
      intro other member
      obtain ⟨old, oldMember, _, number⟩ := kept other member
      rw [nextNumber, ← number]
      exact holds.numbered old oldMember
    once := fun answers => ((moved answers).map _).nodup_iff.mpr (holds.once answers)
    known := by
      intro place invocation member
      rw [answers]
      exact holds.known place invocation ((moved place).mem_iff.mp member) }

/-- Executions are added for a channel, and its answers know them from now on. -/
theorem AdmitsOnce.admit {channel : Nat} {place : ChannelPlace} {entry later : Answers}
    {invocations : List Invocation} {fresh : List Execution} {others : List Event}
    (holds : AdmitsOnce before) (keeps : KeepsChannels before after)
    (learns : Learns before after) (events : after.events = before.events ++ others)
    (silent : ∀ channel invocation, .executing channel invocation ∉ others)
    (executions : after.executions = before.executions ++ fresh)
    (begun : Fresh channel before.nextNumber after.nextNumber invocations fresh)
    (nextNumber : before.nextNumber ≤ after.nextNumber)
    (foundPlace : before.channels[channel]? = some place)
    (foundEntry : before.answers[place.answers]? = some entry)
    (foundLater : after.answers[place.answers]? = some later)
    (admits : Answers.Admits (invocations.map Invocation.id) entry later) :
    AdmitsOnce after := by
  have there : channel < before.channels.size := (Array.getElem?_eq_some_iff.mp foundPlace).1
  -- Without the new executions nothing has begun.
  have idle : AdmitsOnce { after with executions := before.executions } :=
    holds.idle keeps events silent (List.Sublist.refl _) learns nextNumber
  have worksOn : ∀ answers, after.worksOn answers channel = (place.answers == answers) := by
    intro answers
    rw [keeps.worksOn there, Network.worksOn, foundPlace, Option.any_some]
  have added : ∀ answers, after.admittedFor answers =
      Network.admittedFor { after with executions := before.executions } answers ++
        if place.answers = answers then invocations else [] := by
    intro answers
    have ready : (fresh.filter (after.isReadyFor answers)).map Execution.invocation =
        if place.answers = answers then invocations else [] := by
      have same : fresh.filter (after.isReadyFor answers) =
          fresh.filter fun _ => place.answers == answers := by
        apply List.filter_congr
        intro execution member
        simp [isReadyFor, begun.ready execution member, begun.channel execution member, worksOn]
      rw [same, ← begun.invocations]
      by_cases works : place.answers = answers <;> simp [works]
    rw [admittedFor, readyFor, executions, List.filter_append, List.map_append, ready,
      ← List.append_assoc]
    rfl
  have unknown : ∀ invocation ∈
      Network.admittedFor { after with executions := before.executions } place.answers,
      invocation.id ∉ invocations.map Invocation.id := by
    intro invocation member again
    have fewer := @AdmitsOnce.admittedFor_sublist before
      { after with executions := before.executions } others holds keeps events silent
      (List.Sublist.refl _) place.answers
    obtain ⟨old, foundOld, known⟩ := holds.known place.answers invocation (fewer.subset member)
    cases foundEntry.symm.trans foundOld
    exact admits.unknown _ again known
  exact {
    begun := idle.begun
    pending := by
      intro execution member
      rw [executions, List.mem_append] at member
      rcases member with old | new
      · exact idle.pending execution old
      · rw [begun.channel execution new]
        exact Nat.lt_of_lt_of_le there keeps.size
    numbers := by
      rw [HasNumbers, executions, List.map_append, List.nodup_append]
      refine ⟨holds.numbers, begun.numbers, ?_⟩
      intro old oldMember new newMember same
      obtain ⟨execution, member, rfl⟩ := List.mem_map.mp oldMember
      obtain ⟨other, otherMember, rfl⟩ := List.mem_map.mp newMember
      have below := holds.numbered execution member
      have above := begun.low other otherMember
      omega
    numbered := by
      intro execution member
      rw [executions, List.mem_append] at member
      rcases member with old | new
      · exact idle.numbered execution old
      · exact begun.high execution new
    once := by
      intro answers
      rw [added]
      split
      next works =>
        subst works
        rw [List.map_append, List.nodup_append]
        refine ⟨idle.once _, admits.nodup, ?_⟩
        rintro id old _ new rfl
        obtain ⟨invocation, member, rfl⟩ := List.mem_map.mp old
        exact unknown invocation member new
      next =>
        rw [List.append_nil]
        exact idle.once answers
    known := by
      intro answers invocation member
      rw [added, List.mem_append] at member
      rcases member with old | new
      · exact idle.known answers invocation old
      · split at new
        next works =>
          subst works
          exact ⟨later, foundLater, admits.known _ (List.mem_map_of_mem new)⟩
        next => cases new }

section SetStation

variable {network : Network} {channel : Nat} {place : ChannelPlace} (station : Station)
  (found : network.channels[channel]? = some place)
include found

theorem keepsChannels_setStation : KeepsChannels network (network.setStation channel station) := by
  intro other entry foundOther
  rw [channels_setStation station found]
  split
  next same =>
    subst same
    cases found.symm.trans foundOther
    exact ⟨_, rfl, rfl⟩
  next => exact ⟨entry, foundOther, rfl⟩

theorem learns_setStation
    (learns : ∀ entry, network.answers[place.answers]? = some entry →
      ∀ id, entry.IsKnown id → station.answers.IsKnown id) :
    Learns network (network.setStation channel station) := by
  intro other entry foundEntry
  rw [answers_setStation station found]
  split
  next same =>
    subst same
    exact ⟨_, by rw [foundEntry]; rfl, learns entry foundEntry⟩
  next => exact ⟨entry, foundEntry, fun _ known => known⟩

end SetStation

theorem no_executing_of_reports (channel : Nat) (reports : List Report) (other : Nat)
    (invocation : Invocation) :
    .executing other invocation ∉ reports.filterMap (Report.event? channel) := by
  intro member
  obtain ⟨report, _, noted⟩ := List.mem_filterMap.mp member
  cases report <;> cases noted

/-- A turn of a channel admits only what its answers did not know. -/
theorem AdmitsOnce.turn {network : Network} {channel : Nat} {station : Station}
    {next : Station × List Report} (holds : AdmitsOnce network)
    (found : network.station? channel = some station) (turn : station.Turn next.1 next.2) :
    AdmitsOnce (network.afterStep channel next) := by
  obtain ⟨place, outbox, entry, link, foundPlace, _, foundEntry, _, rfl⟩ :=
    station?_eq_some_iff.mp found
  have admits := turn.admits
  have stepKeeps := keepsChannels_setStation next.1 foundPlace
  have stepLearns := learns_setStation next.1 foundPlace fun old foundOld id known => by
    cases foundEntry.symm.trans foundOld
    exact admits.grows id known
  have reported := reported_afterStep network channel next
  have channels : (network.afterStep channel next).channels =
      (network.setStation channel next.1).channels := by rw [reported.same]
  have answers : (network.afterStep channel next).answers =
      (network.setStation channel next.1).answers := by rw [reported.same]
  have keeps : KeepsChannels network (network.afterStep channel next) := fun _ _ there =>
    channels ▸ stepKeeps there
  have learns : Learns network (network.afterStep channel next) := fun _ _ there =>
    answers ▸ stepLearns there
  have events := events_afterStep foundPlace next
  obtain ⟨fresh, executions, begun⟩ := executions_afterStep foundPlace next
  have nextNumber := reported.nextNumber
  rw [nextNumber_setStation next.1 foundPlace] at nextNumber
  refine holds.admit keeps learns events (no_executing_of_reports channel next.2) executions begun
    nextNumber foundPlace foundEntry ?_ admits
  rw [answers, answers_setStation next.1 foundPlace, if_pos rfl, foundEntry]
  rfl

/-- A channel is put back with answers that have not forgotten anything. -/
theorem AdmitsOnce.setStation {network : Network} {channel : Nat} {place : ChannelPlace}
    {entry : Answers} {station : Station} (holds : AdmitsOnce network)
    (foundPlace : network.channels[channel]? = some place)
    (foundEntry : network.answers[place.answers]? = some entry)
    (grows : ∀ id, entry.IsKnown id → station.answers.IsKnown id) :
    AdmitsOnce (network.setStation channel station) := by
  have events := (events_setStation station foundPlace).trans (List.append_nil _).symm
  refine holds.idle (keepsChannels_setStation station foundPlace) events nofun ?_ ?_ ?_
  · rw [executions_setStation station foundPlace]
  · apply learns_setStation station foundPlace
    intro old foundOld id known
    cases foundEntry.symm.trans foundOld
    exact grows id known
  · exact Nat.le_of_eq (nextNumber_setStation station foundPlace).symm

theorem AdmitsOnce.conclude {network : Network} {execution : Execution}
    (holds : AdmitsOnce network) (member : execution ∈ network.executions)
    (conclusion : Conclusion) : AdmitsOnce (network.endExecution execution conclusion) := by
  have finishes := finishes_dropExecution holds.numbers member conclusion
  simp only [endExecution]
  generalize (network.dropExecution execution.number).note
    (.executed execution.channel execution.invocation conclusion) = dropped at finishes
  obtain ⟨left, right, split, executions⟩ := finishes.executions
  have ended : AdmitsOnce dropped := by
    refine holds.idle ?_ finishes.events ?_ ?_ ?_ ?_
    · intro channel place found
      exact ⟨place, by rw [finishes.same]; exact found, rfl⟩
    · simp
    · rw [executions, split]
      exact (List.sublist_cons_self _ _).append_left _
    · exact learns_of_eq (by rw [finishes.same])
    · exact Nat.le_of_eq (by rw [finishes.same])
  split
  · exact ended
  next station found =>
    obtain ⟨place, outbox, entry, link, foundPlace, _, foundEntry, _, rfl⟩ :=
      station?_eq_some_iff.mp found
    refine ended.setStation foundPlace foundEntry fun id known => known.record _

theorem AdmitsOnce.takes {network next : Network} {happening : Happening}
    (holds : AdmitsOnce network) (takes : Takes network happening next)
    (awake : happening.sleeps = false) : AdmitsOnce next := by
  cases takes with
  | quiet quiet =>
      obtain ⟨others, events, silent⟩ := quiet.events
      refine holds.idle ?_ events ?_ ?_ ?_ quiet.nextNumber
      · intro channel place found
        obtain ⟨later, foundLater, stays⟩ := quiet.channels.kept found
        exact ⟨later, foundLater, stays.answers⟩
      · exact fun channel invocation member => silent _ member
      · rw [quiet.executions]
      · intro place entry found
        obtain ⟨later, foundLater, same⟩ := quiet.answers.kept found
        exact ⟨later, foundLater, fun _ known => same ▸ known⟩
  | turn found turn => exact holds.turn found turn
  | begin member ready =>
      exact holds.begins ready (begins_beginExecution holds.numbers member
        (Array.getElem?_eq_getElem (holds.pending _ member)))
  | conclude member busy => exact holds.conclude member _
  | accept accepts =>
      refine holds.idle ?_ accepts.events ?_ ?_ ?_ ?_
      · intro channel place found
        exact ⟨place, by rw [accepts.channels]; exact found, rfl⟩
      · simp
      · rw [accepts.executions]
      · exact learns_of_eq accepts.answers
      · exact Nat.le_of_eq accepts.nextNumber.symm
  | handle handles =>
      rw [setBacklog_eq]
      refine holds.idle ?_ (List.append_nil _).symm nofun ?_ ?_ ?_
      · exact fun channel place found => ⟨place, found, rfl⟩
      · exact List.Sublist.refl _
      · exact learns_of_eq rfl
      · exact Nat.le_refl _
  | sleep => cases awake

theorem AdmitsOnce.happen {network : Network} (holds : AdmitsOnce network)
    (happening : Happening) : AdmitsOnce (network.happen happening) :=
  happen_preserves (fun takes awake holds => holds.takes takes awake) holds happening

theorem AdmitsOnce.run {network : Network} (holds : AdmitsOnce network)
    (happenings : List Happening) : AdmitsOnce (network.run happenings) :=
  (obeys_true network happenings).preserves
    (fun _ happening _ holds => holds.happen happening) holds

theorem admitsOnce_empty : AdmitsOnce empty where
  begun := nofun
  pending := nofun
  numbers := List.nodup_nil
  numbered := nofun
  once _ := List.nodup_nil
  known := nofun

/-- In every run, services begin at most once to execute an invocation with a given id
that arrives at any of the channels that work on the same cache of answers. -/
theorem count_executedFor_le_one (happenings : List Happening) (answers : Nat) (id : UInt64) :
    (((empty.run happenings).executedFor answers).map Invocation.id).count id ≤ 1 := by
  have once := (admitsOnce_empty.run happenings).once answers
  rw [admittedFor, List.map_append] at once
  exact List.nodup_iff_count.mp (List.nodup_append.mp once).1 id

end PeerCalls.Network
