import PeerCalls.Proofs.Channel.Turns
import PeerCalls.Proofs.Network.Tables

/-!
# What reports leave behind

A channel reports calls that have ended, which are logged, and invocations, which
are executed under new numbers. Nothing else of a network changes by reports.
-/

namespace PeerCalls

/-- What is logged of a report. -/
def Report.event? (channel : Nat) : Report → Option Event
  | .ended call reply => some (.ended channel call reply)
  | .execute _ => none

/-- Executions that begin because of reports of a channel. -/
structure Fresh (channel low high : Nat) (invocations : List Invocation)
    (executions : List Execution) : Prop where
  invocations : executions.map Execution.invocation = invocations
  channel : ∀ execution ∈ executions, execution.channel = channel
  ready : ∀ execution ∈ executions, execution.stage = .ready
  numbers : (executions.map Execution.number).Nodup
  low : ∀ execution ∈ executions, low ≤ execution.number
  high : ∀ execution ∈ executions, execution.number < high

/-- A network before and after reports of a channel. -/
structure Reported (channel : Nat) (reports : List Report) (before after : Network) : Prop where
  same : after = { before with
    executions := after.executions, nextNumber := after.nextNumber, log := after.log }
  events : after.events = before.events ++ reports.filterMap (Report.event? channel)
  executions : ∃ fresh, after.executions = before.executions ++ fresh ∧
    Fresh channel before.nextNumber after.nextNumber (reports.filterMap Report.invocation?) fresh
  nextNumber : before.nextNumber ≤ after.nextNumber

namespace Network

theorem reported_report (network : Network) (channel : Nat) (report : Report) :
    Reported channel [report] network (network.report channel report) := by
  cases report with
  | ended call reply =>
      refine ⟨rfl, by simp [Network.report, Report.event?], ⟨[], ?_, ?_⟩, Nat.le_refl _⟩
      · simp [Network.report, note]
      · constructor <;> simp [Report.invocation?]
  | execute invocation =>
      refine ⟨rfl, ?_, ⟨[⟨network.nextNumber, channel, invocation, .ready⟩], rfl, ?_⟩,
        Nat.le_succ _⟩
      · simp [Network.report, number, events, Report.event?]
      · constructor <;> simp [Network.report, number, Report.invocation?]

end Network

namespace Fresh

variable {channel low middle high : Nat} {first second : List Invocation}
  {left right : List Execution}

theorem append (begins : Fresh channel low middle first left)
    (goesOn : Fresh channel middle high second right) (less : low ≤ middle)
    (more : middle ≤ high) : Fresh channel low high (first ++ second) (left ++ right) where
  invocations := by rw [List.map_append, begins.invocations, goesOn.invocations]
  channel execution member := by
    rcases List.mem_append.mp member with member | member
    · exact begins.channel execution member
    · exact goesOn.channel execution member
  ready execution member := by
    rcases List.mem_append.mp member with member | member
    · exact begins.ready execution member
    · exact goesOn.ready execution member
  numbers := by
    rw [List.map_append, List.nodup_append]
    refine ⟨begins.numbers, goesOn.numbers, ?_⟩
    intro old oldMember new newMember same
    obtain ⟨execution, member, rfl⟩ := List.mem_map.mp oldMember
    obtain ⟨other, otherMember, rfl⟩ := List.mem_map.mp newMember
    have below := begins.high execution member
    have above := goesOn.low other otherMember
    omega
  low execution member := by
    rcases List.mem_append.mp member with member | member
    · exact begins.low execution member
    · exact Nat.le_trans less (goesOn.low execution member)
  high execution member := by
    rcases List.mem_append.mp member with member | member
    · exact Nat.lt_of_lt_of_le (begins.high execution member) more
    · exact goesOn.high execution member

end Fresh

theorem Reported.trans {channel : Nat} {first second : List Report}
    {before middle after : Network} (left : Reported channel first before middle)
    (right : Reported channel second middle after) :
    Reported channel (first ++ second) before after where
  same := by rw [right.same, left.same]
  events := by rw [right.events, left.events, List.filterMap_append, List.append_assoc]
  executions := by
    obtain ⟨begun, equalBegun, freshBegun⟩ := left.executions
    obtain ⟨added, equalAdded, freshAdded⟩ := right.executions
    refine ⟨begun ++ added, by rw [equalAdded, equalBegun, List.append_assoc], ?_⟩
    rw [List.filterMap_append]
    exact freshBegun.append freshAdded left.nextNumber right.nextNumber
  nextNumber := Nat.le_trans left.nextNumber right.nextNumber

namespace Network

theorem reported_foldl (network : Network) (channel : Nat) (reports : List Report) :
    Reported channel reports network
      (reports.foldl (fun network report => network.report channel report) network) := by
  induction reports generalizing network with
  | nil => exact ⟨rfl, by simp, ⟨[], by simp, by constructor <;> simp⟩, Nat.le_refl _⟩
  | cons report rest ih =>
      rw [List.foldl_cons]
      exact (reported_report network channel report).trans (ih _)

/-- After a step a channel is back, and what it reported is there. -/
theorem reported_afterStep (network : Network) (channel : Nat) (next : Station × List Report) :
    Reported channel next.2 (network.setStation channel next.1)
      (network.afterStep channel next) :=
  reported_foldl _ channel next.2

section AfterStep

variable {network : Network} {channel : Nat} {place : ChannelPlace}
  (found : network.channels[channel]? = some place) (next : Station × List Report)
include found

theorem events_afterStep : (network.afterStep channel next).events =
    network.events ++ next.2.filterMap (Report.event? channel) := by
  rw [(reported_afterStep network channel next).events, events_setStation next.1 found]

theorem channels_afterStep (other : Nat) : (network.afterStep channel next).channels[other]? =
    if other = channel then some { place with channel := next.1.channel }
    else network.channels[other]? := by
  have same : (network.afterStep channel next).channels =
      (network.setStation channel next.1).channels := by
    rw [(reported_afterStep network channel next).same]
  rw [same, channels_setStation next.1 found]

theorem outboxes_afterStep (other : Nat) : (network.afterStep channel next).outboxes[other]? =
    if other = place.outbox then
      network.outboxes[other]?.map fun entry => { entry with outbox := next.1.outbox }
    else network.outboxes[other]? := by
  have same : (network.afterStep channel next).outboxes =
      (network.setStation channel next.1).outboxes := by
    rw [(reported_afterStep network channel next).same]
  rw [same, outboxes_setStation next.1 found]

theorem executions_afterStep : ∃ fresh,
    (network.afterStep channel next).executions = network.executions ++ fresh ∧
      Fresh channel network.nextNumber (network.afterStep channel next).nextNumber
        (next.2.filterMap Report.invocation?) fresh := by
  obtain ⟨fresh, executions, begun⟩ := (reported_afterStep network channel next).executions
  rw [executions_setStation next.1 found] at executions
  rw [nextNumber_setStation next.1 found] at begun
  exact ⟨fresh, executions, begun⟩

/-- What a channel asks for is executed from now on. -/
theorem exists_execution_afterStep {invocation : Invocation}
    (told : .execute invocation ∈ next.2) :
    ∃ execution ∈ (network.afterStep channel next).executions,
      execution.channel = channel ∧ execution.invocation = invocation := by
  obtain ⟨fresh, executions, begun⟩ := executions_afterStep found next
  have asked : invocation ∈ fresh.map Execution.invocation := by
    rw [begun.invocations]
    exact List.mem_filterMap.mpr ⟨_, told, rfl⟩
  obtain ⟨execution, isFresh, same⟩ := List.mem_map.mp asked
  refine ⟨execution, ?_, begun.channel execution isFresh, same⟩
  rw [executions]
  exact List.mem_append_right _ isFresh

end AfterStep

end Network

end PeerCalls
