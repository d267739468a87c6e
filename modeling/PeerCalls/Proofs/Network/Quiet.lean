import PeerCalls.Proofs.Channel.Link
import PeerCalls.Proofs.Network.Happenings
import PeerCalls.Proofs.Network.Tables

/-!
# What leaves calls alone

Most of what happens to a network touches neither queues nor executions: servers
and clients come and go, links are opened and cut, waiters register and leave. Such
a change is quiet: no queue changes, no cache of answers, no execution and no
channel either, except that channels are stopped and new parts are added. A link
keeps its limit, and the channel of an outbox its signal. Every happening is quiet,
but for somebody who takes a signal, and apart from the few that `Network.Takes` names.
-/

namespace PeerCalls

/-- A channel stays as it is, or it is stopped. -/
structure ChannelPlace.Stays (before after : ChannelPlace) : Prop where
  outbox : after.outbox = before.outbox
  answers : after.answers = before.answers
  link : after.link = before.link
  channel : after.channel = before.channel ∨ after.channel = before.channel.stop

/-- A channel that has done nothing yet. -/
def ChannelPlace.IsNew (place : ChannelPlace) : Prop :=
  ∃ contact side, place.channel = Channel.start contact side ∨
    place.channel = (Channel.start contact side).stop

/-- The queue of an outbox stays as it is. -/
structure OutboxPlace.KeepsQueue (before after : OutboxPlace) : Prop where
  queue : after.outbox.queue = before.outbox.queue
  settings : after.outbox.settings = before.outbox.settings
  backlog : after.backlog = before.backlog

/-- The event is about no queue and no execution. -/
def Event.IsQuiet : Event → Prop
  | .returned _ _ | .arrived _ _ | .closed _ => True
  | .accepted _ _ _ | .ended _ _ _ | .executing _ _ | .executed _ _ _ => False

theorem ChannelPlace.Stays.refl (place : ChannelPlace) : place.Stays place :=
  ⟨rfl, rfl, rfl, Or.inl rfl⟩

theorem ChannelPlace.Stays.trans {first second third : ChannelPlace}
    (left : first.Stays second) (right : second.Stays third) : first.Stays third where
  outbox := right.outbox.trans left.outbox
  answers := right.answers.trans left.answers
  link := right.link.trans left.link
  channel := by
    rcases left.channel with same | stopped <;> rcases right.channel with same' | stopped'
    · exact Or.inl (same'.trans same)
    · exact Or.inr (stopped'.trans (congrArg _ same))
    · exact Or.inr (same'.trans stopped)
    · exact Or.inr (by rw [stopped', stopped]; rfl)

theorem ChannelPlace.IsNew.stays {before after : ChannelPlace} (fresh : before.IsNew)
    (stays : before.Stays after) : after.IsNew := by
  obtain ⟨contact, side, fresh⟩ := fresh
  refine ⟨contact, side, ?_⟩
  rcases stays.channel with same | stopped <;> rcases fresh with started | started
  · exact Or.inl (same.trans started)
  · exact Or.inr (same.trans started)
  · exact Or.inr (stopped.trans (congrArg _ started))
  · exact Or.inr (by rw [stopped, started]; rfl)

theorem OutboxPlace.KeepsQueue.refl (place : OutboxPlace) : place.KeepsQueue place :=
  ⟨rfl, rfl, rfl⟩

theorem OutboxPlace.KeepsQueue.trans {first second third : OutboxPlace}
    (left : first.KeepsQueue second) (right : second.KeepsQueue third) :
    first.KeepsQueue third where
  queue := right.queue.trans left.queue
  settings := right.settings.trans left.settings
  backlog := right.backlog.trans left.backlog

/-- Between two states of a network nothing has happened to calls, and signals were taken at
none but some outboxes. -/
structure QuietBut (taken : Nat → Bool) (before after : Network) : Prop where
  channels : Grows ChannelPlace.Stays ChannelPlace.IsNew before.channels after.channels
  outboxes : Grows OutboxPlace.KeepsQueue (fun _ => True) before.outboxes after.outboxes
  signals : ∀ {place : Nat} {entry later : OutboxPlace}, taken place = false →
    before.outboxes[place]? = some entry → after.outboxes[place]? = some later →
      entry.outbox.isSignaled = true → later.outbox.isSignaled = true
  answers : Grows (fun old new => old = new) (fun added => ∃ capacity, added = Answers.new capacity)
    before.answers after.answers
  executions : after.executions = before.executions
  events : ∃ quiet, after.events = before.events ++ quiet ∧ ∀ event ∈ quiet, event.IsQuiet
  nextNumber : before.nextNumber ≤ after.nextNumber
  links : Grows Link.IsAlike (fun _ => True) before.links after.links

/-- Between two states of a network nothing has happened to calls and signals. -/
abbrev Quiet (before after : Network) : Prop := QuietBut (fun _ => false) before after

variable {before middle after network : Network}

namespace Quiet

theorem of_eq (channels : after.channels = before.channels)
    (outboxes : after.outboxes = before.outboxes) (answers : after.answers = before.answers)
    (executions : after.executions = before.executions) (log : after.log = before.log)
    (nextNumber : before.nextNumber ≤ after.nextNumber)
    (links : after.links = before.links) : Quiet before after where
  channels := channels ▸ Grows.refl ChannelPlace.Stays.refl
  outboxes := outboxes ▸ Grows.refl OutboxPlace.KeepsQueue.refl
  signals _ found foundLater signaled := by
    rw [outboxes] at foundLater
    cases found.symm.trans foundLater
    exact signaled
  answers := answers ▸ Grows.refl fun _ => rfl
  executions
  events := ⟨[], by simp [Network.events, log]⟩
  nextNumber
  links := links ▸ Grows.refl Link.IsAlike.refl

theorem refl (network : Network) : Quiet network network :=
  of_eq rfl rfl rfl rfl rfl (Nat.le_refl _) rfl

theorem trans (left : Quiet before middle) (right : Quiet middle after) : Quiet before after where
  channels := left.channels.trans ChannelPlace.Stays.trans ChannelPlace.IsNew.stays right.channels
  outboxes := left.outboxes.trans OutboxPlace.KeepsQueue.trans (fun _ _ => trivial) right.outboxes
  signals untaken found foundLater signaled := by
    obtain ⟨between, foundBetween, _⟩ := left.outboxes.kept found
    exact right.signals untaken foundBetween foundLater
      (left.signals untaken found foundBetween signaled)
  answers := left.answers.trans Eq.trans (fun fresh same => same ▸ fresh) right.answers
  executions := right.executions.trans left.executions
  events := by
    obtain ⟨first, equalFirst, quietFirst⟩ := left.events
    obtain ⟨second, equalSecond, quietSecond⟩ := right.events
    refine ⟨first ++ second, by rw [equalSecond, equalFirst, List.append_assoc], ?_⟩
    intro event member
    rcases List.mem_append.mp member with member | member
    · exact quietFirst event member
    · exact quietSecond event member
  nextNumber := Nat.le_trans left.nextNumber right.nextNumber
  links := left.links.trans Link.IsAlike.trans (fun _ _ => trivial) right.links

/-! ## Single changes -/

theorem note {event : Event} (quiet : event.IsQuiet) : Quiet network (network.note event) :=
  { refl network with
    events := ⟨[event], Network.events_note network event, by simpa using quiet⟩ }

/-- An outbox is changed apart from its queue. -/
theorem modifyOutbox {taken : Nat → Bool} {place : Nat} {change : Outbox → Outbox}
    (keeps : ∀ entry, network.outboxes[place]? = some entry →
      (change entry.outbox).queue = entry.outbox.queue ∧
        (change entry.outbox).settings = entry.outbox.settings)
    (signal : taken place = false → ∀ entry, network.outboxes[place]? = some entry →
      entry.outbox.isSignaled = true → (change entry.outbox).isSignaled = true) :
    QuietBut taken network (network.modifyOutbox place change) :=
  { refl network with
    outboxes := by
      change Grows _ _ _ (network.outboxes.modify place fun entry =>
        { entry with outbox := change entry.outbox })
      refine Grows.modify OutboxPlace.KeepsQueue.refl ?_
      intro entry found
      exact ⟨(keeps entry found).1, (keeps entry found).2, rfl⟩
    signals := by
      intro other entry later untaken found foundLater signaled
      simp only [Network.modifyOutbox] at foundLater
      rw [Array.getElem?_modify] at foundLater
      split at foundLater
      next here =>
        subst here
        rw [found] at foundLater
        cases foundLater
        exact signal untaken entry found signaled
      next =>
        cases found.symm.trans foundLater
        exact signaled }

/-- An outbox is put back. -/
theorem replaceOutbox {place : Nat} {entry : OutboxPlace} {outbox : Outbox}
    (found : network.outboxes[place]? = some entry) (queue : outbox.queue = entry.outbox.queue)
    (settings : outbox.settings = entry.outbox.settings)
    (signal : entry.outbox.isSignaled = true → outbox.isSignaled = true) :
    Quiet network (network.modifyOutbox place fun _ => outbox) := by
  have same : ∀ other, network.outboxes[place]? = some other → other = entry :=
    fun _ foundOther => Option.some.inj (foundOther.symm.trans found)
  apply modifyOutbox
  · exact fun other foundOther => same other foundOther ▸ ⟨queue, settings⟩
  · exact fun _ other foundOther => same other foundOther ▸ signal

theorem modifyChannels {place : Nat} {change : ChannelPlace → ChannelPlace}
    (stays : ∀ entry : ChannelPlace, entry.Stays (change entry)) :
    Quiet network { network with channels := network.channels.modify place change } :=
  { refl network with
    channels := Grows.modify ChannelPlace.Stays.refl fun entry _ => stays entry }

theorem stopChannel (network : Network) (channel : Nat) :
    Quiet network (network.modifyChannel channel Channel.stop) :=
  modifyChannels fun _ => ⟨rfl, rfl, rfl, Or.inr rfl⟩

theorem setLinks {links : Array Link}
    (grows : Grows Link.IsAlike (fun _ => True) network.links links) :
    Quiet network { network with links } :=
  { refl network with links := grows }

theorem modifyLink {place : Nat} {change : Link → Link}
    (keeps : ∀ link, network.links[place]? = some link → link.IsAlike (change link)) :
    Quiet network (network.modifyLink place change) :=
  setLinks (Grows.modify Link.IsAlike.refl keeps)

/-- A link is put back. -/
theorem replaceLink {place : Nat} {link changed : Link}
    (found : network.links[place]? = some link) (alike : link.IsAlike changed) :
    Quiet network (network.modifyLink place fun _ => changed) := by
  apply modifyLink
  intro other foundOther
  cases foundOther.symm.trans found
  exact alike

theorem dropLink (network : Network) (place : Nat) (side : Side) :
    Quiet network (network.modifyLink place (·.drop side)) :=
  modifyLink fun link _ => (Link.loses_drop link side).limit

theorem modifyServer (network : Network) (server : Nat) (change : Server → Server) :
    Quiet network (network.modifyServer server change) :=
  of_eq rfl rfl rfl rfl rfl (Nat.le_refl _) rfl

theorem modifyClient (network : Network) (client : Nat) (change : Client → Client) :
    Quiet network (network.modifyClient client change) :=
  of_eq rfl rfl rfl rfl rfl (Nat.le_refl _) rfl

theorem setBacklog (network : Network) (place : Option Nat) (backlog : Option Backlog) :
    Quiet network (network.setBacklog place backlog) := by
  rw [Network.setBacklog_eq]
  exact of_eq rfl rfl rfl rfl rfl (Nat.le_refl _) rfl

theorem addOutbox (network : Network) (outbox : Outbox) (backlog : Option Nat) :
    Quiet network (network.addOutbox outbox backlog).2 :=
  { refl network with
    outboxes := Grows.push OutboxPlace.KeepsQueue.refl trivial
    signals := by
      intro place entry later _ found foundLater signaled
      have inside : place < network.outboxes.size := (Array.getElem?_eq_some_iff.mp found).1
      simp only [Network.addOutbox] at foundLater
      rw [Array.getElem?_push, if_neg (Nat.ne_of_lt inside)] at foundLater
      cases found.symm.trans foundLater
      exact signaled }

theorem addAnswers (network : Network) (capacity : Nat) :
    Quiet network (network.addAnswers capacity).2 :=
  { refl network with answers := Grows.push (fun _ => rfl) ⟨capacity, rfl⟩ }

theorem addChannel {place : ChannelPlace} (fresh : place.IsNew) :
    Quiet network (network.addChannel place).2 :=
  { refl network with channels := Grows.push ChannelPlace.Stays.refl fresh }

theorem addLink (network : Network) (maxFrameLength : Nat) :
    Quiet network (network.addLink maxFrameLength).2 :=
  setLinks (Grows.push Link.IsAlike.refl trivial)

theorem setErrand (network : Network) (errand : Errand) :
    Quiet network (network.setErrand errand) :=
  of_eq rfl rfl rfl rfl rfl (Nat.le_refl _) rfl

theorem endErrand (network : Network) (errand : Errand) (reply : Reply) :
    Quiet network (network.endErrand errand reply) := by
  have dropped : Quiet network
      { network with errands := network.errands.filter (·.number != errand.number) } :=
    of_eq rfl rfl rfl rfl rfl (Nat.le_refl _) rfl
  exact dropped.trans (note trivial)

theorem setVisit (network : Network) (visit : Visit) (stage : VisitStage) :
    Quiet network (network.setVisit visit stage) :=
  of_eq rfl rfl rfl rfl rfl (Nat.le_refl _) rfl

theorem endVisit (network : Network) (visit : Visit) : Quiet network (network.endVisit visit) := by
  have dropped : Quiet network
      { network with visits := network.visits.filter (·.number != visit.number) } :=
    of_eq rfl rfl rfl rfl rfl (Nat.le_refl _) rfl
  exact dropped.trans (dropLink _ _ _)

end Quiet

end PeerCalls
