import PeerCalls.Proofs.Pair.Steps

/-!
# Everything between two peers is justified

In every state that two peers reach, what is on the links, in the hands of channels, in
queues and answers, and what is being executed is justified by what the peers have
done. Each step changes a few tables; what it leaves alone stays justified because the
history only goes on.
-/

namespace PeerCalls.Pair

variable (pair : Pair)

/-- A channel reports what is justified. -/
def Reports (network : Network) (channel : Nat) (report : Report) : Prop :=
  ∃ side, network.side? channel = some side ∧ report.Justified (pair.history network) side

structure Justified (network : Network) : Prop where
  calls : ∀ side, ∀ call ∈ pair.calls network side, call.IsFresh
  outboxes : ∀ side, ∃ entry, network.outboxes[pair.outbox side]? = some entry ∧
    entry.outbox.Justified (pair.history network) side
  answers : ∀ side, ∃ entry, network.answers[pair.answers side]? = some entry ∧
    entry.Justified (pair.history network) side
  links : ∀ (place : Nat) (link : Link), network.links[place]? = some link →
    link.Justified (pair.history network)
  channels : ∀ (channel : Nat) (place : ChannelPlace), network.channels[channel]? = some place →
    pair.Connects place ∧ ∃ link, network.links[place.link]? = some link ∧
      place.channel.Justified (pair.history network) link.maxFrameLength
  executions : ∀ execution ∈ network.executions,
    pair.Reports network execution.channel (.execute execution.invocation)
  executing : ∀ channel invocation, .executing channel invocation ∈ network.events →
    pair.Reports network channel (.execute invocation)
  ended : ∀ channel call reply, .ended channel call reply ∈ network.events →
    pair.Reports network channel (.ended call reply)

/-- What is written into the log is justified. A call that a queue takes is not only
written into the log. -/
def Notes (network : Network) : Event → Prop
  | .ended channel call reply => pair.Reports network channel (.ended call reply)
  | .executing channel invocation => pair.Reports network channel (.execute invocation)
  | .executed _ _ _ | .returned _ _ | .arrived _ _ | .closed _ => True
  | .accepted _ _ _ => False

variable {pair} {before after network : Network}

/-! ## Networks that go on -/

/-- Channels stay on their sides. -/
def KeepsSides (before after : Network) : Prop :=
  ∀ ⦃channel : Nat⦄ ⦃side : Side⦄, before.side? channel = some side →
    after.side? channel = some side

/-- Channels stay on their sides, and the history goes on. -/
structure GoesOn (pair : Pair) (before after : Network) : Prop where
  sides : KeepsSides before after
  continues : (pair.history before).Continues (pair.history after)

theorem GoesOn.refl (network : Network) : pair.GoesOn network network :=
  ⟨fun _ _ onSide => onSide, .refl _⟩

theorem GoesOn.trans {middle : Network} (left : pair.GoesOn before middle)
    (right : pair.GoesOn middle after) : pair.GoesOn before after :=
  ⟨fun _ _ onSide => right.sides (left.sides onSide), left.continues.trans right.continues⟩

theorem side?_eq_some_iff {channel : Nat} {side : Side} : network.side? channel = some side ↔
    ∃ place, network.channels[channel]? = some place ∧ place.channel.side = side := by
  simp only [Network.side?, Option.map_eq_some_iff]

theorem goesOn_of_eq (sides : KeepsSides before after)
    (events : before.events <+: after.events) (answers : after.answers = before.answers)
    (links : after.links = before.links) : pair.GoesOn before after := by
  refine ⟨sides, ?_, ?_, ?_, ?_⟩
  · intro side
    obtain ⟨others, equal⟩ := events
    refine ⟨others.filterMap (Network.acceptedIn? (pair.outbox side)), ?_⟩
    simp only [history, calls]
    rw [Network.acceptedIn_append equal.symm, List.append_assoc]
  · intro side id isOver
    simp only [history] at isOver ⊢
    rwa [answers]
  · rintro side invocation conclusion ⟨channel, onSide, member⟩
    exact ⟨channel, sides onSide, events.subset member⟩
  · rintro limit ⟨place, link, found, equal⟩
    exact ⟨place, link, links ▸ found, equal⟩

/-- The log grows, and nothing else changes that history is about. -/
theorem goesOn_note (network : Network) (event : Event) :
    pair.GoesOn network (network.note event) :=
  goesOn_of_eq (fun _ _ onSide => onSide)
    (Network.events_note network event ▸ List.prefix_append _ _) rfl rfl

theorem goesOn_report (network : Network) (channel : Nat) (report : Report) :
    pair.GoesOn network (network.report channel report) := by
  cases report with
  | ended call reply => exact goesOn_note network (.ended channel call reply)
  | execute invocation => exact ⟨fun _ _ onSide => onSide, .refl _⟩

theorem goesOn_reports (network : Network) (channel : Nat) (told : List Report) :
    pair.GoesOn network
      (told.foldl (fun network report => network.report channel report) network) := by
  induction told generalizing network with
  | nil => exact .refl network
  | cons head rest ih => exact (goesOn_report network channel head).trans (ih _)

/-- Links come and lose frames. -/
theorem goesOn_setLinks {links : Array Link}
    (grows : Grows Link.Loses Link.IsEmpty network.links links) :
    pair.GoesOn network { network with links } := by
  refine ⟨fun _ _ onSide => onSide, fun _ => List.prefix_refl _, id, id, ?_⟩
  rintro limit ⟨place, link, found, rfl⟩
  obtain ⟨later, foundLater, loses⟩ := grows.kept found
  exact ⟨place, later, foundLater, loses.limit⟩

/-- Channels start and are stopped. -/
theorem goesOn_setChannels {channels : Array ChannelPlace}
    (grows : Grows ChannelPlace.Stays (pair.Starts network) network.channels channels) :
    pair.GoesOn network { network with channels } := by
  refine goesOn_of_eq ?_ (List.prefix_refl _) rfl rfl
  intro channel side onSide
  obtain ⟨place, found, rfl⟩ := side?_eq_some_iff.mp onSide
  obtain ⟨later, foundLater, stays⟩ := grows.kept found
  apply side?_eq_some_iff.mpr
  refine ⟨later, foundLater, ?_⟩
  rcases stays.channel with same | stopped
  · rw [same]
  · rw [stopped]
    rfl

theorem Reports.goOn {channel : Nat} {report : Report}
    (reports : pair.Reports before channel report) (goesOn : pair.GoesOn before after) :
    pair.Reports after channel report := by
  obtain ⟨side, onSide, justified⟩ := reports
  exact ⟨side, goesOn.sides onSide, goesOn.continues.report justified⟩

namespace Justified

/-! ## What goes on unchanged -/

section GoesOn

variable (justified : pair.Justified before) (goesOn : pair.GoesOn before after)
include justified goesOn

theorem outboxes_goOn (outboxes : after.outboxes = before.outboxes) (side : Side)
    (calls : pair.calls after side = pair.calls before side) :
    ∃ entry, after.outboxes[pair.outbox side]? = some entry ∧
      entry.outbox.Justified (pair.history after) side := by
  obtain ⟨entry, found, holds⟩ := justified.outboxes side
  exact ⟨entry, outboxes ▸ found, goesOn.continues.outbox holds calls⟩

theorem answers_goOn (answers : after.answers = before.answers) (side : Side) :
    ∃ entry, after.answers[pair.answers side]? = some entry ∧
      entry.Justified (pair.history after) side := by
  obtain ⟨entry, found, holds⟩ := justified.answers side
  refine ⟨entry, answers ▸ found, ?_, fun reply member =>
    goesOn.continues.answered (holds.replies reply member)⟩
  simp only [history, answers]
  exact holds.same

theorem links_goOn (links : after.links = before.links) (place : Nat) (link : Link)
    (found : after.links[place]? = some link) : link.Justified (pair.history after) := by
  rw [links] at found
  exact goesOn.continues.link (justified.links place link found)

theorem channels_goOn (channels : after.channels = before.channels)
    (links : after.links = before.links) (channel : Nat) (place : ChannelPlace)
    (found : after.channels[channel]? = some place) :
    pair.Connects place ∧ ∃ link, after.links[place.link]? = some link ∧
      place.channel.Justified (pair.history after) link.maxFrameLength := by
  rw [channels] at found
  obtain ⟨connects, link, foundLink, holds⟩ := justified.channels channel place found
  exact ⟨connects, link, links ▸ foundLink, goesOn.continues.channel holds⟩

end GoesOn

/-! ## Tables -/

theorem setClock (justified : pair.Justified network) (now : Time) (backlogs : Array Backlog) :
    pair.Justified { network with now, backlogs } :=
  ⟨justified.calls, justified.outboxes, justified.answers, justified.links, justified.channels,
    justified.executions, justified.executing, justified.ended⟩

theorem setErrands (justified : pair.Justified network) (errands : List Errand)
    (nextNumber : Nat) : pair.Justified { network with errands, nextNumber } :=
  ⟨justified.calls, justified.outboxes, justified.answers, justified.links, justified.channels,
    justified.executions, justified.executing, justified.ended⟩

/-- Executions for the same channels and invocations are justified. -/
theorem setExecutions (justified : pair.Justified network) {executions : List Execution}
    (same : ∀ execution ∈ executions, ∃ old ∈ network.executions,
      old.channel = execution.channel ∧ old.invocation = execution.invocation) :
    pair.Justified { network with executions } where
  calls := justified.calls
  outboxes := justified.outboxes
  answers := justified.answers
  links := justified.links
  channels := justified.channels
  executions execution member := by
    obtain ⟨old, oldMember, channel, invocation⟩ := same execution member
    rw [← channel, ← invocation]
    exact justified.executions old oldMember
  executing := justified.executing
  ended := justified.ended

theorem setOutboxes (justified : pair.Justified network) {outboxes : Array OutboxPlace}
    (grows : Grows OutboxPlace.KeepsCalls (fun _ => False) network.outboxes outboxes) :
    pair.Justified { network with outboxes } where
  calls := justified.calls
  outboxes side := by
    obtain ⟨entry, found, holds⟩ := justified.outboxes side
    obtain ⟨later, foundLater, keeps⟩ := grows.kept found
    refine ⟨later, foundLater, ?_, holds.waiters.changes keeps.waiters, ?_⟩
    · rw [keeps.queue]
      exact holds.queue
    · intro number reply resolved
      rcases keeps.waiters.resolved resolved with old | ⟨given, _⟩
      · exact holds.replies number reply old
      · cases given
  answers := justified.answers
  links := justified.links
  channels := justified.channels
  executions := justified.executions
  executing := justified.executing
  ended := justified.ended

theorem setLinks (justified : pair.Justified network) {links : Array Link}
    (grows : Grows Link.Loses Link.IsEmpty network.links links) :
    pair.Justified { network with links } := by
  have goesOn : pair.GoesOn network { network with links } := goesOn_setLinks grows
  have continues := goesOn.continues
  exact {
    calls := justified.calls
    outboxes := fun side => justified.outboxes_goOn goesOn rfl side rfl
    answers := justified.answers_goOn goesOn rfl
    links := by
      intro place link found
      rcases grows.cases found with ⟨old, foundOld, loses⟩ | ⟨_, isEmpty⟩
      · have holds := continues.link (justified.links place old foundOld)
        exact ⟨loses.limit ▸ holds.limit, fun side frame member =>
          holds.frames side frame (loses.frames member)⟩
      · refine ⟨⟨place, link, found, rfl⟩, ?_⟩
        intro side frame member
        rw [isEmpty side] at member
        cases member
    channels := by
      intro channel place found
      obtain ⟨connects, link, foundLink, holds⟩ := justified.channels channel place found
      obtain ⟨later, foundLater, loses⟩ := grows.kept foundLink
      exact ⟨connects, later, foundLater, loses.limit ▸ continues.channel holds⟩
    executions := fun execution member =>
      (justified.executions execution member).goOn goesOn
    executing := fun channel invocation member =>
      (justified.executing channel invocation member).goOn goesOn
    ended := fun channel call reply member =>
      (justified.ended channel call reply member).goOn goesOn }

theorem setChannels (justified : pair.Justified network) {channels : Array ChannelPlace}
    (grows : Grows ChannelPlace.Stays (pair.Starts network) network.channels channels) :
    pair.Justified { network with channels } := by
  have goesOn : pair.GoesOn network { network with channels } := goesOn_setChannels grows
  have continues := goesOn.continues
  exact {
    calls := justified.calls
    outboxes := fun side => justified.outboxes_goOn goesOn rfl side rfl
    answers := justified.answers_goOn goesOn rfl
    links := justified.links_goOn goesOn rfl
    channels := by
      intro channel place found
      rcases grows.cases found with ⟨old, foundOld, stays⟩ | ⟨_, connects, there, started⟩
      · obtain ⟨connects, link, foundLink, holds⟩ := justified.channels channel old foundOld
        have holds := continues.channel holds
        refine ⟨?_, link, stays.link ▸ foundLink, ?_⟩
        · rcases stays.channel with same | stopped
          · exact ⟨by rw [stays.outbox, same, connects.outbox],
              by rw [stays.answers, same, connects.answers]⟩
          · exact ⟨by rw [stays.outbox, stopped, connects.outbox]; rfl,
              by rw [stays.answers, stopped, connects.answers]; rfl⟩
        · rcases stays.channel with same | stopped
          · rw [same]
            exact holds
          · rw [stopped]
            exact ⟨holds.inFlight, holds.reply, holds.sender, holds.outbound⟩
      · obtain ⟨contact, side, started⟩ := started
        refine ⟨connects, network.links[place.link], Array.getElem?_eq_getElem there, ?_⟩
        rw [started]
        exact ⟨fun _ flying => (by cases flying), fun _ _ flying => (by cases flying), trivial,
          fun _ member => (by cases member)⟩
    executions := fun execution member =>
      (justified.executions execution member).goOn goesOn
    executing := fun channel invocation member =>
      (justified.executing channel invocation member).goOn goesOn
    ended := fun channel call reply member =>
      (justified.ended channel call reply member).goOn goesOn }

/-! ## The log -/

theorem note (justified : pair.Justified network) {event : Event}
    (notes : pair.Notes network event) : pair.Justified (network.note event) := by
  have events := Network.events_note network event
  have goesOn : pair.GoesOn network (network.note event) := goesOn_note network event
  have calls : ∀ side, pair.calls (network.note event) side = pair.calls network side := by
    intro side
    rw [Pair.calls, Network.acceptedIn_append events, Pair.calls]
    cases event with
    | accepted _ _ _ => exact notes.elim
    | _ => exact congrArg _ (List.append_nil _)
  exact {
    calls := fun side => calls side ▸ justified.calls side
    outboxes := fun side => justified.outboxes_goOn goesOn rfl side (calls side)
    answers := justified.answers_goOn goesOn rfl
    links := justified.links_goOn goesOn rfl
    channels := justified.channels_goOn goesOn rfl rfl
    executions := fun execution member =>
      (justified.executions execution member).goOn goesOn
    executing := by
      intro channel invocation member
      rw [events] at member
      rcases List.mem_append.mp member with old | new
      · exact (justified.executing channel invocation old).goOn goesOn
      · cases List.mem_singleton.mp new
        exact Reports.goOn notes goesOn
    ended := by
      intro channel call reply member
      rw [events] at member
      rcases List.mem_append.mp member with old | new
      · exact (justified.ended channel call reply old).goOn goesOn
      · cases List.mem_singleton.mp new
        exact Reports.goOn notes goesOn }

/-- A report that is justified is noted, or something is to be executed. -/
theorem report (justified : pair.Justified network) {channel : Nat} {report : Report}
    (reports : pair.Reports network channel report) :
    pair.Justified (network.report channel report) := by
  cases report with
  | ended call reply =>
      have noted : pair.Justified (network.note (.ended channel call reply)) :=
        justified.note reports
      exact noted
  | execute invocation =>
      exact {
        calls := justified.calls
        outboxes := justified.outboxes
        answers := justified.answers
        links := justified.links
        channels := justified.channels
        executions := by
          intro execution member
          rcases List.mem_append.mp member with old | new
          · exact justified.executions execution old
          · cases List.mem_singleton.mp new
            exact reports
        executing := justified.executing
        ended := justified.ended }

theorem reports (justified : pair.Justified network) {channel : Nat} {told : List Report}
    (reports : ∀ report ∈ told, pair.Reports network channel report) :
    pair.Justified (told.foldl (fun network report => network.report channel report) network) := by
  induction told generalizing network with
  | nil => exact justified
  | cons report rest ih =>
      exact ih (justified.report (reports report List.mem_cons_self)) fun other member =>
        (reports other (List.mem_cons_of_mem report member)).goOn
          (goesOn_report network channel report)

/-! ## Stations -/

/-- A channel and all that it works on is justified. -/
theorem station (justified : pair.Justified network) {channel : Nat} {station : Station}
    (found : network.station? channel = some station) :
    station.Justified (pair.history network) ∧
      network.side? channel = some station.channel.side := by
  obtain ⟨place, entry, answers, link, foundPlace, foundEntry, foundAnswers, foundLink, rfl⟩ :=
    Network.station?_eq_some_iff.mp found
  obtain ⟨connects, other, foundOther, holds⟩ := justified.channels channel place foundPlace
  cases foundLink.symm.trans foundOther
  obtain ⟨sameEntry, foundSame, outbox⟩ := justified.outboxes place.channel.side
  rw [← connects.outbox] at foundSame
  cases foundEntry.symm.trans foundSame
  obtain ⟨sameAnswers, foundSameAnswers, knows⟩ := justified.answers place.channel.side
  rw [← connects.answers] at foundSameAnswers
  cases foundAnswers.symm.trans foundSameAnswers
  exact ⟨⟨holds, outbox, knows, justified.links place.link link foundLink, justified.calls⟩,
    side?_eq_some_iff.mpr ⟨place, foundPlace, rfl⟩⟩

/-- The channels that work on the answers of a side are on this side. -/
theorem worksOn_iff (justified : pair.Justified network) {channel : Nat} {side : Side} :
    network.worksOn (pair.answers side) channel = true ↔ network.side? channel = some side := by
  rw [Network.worksOn, Option.any_eq_true, side?_eq_some_iff]
  refine exists_congr fun place => and_congr_right fun found => ?_
  rw [beq_iff_eq, (justified.channels channel place found).1.answers]
  exact pair.answers_injective.eq_iff

end Justified

section SetStation

variable {channel : Nat} {station next : Station} {told : List Report}

theorem keepsSides_setStation (found : network.station? channel = some station)
    (keeps : station.Keeps next) : KeepsSides network (network.setStation channel next) := by
  obtain ⟨place, _, _, _, foundPlace, _, _, _, rfl⟩ := Network.station?_eq_some_iff.mp found
  intro other side onSide
  obtain ⟨otherPlace, foundOther, rfl⟩ := side?_eq_some_iff.mp onSide
  apply side?_eq_some_iff.mpr
  rw [Network.channels_setStation next foundPlace]
  split
  next same =>
    subst same
    cases foundPlace.symm.trans foundOther
    exact ⟨_, rfl, keeps.side⟩
  next => exact ⟨otherPlace, foundOther, rfl⟩

/-- The answers of a side after a channel was put back. -/
theorem answers_setStation (justified : pair.Justified network)
    (found : network.station? channel = some station) (side : Side) :
    (pair.history (network.setStation channel next)).answers side =
      ((pair.history network).learn station.channel.side next.answers).answers side := by
  obtain ⟨place, entry, answers, link, foundPlace, foundEntry, foundAnswers, foundLink, rfl⟩ :=
    Network.station?_eq_some_iff.mp found
  have connects := (justified.channels channel place foundPlace).1
  simp only [history, History.learn, Network.answers_setStation next foundPlace]
  by_cases same : side = place.channel.side
  · subst same
    rw [Function.update_self, if_pos connects.answers.symm, ← connects.answers, foundAnswers]
    rfl
  · rw [Function.update_of_ne same, if_neg]
    rw [connects.answers]
    exact fun equal => same (pair.answers_injective equal)

/-- A channel that is put back with its answers leaves behind what the history has
learned. -/
theorem continues_setStation (justified : pair.Justified network)
    (found : network.station? channel = some station) (keeps : station.Keeps next) :
    ((pair.history network).learn station.channel.side next.answers).Continues
      (pair.history (network.setStation channel next)) := by
  have sides := keepsSides_setStation found keeps
  have lookup : ∀ side, (pair.history (network.setStation channel next)).answers side =
      ((pair.history network).learn station.channel.side next.answers).answers side :=
    answers_setStation justified found
  obtain ⟨place, entry, answers, link, foundPlace, _, _, foundLink, rfl⟩ :=
    Network.station?_eq_some_iff.mp found
  have events := Network.events_setStation next foundPlace
  constructor
  · intro side
    simp only [history, Pair.calls, Network.acceptedIn, events, History.learn]
    exact List.prefix_refl _
  · intro side id isOver
    rw [lookup]
    exact isOver
  · rintro side invocation conclusion ⟨other, onSide, member⟩
    exact ⟨other, sides onSide, events ▸ member⟩
  · rintro limit ⟨other, otherLink, foundOther, rfl⟩
    refine ⟨other, ?_⟩
    rw [Network.links_setStation next foundPlace, foundOther]
    split
    next same =>
      subst same
      cases foundLink.symm.trans foundOther
      exact ⟨_, rfl, keeps.limit⟩
    next => exact ⟨otherLink, rfl, rfl⟩

theorem goesOn_setStation (justified : pair.Justified network)
    (found : network.station? channel = some station) (keeps : station.Keeps next)
    (advances : station.Advances (pair.history network) next told) :
    pair.GoesOn network (network.setStation channel next) :=
  ⟨keepsSides_setStation found keeps,
    advances.continues.trans (continues_setStation justified found keeps)⟩

/-- A channel is put back after something has happened on it. -/
theorem Justified.setStation (justified : pair.Justified network)
    (found : network.station? channel = some station) (keeps : station.Keeps next)
    (advances : station.Advances (pair.history network) next told) :
    pair.Justified (network.setStation channel next) := by
  have learned := continues_setStation justified found keeps
  have goesOn := goesOn_setStation justified found keeps advances
  have continues := goesOn.continues
  obtain ⟨place, entry, answers, link, foundPlace, foundEntry, foundAnswers, foundLink, rfl⟩ :=
    Network.station?_eq_some_iff.mp found
  have connects := (justified.channels channel place foundPlace).1
  have events := Network.events_setStation next foundPlace
  have calls : ∀ side, pair.calls (network.setStation channel next) side =
      pair.calls network side := by
    intro side
    rw [Pair.calls, Network.acceptedIn, events, Pair.calls, Network.acceptedIn]
  have holds := advances.justified
  have side : next.channel.side = place.channel.side := keeps.side
  have foundNext : (network.setStation channel next).links[place.link]? = some next.link := by
    rw [Network.links_setStation next foundPlace, if_pos rfl, foundLink]
    rfl
  exact {
    calls := fun side => calls side ▸ justified.calls side
    outboxes := by
      intro other
      rw [Network.outboxes_setStation next foundPlace, connects.outbox]
      split
      next same =>
        cases pair.outbox_injective same
        rw [← connects.outbox, foundEntry]
        exact ⟨_, rfl, learned.outbox (side ▸ holds.outbox) (calls place.channel.side)⟩
      next =>
        obtain ⟨otherEntry, foundOther, otherHolds⟩ := justified.outboxes other
        exact ⟨otherEntry, foundOther, continues.outbox otherHolds (calls other)⟩
    answers := by
      intro other
      have lookup := Network.answers_setStation next foundPlace (pair.answers other)
      rw [connects.answers] at lookup
      split at lookup
      next same =>
        cases pair.answers_injective same
        rw [← connects.answers, foundAnswers] at lookup
        rw [← connects.answers, lookup]
        refine ⟨_, rfl, ?_, fun reply member =>
          learned.answered (side ▸ holds.answers.replies reply member)⟩
        simp only [history, ← connects.answers, lookup]
        rfl
      next =>
        obtain ⟨otherEntry, foundOther, otherHolds⟩ := justified.answers other
        rw [lookup]
        refine ⟨otherEntry, foundOther, ?_, fun reply member =>
          continues.answered (otherHolds.replies reply member)⟩
        simp only [history, lookup, foundOther]
        rfl
    links := by
      intro other otherLink foundOther
      rw [Network.links_setStation next foundPlace] at foundOther
      split at foundOther
      next same =>
        subst same
        rw [foundLink] at foundOther
        cases foundOther
        exact learned.link holds.link
      next => exact continues.link (justified.links other otherLink foundOther)
    channels := by
      intro other otherPlace foundOther
      rw [Network.channels_setStation next foundPlace] at foundOther
      split at foundOther
      next =>
        cases foundOther
        refine ⟨⟨?_, ?_⟩, next.link, foundNext, learned.channel holds.channel⟩
        · rw [side, connects.outbox]
        · rw [side, connects.answers]
      next =>
        obtain ⟨otherConnects, otherLink, foundOtherLink, otherHolds⟩ :=
          justified.channels other otherPlace foundOther
        refine ⟨otherConnects, ?_⟩
        rw [Network.links_setStation next foundPlace]
        split
        next same =>
          rw [same, foundLink] at foundOtherLink
          cases foundOtherLink
          rw [same, foundLink]
          exact ⟨_, rfl, keeps.limit ▸ continues.channel otherHolds⟩
        next => exact ⟨otherLink, foundOtherLink, continues.channel otherHolds⟩
    executions := by
      rw [Network.executions_setStation next foundPlace]
      exact fun execution member => (justified.executions execution member).goOn goesOn
    executing := by
      rw [events]
      exact fun other invocation member =>
        (justified.executing other invocation member).goOn goesOn
    ended := by
      rw [events]
      exact fun other call reply member =>
        (justified.ended other call reply member).goOn goesOn }

end SetStation

/-! ## All steps -/

theorem goesOn_accept {errand outbox : Nat} {call : Call}
    (accepts : Accepts before after errand outbox call) : pair.GoesOn before after := by
  refine goesOn_of_eq ?_ (accepts.events ▸ List.prefix_append _ _) accepts.answers accepts.links
  intro channel side onSide
  rwa [Network.side?, accepts.channels]

/-- The queue of a side takes a call. -/
theorem Justified.accept {side : Side} {errand : Nat} {call : Call}
    (justified : pair.Justified before) (fresh : call.IsFresh)
    (accepts : Accepts before after errand (pair.outbox side) call) : pair.Justified after := by
  have goesOn : pair.GoesOn before after := goesOn_accept accepts
  have continues := goesOn.continues
  have calls : ∀ other, pair.calls after other =
      pair.calls before other ++ if side = other then [call] else [] := by
    intro other
    rw [Pair.calls, Network.acceptedIn_append accepts.events, ← List.append_assoc]
    by_cases same : side = other
    · simp [Network.acceptedIn?, Pair.calls, same]
    · simp [Network.acceptedIn?, Pair.calls, same, pair.outbox_injective.ne same]
  obtain ⟨entry, queue, foundEntry, rfl, outboxes⟩ := accepts.outboxes
  exact {
    calls := by
      intro other old member
      rw [calls] at member
      rcases List.mem_append.mp member with member | member
      · exact justified.calls other old member
      · split at member
        · cases List.mem_singleton.mp member
          exact fresh
        · cases member
    outboxes := by
      intro other
      obtain ⟨old, found, holds⟩ := justified.outboxes other
      rw [outboxes]
      by_cases same : side = other
      · subst same
        cases foundEntry.symm.trans found
        obtain ⟨removed, equal, settled⟩ := holds.queue
        rw [if_pos rfl]
        refine ⟨_, rfl, ⟨removed, ?_, fun former member => continues.settled (settled former member)⟩,
          holds.waiters, ?_⟩
        · simp only [history] at equal ⊢
          rw [calls, if_pos rfl, equal, List.append_assoc]
        · intro number reply resolved
          obtain ⟨issued, isIssued, ends⟩ := holds.replies number reply resolved
          exact ⟨issued, continues.issued isIssued, continues.ends ends⟩
      · rw [if_neg (pair.outbox_injective.ne (Ne.symm same))]
        refine ⟨old, found, continues.outbox holds ?_⟩
        simp only [history]
        rw [calls, if_neg same, List.append_nil]
    answers := justified.answers_goOn goesOn accepts.answers
    links := justified.links_goOn goesOn accepts.links
    channels := justified.channels_goOn goesOn accepts.channels accepts.links
    executions := by
      rw [accepts.executions]
      exact fun execution member => (justified.executions execution member).goOn goesOn
    executing := by
      intro channel invocation member
      rw [accepts.events] at member
      have old := (List.mem_append.mp member).resolve_right (by simp)
      exact (justified.executing channel invocation old).goOn goesOn
    ended := by
      intro channel ended reply member
      rw [accepts.events] at member
      have old := (List.mem_append.mp member).resolve_right (by simp)
      exact (justified.ended channel ended reply old).goOn goesOn }

/-- An execution is gone, and how it ended is written into the log. -/
theorem Justified.drop (justified : pair.Justified network) (execution : Execution)
    (conclusion : Conclusion) :
    pair.Justified ((network.dropExecution execution.number).note
      (.executed execution.channel execution.invocation conclusion)) := by
  have fewer : pair.Justified (network.dropExecution execution.number) := by
    apply justified.setExecutions
    intro other stays
    exact ⟨other, (List.mem_filter.mp stays).1, rfl, rfl⟩
  exact fewer.note trivial

/-- An execution is over. -/
theorem Justified.conclude (justified : pair.Justified network) {execution : Execution}
    (member : execution ∈ network.executions) (conclusion : Conclusion) :
    pair.GoesOn network (network.endExecution execution conclusion) ∧
      pair.Justified (network.endExecution execution conclusion) := by
  have asked := justified.executions execution member
  have dropped := justified.drop execution conclusion
  have events := Network.events_note (network.dropExecution execution.number)
    (.executed execution.channel execution.invocation conclusion)
  have goesOn : pair.GoesOn network ((network.dropExecution execution.number).note
      (.executed execution.channel execution.invocation conclusion)) :=
    ⟨fun _ _ onSide => onSide, (goesOn_note (network.dropExecution execution.number) _).continues⟩
  have concluded : .executed execution.channel execution.invocation conclusion ∈
      ((network.dropExecution execution.number).note
        (.executed execution.channel execution.invocation conclusion)).events := by
    rw [events]
    exact List.mem_append_right _ (List.mem_singleton_self _)
  obtain ⟨side, onSide, call, due, _, sameInvocation⟩ := asked
  obtain ⟨earlier, later, equal, _⟩ := goesOn.continues.due due
  simp only [Network.endExecution]
  split
  · exact ⟨goesOn, dropped⟩
  next station found =>
    obtain ⟨holds, stationSide⟩ := dropped.station found
    cases onSide.symm.trans stationSide
    have onStation : (pair.history ((network.dropExecution execution.number).note
        (.executed execution.channel execution.invocation conclusion))).concluded
          station.channel.side call.invocation conclusion :=
      ⟨execution.channel, stationSide, sameInvocation ▸ concluded⟩
    have advances := holds.conclude (equal ▸ List.mem_append_right _ List.mem_cons_self) onStation
    rw [Call.id, sameInvocation] at advances
    exact ⟨goesOn.trans (goesOn_setStation dropped found ⟨rfl, rfl⟩ advances),
      dropped.setStation found ⟨rfl, rfl⟩ advances⟩

end PeerCalls.Pair
