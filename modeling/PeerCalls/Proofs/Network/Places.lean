import PeerCalls.Proofs.Network.Reports
import PeerCalls.Proofs.Network.Steps

/-!
# Channels keep their places

A channel never goes away, and it works on the same outbox, answers and link all the
time. Between two happenings it stays as it is or is stopped, it takes a turn, or it gets
a reply to send. So a property of a channel that survives these holds in every run.
-/

namespace PeerCalls

/-- What a happening makes of a channel. -/
inductive ChannelPlace.Goes (network : Network) (before : ChannelPlace) : ChannelPlace → Prop where
  | stays {after : ChannelPlace} : before.Stays after → Goes network before after
  | turns {channel : Nat} {station : Station} {next : Station × List Report} :
      network.channels[channel]? = some before → network.station? channel = some station →
      station.Turn next.1 next.2 → Goes network before { before with channel := next.1.channel }
  | replies {outbound : List Reply} :
      Goes network before { before with channel := { before.channel with outbound } }

namespace ChannelPlace.Goes

variable {network : Network} {before after : ChannelPlace} (goes : before.Goes network after)
include goes

theorem outbox : after.outbox = before.outbox := by
  cases goes with
  | stays stays => exact stays.outbox
  | turns _ _ _ | replies => rfl

theorem answers : after.answers = before.answers := by
  cases goes with
  | stays stays => exact stays.answers
  | turns _ _ _ | replies => rfl

theorem link : after.link = before.link := by
  cases goes with
  | stays stays => exact stays.link
  | turns _ _ _ | replies => rfl

end ChannelPlace.Goes

theorem Accepts.size_outboxes {before after : Network} {errand outbox : Nat} {call : Call}
    (accepts : Accepts before after errand outbox call) :
    before.outboxes.size ≤ after.outboxes.size := by
  obtain ⟨entry, queue, _, _, outboxes⟩ := accepts.outboxes
  apply Nat.le_of_not_lt
  intro fewer
  have there := outboxes after.outboxes.size
  rw [Array.getElem?_eq_none (Nat.le_refl _)] at there
  split at there
  · cases there
  · simp [fewer] at there

namespace Network

variable {network next before after : Network} {happening : Happening}

/-- What has become of all channels. -/
def Channels (before after : Network) : Prop :=
  Grows (ChannelPlace.Goes before) ChannelPlace.IsNew before.channels after.channels

theorem channels_of_eq (same : after.channels = before.channels) : Channels before after := by
  rw [Channels, same]
  exact Grows.refl fun _ => .stays (.refl _)

/-- A channel is put back, after things that have not changed any channel. -/
theorem channels_of_setStation {channel : Nat} {place : ChannelPlace} {station : Station}
    (same : after.channels = before.channels) (found : before.channels[channel]? = some place)
    (goes : place.Goes before { place with channel := station.channel }) :
    Channels before (after.setStation channel station) where
  kept {other entry} foundOther := by
    rw [channels_setStation station (same ▸ found), same]
    split
    next here =>
      subst here
      cases found.symm.trans foundOther
      exact ⟨_, rfl, goes⟩
    next => exact ⟨entry, foundOther, .stays (.refl entry)⟩
  added {other entry} foundOther missing := by
    rw [channels_setStation station (same ▸ found), same] at foundOther
    split at foundOther
    next here =>
      subst here
      cases found.symm.trans missing
    next => cases foundOther.symm.trans missing

theorem Takes.channels (takes : Takes network happening next) (awake : happening.sleeps = false) :
    Channels network next := by
  cases takes with
  | quiet quiet =>
      constructor
      · intro place entry found
        obtain ⟨later, foundLater, stays⟩ := quiet.channels.kept found
        exact ⟨later, foundLater, .stays stays⟩
      · exact quiet.channels.added
  | @turn _ channel station next found turn =>
      obtain ⟨place, _, _, _, foundPlace, _, _, _, rfl⟩ := station?_eq_some_iff.mp found
      have put := channels_of_setStation rfl foundPlace (.turns foundPlace found turn)
      rw [Channels, (reported_afterStep network channel next).same]
      exact put
  | begin _ _ =>
      apply channels_of_eq
      simp only [beginExecution]
      split <;> rfl
  | @conclude _ execution _ conclusion _ _ =>
      simp only [endExecution]
      split
      next => exact channels_of_eq rfl
      next station found =>
        obtain ⟨place, _, _, _, foundPlace, _, _, _, rfl⟩ := station?_eq_some_iff.mp found
        have there : network.channels[execution.channel]? = some place := foundPlace
        apply channels_of_setStation _ there .replies
        rfl
  | accept accepts => exact channels_of_eq accepts.channels
  | handle _ =>
      rw [setBacklog_eq]
      exact channels_of_eq rfl
  | sleep => cases awake

/-- A channel stays at its outbox, its answers and its link. -/
theorem Channels.kept {channel : Nat} {place : ChannelPlace} (channels : Channels before after)
    (found : before.channels[channel]? = some place) :
    ∃ later, after.channels[channel]? = some later ∧ later.outbox = place.outbox ∧
      later.answers = place.answers ∧ later.link = place.link := by
  obtain ⟨later, foundLater, goes⟩ := Grows.kept channels found
  exact ⟨later, foundLater, goes.outbox, goes.answers, goes.link⟩

/-- What holds of new channels, and what neither stops nor replies nor turns change, holds of
all channels of an outbox. -/
theorem Channels.preserves {outbox : Nat} {property : Channel → Prop}
    (channels : Channels before after)
    (starts : ∀ contact side, property (Channel.start contact side))
    (stops : ∀ {channel}, property channel → property channel.stop)
    (replies : ∀ {channel outbound}, property channel → property { channel with outbound })
    (turns : ∀ {entry : OutboxPlace} {station : Station} {next : Station × List Report},
      before.outboxes[outbox]? = some entry → station.outbox = entry.outbox →
      station.Turn next.1 next.2 → property station.channel → property next.1.channel)
    (holds : ∀ {channel : Nat} {place : ChannelPlace}, before.channels[channel]? = some place →
      place.outbox = outbox → property place.channel)
    {channel : Nat} {place : ChannelPlace} (found : after.channels[channel]? = some place)
    (works : place.outbox = outbox) : property place.channel := by
  rcases Grows.cases channels found with ⟨old, foundOld, goes⟩ | ⟨_, isNew⟩
  · have held := holds foundOld (goes.outbox.symm.trans works)
    cases goes with
    | stays stays =>
        rcases stays.channel with same | stopped
        · rw [same]
          exact held
        · rw [stopped]
          exact stops held
    | turns foundTurning there turn =>
        obtain ⟨turning, entry, _, _, foundAgain, foundEntry, _, _, rfl⟩ :=
          station?_eq_some_iff.mp there
        cases foundTurning.symm.trans foundAgain
        exact turns (works ▸ foundEntry) rfl turn held
    | replies => exact replies held
  · obtain ⟨contact, side, started | started⟩ := isNew
    · rw [started]
      exact starts contact side
    · rw [started]
      exact stops (starts contact side)

/-! ## What a channel works on -/

/-- Everything that a channel may work on keeps its place. -/
structure KeepsPlaces (before after : Network) : Prop where
  channels : Channels before after
  outboxes : before.outboxes.size ≤ after.outboxes.size
  answers : before.answers.size ≤ after.answers.size
  links : Grows Link.IsAlike (fun _ => True) before.links after.links

theorem keepsPlaces_of_setStation {channel : Nat} {place : ChannelPlace} {station : Station}
    (channels : Channels before (after.setStation channel station))
    (found : after.channels[channel]? = some place) (outboxes : after.outboxes = before.outboxes)
    (answers : after.answers = before.answers) (links : after.links = before.links)
    (alike : ∀ link, before.links[place.link]? = some link → link.IsAlike station.link) :
    KeepsPlaces before (after.setStation channel station) := by
  obtain ⟨backlogs, equal⟩ := setStation_eq station found
  refine ⟨channels, ?_, ?_, ?_⟩
  · simp [equal, outboxes]
  · simp [equal, answers]
  · rw [equal, links]
    exact Grows.modify Link.IsAlike.refl alike

theorem Takes.keepsPlaces (takes : Takes network happening next)
    (awake : happening.sleeps = false) : KeepsPlaces network next := by
  have channels := takes.channels awake
  have unlinked {links : Array Link} (same : links = network.links) :
      Grows Link.IsAlike (fun _ => True) network.links links :=
    same ▸ Grows.refl Link.IsAlike.refl
  cases takes with
  | quiet quiet => exact ⟨channels, quiet.outboxes.size, quiet.answers.size, quiet.links⟩
  | @turn _ channel station next found turn =>
      obtain ⟨place, _, _, _, foundPlace, _, _, foundLink, rfl⟩ := station?_eq_some_iff.mp found
      have same := (reported_afterStep network channel next).same
      rw [Channels, same] at channels
      rw [same]
      have keeps := keepsPlaces_of_setStation channels foundPlace rfl rfl rfl
        fun _ there => Option.some.inj (there.symm.trans foundLink) ▸ turn.keeps.limit
      exact ⟨keeps.channels, keeps.outboxes, keeps.answers, keeps.links⟩
  | begin _ _ =>
      simp only [beginExecution] at channels ⊢
      split
      next missing =>
        simp only [missing] at channels
        exact ⟨channels, Nat.le_refl _, Nat.le_refl _, unlinked rfl⟩
      next place there =>
        simp only [there] at channels
        exact ⟨channels, Nat.le_refl _, Nat.le_refl _, unlinked rfl⟩
  | conclude _ _ =>
      simp only [endExecution] at channels ⊢
      split
      next missing =>
        simp only [missing] at channels
        exact ⟨channels, Nat.le_refl _, Nat.le_refl _, unlinked rfl⟩
      next station there =>
        simp only [there] at channels
        obtain ⟨place, _, _, _, foundPlace, _, _, foundLink, rfl⟩ := station?_eq_some_iff.mp there
        refine keepsPlaces_of_setStation channels foundPlace rfl rfl rfl fun _ sameLink => ?_
        cases sameLink.symm.trans foundLink
        rfl
  | accept accepts =>
      exact ⟨channels, accepts.size_outboxes, Nat.le_of_eq (by rw [accepts.answers]),
        unlinked accepts.links⟩
  | handle _ =>
      rw [setBacklog_eq] at channels ⊢
      refine ⟨channels, ?_, Nat.le_refl _, unlinked rfl⟩
      simp [modifyOutbox]
  | sleep => cases awake

theorem exists_station_iff {channel : Nat} :
    (∃ station, network.station? channel = some station) ↔
      ∃ place, network.channels[channel]? = some place ∧
        place.outbox < network.outboxes.size ∧ place.answers < network.answers.size ∧
        place.link < network.links.size := by
  constructor
  · rintro ⟨station, there⟩
    obtain ⟨place, outbox, answers, link, found, foundOutbox, foundAnswers, foundLink, _⟩ :=
      station?_eq_some_iff.mp there
    exact ⟨place, found, (Array.getElem?_eq_some_iff.mp foundOutbox).1,
      (Array.getElem?_eq_some_iff.mp foundAnswers).1, (Array.getElem?_eq_some_iff.mp foundLink).1⟩
  · rintro ⟨place, found, outbox, answers, link⟩
    exact ⟨_, station?_eq_some_iff.mpr ⟨place, _, _, _, found, Array.getElem?_eq_getElem outbox,
      Array.getElem?_eq_getElem answers, Array.getElem?_eq_getElem link, rfl⟩⟩

/-- A channel with all that it works on has all of it from then on. -/
theorem KeepsPlaces.exists_station {channel : Nat} (keeps : KeepsPlaces before after)
    (there : ∃ station, before.station? channel = some station) :
    ∃ station, after.station? channel = some station := by
  rw [exists_station_iff] at there ⊢
  obtain ⟨place, found, outbox, answers, link⟩ := there
  obtain ⟨later, foundLater, sameOutbox, sameAnswers, sameLink⟩ := keeps.channels.kept found
  refine ⟨later, foundLater, ?_, ?_, ?_⟩
  · rw [sameOutbox]
    exact Nat.lt_of_lt_of_le outbox keeps.outboxes
  · rw [sameAnswers]
    exact Nat.lt_of_lt_of_le answers keeps.answers
  · rw [sameLink]
    exact Nat.lt_of_lt_of_le link keeps.links.size

end Network

end PeerCalls
