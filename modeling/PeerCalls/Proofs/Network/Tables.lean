import PeerCalls.Network.Moves

/-!
# Tables of a network

Tables only grow: an entry keeps its place for good. `Grows` says how the entries
that were there have changed, and what those that have come are like. The second
part looks up entries of a network after a channel was put back.
-/

namespace PeerCalls

/-- A table after it has grown: each old entry is related to what is now in its
place, and each new entry is one that may be added. -/
structure Grows {α : Type} (stays : α → α → Prop) (isNew : α → Prop)
    (before after : Array α) : Prop where
  kept : ∀ {place : Nat} {entry : α}, before[place]? = some entry →
    ∃ later, after[place]? = some later ∧ stays entry later
  added : ∀ {place : Nat} {entry : α}, after[place]? = some entry →
    before[place]? = none → isNew entry

namespace Grows

variable {α : Type} {stays : α → α → Prop} {isNew : α → Prop} {before middle after : Array α}

theorem refl (same : ∀ entry, stays entry entry) : Grows stays isNew before before where
  kept found := ⟨_, found, same _⟩
  added found missing := by simp [found] at missing

theorem trans (compose : ∀ {first second third}, stays first second → stays second third →
      stays first third)
    (keepsNew : ∀ {first second}, isNew first → stays first second → isNew second)
    (left : Grows stays isNew before middle) (right : Grows stays isNew middle after) :
    Grows stays isNew before after where
  kept found := by
    obtain ⟨next, foundNext, stayed⟩ := left.kept found
    obtain ⟨last, foundLast, stayedOn⟩ := right.kept foundNext
    exact ⟨last, foundLast, compose stayed stayedOn⟩
  added {place entry} found missing := by
    cases between : middle[place]? with
    | none => exact right.added found between
    | some next =>
        obtain ⟨last, foundLast, stayed⟩ := right.kept between
        cases foundLast.symm.trans found
        exact keepsNew (left.added between missing) stayed

theorem push (same : ∀ entry, stays entry entry) {entry : α} (fresh : isNew entry) :
    Grows stays isNew before (before.push entry) where
  kept {place old} found := by
    have inside : place < before.size := (Array.getElem?_eq_some_iff.mp found).1
    exact ⟨old, by rw [Array.getElem?_push, if_neg (Nat.ne_of_lt inside), found], same old⟩
  added {place other} found missing := by
    rw [Array.getElem?_push] at found
    split at found
    · cases found
      exact fresh
    · simp [missing] at found

theorem modify (same : ∀ entry, stays entry entry) {place : Nat} {change : α → α}
    (changes : ∀ entry, before[place]? = some entry → stays entry (change entry)) :
    Grows stays isNew before (before.modify place change) where
  kept {other old} found := by
    rw [Array.getElem?_modify]
    split
    next here =>
      subst here
      exact ⟨change old, by simp [found], changes old found⟩
    next => exact ⟨old, found, same old⟩
  added {other entry} found missing := by
    rw [Array.getElem?_modify] at found
    split at found <;> simp [missing] at found

/-- What is in a table now was there before, or it is new. -/
theorem cases (grows : Grows stays isNew before after) {place : Nat} {entry : α}
    (found : after[place]? = some entry) :
    (∃ old, before[place]? = some old ∧ stays old entry) ∨
      before[place]? = none ∧ isNew entry := by
  cases earlier : before[place]? with
  | none => exact Or.inr ⟨rfl, grows.added found earlier⟩
  | some old =>
      obtain ⟨later, foundLater, stayed⟩ := grows.kept earlier
      cases foundLater.symm.trans found
      exact Or.inl ⟨old, rfl, stayed⟩

/-- A table that has grown is not shorter than before. -/
theorem size (grows : Grows stays isNew before after) : before.size ≤ after.size := by
  apply Nat.le_of_not_lt
  intro fewer
  obtain ⟨later, found, _⟩ := grows.kept (Array.getElem?_eq_getElem fewer)
  simp at found

end Grows

namespace Network

variable {network : Network}

/-- The events of the log without their times. -/
def events (network : Network) : List Event := network.log.toList.map Prod.snd

@[simp] theorem events_note (network : Network) (event : Event) :
    (network.note event).events = network.events ++ [event] := by
  simp [events, note]

theorem station?_eq_some_iff {channel : Nat} {station : Station} :
    network.station? channel = some station ↔
      ∃ place outbox answers link,
        network.channels[channel]? = some place ∧
        network.outboxes[place.outbox]? = some outbox ∧
        network.answers[place.answers]? = some answers ∧
        network.links[place.link]? = some link ∧
        station = ⟨network.now, place.channel, outbox.outbox, answers, link,
          network.backlogAt outbox.backlog⟩ := by
  simp only [station?, Option.bind_eq_bind, Option.bind_eq_some_iff, Option.pure_def,
    Option.some.injEq]
  constructor
  · rintro ⟨place, foundPlace, outbox, foundOutbox, answers, foundAnswers, link, foundLink, rfl⟩
    exact ⟨place, outbox, answers, link, foundPlace, foundOutbox, foundAnswers, foundLink, rfl⟩
  · rintro ⟨place, outbox, answers, link, foundPlace, foundOutbox, foundAnswers, foundLink, rfl⟩
    exact ⟨place, foundPlace, outbox, foundOutbox, answers, foundAnswers, link, foundLink, rfl⟩

/-! ## Putting a channel back -/

section SetStation

variable {channel : Nat} {place : ChannelPlace} (station : Station)

theorem setBacklog_eq (network : Network) (place : Option Nat) (backlog : Option Backlog) :
    network.setBacklog place backlog =
      { network with backlogs := (network.setBacklog place backlog).backlogs } := by
  unfold setBacklog
  split <;> rfl

/-- A channel that is put back changes its own place, and those of what it works on. -/
theorem setStation_eq (found : network.channels[channel]? = some place) :
    ∃ backlogs, network.setStation channel station =
      { network with
        channels := network.channels.modify channel fun entry =>
          { entry with channel := station.channel }
        outboxes := network.outboxes.modify place.outbox fun entry =>
          { entry with outbox := station.outbox }
        links := network.links.modify place.link fun _ => station.link
        answers := network.answers.setIfInBounds place.answers station.answers
        backlogs } := by
  unfold setStation
  rw [found]
  dsimp only
  rw [setBacklog_eq]
  exact ⟨_, rfl⟩

variable (found : network.channels[channel]? = some place)
include found

theorem channels_setStation (other : Nat) :
    (network.setStation channel station).channels[other]? =
      if other = channel then some { place with channel := station.channel }
      else network.channels[other]? := by
  obtain ⟨backlogs, equal⟩ := setStation_eq station found
  rw [equal, Array.getElem?_modify]
  by_cases same : other = channel
  · subst same
    simp [found]
  · simp [same, Ne.symm same]

theorem outboxes_setStation (other : Nat) :
    (network.setStation channel station).outboxes[other]? =
      if other = place.outbox then
        network.outboxes[other]?.map fun entry => { entry with outbox := station.outbox }
      else network.outboxes[other]? := by
  obtain ⟨backlogs, equal⟩ := setStation_eq station found
  rw [equal, Array.getElem?_modify]
  simp only [eq_comm]

theorem links_setStation (other : Nat) :
    (network.setStation channel station).links[other]? =
      if other = place.link then network.links[other]?.map fun _ => station.link
      else network.links[other]? := by
  obtain ⟨backlogs, equal⟩ := setStation_eq station found
  rw [equal, Array.getElem?_modify]
  simp only [eq_comm]

theorem answers_setStation (other : Nat) :
    (network.setStation channel station).answers[other]? =
      if other = place.answers then network.answers[other]?.map fun _ => station.answers
      else network.answers[other]? := by
  obtain ⟨backlogs, equal⟩ := setStation_eq station found
  rw [equal, Array.getElem?_setIfInBounds]
  by_cases same : other = place.answers
  · subst same
    by_cases inside : place.answers < network.answers.size
    · simp [inside]
    · simp [inside]
  · simp [same, Ne.symm same]

theorem executions_setStation :
    (network.setStation channel station).executions = network.executions := by
  obtain ⟨backlogs, equal⟩ := setStation_eq station found
  rw [equal]

theorem events_setStation : (network.setStation channel station).events = network.events := by
  obtain ⟨backlogs, equal⟩ := setStation_eq station found
  rw [equal]
  rfl

theorem nextNumber_setStation :
    (network.setStation channel station).nextNumber = network.nextNumber := by
  obtain ⟨backlogs, equal⟩ := setStation_eq station found
  rw [equal]

end SetStation

end Network

end PeerCalls
