import PeerCalls.Proofs.Server.Connections

/-!
# What servers keep is what is held

A server keeps an outbox for a client as long as anybody holds it, and keeps nothing that
nobody needs. Who holds an outbox is found by the tasks: errands that run on it, connections
that are about to register it, and channels. That their outbox is kept for the client is an
invariant (`KeepsHolders`); a server drops only what nobody holds, so every happening
preserves it.
-/

namespace PeerCalls.Network

/-- What the tasks of servers hold is kept for them. -/
structure KeepsHolders (network : Network) : Prop where
  errands : ∀ errand ∈ network.errands, network.Backs errand
  visits : ∀ visit ∈ network.visits, visit.server < network.servers.size ∧
    network.Grants visit.server visit.stage
  targets : ∀ {server : Nat} {client : String} {outbox : Nat},
    network.Registers server client outbox → network.targetOf? outbox = some (.client client)
  /-- Every client at every server has an outbox of its own. -/
  apart : ∀ {server otherServer : Nat} {client otherClient : String} {outbox : Nat},
    network.Registers server client outbox → network.Registers otherServer otherClient outbox →
      server = otherServer ∧ client = otherClient
  channels : ∀ {channel : Nat} {place : ChannelPlace}, network.channels[channel]? = some place →
    network.MayBegin place.outbox
  connected : ∀ {server : Nat} {client : String} {registration : Registration},
    network.registration? server client = some registration → registration.hasConnected = true →
      network.HasChannel registration.outbox
  clients : ∀ {place : Nat} {client : Client}, network.clients[place]? = some client →
    network.targetOf? client.outbox = some .server

variable {before after network : Network} {server otherServer : Nat} {client otherClient : String}

theorem lt_size_of_targetOf? {outbox : Nat} {target : Peer}
    (there : network.targetOf? outbox = some target) : outbox < network.outboxes.size := by
  obtain ⟨entry, found, _⟩ := Option.map_eq_some_iff.mp there
  exact (Array.getElem?_eq_some_iff.mp found).1

/-! ## Registrations before and after -/

/-- What a server keeps is kept on, unless nobody needs it. -/
theorem Rebooks.retained (rebooks : Rebooks before after) {registration : Registration}
    (found : before.registration? server client = some registration) :
    (∃ later, after.registration? server client = some later ∧ Retains registration later) ∨
      before.IsUnused registration := by
  have keeps : Retains registration registration := ⟨rfl, rfl, id⟩
  cases rebooks with
  | keeps same => exact Or.inl ⟨registration, (same _ _).trans found, keeps⟩
  | opens missing _ _ _ _ booked =>
      refine Or.inl ⟨registration, ?_, keeps⟩
      rw [booked, if_neg, found]
      rintro ⟨rfl, rfl⟩
      cases missing.symm.trans found
  | @changes changed changedClient change retains booked =>
      by_cases same : server = changed ∧ client = changedClient
      · obtain ⟨rfl, rfl⟩ := same
        refine Or.inl ⟨change registration, ?_, retains registration⟩
        rw [booked, if_pos ⟨rfl, rfl⟩, found, Option.map_some]
      · exact Or.inl ⟨registration, by rw [booked, if_neg same, found], keeps⟩
  | @drops dropped droppedClient other known unused booked =>
      by_cases same : server = dropped ∧ client = droppedClient
      · obtain ⟨rfl, rfl⟩ := same
        cases known.symm.trans found
        exact Or.inr unused
      · exact Or.inl ⟨registration, by rw [booked, if_neg same, found], keeps⟩

/-- What a server keeps was kept before, or it is new and somebody has asked for it. -/
theorem Rebooks.former (rebooks : Rebooks before after) {registration : Registration}
    (found : after.registration? server client = some registration) :
    (∃ old, before.registration? server client = some old ∧ Retains old registration) ∨
      (registration.outbox = before.outboxes.size ∧
        after.targetOf? registration.outbox = some (.client client) ∧
        after.IsAsked server client ∧ before.registration? server client = none) := by
  have keeps : Retains registration registration := ⟨rfl, rfl, id⟩
  cases rebooks with
  | keeps same => exact Or.inl ⟨registration, (same _ _).symm.trans found, keeps⟩
  | opens missing new _ target asked booked =>
      rw [booked] at found
      split at found
      next same =>
        obtain ⟨rfl, rfl⟩ := same
        cases found
        exact Or.inr ⟨new, target, asked, missing⟩
      next => exact Or.inl ⟨registration, found, keeps⟩
  | changes retains booked =>
      rw [booked] at found
      split at found
      next same =>
        obtain ⟨rfl, rfl⟩ := same
        obtain ⟨old, known, rfl⟩ := Option.map_eq_some_iff.mp found
        exact Or.inl ⟨old, known, retains old⟩
      next => exact Or.inl ⟨registration, found, keeps⟩
  | drops _ _ booked =>
      rw [booked] at found
      split at found
      · cases found
      · exact Or.inl ⟨registration, found, keeps⟩

/-- At most one client at one server is new. -/
theorem Rebooks.eq_of_new (rebooks : Rebooks before after) {first second : Registration}
    (found : after.registration? server client = some first)
    (missing : before.registration? server client = none)
    (foundOther : after.registration? otherServer otherClient = some second)
    (missingOther : before.registration? otherServer otherClient = none) :
    server = otherServer ∧ client = otherClient := by
  cases rebooks with
  | keeps same => cases (same _ _ ▸ missing).symm.trans found
  | opens _ _ _ _ _ booked =>
      rw [booked] at found foundOther
      split at found
      next here =>
        split at foundOther
        next there => exact ⟨here.1.trans there.1.symm, here.2.trans there.2.symm⟩
        next => cases missingOther.symm.trans foundOther
      next => cases missing.symm.trans found
  | changes _ booked =>
      rw [booked] at found
      split at found
      next same =>
        obtain ⟨rfl, rfl⟩ := same
        rw [missing] at found
        cases found
      next => cases missing.symm.trans found
  | drops _ _ booked =>
      rw [booked] at found
      split at found
      · cases found
      · cases missing.symm.trans found

/-! ## Who holds an outbox -/

theorem isHeld_of_errand {errand : Errand} {outbox : Nat} {run : Run}
    (member : errand ∈ network.errands) (runs : errand.stage = .running outbox run) :
    network.isHeld outbox = true := by
  simp only [isHeld, Bool.or_eq_true, List.any_eq_true]
  exact Or.inl (Or.inl ⟨errand, member, by simp [runs]⟩)

theorem isHeld_of_registering {visit : Visit} {outbox answers : Nat}
    (member : visit ∈ network.visits)
    (registers : visit.stage = .registering client outbox answers) :
    network.isHeld outbox = true := by
  simp only [isHeld, Bool.or_eq_true, List.any_eq_true]
  exact Or.inl (Or.inr ⟨visit, member, by simp [registers]⟩)

/-- An outbox is held by an errand, by a connection about to register it, or by a channel. -/
theorem isHeld_cases {outbox : Nat} (held : network.isHeld outbox = true) :
    (∃ errand ∈ network.errands, ∃ run, errand.stage = .running outbox run) ∨
      (∃ visit ∈ network.visits, ∃ client answers,
        visit.stage = .registering client outbox answers) ∨
      network.HasChannel outbox := by
  have channels : ∀ channel : Nat, ((network.channels[channel]?).any fun place : ChannelPlace =>
      place.outbox == outbox) = true → network.HasChannel outbox := by
    intro channel works
    cases found : network.channels[channel]? with
    | none =>
        rw [found] at works
        cases works
    | some place =>
        rw [found] at works
        exact ⟨channel, place, found, beq_iff_eq.mp works⟩
  simp only [isHeld, Bool.or_eq_true, List.any_eq_true] at held
  rcases held with (⟨errand, member, holds⟩ | ⟨visit, member, holds⟩) | ⟨execution, _, holds⟩
  · split at holds
    next runs => exact Or.inl ⟨errand, member, _, by rw [runs, beq_iff_eq.mp holds]⟩
    next => cases holds
  · split at holds
    next registers =>
      exact Or.inr (Or.inl ⟨visit, member, _, _, by rw [registers, beq_iff_eq.mp holds]⟩)
    next => exact Or.inr (Or.inr (channels _ holds))
    next => cases holds
  · exact Or.inr (Or.inr (channels _ holds))

/-! ## What holders hold stays with them -/

/-- What an errand works on is kept on for it. -/
theorem Backs.kept {errand : Errand} (backs : before.Backs errand) (tends : Tends before after)
    (carries : Carries before after) (member : errand ∈ before.errands) : after.Backs errand := by
  cases backs with
  | entering target => exact .entering (carries.targets target)
  | seeking inside => exact .seeking (Nat.lt_of_lt_of_le inside tends.servers)
  | running target => exact .running (carries.targets target)
  | routed registers =>
      obtain ⟨registration, found, rfl⟩ := registers
      rcases tends.rebooks.retained found with ⟨later, foundLater, retains⟩ | unused
      · exact .routed ⟨later, foundLater, retains.outbox⟩
      · -- The errand itself holds the outbox, so nobody has dropped it.
        cases (isHeld_of_errand member rfl).symm.trans unused.unheld
  | tidying => exact .tidying

/-- What a connection works on is kept on for it. -/
theorem Grants.kept {visit : Visit} (granted : before.Grants visit.server visit.stage)
    (tends : Tends before after) (carries : Carries before after)
    (member : visit ∈ before.visits) : after.Grants visit.server visit.stage := by
  obtain ⟨number, server, link, address, stage⟩ := visit
  cases granted with
  | greeting => exact .greeting
  | preparing => exact .preparing
  | @registering client registration found =>
      rcases tends.rebooks.retained found with ⟨later, foundLater, retains⟩ | unused
      · have granted : after.Grants server (.registering client later.outbox later.answers) :=
          .registering foundLater
        rwa [retains.outbox, retains.answers] at granted
      · cases (isHeld_of_registering member rfl).symm.trans unused.unheld
  | serving found connected foundPlace outbox answers =>
      obtain ⟨place, foundLater, samePlace, sameAnswers⟩ := carries.channels foundPlace
      rcases tends.rebooks.retained found with ⟨later, booked, retains⟩ | unused
      · exact .serving booked (retains.hasConnected connected) foundLater
          (samePlace.trans (outbox.trans retains.outbox.symm))
          (sameAnswers.trans (answers.trans retains.answers.symm))
      · cases connected.symm.trans unused.unconnected
  | finished => exact .finished

theorem MayBegin.kept {outbox : Nat} (begun : before.MayBegin outbox) (tends : Tends before after)
    (carries : Carries before after) : after.MayBegin outbox := by
  rcases begun with target | ⟨server, client, registration, found, connected, same⟩
  · exact Or.inl (carries.targets target)
  · rcases tends.rebooks.retained found with ⟨later, foundLater, retains⟩ | unused
    · exact Or.inr ⟨server, client, later, foundLater, retains.hasConnected connected,
        retains.outbox.trans same⟩
    · cases connected.symm.trans unused.unconnected

/-- A registered outbox was registered before, or it is new. -/
theorem Rebooks.registers (rebooks : Rebooks before after) {outbox : Nat}
    (registers : after.Registers server client outbox) :
    before.Registers server client outbox ∨
      (outbox = before.outboxes.size ∧ after.targetOf? outbox = some (.client client) ∧
        before.registration? server client = none) := by
  obtain ⟨registration, found, rfl⟩ := registers
  rcases rebooks.former found with ⟨old, foundOld, retains⟩ | ⟨new, target, _, missing⟩
  · exact Or.inl ⟨old, foundOld, retains.outbox.symm⟩
  · exact Or.inr ⟨new, target, missing⟩

namespace KeepsHolders

theorem tends {happening : Happening} (keeps : before.KeepsHolders)
    (spares : SparesClients before happening) (awake : happening.sleeps = false) :
    Tends before (before.happen happening) :=
  tends_happen spares awake keeps.errands keeps.visits keeps.clients

theorem step_errands (keeps : before.KeepsHolders) (tends : Tends before after)
    (carries : Carries before after) : ∀ errand ∈ after.errands, after.Backs errand := by
  have old : ∀ errand ∈ before.errands, after.Backs errand := fun errand member =>
    (keeps.errands errand member).kept tends carries member
  intro errand member
  cases tends.errands with
  | stay same => exact old errand (same ▸ member)
  | issued _ _ backs same =>
      rw [same, List.mem_append, List.mem_singleton] at member
      rcases member with member | rfl
      · exact old errand member
      · exact backs
  | staged _ _ _ backs same =>
      rw [same] at member
      rcases eq_or_mem_of_mem_restage member with rfl | member
      · exact backs
      · exact old errand member
  | ended _ _ same =>
      rw [same, mem_conclude_iff] at member
      exact old errand member.1

theorem step_visits (keeps : before.KeepsHolders) (tends : Tends before after)
    (carries : Carries before after) : ∀ visit ∈ after.visits,
      visit.server < after.servers.size ∧ after.Grants visit.server visit.stage := by
  have old : ∀ visit ∈ before.visits,
      visit.server < after.servers.size ∧ after.Grants visit.server visit.stage := by
    intro visit member
    obtain ⟨inside, granted⟩ := keeps.visits visit member
    exact ⟨Nat.lt_of_lt_of_le inside tends.servers, granted.kept tends carries member⟩
  intro visit member
  cases tends.visits with
  | stay same => exact old visit (same ▸ member)
  | arrived _ _ inside granted same =>
      rw [same, List.mem_append, List.mem_singleton] at member
      rcases member with member | rfl
      · exact old visit member
      · exact ⟨inside, granted⟩
  | staged memberOld granted _ same =>
      rw [same] at member
      rcases eq_or_mem_of_mem_restage member with rfl | member
      · exact ⟨(old _ memberOld).1, granted⟩
      · exact old visit member
  | ended _ _ same =>
      rw [same, mem_conclude_iff] at member
      exact old visit member.1

/-- What tasks hold is kept for them after every happening. -/
theorem step (keeps : before.KeepsHolders) (tends : Tends before after)
    (carries : Carries before after) : after.KeepsHolders where
  errands := keeps.step_errands tends carries
  visits := keeps.step_visits tends carries
  targets registers := by
    rcases tends.rebooks.registers registers with old | ⟨_, target, _⟩
    · exact carries.targets (keeps.targets old)
    · exact target
  apart first second := by
    have inside : ∀ {server client outbox}, before.Registers server client outbox →
        outbox < before.outboxes.size := fun registers =>
      lt_size_of_targetOf? (keeps.targets registers)
    -- An outbox that is new lies behind all others, and only one is new at a time.
    rcases tends.rebooks.registers first with old | ⟨rfl, target, missing⟩
    · rcases tends.rebooks.registers second with oldSecond | ⟨rfl, _⟩
      · exact keeps.apart old oldSecond
      · exact absurd (inside old) (Nat.lt_irrefl _)
    · rcases tends.rebooks.registers second with oldSecond | ⟨_, _, missingSecond⟩
      · exact absurd (inside oldSecond) (Nat.lt_irrefl _)
      · obtain ⟨_, found, _⟩ := first
        obtain ⟨_, foundSecond, _⟩ := second
        exact tends.rebooks.eq_of_new found missing foundSecond missingSecond
  channels {channel place} found := by
    rcases tends.channels found with inside | begun
    · obtain ⟨later, foundLater, same, _⟩ :=
        carries.channels (Array.getElem?_eq_getElem inside)
      cases foundLater.symm.trans found
      rw [same]
      exact (keeps.channels (Array.getElem?_eq_getElem inside)).kept tends carries
    · exact begun
  connected found connected := by
    rcases tends.connected found connected with ⟨old, foundOld, wasConnected, same⟩ | there
    · exact same ▸ (keeps.connected foundOld wasConnected).kept carries
    · exact there
  clients found := by
    rcases tends.clients found with ⟨old, foundOld, same⟩ | target
    · exact same ▸ carries.targets (keeps.clients foundOld)
    · exact target

/-! ### Who holds the outbox of a client -/

variable {registration : Registration}

/-- If a channel works on the outbox of a client, then the client has connected. -/
theorem hasConnected_of_channel (keeps : network.KeepsHolders)
    (found : network.registration? server client = some registration)
    (worked : network.HasChannel registration.outbox) : registration.hasConnected = true := by
  obtain ⟨channel, place, there, works⟩ := worked
  have registers : network.Registers server client place.outbox := ⟨registration, found, works.symm⟩
  rcases keeps.channels there with target | ⟨_, _, other, foundOther, connected, same⟩
  · cases (keeps.targets registers).symm.trans target
  · obtain ⟨rfl, rfl⟩ := keeps.apart registers ⟨other, foundOther, same⟩
    cases found.symm.trans foundOther
    exact connected

/-- An errand that runs on the outbox of a client is a run for the client. -/
theorem route_of_running (keeps : network.KeepsHolders) {errand : Errand} {outbox : Nat} {run : Run}
    (member : errand ∈ network.errands) (runs : errand.stage = .running outbox run)
    (registers : network.Registers server client outbox) :
    errand.route = some (server, client) := by
  have backs := keeps.errands errand member
  obtain ⟨number, call, route, stage⟩ := errand
  subst runs
  cases backs with
  | running target => cases (keeps.targets registers).symm.trans target
  | routed other =>
      obtain ⟨rfl, rfl⟩ := keeps.apart registers other
      rfl

/-- If somebody holds the outbox of a client, then a run for the client is still at it, a
connection is about to register its channel, or the client has connected. -/
theorem holder_cases (keeps : network.KeepsHolders)
    (found : network.registration? server client = some registration)
    (held : network.isHeld registration.outbox = true) :
    (∃ errand ∈ network.errands, errand.route = some (server, client) ∧
      ∃ outbox run, errand.stage = .running outbox run) ∨
      (∃ visit ∈ network.visits, visit.server = server ∧ visit.IsRegistering client) ∨
      registration.hasConnected = true := by
  have registers : network.Registers server client registration.outbox := ⟨_, found, rfl⟩
  rcases isHeld_cases held with ⟨errand, member, run, runs⟩ |
    ⟨visit, member, otherClient, answers, about⟩ | worked
  · exact Or.inl ⟨errand, member, keeps.route_of_running member runs registers, _, run, runs⟩
  · obtain ⟨_, granted⟩ := keeps.visits visit member
    obtain ⟨number, otherServer, link, address, stage⟩ := visit
    subst about
    generalize same : registration.outbox = outbox at granted
    cases granted with
    | registering other =>
        obtain ⟨rfl, rfl⟩ := keeps.apart registers ⟨_, other, same.symm⟩
        exact Or.inr (Or.inl ⟨_, member, rfl, _, _, rfl⟩)
  · exact Or.inr (Or.inr (keeps.hasConnected_of_channel found worked))

end KeepsHolders

end PeerCalls.Network
