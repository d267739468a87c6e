import PeerCalls.Proofs.Server.Holding

/-!
# Servers keep what is needed

What a server keeps for a client that has not connected yet is dropped as soon as nobody needs
it, and not before. The last run for a client looks whether there is a call in its queue and
whether anybody else holds its outbox; if somebody does, then it is up to them. So in between
there is always somebody who will look (`IsAsked`), and a call that is accepted stays in the
queue of the outbox that the server keeps for its client.
-/

namespace PeerCalls.Network

/-! ## Numbers of tasks -/

/-- Tasks have numbers of their own, which have been given out. -/
structure HaveNumbers {α : Type} (number : α → Nat) (next : Nat) (tasks : List α) : Prop where
  nodup : (tasks.map number).Nodup
  given : ∀ task ∈ tasks, number task < next

namespace HaveNumbers

variable {α : Type} {number : α → Nat} {next later : Nat} {tasks : List α} {task : α}

theorem eq_of_number (numbers : HaveNumbers number next tasks) {first second : α}
    (member : first ∈ tasks) (memberSecond : second ∈ tasks)
    (same : number first = number second) : first = second :=
  List.inj_on_of_nodup_map numbers.nodup member memberSecond same

theorem mono (numbers : HaveNumbers number next tasks) (le : next ≤ later) :
    HaveNumbers number later tasks where
  nodup := numbers.nodup
  given task member := Nat.lt_of_lt_of_le (numbers.given task member) le

theorem append (numbers : HaveNumbers number next tasks) (new : number task = next)
    (lt : next < later) : HaveNumbers number later (tasks ++ [task]) where
  nodup := by
    rw [List.map_append, List.map_singleton, List.nodup_append]
    refine ⟨numbers.nodup, List.nodup_singleton _, ?_⟩
    intro old member _ isNew
    obtain ⟨former, memberFormer, rfl⟩ := List.mem_map.mp member
    rw [List.mem_singleton.mp isNew, new]
    exact Nat.ne_of_lt (numbers.given former memberFormer)
  given other member := by
    rcases List.mem_append.mp member with old | isNew
    · exact Nat.lt_trans (numbers.given other old) lt
    · rw [List.mem_singleton.mp isNew, new]
      exact lt

theorem restage (numbers : HaveNumbers number next tasks) {former : α} (member : former ∈ tasks)
    (same : number task = number former) :
    HaveNumbers number next (Network.restage number task tasks) where
  nodup := by
    rw [map_number_restage]
    exact numbers.nodup
  given other memberOther := by
    rcases eq_or_mem_of_mem_restage memberOther with rfl | old
    · exact same ▸ numbers.given former member
    · exact numbers.given other old

theorem conclude (numbers : HaveNumbers number next tasks) (ended : α) :
    HaveNumbers number next (Network.conclude number ended tasks) where
  nodup := numbers.nodup.sublist (List.filter_sublist.map number)
  given other member := numbers.given other (mem_conclude_iff.mp member).1

end HaveNumbers

/-- Errands and connections have numbers of their own. -/
structure NumbersTasks (network : Network) : Prop where
  errands : HaveNumbers Errand.number network.nextNumber network.errands
  visits : HaveNumbers Visit.number network.nextNumber network.visits

variable {before after network : Network} {server : Nat} {client : String}

theorem NumbersTasks.step (numbers : before.NumbersTasks) (tends : Tends before after) :
    after.NumbersTasks where
  errands := by
    have kept := numbers.errands.mono tends.nextNumber
    cases tends.errands with
    | stay same => exact same ▸ kept
    | issued new lt _ same => exact same ▸ numbers.errands.append new lt
    | staged member number _ _ same => exact same ▸ kept.restage member number
    | ended _ _ same => exact same ▸ kept.conclude _
  visits := by
    have kept := numbers.visits.mono tends.nextNumber
    cases tends.visits with
    | stay same => exact same ▸ kept
    | arrived new lt _ _ same => exact same ▸ numbers.visits.append new lt
    | staged member _ _ same =>
        rw [same]
        exact kept.restage member (by rfl)
    | ended _ _ same => exact same ▸ kept.conclude _

/-! ## What is kept is needed -/

/-- Everything that a server keeps for a client is needed: the client has connected, there are
calls for it, or somebody is at work on it. -/
def KeepsNeeded (network : Network) : Prop :=
  ∀ (server : Nat) (client : String) (registration : Registration),
    network.registration? server client = some registration → registration.hasConnected = true ∨
      network.HasCalls registration.outbox ∨ network.IsAsked server client

section Needed

variable {old later : Registration}

/-- As long as no channel takes calls from a queue, they stay there. -/
theorem hasCalls_of_hasQueue {outbox : Nat} {entry : OutboxPlace}
    (goes : HasQueue outbox before after entry.outbox.queue)
    (calls : entry.outbox.queue.calls ≠ []) :
    after.HasCalls outbox ∨ before.HasChannel outbox := by
  obtain ⟨latest, added, found, _, goes⟩ := goes
  generalize same : latest.outbox.queue = queue at goes
  cases goes with
  | stays => exact Or.inl ⟨latest, found, same ▸ calls⟩
  | loses there works _ => exact Or.inr ⟨_, _, there, works⟩
  | gains _ _ =>
      refine Or.inl ⟨latest, found, ?_⟩
      rw [same]
      simp

/-- A connection that is about to register its channel either is still about to, or its
client has connected. -/
theorem VisitsGo.asked (go : VisitsGo before after) (numbers : before.NumbersTasks)
    (foundLater : after.registration? server client = some later) {visit : Visit}
    (member : visit ∈ before.visits) (sameServer : visit.server = server)
    (about : visit.IsRegistering client) :
    later.hasConnected = true ∨ after.IsAsked server client := by
  have stays : visit ∈ after.visits → after.IsAsked server client := fun member =>
    Or.inr ⟨visit, member, sameServer, about⟩
  have isSame : ∀ {other : Visit}, other ∈ before.visits → visit.number = other.number →
      visit = other := fun memberOther => numbers.visits.eq_of_number member memberOther
  cases go with
  | stay same => exact Or.inr (stays (same ▸ member))
  | arrived _ _ _ _ same => exact Or.inr (stays (same ▸ List.mem_append_left _ member))
  | @staged other stage memberOther _ registers same =>
      by_cases sameNumber : visit.number = other.number
      · obtain rfl := isSame memberOther sameNumber
        subst sameServer
        obtain ⟨registered, found, connected⟩ := registers _ about
        cases found.symm.trans foundLater
        exact Or.inl connected
      · exact Or.inr (stays (same ▸ mem_restage_of_ne member sameNumber))
  | @ended other memberOther unregistered same =>
      by_cases sameNumber : visit.number = other.number
      · obtain rfl := isSame memberOther sameNumber
        exact absurd about (unregistered _)
      · exact Or.inr (stays (same ▸ mem_conclude_iff.mpr ⟨member, sameNumber⟩))

/-- A run for a client either goes on, or it has left what the server keeps to another one who
needs it. -/
theorem KeepsHolders.asked (keeps : before.KeepsHolders) (numbers : before.NumbersTasks)
    (tends : Tends before after)
    (found : before.registration? server client = some old)
    (foundLater : after.registration? server client = some later) (retains : Retains old later)
    {errand : Errand} (member : errand ∈ before.errands)
    (routed : errand.route = some (server, client)) :
    later.hasConnected = true ∨ after.HasCalls later.outbox ∨ after.IsAsked server client := by
  have stays : ∀ {other : Errand}, other ∈ after.errands → other.route = some (server, client) →
      after.IsAsked server client := fun member routed => Or.inl ⟨_, member, routed⟩
  have isSame : ∀ {other : Errand}, other ∈ before.errands → errand.number = other.number →
      errand = other := fun memberOther => numbers.errands.eq_of_number member memberOther
  cases tends.errands with
  | stay same => exact Or.inr (Or.inr (stays (same ▸ member) routed))
  | issued _ _ _ same => exact Or.inr (Or.inr (stays (same ▸ List.mem_append_left _ member) routed))
  | @staged other next memberOther number route _ same =>
      by_cases sameNumber : errand.number = other.number
      · obtain rfl := isSame memberOther sameNumber
        exact Or.inr (Or.inr (stays (same ▸ mem_restage_self member number) (route.trans routed)))
      · refine Or.inr (Or.inr (stays (same ▸ mem_restage_of_ne member ?_) routed))
        rwa [number]
  | @ended other memberOther looked same =>
      by_cases sameNumber : errand.number = other.number
      · obtain rfl := isSame memberOther sameNumber
        obtain ⟨notRunning, looked⟩ := looked _ _ routed
        rcases looked later foundLater with connected | held | calls
        · exact Or.inl connected
        · rw [retains.outbox] at held
          rcases keeps.holder_cases found held with ⟨holder, memberHolder, route, _, _, runs⟩ |
            ⟨visit, memberVisit, sameServer, about⟩ | connected
          · -- The holder is another errand, for the one that ends does not run.
            refine Or.inr (Or.inr (stays (same ▸ mem_conclude_iff.mpr ⟨memberHolder, ?_⟩) route))
            intro sameHolder
            obtain rfl := isSame memberHolder sameHolder.symm
            exact notRunning _ _ runs
          · exact (tends.visits.asked numbers foundLater memberVisit sameServer about).imp_right
              Or.inr
          · exact Or.inl (retains.hasConnected connected)
        · exact Or.inr (Or.inl calls)
      · exact Or.inr (Or.inr (stays (same ▸ mem_conclude_iff.mpr ⟨member, sameNumber⟩) routed))

/-- Whatever happens, a server keeps nothing that nobody needs. -/
theorem KeepsNeeded.step (needed : before.KeepsNeeded) (keeps : before.KeepsHolders)
    (numbers : before.NumbersTasks) (tends : Tends before after) (carries : Carries before after) :
    after.KeepsNeeded := by
  intro server client later foundLater
  rcases tends.rebooks.former foundLater with ⟨old, found, retains⟩ | ⟨_, _, asked, _⟩
  · rcases needed _ _ _ found with connected | ⟨entry, there, calls⟩ | asked
    · exact Or.inl (retains.hasConnected connected)
    · rcases hasCalls_of_hasQueue (carries.queues there) calls with calls | worked
      · exact Or.inr (Or.inl (retains.outbox ▸ calls))
      · exact Or.inl (retains.hasConnected (keeps.hasConnected_of_channel found worked))
    · rcases asked with ⟨errand, member, routed⟩ | ⟨visit, member, sameServer, about⟩
      · exact keeps.asked numbers tends found foundLater retains member routed
      · exact (tends.visits.asked numbers foundLater member sameServer about).imp_right Or.inr
  · exact Or.inr (Or.inr asked)

end Needed

/-! ## Accepted calls -/

/-- What is in the queue of an outbox later on: what was there and what has come since, less
what channels have taken from the head. -/
def Balances (outbox : Nat) (before after : Network) : Prop :=
  ∀ entry, before.outboxes[outbox]? = some entry →
    ∃ later added removed, after.outboxes[outbox]? = some later ∧
      after.acceptedIn outbox = before.acceptedIn outbox ++ added ∧
      entry.outbox.queue.calls ++ added = removed ++ later.outbox.queue.calls ∧
      (removed = [] ∨ after.HasChannel outbox)

/-- A call that has come into the queue of the outbox that a server keeps for a client leaves
it only to a channel; until then the server keeps the outbox. -/
structure KeepsAccepted (server : Nat) (client : String) (outbox : Nat) (before after : Network) :
    Prop where
  balances : Balances outbox before after
  registered : after.HasCalls outbox → after.Registers server client outbox

/-- No server keeps an outbox for a client any more, and there are no calls in it. -/
structure IsRetired (network : Network) (outbox : Nat) : Prop where
  unregistered : ∀ {server : Nat} {client : String}, ¬ network.Registers server client outbox
  empty : ¬ network.HasCalls outbox

/-- An outbox is kept for a client, or retired for good. -/
structure StaysInUse (server : Nat) (client : String) (outbox : Nat) (before after : Network) :
    Prop where
  target : after.targetOf? outbox = some (.client client)
  kept : after.Registers server client outbox ∨ after.IsRetired outbox
  accepted : KeepsAccepted server client outbox before after

section Accepted

variable {first : Network} {outbox : Nat}

theorem KeepsAccepted.refl (registers : network.Registers server client outbox) :
    KeepsAccepted server client outbox network network where
  balances entry found := ⟨entry, [], [], found, by simp, by simp, Or.inl rfl⟩
  registered _ := registers

theorem Balances.step (balances : Balances outbox first before) (carries : Carries before after) :
    Balances outbox first after := by
  intro entry found
  obtain ⟨middle, added, removed, foundMiddle, acceptedIn, balance, taken⟩ := balances entry found
  obtain ⟨later, more, foundLater, acceptedMore, goes⟩ := carries.queues foundMiddle
  have takenLater : removed = [] ∨ after.HasChannel outbox := taken.imp_right (·.kept carries)
  have acceptedLater : after.acceptedIn outbox = first.acceptedIn outbox ++ (added ++ more) := by
    rw [acceptedMore, acceptedIn, List.append_assoc]
  have balanced : entry.outbox.queue.calls ++ (added ++ more) =
      removed ++ (middle.outbox.queue.calls ++ more) := by
    rw [← List.append_assoc, balance, List.append_assoc]
  generalize same : later.outbox.queue = queue at goes
  cases goes with
  | stays =>
      refine ⟨later, _, removed, foundLater, acceptedLater, ?_, takenLater⟩
      rw [balanced, same, List.append_nil]
  | @loses _ _ _ lost foundPlace works removes =>
      have worked : before.HasChannel outbox := ⟨_, _, foundPlace, works⟩
      refine ⟨later, _, removed ++ lost, foundLater, acceptedLater, ?_,
        Or.inr (worked.kept carries)⟩
      rw [balanced, same, removes, List.append_nil, List.append_assoc]
  | gains _ _ =>
      refine ⟨later, _, removed, foundLater, acceptedLater, ?_, takenLater⟩
      rw [balanced, same]

/-- Nobody works on a queue without calls, so none come into it. -/
theorem not_hasCalls_step (carries : Carries before after)
    (inside : outbox < before.outboxes.size) (empty : ¬ before.HasCalls outbox)
    (idle : ∀ errand ∈ before.errands, ∀ run, errand.stage ≠ .running outbox run) :
    ¬ after.HasCalls outbox := by
  have found := Array.getElem?_eq_getElem inside
  have calls : before.outboxes[outbox].outbox.queue.calls = [] := by
    by_contra some
    exact empty ⟨_, found, some⟩
  obtain ⟨later, added, foundLater, _, goes⟩ := carries.queues found
  rintro ⟨other, foundOther, some⟩
  cases foundLater.symm.trans foundOther
  generalize later.outbox.queue = queue at goes some
  cases goes with
  | stays => exact some calls
  | loses _ _ same =>
      rw [same] at calls
      exact some (List.append_eq_nil_iff.mp calls).2
  | gains member runs => exact idle _ member _ runs

/-- An outbox that is dropped has no calls, and nobody works on it. -/
theorem StaysInUse.kept_step (stays : StaysInUse server client outbox first before)
    (keeps : before.KeepsHolders) (tends : Tends before after) (carries : Carries before after) :
    after.Registers server client outbox ∨ after.IsRetired outbox := by
  have inside := lt_size_of_targetOf? stays.target
  have old : ∀ {server : Nat} {client : String}, after.Registers server client outbox →
      before.Registers server client outbox := by
    intro server client registers
    rcases tends.rebooks.registers registers with old | ⟨rfl, _⟩
    · exact old
    · exact absurd inside (Nat.lt_irrefl _)
  -- No outbox is registered again: those that are new lie behind it.
  rcases stays.kept with registers | retired
  · obtain ⟨registration, found, rfl⟩ := registers
    rcases tends.rebooks.retained found with ⟨later, foundLater, retains⟩ | unused
    · exact Or.inl ⟨later, foundLater, retains.outbox⟩
    · by_cases registers : after.Registers server client registration.outbox
      · exact Or.inl registers
      · refine Or.inr ⟨fun other => ?_, not_hasCalls_step carries inside unused.empty ?_⟩
        · obtain ⟨rfl, rfl⟩ := keeps.apart ⟨registration, found, rfl⟩ (old other)
          exact registers other
        · intro errand member run runs
          cases (isHeld_of_errand member runs).symm.trans unused.unheld
  · refine Or.inr ⟨fun other => retired.unregistered (old other),
      not_hasCalls_step carries inside retired.empty ?_⟩
    intro errand member run runs
    have backs := keeps.errands errand member
    obtain ⟨number, call, route, stage⟩ := errand
    subst runs
    cases backs with
    | running target => cases stays.target.symm.trans target
    | routed registers => exact retired.unregistered registers

theorem StaysInUse.step (stays : StaysInUse server client outbox first before)
    (keeps : before.KeepsHolders) (tends : Tends before after) (carries : Carries before after) :
    StaysInUse server client outbox first after :=
  have kept := stays.kept_step keeps tends carries
  { target := carries.targets stays.target
    kept
    accepted :=
      { balances := stays.accepted.balances.step carries
        registered := fun calls => kept.resolve_right fun retired => retired.empty calls } }

theorem StaysInUse.refl (keeps : network.KeepsHolders)
    (registers : network.Registers server client outbox) :
    StaysInUse server client outbox network network :=
  ⟨keeps.targets registers, Or.inl registers, .refl registers⟩

end Accepted

/-! ## Runs of a network -/

/-- What is true of servers all the time. -/
structure KeepsClients (network : Network) : Prop where
  holders : network.KeepsHolders
  numbers : network.NumbersTasks
  needed : network.KeepsNeeded

theorem keepsClients_empty : empty.KeepsClients where
  holders :=
    { errands := fun _ member => by cases member
      visits := fun _ member => by cases member
      targets := fun registers => by obtain ⟨_, found, _⟩ := registers; cases found
      apart := fun registers => by obtain ⟨_, found, _⟩ := registers; cases found
      channels := fun found => by cases found
      connected := fun found => by cases found
      clients := fun found => by cases found }
  numbers :=
    { errands := ⟨List.nodup_nil, fun _ member => by cases member⟩
      visits := ⟨List.nodup_nil, fun _ member => by cases member⟩ }
  needed _ _ _ found := by cases found

variable {happening : Happening} {happenings : List Happening}

theorem KeepsClients.happen (keeps : network.KeepsClients)
    (spares : SparesClients network happening) (awake : happening.sleeps = false) :
    (network.happen happening).KeepsClients := by
  have tends := keeps.holders.tends spares awake
  have carries : Carries network (network.happen happening) :=
    carries_happen awake (handles_of_sparesClients spares)
  exact ⟨keeps.holders.step tends carries, keeps.numbers.step tends,
    keeps.needed.step keeps.holders keeps.numbers tends carries⟩

theorem KeepsClients.run (keeps : network.KeepsClients)
    (obeys : Obeys SparesClients network happenings) : (network.run happenings).KeepsClients := by
  apply obeys.preserves _ keeps
  apply preserves_of_awake
  · exact fun _ _ => trivial
  · exact fun _ _ => trivial
  · exact fun _ _ spares awake keeps => keeps.happen spares awake

theorem StaysInUse.run {outbox : Nat} (keeps : network.KeepsClients)
    (registers : network.Registers server client outbox)
    (obeys : Obeys SparesClients network happenings) :
    StaysInUse server client outbox network (network.run happenings) := by
  have begins : network.KeepsClients ∧ StaysInUse server client outbox network network :=
    ⟨keeps, .refl keeps.holders registers⟩
  suffices both : (network.run happenings).KeepsClients ∧
      StaysInUse server client outbox network (network.run happenings) from both.2
  refine @Obeys.preserves SparesClients (fun later => later.KeepsClients ∧
    StaysInUse server client outbox network later) ?_ _ _ obeys begins
  apply preserves_of_awake
  · exact fun _ _ => trivial
  · exact fun _ _ => trivial
  · intro before happening spares awake ⟨keeps, stays⟩
    exact ⟨keeps.happen spares awake, stays.step keeps.holders (keeps.holders.tends spares awake)
      (carries_happen awake (handles_of_sparesClients spares))⟩

/-- Who holds the outbox of a client holds the one that the server keeps for it. -/
structure HoldsKept (network : Network) : Prop where
  runs : ∀ errand ∈ network.errands, ∀ {server : Nat} {client : String} {outbox : Nat} {run : Run},
    errand.route = some (server, client) → errand.stage = .running outbox run →
      network.Registers server client outbox
  handshakes : ∀ visit ∈ network.visits, ∀ {client : String} {outbox answers : Nat},
    visit.stage = .registering client outbox answers →
      network.Registers visit.server client outbox
  connections : ∀ visit ∈ network.visits, ∀ {client : String} {channel : Nat},
    visit.stage = .serving client channel → ∃ place, network.channels[channel]? = some place ∧
      network.Registers visit.server client place.outbox
  channels : ∀ {channel : Nat} {place : ChannelPlace} {client : String},
    network.channels[channel]? = some place →
      network.targetOf? place.outbox = some (.client client) →
        ∃ server, network.Registers server client place.outbox

theorem KeepsHolders.holdsKept (keeps : network.KeepsHolders) : network.HoldsKept where
  runs errand member {server client outbox run} routed runs := by
    have backs := keeps.errands errand member
    obtain ⟨number, call, route, stage⟩ := errand
    subst runs
    cases backs with
    | running => cases routed
    | routed registers =>
        cases routed
        exact registers
  handshakes visit member {client outbox answers} about := by
    have granted := (keeps.visits visit member).2
    rw [about] at granted
    cases granted with
    | registering found => exact ⟨_, found, rfl⟩
  connections visit member {client channel} serves := by
    have granted := (keeps.visits visit member).2
    rw [serves] at granted
    cases granted with
    | serving found _ there works _ => exact ⟨_, there, _, found, works.symm⟩
  channels {channel place client} found isFor := by
    rcases keeps.channels found with target | ⟨server, other, registration, known, _, same⟩
    · cases isFor.symm.trans target
    · have registers : network.Registers server other place.outbox := ⟨_, known, same⟩
      cases isFor.symm.trans (keeps.targets registers)
      exact ⟨server, registers⟩

/-- Servers drop nothing that is in use, and keep nothing that is not. Nobody is forgotten, but
anything else may happen in any order. Then whoever holds the outbox of a client holds the one
that the server keeps for it, calls that are accepted into it stay in it until a channel takes
them, and where no run for a client and no connection of it is at work, the server keeps
something for it only if it has connected or if there are calls for it. -/
theorem keepsClients_run {earlier later : List Happening}
    (obeys : Obeys SparesClients empty (earlier ++ later)) :
    (empty.run (earlier ++ later)).HoldsKept ∧
    (∀ errand ∈ (empty.run earlier).errands, ∀ {server : Nat} {client : String} {outbox : Nat}
      {run : Run}, errand.route = some (server, client) → errand.stage = .running outbox run →
        KeepsAccepted server client outbox (empty.run earlier) (empty.run (earlier ++ later))) ∧
    ∀ {server : Nat} {client : String},
      client ∈ (empty.run (earlier ++ later)).knownClients server →
      ¬ (empty.run (earlier ++ later)).IsAsked server client →
        ∃ registration,
          (empty.run (earlier ++ later)).registration? server client = some registration ∧
          ((empty.run (earlier ++ later)).HasChannel registration.outbox ∨
            (empty.run (earlier ++ later)).HasCalls registration.outbox) := by
  obtain ⟨obeysEarlier, obeysLater⟩ := obeys_append.mp obeys
  have keeps := keepsClients_empty.run obeys
  have keepsEarlier := keepsClients_empty.run obeysEarlier
  refine ⟨keeps.holders.holdsKept, ?_, ?_⟩
  · intro errand member server client outbox run routed runs
    have registers := keepsEarlier.holders.holdsKept.runs errand member routed runs
    rw [run_append]
    exact (StaysInUse.run keepsEarlier registers obeysLater).accepted
  · intro server client known unasked
    obtain ⟨registration, found⟩ := mem_knownClients.mp known
    refine ⟨registration, found, ?_⟩
    rcases keeps.needed _ _ _ found with connected | calls | asked
    · exact Or.inl (keeps.holders.connected found connected)
    · exact Or.inr calls
    · exact absurd asked unasked

/-- A call that waits five milliseconds for a reply. -/
def briefly (client : String) : Call :=
  { Call.new (.client client) ⟨1, "f", []⟩ with timeout := some (Span.ofMilliseconds 5) }

/-- A server is asked to call a client that it does not know. -/
def asking : List Happening :=
  [.addServer (.standard default) none (fun _ _ => default), .act (.issueTo 0 "a" (briefly "a")),
    .move (.errand 0)]

/-- The call is accepted; another call has the wrong target, and nothing is kept for it; then
the wait for the first one ends. -/
def expiring : List Happening :=
  [.move (.errand 0), .act (.issueTo 0 "b" (briefly "a")), .move (.errand 1), .move (.errand 1),
    .move (.errand 1), .pass (Span.ofMilliseconds 5).nanoseconds, .move (.errand 0),
    .move (.errand 0)]

theorem keepsClients_expired : (empty.run (asking ++ expiring)).knownClients 0 = ["a"] ∧
    KeepsAccepted 0 "a" 0 (empty.run asking) (empty.run (asking ++ expiring)) ∧
    ∃ registration, (empty.run (asking ++ expiring)).registration? 0 "a" = some registration ∧
      (empty.run (asking ++ expiring)).HasCalls registration.outbox := by
  obtain ⟨_, accepted, needed⟩ :=
    keepsClients_run (by decide +kernel : Obeys SparesClients empty (asking ++ expiring))
  have known : (empty.run (asking ++ expiring)).knownClients 0 = ["a"] := by decide +kernel
  have entering : (⟨0, briefly "a", some (0, "a"),
      .running 0 ⟨briefly "a", 0, .enqueuing⟩⟩ : Errand) ∈ (empty.run asking).errands := by
    decide +kernel
  have idle : (empty.run (asking ++ expiring)).errands = [] ∧
      (empty.run (asking ++ expiring)).visits = [] ∧
      (empty.run (asking ++ expiring)).channels.size = 0 := by decide +kernel
  refine ⟨known, accepted _ entering rfl rfl, ?_⟩
  obtain ⟨registration, found, ⟨channel, place, there, _⟩ | calls⟩ :=
    needed (by rw [known]; exact List.mem_singleton_self _) (by simp [IsAsked, idle])
  · have inside := (Array.getElem?_eq_some_iff.mp there).1
    rw [idle.2.2] at inside
    exact absurd inside (Nat.not_lt_zero _)
  · exact ⟨registration, found, calls⟩

end PeerCalls.Network
