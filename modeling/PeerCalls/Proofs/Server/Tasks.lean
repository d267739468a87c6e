import PeerCalls.Proofs.Network.Queues
import PeerCalls.Proofs.Server.Aside

/-!
# What happens to the tasks of servers

Errands ask a server for the outbox of a client and work on it, and so do connections. What
a server keeps for a client comes when it is asked for the first time, and goes when an errand
has tidied up behind itself. `Tends` says for one happening what has become of the
registrations, of errands and of connections; it supposes that nobody is forgotten, and that
from outside only outboxes for servers are used.
-/

namespace PeerCalls

/-- A connection is about to register its channel for a client. -/
def Visit.IsRegistering (visit : Visit) (client : String) : Prop :=
  ∃ outbox answers, visit.stage = .registering client outbox answers

namespace Network

/-- Who the calls of an outbox are for. -/
def targetOf? (network : Network) (outbox : Nat) : Option Peer :=
  (network.outboxes[outbox]?).map fun entry => entry.outbox.queue.target

/-- There are calls in the queue of an outbox. -/
def HasCalls (network : Network) (outbox : Nat) : Prop :=
  ∃ entry, network.outboxes[outbox]? = some entry ∧ entry.outbox.queue.calls ≠ []

/-- A channel works on an outbox, or has worked on it. -/
def HasChannel (network : Network) (outbox : Nat) : Prop :=
  ∃ (channel : Nat) (place : ChannelPlace),
    network.channels[channel]? = some place ∧ place.outbox = outbox

/-- Nobody is forgotten, calls come into queues by errands and are taken by channels, and from
outside only outboxes for servers are used. -/
def SparesClients (network : Network) : Happening → Prop
  | .act (.forget _ _) | .act (.enqueue _ _) | .act (.dequeue _) => False
  | .act (.issue outbox _) | .startChannel _ _ _ outbox _ _ =>
      network.targetOf? outbox = some .server
  | .act (.issueTo server _ _) => server < network.servers.size
  | _ => True

instance SparesClients.decidable (network : Network) :
    (happening : Happening) → Decidable (network.SparesClients happening)
  | .act (.forget _ _) | .act (.enqueue _ _) | .act (.dequeue _) => .isFalse id
  | .act (.issue _ _) | .startChannel _ _ _ _ _ _ => inferInstanceAs (Decidable (_ = _))
  | .act (.issueTo _ _ _) => inferInstanceAs (Decidable (_ < _))
  | .act (.signal _) | .act (.takeSignal _) | .act (.complete _ _) | .act (.abandon _ _)
  | .act (.refuse _ _) | .act (.send _ _ _) | .act (.closeLink _ _) | .act (.stopChannel _)
  | .act (.startClient _) | .act (.shutDownClient _) | .act (.shutDownServer _) | .act (.sleep _)
  | .move _ | .pass _ | .cut _ _ | .equip _ _ | .addBacklog _ | .addOutbox _ _ _ | .addAnswers _
  | .addLink _ | .addServer _ _ _ | .addClient _ _ _ | .reachServer _ _ | .watch _ _
  | .take _ _ => .isTrue trivial

/-! ## What errands and connections hold -/

/-- What an errand works on is what its caller or the server has for it. -/
inductive Backs (network : Network) : Errand → Prop where
  | entering {number outbox : Nat} {call : Call} : network.targetOf? outbox = some .server →
      Backs network ⟨number, call, none, .entering outbox⟩
  | seeking {number server : Nat} {client : String} {call : Call} :
      server < network.servers.size →
      Backs network ⟨number, call, some (server, client), .seeking server client⟩
  | running {number outbox : Nat} {call : Call} {run : Run} :
      network.targetOf? outbox = some .server →
      Backs network ⟨number, call, none, .running outbox run⟩
  | routed {number server outbox : Nat} {client : String} {call : Call} {run : Run} :
      network.Registers server client outbox →
      Backs network ⟨number, call, some (server, client), .running outbox run⟩
  | tidying {number server : Nat} {client : String} {call : Call} {reply : Reply} :
      Backs network ⟨number, call, some (server, client), .tidying server client reply⟩

/-- What a connection to a server works on is what the server keeps for the client. -/
inductive Grants (network : Network) (server : Nat) : VisitStage → Prop where
  | greeting {expiry : Time} : Grants network server (.greeting expiry)
  | preparing {client : String} : Grants network server (.preparing client)
  | registering {client : String} {registration : Registration} :
      network.registration? server client = some registration →
      Grants network server (.registering client registration.outbox registration.answers)
  | serving {client : String} {channel : Nat} {place : ChannelPlace}
      {registration : Registration} :
      network.registration? server client = some registration →
      registration.hasConnected = true → network.channels[channel]? = some place →
      place.outbox = registration.outbox → place.answers = registration.answers →
      Grants network server (.serving client channel)
  | finished : Grants network server .over

/-- Nobody needs what a server keeps for a client. -/
structure IsUnused (network : Network) (registration : Registration) : Prop where
  unconnected : registration.hasConnected = false
  unheld : network.isHeld registration.outbox = false
  empty : ¬ network.HasCalls registration.outbox

/-! ## What a happening does -/

/-- Everything that is there keeps its place and its use. -/
structure Carries (before after : Network) : Prop where
  channels : ∀ {channel : Nat} {place : ChannelPlace}, before.channels[channel]? = some place →
    ∃ later, after.channels[channel]? = some later ∧ later.outbox = place.outbox ∧
      later.answers = place.answers
  queues : ∀ {outbox : Nat} {entry : OutboxPlace}, before.outboxes[outbox]? = some entry →
    HasQueue outbox before after entry.outbox.queue

theorem Carries.targets {before after : Network} (carries : Carries before after) {outbox : Nat}
    {target : Peer} (there : before.targetOf? outbox = some target) :
    after.targetOf? outbox = some target := by
  obtain ⟨entry, found, rfl⟩ := Option.map_eq_some_iff.mp there
  obtain ⟨later, added, foundLater, _, goes⟩ := carries.queues found
  rw [targetOf?, foundLater, Option.map_some, goes.target]

/-- What a server keeps for a client changes, but not what it works with. -/
structure Retains (before after : Registration) : Prop where
  outbox : after.outbox = before.outbox
  answers : after.answers = before.answers
  hasConnected : before.hasConnected = true → after.hasConnected = true

/-- A run for a client is going on, or a connection is about to register its channel. -/
def IsAsked (network : Network) (server : Nat) (client : String) : Prop :=
  (∃ errand ∈ network.errands, errand.route = some (server, client)) ∨
    ∃ visit ∈ network.visits, visit.server = server ∧ visit.IsRegistering client

/-- What a happening does to the registrations. -/
inductive Rebooks (before after : Network) : Prop where
  | keeps : (∀ server client,
      after.registration? server client = before.registration? server client) →
      Rebooks before after
  /-- A server begins to keep something for a client, because somebody asks for it. -/
  | opens {server : Nat} {client : String} {registration : Registration} :
      before.registration? server client = none →
      registration.outbox = before.outboxes.size → registration.hasConnected = false →
      after.targetOf? registration.outbox = some (.client client) → after.IsAsked server client →
      (∀ otherServer otherClient, after.registration? otherServer otherClient =
        if otherServer = server ∧ otherClient = client then some registration
        else before.registration? otherServer otherClient) → Rebooks before after
  | changes {server : Nat} {client : String} {change : Registration → Registration} :
      (∀ registration, Retains registration (change registration)) →
      (∀ otherServer otherClient, after.registration? otherServer otherClient =
        if otherServer = server ∧ otherClient = client then
          (before.registration? server client).map change
        else before.registration? otherServer otherClient) → Rebooks before after
  /-- A server drops what nobody needs. -/
  | drops {server : Nat} {client : String} {registration : Registration} :
      before.registration? server client = some registration → before.IsUnused registration →
      (∀ otherServer otherClient, after.registration? otherServer otherClient =
        if otherServer = server ∧ otherClient = client then none
        else before.registration? otherServer otherClient) → Rebooks before after

/-- A task is replaced by its next stage. -/
def restage {α : Type} (number : α → Nat) (next : α) (tasks : List α) : List α :=
  tasks.map fun task => if number task = number next then next else task

/-- A task is over. -/
def conclude {α : Type} (number : α → Nat) (ended : α) (tasks : List α) : List α :=
  tasks.filter fun task => number task != number ended

section Lists

variable {α : Type} {number : α → Nat} {task next : α} {tasks : List α}

theorem mem_restage_self (member : task ∈ tasks) (same : number next = number task) :
    next ∈ restage number next tasks :=
  List.mem_map.mpr ⟨task, member, if_pos same.symm⟩

theorem eq_or_mem_of_mem_restage (member : task ∈ restage number next tasks) :
    task = next ∨ task ∈ tasks := by
  obtain ⟨former, memberFormer, same⟩ := List.mem_map.mp member
  split at same
  · exact Or.inl same.symm
  · exact Or.inr (same ▸ memberFormer)

theorem mem_restage_of_ne (member : task ∈ tasks) (other : number task ≠ number next) :
    task ∈ restage number next tasks :=
  List.mem_map.mpr ⟨task, member, if_neg other⟩

theorem map_number_restage (tasks : List α) :
    (restage number next tasks).map number = tasks.map number := by
  rw [restage, List.map_map]
  apply List.map_congr_left
  intro task _
  rw [Function.comp_apply]
  split
  next same => exact same.symm
  next => rfl

theorem mem_conclude_iff {ended : α} :
    task ∈ conclude number ended tasks ↔ task ∈ tasks ∧ number task ≠ number ended := by
  simp [conclude]

end Lists

/-- What a happening does to errands. -/
inductive ErrandsGo (before after : Network) : Prop where
  | stay : after.errands = before.errands → ErrandsGo before after
  | issued {errand : Errand} : errand.number = before.nextNumber →
      before.nextNumber < after.nextNumber → after.Backs errand →
      after.errands = before.errands ++ [errand] → ErrandsGo before after
  | staged {errand next : Errand} : errand ∈ before.errands → next.number = errand.number →
      next.route = errand.route → after.Backs next →
      after.errands = restage Errand.number next before.errands → ErrandsGo before after
  /-- An errand ends: it had no outbox of a client, or it has looked whether the server
  needs it any more. -/
  | ended {errand : Errand} : errand ∈ before.errands →
      (∀ server client, errand.route = some (server, client) →
        (∀ outbox run, errand.stage ≠ .running outbox run) ∧
        ∀ registration, after.registration? server client = some registration →
          registration.hasConnected = true ∨ before.isHeld registration.outbox = true ∨
            after.HasCalls registration.outbox) →
      after.errands = conclude Errand.number errand before.errands → ErrandsGo before after

/-- What a happening does to the connections to servers. -/
inductive VisitsGo (before after : Network) : Prop where
  | stay : after.visits = before.visits → VisitsGo before after
  | arrived {visit : Visit} : visit.number = before.nextNumber →
      before.nextNumber < after.nextNumber → visit.server < after.servers.size →
      after.Grants visit.server visit.stage →
      after.visits = before.visits ++ [visit] → VisitsGo before after
  /-- A connection goes on. Once it is registered, its client has connected. -/
  | staged {visit : Visit} {stage : VisitStage} : visit ∈ before.visits →
      after.Grants visit.server stage →
      (∀ client, visit.IsRegistering client →
        ∃ registration, after.registration? visit.server client = some registration ∧
          registration.hasConnected = true) →
      after.visits = restage Visit.number { visit with stage } before.visits →
      VisitsGo before after
  | ended {visit : Visit} : visit ∈ before.visits →
      (∀ client, ¬ visit.IsRegistering client) →
      after.visits = conclude Visit.number visit before.visits → VisitsGo before after

/-- A channel is new: it works on an outbox for a server, or on that of a client that has
connected. -/
def MayBegin (network : Network) (outbox : Nat) : Prop :=
  network.targetOf? outbox = some .server ∨ ∃ server client registration,
    network.registration? server client = some registration ∧
      registration.hasConnected = true ∧ registration.outbox = outbox

/-- What a happening does to the tasks of servers. -/
structure Tends (before after : Network) : Prop where
  servers : before.servers.size ≤ after.servers.size
  rebooks : Rebooks before after
  errands : ErrandsGo before after
  visits : VisitsGo before after
  channels : ∀ {channel : Nat} {place : ChannelPlace}, after.channels[channel]? = some place →
    channel < before.channels.size ∨ after.MayBegin place.outbox
  clients : ∀ {place : Nat} {client : Client}, after.clients[place]? = some client →
    (∃ old, before.clients[place]? = some old ∧ old.outbox = client.outbox) ∨
      after.targetOf? client.outbox = some .server
  /-- Who has connected has a channel. -/
  connected : ∀ {server : Nat} {client : String} {registration : Registration},
    after.registration? server client = some registration → registration.hasConnected = true →
      (∃ old, before.registration? server client = some old ∧ old.hasConnected = true ∧
        old.outbox = registration.outbox) ∨
      after.HasChannel registration.outbox
  nextNumber : before.nextNumber ≤ after.nextNumber

theorem Aside.tends {before after : Network} (aside : Aside before after) : Tends before after where
  servers := aside.servers
  rebooks := .keeps aside.registrations
  errands := .stay aside.errands
  visits := .stay aside.visits
  channels found :=
    Or.inl (Nat.lt_of_lt_of_le (Array.getElem?_eq_some_iff.mp found).1 aside.channels)
  clients found := Or.inl (aside.clients found)
  connected found connected := Or.inl ⟨_, aside.registrations _ _ ▸ found, connected, rfl⟩
  nextNumber := aside.nextNumber

/-- No channel begins and no client either, and nobody has connected. -/
theorem tends_of_same {before after : Network}
    (servers : before.servers.size ≤ after.servers.size) (rebooks : Rebooks before after)
    (unset : ∀ {server client registration}, after.registration? server client = some registration →
      registration.hasConnected = true →
      ∃ old, before.registration? server client = some old ∧ old.hasConnected = true ∧
        old.outbox = registration.outbox)
    (errands : ErrandsGo before after) (visits : VisitsGo before after)
    (channels : after.channels = before.channels) (clients : after.clients = before.clients)
    (nextNumber : before.nextNumber ≤ after.nextNumber) : Tends before after where
  servers
  rebooks
  errands
  visits
  channels found := Or.inl (channels ▸ (Array.getElem?_eq_some_iff.mp found).1)
  clients found := Or.inl ⟨_, clients ▸ found, rfl⟩
  connected found connected := Or.inl (unset found connected)
  nextNumber

/-- The registrations stay as they are, and no channel begins. -/
theorem tends_of_servers {before after : Network} (servers : after.servers = before.servers)
    (errands : ErrandsGo before after) (visits : VisitsGo before after)
    (channels : after.channels = before.channels) (clients : after.clients = before.clients)
    (nextNumber : before.nextNumber ≤ after.nextNumber) : Tends before after :=
  have same := registration?_of_servers servers
  tends_of_same (Nat.le_of_eq (by rw [servers])) (.keeps same)
    (fun found connected => ⟨_, same _ _ ▸ found, connected, rfl⟩) errands visits channels clients
    nextNumber

variable {before after middle : Network}

theorem HasChannel.kept {outbox : Nat} (worked : before.HasChannel outbox)
    (carries : Carries before after) : after.HasChannel outbox := by
  obtain ⟨channel, place, found, works⟩ := worked
  obtain ⟨later, foundLater, same, _⟩ := carries.channels found
  exact ⟨channel, later, foundLater, same.trans works⟩

theorem carries_happen {happening : Happening} (awake : happening.sleeps = false)
    (apart : ∀ outbox, happening.handles outbox = false) :
    Carries before (before.happen happening) where
  channels found := by
    have channels := (takes_happen before happening).channels awake
    obtain ⟨later, foundLater, outbox, answers, _⟩ := channels.kept found
    exact ⟨later, foundLater, outbox, answers⟩
  queues found := hasQueue_happen (apart _) awake found

/-! ## Places for a client -/

theorem Provides.rebooks {server : Nat} {client : String} {places : Nat × Nat}
    (provides : Provides before server client places middle)
    (servers : after.servers = middle.servers) (asked : after.IsAsked server client)
    (target : ∀ target, middle.targetOf? places.1 = some target →
      after.targetOf? places.1 = some target) : Rebooks before after := by
  have same := registration?_of_servers servers
  cases provides with
  | kept found => exact .keeps same
  | made _ missing isFor equal _ _ booked =>
      refine .opens missing rfl rfl ?_ asked fun otherServer otherClient =>
        (same otherServer otherClient).trans (booked otherServer otherClient)
      apply target
      rw [targetOf?, equal]
      simp [isFor]

theorem Provides.registration {server : Nat} {client : String} {places : Nat × Nat}
    (provides : Provides before server client places middle) :
    ∃ registration, middle.registration? server client = some registration ∧
      (registration.outbox, registration.answers) = places := by
  cases provides with
  | kept found => exact ⟨_, found, rfl⟩
  | made _ _ _ _ _ _ booked => exact ⟨_, by rw [booked, if_pos ⟨rfl, rfl⟩], rfl⟩

theorem Provides.unset {server : Nat} {client : String} {places : Nat × Nat}
    (provides : Provides before server client places middle)
    (servers : after.servers = middle.servers) {otherServer : Nat} {otherClient : String}
    {registration : Registration}
    (found : after.registration? otherServer otherClient = some registration)
    (connected : registration.hasConnected = true) :
    ∃ old, before.registration? otherServer otherClient = some old ∧ old.hasConnected = true ∧
      old.outbox = registration.outbox := by
  rw [registration?_of_servers servers] at found
  cases provides with
  | kept _ => exact ⟨_, found, connected, rfl⟩
  | made _ _ _ _ _ _ booked =>
      rw [booked] at found
      split at found
      · cases found
        cases connected
      · exact ⟨_, found, connected, rfl⟩

/-! ## Errands -/

theorem targets_of_quiet (quiet : Quiet before after) {outbox : Nat} {target : Peer}
    (there : before.targetOf? outbox = some target) : after.targetOf? outbox = some target := by
  obtain ⟨entry, found, rfl⟩ := Option.map_eq_some_iff.mp there
  obtain ⟨later, foundLater, same⟩ := quiet.outboxes.kept found
  rw [targetOf?, foundLater, Option.map_some, same.queue]

/-- What a step of a run makes of its errand, among all errands. -/
inductive Continues (errands : List Errand) (errand : Errand) (outbox : Nat) :
    List Errand → Prop where
  | goesOn {run : Run} : Continues errands errand outbox
      (restage Errand.number { errand with stage := .running outbox run } errands)
  | returns {server : Nat} {client : String} {reply : Reply} :
      errand.route = some (server, client) → Continues errands errand outbox
        (restage Errand.number { errand with stage := .tidying server client reply } errands)
  | ends : errand.route = none →
      Continues errands errand outbox (conclude Errand.number errand errands)

/-- A step of an errand leaves connections, channels and clients alone. -/
structure OnlyErrands (before after : Network) (errands : List Errand) : Prop where
  errands : after.errands = errands
  visits : after.visits = before.visits
  channels : after.channels = before.channels
  clients : after.clients = before.clients
  nextNumber : after.nextNumber = before.nextNumber

theorem OnlyErrands.trans {errands : List Errand} (left : OnlyErrands before middle before.errands)
    (right : OnlyErrands middle after errands) : OnlyErrands before after errands where
  errands := right.errands
  visits := right.visits.trans left.visits
  channels := right.channels.trans left.channels
  clients := right.clients.trans left.clients
  nextNumber := right.nextNumber.trans left.nextNumber

section Errands

variable {errand : Errand} {place : Nat}

theorem enterOutbox_only (entered : middle.enterOutbox errand place = some after) :
    after.servers = middle.servers ∧ ∃ run, OnlyErrands middle after
      (restage Errand.number { errand with stage := .running place run } middle.errands) := by
  obtain ⟨entry, _, rfl⟩ := enterOutbox_cases entered
  exact ⟨rfl, _, rfl, rfl, rfl, rfl, rfl⟩

theorem continueErrand_only (network : Network) (errand : Errand) (place : Nat)
    (earlier : RunStage) (run : Run) :
    (network.continueErrand errand place earlier run).servers = network.servers ∧
      ∃ errands, Continues network.errands errand place errands ∧
        OnlyErrands network (network.continueErrand errand place earlier run) errands := by
  simp only [continueErrand]
  split
  next routed => exact ⟨rfl, _, .returns routed, rfl, rfl, rfl, rfl, rfl⟩
  next own => exact ⟨rfl, _, .ends own, rfl, rfl, rfl, rfl, rfl⟩
  next => exact ⟨rfl, _, .goesOn, rfl, rfl, rfl, rfl, rfl⟩
  next => exact ⟨rfl, _, .goesOn, rfl, rfl, rfl, rfl, rfl⟩

theorem runErrand_only {run : Run} (ran : before.runErrand errand place run = some after) :
    after.servers = before.servers ∧ ∃ errands, Continues before.errands errand place errands ∧
      OnlyErrands before after errands := by
  obtain ⟨entry, run, outbox, backlog, _, _, rfl⟩ := runErrand_stepped ran
  have put : ((before.modifyOutbox place fun _ => outbox).setBacklog entry.backlog
        backlog).servers = before.servers ∧
      OnlyErrands before ((before.modifyOutbox place fun _ => outbox).setBacklog entry.backlog
        backlog) before.errands := by
    rw [setBacklog_eq]
    exact ⟨rfl, rfl, rfl, rfl, rfl, rfl⟩
  obtain ⟨servers, errands, continued, only⟩ := continueErrand_only
    ((before.modifyOutbox place fun _ => outbox).setBacklog entry.backlog backlog) errand place _
    run
  rw [put.2.errands] at continued
  exact ⟨servers.trans put.1, errands, continued, put.2.trans only⟩

theorem Provides.only {server : Nat} {client : String} {places : Nat × Nat}
    (provides : Provides before server client places middle) :
    middle.servers.size = before.servers.size ∧ OnlyErrands before middle before.errands := by
  cases provides with
  | kept _ => exact ⟨rfl, rfl, rfl, rfl, rfl, rfl⟩
  | made _ _ _ equal size _ _ =>
      refine ⟨size, ?_⟩
      rw [equal]
      exact ⟨rfl, rfl, rfl, rfl, rfl⟩

/-- What a step of an errand does that leaves the registrations alone. -/
theorem OnlyErrands.tends {errands : List Errand} (only : OnlyErrands before after errands)
    (servers : after.servers = before.servers) (go : ErrandsGo before after) :
    Tends before after :=
  tends_of_servers servers go (.stay only.visits) only.channels only.clients
    (Nat.le_of_eq only.nextNumber.symm)

variable (member : errand ∈ before.errands) (carries : Carries before after)
  (backs : before.Backs errand)
include member carries backs

theorem tends_entering (enters : errand.stage = .entering place)
    (entered : before.enterOutbox errand place = some after) : Tends before after := by
  obtain ⟨number, call, route, stage⟩ := errand
  subst enters
  cases backs with
  | entering target =>
      obtain ⟨servers, run, only⟩ := enterOutbox_only entered
      have running : after.Backs ⟨number, call, none, .running place run⟩ :=
        .running (carries.targets target)
      exact only.tends servers (.staged member (by rfl) (by rfl) running only.errands)

theorem tends_seeking {server : Nat} {client : String}
    (seeks : errand.stage = .seeking server client)
    (sought : before.seekOutbox errand server client = some after) : Tends before after := by
  obtain ⟨number, call, route, stage⟩ := errand
  subst seeks
  cases backs with
  | seeking inside =>
      simp only [seekOutbox] at sought
      split at sought
      next outbox answers middle found =>
        have provides := resources_provides inside found
        obtain ⟨servers, run, entered⟩ := enterOutbox_only sought
        obtain ⟨size, provided⟩ := provides.only
        have only := provided.trans entered
        obtain ⟨registration, booked, places⟩ := provides.registration
        have routed : after.Backs ⟨number, call, some (server, client), .running outbox run⟩ :=
          .routed ⟨registration, by rw [registration?_of_servers servers, booked],
            congrArg Prod.fst places⟩
        have staged : ErrandsGo before after := .staged member (by rfl) (by rfl) routed
          (only.errands.trans (congrArg _ provided.errands))
        have asked : after.IsAsked server client := by
          refine Or.inl ⟨⟨number, call, some (server, client), .running outbox run⟩, ?_, rfl⟩
          rw [only.errands, provided.errands]
          exact mem_restage_self member (by rfl)
        exact tends_of_same (Nat.le_of_eq (by rw [servers, size]))
          (provides.rebooks servers asked fun _ => targets_of_quiet (quiet_enterOutbox sought))
          (provides.unset servers) staged (.stay only.visits) only.channels only.clients
          (Nat.le_of_eq only.nextNumber.symm)
      next fault failed =>
        cases sought
        have missing := registration?_of_resources_error failed
        refine tends_of_servers rfl (.ended member ?_ (by rfl)) (.stay rfl) rfl rfl (Nat.le_refl _)
        intro otherServer otherClient routed
        cases routed
        refine ⟨fun _ _ runs => (by cases runs), fun registration found => ?_⟩
        cases missing.symm.trans found

theorem tends_running {run : Run} (runs : errand.stage = .running place run)
    (ran : before.runErrand errand place run = some after) : Tends before after := by
  obtain ⟨number, call, route, stage⟩ := errand
  subst runs
  obtain ⟨servers, errands, continued, only⟩ := runErrand_only ran
  refine only.tends servers ?_
  cases continued with
  | @goesOn run =>
      have running : after.Backs ⟨number, call, route, .running place run⟩ := by
        cases backs with
        | running target => exact .running (carries.targets target)
        | routed registers =>
            obtain ⟨registration, found, same⟩ := registers
            exact .routed ⟨registration, by rw [registration?_of_servers servers, found], same⟩
      exact .staged member (by rfl) (by rfl) running only.errands
  | @returns server client reply routed =>
      cases routed
      have tidying : after.Backs ⟨number, call, some (server, client),
        .tidying server client reply⟩ := .tidying
      exact .staged member (by rfl) (by rfl) tidying only.errands
  | ends own =>
      cases own
      exact .ended member (fun _ _ routed => (by cases routed)) only.errands

end Errands

/-! ## Tidying up -/

/-- What tidying up behind an errand makes of a network. -/
inductive Tidied (before : Network) (server : Nat) (client : String) : Network → Prop where
  | kept : (∀ registration, before.registration? server client = some registration →
      registration.hasConnected = true ∨ before.isHeld registration.outbox = true ∨
        before.HasCalls registration.outbox) → Tidied before server client before
  | dropped {registration : Registration} :
      before.registration? server client = some registration → before.IsUnused registration →
      Tidied before server client (before.dropRegistration server client)

theorem hasCalls_iff {network : Network} {outbox : Nat} :
    ((network.outboxes[outbox]?).all fun place => place.outbox.queue.calls.isEmpty) = false ↔
      network.HasCalls outbox := by
  rw [HasCalls]
  cases network.outboxes[outbox]? <;> simp

theorem tidy_tidied (network : Network) (server : Nat) (client : String) :
    Tidied network server client (network.tidy server client) := by
  simp only [tidy]
  split
  next missing =>
    refine .kept fun registration found => ?_
    cases missing.symm.trans found
  next registration found =>
    split
    next needed =>
      refine .kept fun other foundOther => ?_
      cases found.symm.trans foundOther
      rw [Bool.or_eq_true, Bool.or_eq_true, Bool.not_eq_true', hasCalls_iff, or_assoc] at needed
      exact needed
    next unneeded =>
      rw [Bool.or_eq_true, Bool.or_eq_true, Bool.not_eq_true', hasCalls_iff, not_or, not_or,
        Bool.not_eq_true, Bool.not_eq_true] at unneeded
      exact .dropped found ⟨unneeded.1.1, unneeded.1.2, unneeded.2⟩

theorem tends_tidying {errand : Errand} {server : Nat} {client : String} {reply : Reply}
    (member : errand ∈ before.errands) (backs : before.Backs errand)
    (tidies : errand.stage = .tidying server client reply) :
    Tends before ((before.tidy server client).endErrand errand reply) := by
  obtain ⟨number, call, route, stage⟩ := errand
  subst tidies
  cases backs with
  | tidying =>
      have tidied := tidy_tidied before server client
      generalize before.tidy server client = middle at tidied
      cases tidied with
      | kept needed =>
          refine tends_of_servers rfl (.ended member ?_ (by rfl)) (.stay rfl) rfl rfl
            (Nat.le_refl _)
          intro otherServer otherClient routed
          cases routed
          exact ⟨fun _ _ runs => (by cases runs), needed⟩
      | dropped found unused =>
          have gone := registration?_dropRegistration before server client
          refine tends_of_same ?_ (.drops found unused gone) ?_ (.ended member ?_ (by rfl))
            (.stay rfl) rfl rfl (Nat.le_refl _)
          · simp [endErrand, note, dropRegistration, modifyServer]
          · intro otherServer otherClient registration there connected
            have there := (gone otherServer otherClient).symm.trans there
            split at there
            · cases there
            · exact ⟨_, there, connected, rfl⟩
          · intro otherServer otherClient routed
            cases routed
            refine ⟨fun _ _ runs => (by cases runs), fun registration there => ?_⟩
            have there := (gone server client).symm.trans there
            rw [if_pos ⟨rfl, rfl⟩] at there
            cases there

theorem tends_errand {number : Nat} (moved : before.errand? number = some after)
    (carries : Carries before after) (backs : ∀ errand ∈ before.errands, before.Backs errand) :
    Tends before after := by
  obtain ⟨errand, member, ⟨place, enters, entered⟩ | ⟨server, client, seeks, sought⟩ |
    ⟨place, run, runs, ran⟩ | ⟨server, client, reply, tidies, rfl⟩⟩ := errand?_cases moved
  · exact tends_entering member carries (backs errand member) enters entered
  · exact tends_seeking member carries (backs errand member) seeks sought
  · exact tends_running member carries (backs errand member) runs ran
  · exact tends_tidying member (backs errand member) tidies

end Network

end PeerCalls
