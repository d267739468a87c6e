import PeerCalls.Proofs.Server.Tasks

/-!
# What happens to connections

A connection to a server waits for its greeting, gets what the server keeps for the client,
registers its channel, and ends after the channel. A client connects with a channel of its
own. With these, every happening does to the tasks of servers what `Tends` says.
-/

namespace PeerCalls.Network

variable {before middle after : Network}

/-! ## Connections to a server -/

section Visits

variable {visit : Visit}

/-- A connection that registers nothing ends. -/
theorem tends_endVisit (member : visit ∈ before.visits)
    (unregistered : ∀ client, ¬ visit.IsRegistering client) :
    Tends before (before.endVisit visit) :=
  tends_of_servers rfl (.stay rfl) (.ended member unregistered rfl) rfl rfl (Nat.le_refl _)

theorem tends_prepare (member : visit ∈ before.visits) {client : String}
    (prepares : visit.stage = .preparing client)
    (inside : visit.server < before.servers.size) : Tends before (before.prepare visit client) := by
  have unregistered : ∀ client, ¬ visit.IsRegistering client := by
    rintro client ⟨_, _, registers⟩
    cases prepares.symm.trans registers
  simp only [prepare]
  split
  next outbox answers middle found =>
    have provides := resources_provides inside found
    obtain ⟨size, only⟩ := provides.only
    obtain ⟨registration, booked, places⟩ := provides.registration
    cases places
    have grants : (middle.setVisit visit (.registering client registration.outbox
        registration.answers)).Grants visit.server
        (.registering client registration.outbox registration.answers) := .registering booked
    have restaged : (middle.setVisit visit (.registering client registration.outbox
        registration.answers)).visits = restage Visit.number { visit with
          stage := .registering client registration.outbox registration.answers } before.visits :=
      congrArg _ only.visits
    have asked : (middle.setVisit visit (.registering client registration.outbox
        registration.answers)).IsAsked visit.server client := by
      refine Or.inr ⟨{ visit with
        stage := .registering client registration.outbox registration.answers }, ?_, rfl, _, _, rfl⟩
      rw [restaged]
      exact mem_restage_self member (by rfl)
    refine tends_of_same (Nat.le_of_eq size.symm) (provides.rebooks rfl asked fun _ => id)
      (provides.unset rfl) (.stay only.errands) (.staged member grants ?_ ?_) only.channels
      only.clients (Nat.le_of_eq only.nextNumber.symm)
    · exact fun _ registers => absurd registers (unregistered _)
    · exact restaged
  next => exact tends_endVisit member unregistered

/-- A channel is new, and perhaps another one is stopped. -/
structure Begins (before after : Network) (place : ChannelPlace) : Prop where
  old : ∀ {channel : Nat} {found : ChannelPlace}, after.channels[channel]? = some found →
    channel < before.channels.size ∨ found.outbox = place.outbox
  new : ∃ found, after.channels[before.channels.size]? = some found ∧
    found.outbox = place.outbox ∧ found.answers = place.answers

theorem begins_addChannel (network : Network) (place : ChannelPlace) :
    Begins network (network.addChannel place).2 place where
  old {channel found} there := by
    rw [addChannel, Array.getElem?_push] at there
    split at there
    · cases there
      exact Or.inr rfl
    · exact Or.inl (Array.getElem?_eq_some_iff.mp there).1
  new := ⟨place, by simp [addChannel], rfl, rfl⟩

theorem Begins.of_eq {place : ChannelPlace} (begins : Begins before middle place)
    (same : after.channels = middle.channels) : Begins before after place :=
  ⟨fun there => begins.old (same ▸ there), same ▸ begins.new⟩

theorem Begins.modifyChannel {place : ChannelPlace} (begins : Begins before middle place)
    (stopped : Nat) (change : Channel → Channel) :
    Begins before (middle.modifyChannel stopped change) place where
  old {channel found} there := by
    rw [Network.modifyChannel, Array.getElem?_modify] at there
    split at there
    · obtain ⟨old, foundOld, rfl⟩ := Option.map_eq_some_iff.mp there
      have known := begins.old foundOld
      exact known
    · exact begins.old there
  new := by
    obtain ⟨found, there, outbox, answers⟩ := begins.new
    simp only [Network.modifyChannel, Array.getElem?_modify, there]
    split
    · exact ⟨_, rfl, outbox, answers⟩
    · exact ⟨found, rfl, outbox, answers⟩

/-- What registering a channel does. -/
structure Registered (before : Network) (visit : Visit) (client : String) (outbox answers : Nat)
    (after : Network) : Prop where
  registrations : ∀ otherServer otherClient, after.registration? otherServer otherClient =
    if otherServer = visit.server ∧ otherClient = client then
      (before.registration? visit.server client).map fun registration =>
        { registration with channel := some before.channels.size, hasConnected := true }
    else before.registration? otherServer otherClient
  servers : after.servers.size = before.servers.size
  errands : after.errands = before.errands
  visits : after.visits = restage Visit.number
    { visit with stage := .serving client before.channels.size } before.visits
  channels : ∃ place, Begins before after place ∧ place.outbox = outbox ∧ place.answers = answers
  clients : after.clients = before.clients
  nextNumber : after.nextNumber = before.nextNumber

theorem register_registered (before : Network) (visit : Visit) (client : String)
    (outbox answers : Nat) (inside : visit.server < before.servers.size) :
    Registered before visit client outbox answers
      (before.register visit client outbox answers) := by
  have keeps : ∀ registration : Registration, ({ registration with
      channel := some before.channels.size, hasConnected := true } : Registration).client =
      registration.client := fun _ => rfl
  simp only [register, Array.getElem?_eq_getElem inside]
  generalize place_eq : (⟨_, outbox, answers, visit.link, _⟩ : ChannelPlace) = place
  have works : place.outbox = outbox ∧ place.answers = answers := by
    rw [← place_eq]
    exact ⟨rfl, rfl⟩
  have booked := registration?_modifyRegistration keeps (before.addChannel place).2 visit.server
    client
  have begins : Begins before ((before.addChannel place).2.modifyRegistration visit.server client
      fun registration =>
        { registration with channel := some before.channels.size, hasConnected := true }) place :=
    (begins_addChannel before place).of_eq rfl
  split
  · refine ⟨booked, ?_, rfl, rfl, ⟨place, ?_, works⟩, rfl, rfl⟩
    · simp [setVisit, Network.modifyChannel, modifyRegistration, modifyServer, addChannel]
    · exact (begins.modifyChannel _ _).of_eq rfl
  · refine ⟨booked, ?_, rfl, rfl, ⟨place, begins.of_eq rfl, works⟩, rfl, rfl⟩
    simp [setVisit, modifyRegistration, modifyServer, addChannel]

theorem tends_register (member : visit ∈ before.visits) {client : String} {outbox answers : Nat}
    (registers : visit.stage = .registering client outbox answers)
    (inside : visit.server < before.servers.size)
    (granted : before.Grants visit.server visit.stage) :
    Tends before (before.register visit client outbox answers) := by
  have registered := register_registered before visit client outbox answers inside
  generalize before.register visit client outbox answers = after at registered
  rw [registers] at granted
  cases granted with
  | @registering _ registration known =>
      obtain ⟨place, begins, sameOutbox, sameAnswers⟩ := registered.channels
      have booked : after.registration? visit.server client = some { registration with
          channel := some before.channels.size, hasConnected := true } := by
        rw [registered.registrations, if_pos ⟨rfl, rfl⟩, known, Option.map_some]
      obtain ⟨new, foundNew, newOutbox, newAnswers⟩ := begins.new
      constructor
      case servers => exact Nat.le_of_eq registered.servers.symm
      case rebooks =>
        refine .changes ?_ registered.registrations
        exact fun _ => ⟨rfl, rfl, fun _ => rfl⟩
      case errands => exact .stay registered.errands
      case visits =>
        refine .staged member (.serving booked rfl foundNew (newOutbox.trans sameOutbox)
          (newAnswers.trans sameAnswers)) ?_ registered.visits
        rintro otherClient ⟨_, _, same⟩
        cases registers.symm.trans same
        exact ⟨_, booked, rfl⟩
      case channels =>
        intro channel found there
        rcases begins.old there with old | same
        · exact Or.inl old
        · exact Or.inr (Or.inr ⟨_, _, _, booked, rfl, (same.trans sameOutbox).symm⟩)
      case clients => exact fun found => Or.inl ⟨_, registered.clients ▸ found, rfl⟩
      case connected =>
        intro server otherClient other found connected
        rw [registered.registrations] at found
        split at found
        next same =>
          obtain ⟨rfl, rfl⟩ := same
          rw [known] at found
          cases found
          exact Or.inr ⟨_, new, foundNew, newOutbox.trans sameOutbox⟩
        next => exact Or.inl ⟨other, found, connected, rfl⟩
      case nextNumber => exact Nat.le_of_eq registered.nextNumber.symm

theorem tends_deregister (member : visit ∈ before.visits) {client : String} {channel : Nat}
    (serves : visit.stage = .serving client channel) :
    Tends before (before.deregister visit client channel) := by
  have keeps : ∀ registration : Registration,
      (if registration.channel = some channel then { registration with channel := none }
        else registration).client = registration.client := by
    intro registration
    split <;> rfl
  have changes := registration?_modifyRegistration keeps before visit.server client
  refine tends_of_same ?_ (.changes ?_ changes) ?_ (.stay rfl) (.ended member ?_ (by rfl)) rfl rfl
    (Nat.le_refl _)
  · simp [deregister, endVisit, modifyRegistration, modifyServer, Network.modifyLink]
  · intro registration
    split <;> exact ⟨rfl, rfl, id⟩
  · intro server otherClient registration found connected
    have there := (changes server otherClient).symm.trans found
    split at there
    next same =>
      obtain ⟨rfl, rfl⟩ := same
      obtain ⟨old, known, rfl⟩ := Option.map_eq_some_iff.mp there
      refine ⟨old, known, ?_, ?_⟩
      · split at connected <;> exact connected
      · split <;> rfl
    next => exact ⟨registration, there, connected, rfl⟩
  · rintro client ⟨_, _, registers⟩
    cases serves.symm.trans registers

theorem tends_visit {number : Nat} (moved : before.visit? number = some after)
    (visits : ∀ visit ∈ before.visits, visit.server < before.servers.size ∧
      before.Grants visit.server visit.stage) : Tends before after := by
  obtain ⟨visit, member, step⟩ := visit?_cases moved
  obtain ⟨inside, granted⟩ := visits visit member
  have unregistered : ∀ {expiry}, visit.stage = .greeting expiry →
      ∀ client, ¬ visit.IsRegistering client := by
    rintro expiry greets client ⟨_, _, registers⟩
    cases greets.symm.trans registers
  cases step with
  | greeted greets _ _ _ =>
      exact tends_of_servers rfl (.stay rfl)
        (.staged member .preparing (fun _ registers => absurd registers (unregistered greets _))
          (by rfl)) rfl rfl (Nat.le_refl _)
  | misgreeted greets _ _ _ =>
      exact tends_of_servers rfl (.stay rfl) (.ended member (unregistered greets) (by rfl)) rfl rfl
        (Nat.le_refl _)
  | ungreeted greets => exact tends_endVisit member (unregistered greets)
  | prepare prepares => exact tends_prepare member prepares inside
  | register registers => exact tends_register member registers inside granted
  | deregister serves _ _ => exact tends_deregister member serves

end Visits

/-! ## Clients -/

/-- What opening a connection to a server does. -/
structure Connects (before : Network) (server : Nat) (after : Network) : Prop where
  servers : after.servers = before.servers
  errands : after.errands = before.errands
  channels : after.channels = before.channels
  clients : after.clients = before.clients
  visits : after.visits = before.visits ∨ server < before.servers.size ∧
    before.nextNumber < after.nextNumber ∧ ∃ link address expiry, after.visits =
      before.visits ++ [⟨before.nextNumber, server, link, address, .greeting expiry⟩]
  nextNumber : before.nextNumber ≤ after.nextNumber

theorem connect_connects (network : Network) (server : Nat) (address : Address) :
    Connects network server (network.connect server address).2 := by
  have inside : ∀ entry, network.servers[server]? = some entry → server < network.servers.size :=
    fun _ found => (Array.getElem?_eq_some_iff.mp found).1
  simp only [connect]
  split
  next => exact ⟨rfl, rfl, rfl, rfl, .inl rfl, Nat.le_refl _⟩
  next expiry waits =>
    have there : server < network.servers.size := by
      split at waits
      next entry found => exact inside entry found
      next => cases waits
    exact ⟨rfl, rfl, rfl, rfl, .inr ⟨there, Nat.lt_succ_self _, _, address, expiry, rfl⟩,
      Nat.le_succ _⟩

theorem aside_pauseClient (network : Network) (place : Nat) (client : Client) :
    Aside network (network.pauseClient place client) := by
  simp only [pauseClient]
  apply Aside.modifyClient
  exact fun _ => rfl

/-- A new channel works on the outbox of a client. -/
theorem Connects.tends {server place : Nat} {started : ChannelPlace} {change : Client → Client}
    (connects : Connects before server middle)
    (keeps : ∀ client, (change client).outbox = client.outbox)
    (target : (((middle.addChannel started).2.modifyClient place change)).targetOf?
      started.outbox = some .server) :
    Tends before ((middle.addChannel started).2.modifyClient place change) := by
  have booked := registration?_of_servers connects.servers
  constructor
  case servers => exact Nat.le_of_eq (congrArg _ connects.servers.symm)
  case rebooks => exact .keeps booked
  case errands => exact .stay connects.errands
  case visits =>
    rcases connects.visits with same | ⟨inside, new, link, address, expiry, same⟩
    · exact .stay same
    · refine .arrived ?_ new (Nat.lt_of_lt_of_eq inside (congrArg _ connects.servers.symm)) ?_ same
      · rfl
      · exact .greeting
  case channels =>
    intro channel found there
    rcases (begins_addChannel middle started).old there with old | same
    · exact Or.inl (connects.channels ▸ old)
    · rw [same]
      exact Or.inr (Or.inl target)
  case clients =>
    intro other client found
    obtain ⟨old, foundOld, same⟩ :=
      (@Aside.modifyClient (middle.addChannel started).2 _ keeps place).clients found
    exact Or.inl ⟨old, connects.clients ▸ foundOld, same⟩
  case connected => exact fun found connected => Or.inl ⟨_, booked _ _ ▸ found, connected, rfl⟩
  case nextNumber => exact connects.nextNumber

theorem Connects.modifyLink {server link : Nat} {change : Link → Link}
    (connects : Connects before server middle) :
    Connects before server (middle.modifyLink link change) :=
  { connects with }

theorem tends_connectClient {place : Nat} {client : Client}
    (carries : Carries before (before.connectClient place client))
    (target : before.targetOf? client.outbox = some .server) :
    Tends before (before.connectClient place client) := by
  simp only [connectClient] at carries ⊢
  split
  next server greeting found encoded =>
    simp only [found, encoded] at carries
    have connects := connect_connects before server client.settings.server
    refine connects.modifyLink.tends (fun _ => rfl) ?_
    exact carries.targets target
  next => exact (aside_pauseClient _ _ _).tends

theorem tends_client {place : Nat} (moved : before.client? place = some after)
    (carries : Carries before after)
    (clients : ∀ {place : Nat} {client : Client}, before.clients[place]? = some client →
      before.targetOf? client.outbox = some .server) : Tends before after := by
  have staged : ∀ (network : Network) (stage : ClientStage),
      Aside network (network.modifyClient place fun client => { client with stage }) :=
    fun _ _ => .modifyClient (by exact fun _ => rfl) _
  obtain ⟨client, found, step⟩ := client?_cases moved
  cases step with
  | connect _ => exact tends_connectClient carries (clients found)
  | @leave _ entry _ _ _ _ =>
      have dropped := Aside.modifyLink before entry.link (·.drop .left)
      exact (dropped.trans (staged _ _)).tends
  | @pause _ entry _ _ _ =>
      have dropped := Aside.modifyLink before entry.link (·.drop .left)
      exact (dropped.trans (aside_pauseClient _ _ _)).tends
  | resume _ _ | finish _ => exact (staged _ _).tends

/-! ## What is done from outside -/

/-- An errand is new. -/
theorem tends_issue {errand : Errand} (number : errand.number = before.nextNumber)
    (backs : Backs { before with
      nextNumber := before.nextNumber + 1, errands := before.errands ++ [errand] } errand) :
    Tends before { before with
      nextNumber := before.nextNumber + 1, errands := before.errands ++ [errand] } :=
  tends_of_servers rfl (.issued number (Nat.lt_succ_self _) backs rfl) (.stay rfl) rfl rfl
    (Nat.le_succ _)

theorem tends_act {action : Action} (spares : SparesClients before (.act action))
    (awake : (Happening.act action).sleeps = false) :
    Tends before (before.act action).2 := by
  cases action with
  | issue outbox call =>
      refine tends_issue (by rfl) (.entering ?_)
      exact spares
  | issueTo server client call =>
      refine tends_issue (by rfl) (.seeking ?_)
      exact spares
  | enqueue outbox call | dequeue outbox | forget server client => exact spares.elim
  | signal outbox | takeSignal outbox | abandon outbox id | refuse backlog operations
  | closeLink link side =>
      apply Aside.tends
      exact .of_eq rfl rfl rfl rfl rfl (Nat.le_refl _)
  | complete outbox reply =>
      apply Aside.tends
      simp only [act, complete]
      split <;> exact .of_eq rfl rfl rfl rfl rfl (Nat.le_refl _)
  | send link side frame =>
      apply Aside.tends
      simp only [act, sendFrame]
      split <;> exact .of_eq rfl rfl rfl rfl rfl (Nat.le_refl _)
  | stopChannel channel => exact (Aside.modifyChannel _ _ _).tends
  | startClient client =>
      apply Aside.tends
      apply Aside.modifyClient
      exact fun _ => rfl
  | shutDownClient client =>
      apply Aside.tends
      simp only [act, shutDownClient]
      split
      · refine (Aside.modifyChannel _ _ _).trans (Aside.modifyClient ?_ _)
        exact fun _ => rfl
      · apply Aside.modifyClient
        exact fun _ => rfl
  | shutDownServer server => exact (aside_shutDownServer _ _).tends
  | sleep span => cases awake

theorem tends_startChannel {contact : Contact} {side : Side} {link outbox answers : Nat}
    {service : Service} (target : before.targetOf? outbox = some .server) :
    Tends before (before.startChannel contact side link outbox answers service).2 := by
  have begins := begins_addChannel before ⟨.start contact side, outbox, answers, link, service⟩
  constructor
  case servers => exact Nat.le_refl _
  case rebooks => exact .keeps fun _ _ => rfl
  case errands => exact .stay rfl
  case visits => exact .stay rfl
  case channels =>
    intro channel found there
    rcases begins.old there with old | same
    · exact Or.inl old
    · refine Or.inr (Or.inl ?_)
      rw [same]
      exact target
  case clients => exact fun found => Or.inl ⟨_, found, rfl⟩
  case connected => exact fun found connected => Or.inl ⟨_, found, connected, rfl⟩
  case nextNumber => exact Nat.le_refl _

theorem aside_createOutbox {target : Peer} {backlog : Option Nat} {settings : Settings}
    {place : Nat} (created : before.createOutbox target backlog settings = .ok (place, after)) :
    Aside before after := by
  obtain ⟨_, _, _, rfl⟩ := createOutbox_cases created
  exact .of_eq rfl rfl rfl rfl rfl (Nat.le_refl _)

theorem target_createOutbox {target : Peer} {backlog : Option Nat} {settings : Settings}
    {place : Nat} (created : before.createOutbox target backlog settings = .ok (place, after)) :
    after.targetOf? place = some target := by
  obtain ⟨outbox, made, rfl, rfl⟩ := createOutbox_cases created
  simp [targetOf?, addOutbox, target_of_create made]

/-- A new client has an outbox for its server. -/
theorem tends_addClient {settings : ClientSettings} {backlog : Option Nat} {service : Service}
    {place : Nat} (added : before.addClient settings backlog service = .ok (place, after)) :
    Tends before after := by
  obtain ⟨outbox, created, made, _, rfl⟩ := addClient_cases added
  have aside := aside_createOutbox made
  have target := target_createOutbox made
  constructor
  case servers => exact aside.servers
  case rebooks => exact .keeps aside.registrations
  case errands => exact .stay aside.errands
  case visits => exact .stay aside.visits
  case channels => exact aside.tends.channels
  case clients =>
    intro other client found
    rw [Array.getElem?_push] at found
    split at found
    · cases found
      exact Or.inr target
    · exact Or.inl ⟨client, found, rfl⟩
  case connected => exact aside.tends.connected
  case nextNumber => exact aside.nextNumber

theorem tends_orElseKeep {ε α : Type} {result : Except ε (α × Network)}
    (tends : ∀ value next, result = .ok (value, next) → Tends before next) :
    Tends before (before.orElseKeep result) := by
  simp only [orElseKeep]
  split
  · exact tends _ _ rfl
  · exact (Aside.refl _).tends

/-! ## What happens -/

theorem handles_of_sparesClients {happening : Happening} (spares : SparesClients before happening)
    (outbox : Nat) : happening.handles outbox = false := by
  cases happening with
  | act action =>
      cases action with
      | enqueue _ _ | dequeue _ => exact spares.elim
      | _ => rfl
  | _ => rfl

theorem tends_move {move : Move} (moved : before.move? move = some after)
    (carries : Carries before after) (backs : ∀ errand ∈ before.errands, before.Backs errand)
    (visits : ∀ visit ∈ before.visits, visit.server < before.servers.size ∧
      before.Grants visit.server visit.stage)
    (clients : ∀ {place : Nat} {client : Client}, before.clients[place]? = some client →
      before.targetOf? client.outbox = some .server) : Tends before after := by
  cases move with
  | send channel drops => exact (aside_turns moved (Or.inl ⟨_, _, rfl⟩)).tends
  | receive channel => exact (aside_turns moved (Or.inr (Or.inl ⟨_, rfl⟩))).tends
  | close channel => exact (aside_turns moved (Or.inr (Or.inr ⟨_, rfl⟩))).tends
  | execute number => exact (aside_execute moved).tends
  | errand number => exact tends_errand moved carries backs
  | visit number => exact tends_visit moved visits
  | client place => exact tends_client moved carries clients
  | watch link side => exact (aside_watch moved).tends

/-- What a happening does to the tasks of servers, if they work on what is theirs. -/
theorem tends_happen {happening : Happening} (spares : SparesClients before happening)
    (awake : happening.sleeps = false) (backs : ∀ errand ∈ before.errands, before.Backs errand)
    (visits : ∀ visit ∈ before.visits, visit.server < before.servers.size ∧
      before.Grants visit.server visit.stage)
    (clients : ∀ {place : Nat} {client : Client}, before.clients[place]? = some client →
      before.targetOf? client.outbox = some .server) : Tends before (before.happen happening) := by
  have carries : Carries before (before.happen happening) :=
    carries_happen awake (handles_of_sparesClients spares)
  cases happening with
  | move move =>
      simp only [happen] at carries ⊢
      cases moved : before.move? move with
      | none => exact (Aside.refl _).tends
      | some next =>
          rw [moved] at carries
          exact tends_move moved carries backs visits clients
  | act action => exact tends_act spares awake
  | pass time | addBacklog backlog | addAnswers capacity | addLink maxFrameLength
  | watch link side =>
      apply Aside.tends
      exact .of_eq rfl rfl rfl rfl rfl (Nat.le_refl _)
  | cut link side => exact (Aside.modifyLink _ _ _).tends
  | equip channel service =>
      apply Aside.tends
      exact .of_eq rfl rfl rfl (by simp [happen]) rfl (Nat.le_refl _)
  | take link side =>
      apply Aside.tends
      simp only [happen, receiveFrame]
      split <;> exact .of_eq rfl rfl rfl rfl rfl (Nat.le_refl _)
  | addOutbox target backlog settings =>
      exact tends_orElseKeep fun _ _ created => (aside_createOutbox created).tends
  | startChannel contact side link outbox answers service => exact tends_startChannel spares
  | addServer settings backlog service =>
      exact tends_orElseKeep fun _ _ added => (aside_addServer added).tends
  | addClient settings backlog service =>
      exact tends_orElseKeep fun _ _ added => tends_addClient added
  | reachServer client server =>
      apply Aside.tends
      apply Aside.modifyClient
      exact fun _ => rfl

end PeerCalls.Network
