import PeerCalls.Proofs.Network.Quiet

/-!
# Servers and clients leave calls alone

Servers keep outboxes and answers for their clients and start channels; clients
connect, wait and connect again. What a step of theirs does, and when, is said once;
none of it touches a queue or an execution.
-/

namespace PeerCalls.Network

variable {network next : Network}

/-! ## What a server keeps -/

theorem quiet_resources {server : Nat} {client : String} {places : Nat × Nat}
    (kept : network.resources server client = .ok (places, next)) : Quiet network next := by
  simp only [resources] at kept
  split at kept
  · cases kept
    exact Quiet.refl network
  · split at kept
    · cases kept
      exact Quiet.refl network
    · split at kept
      · cases kept
      · cases kept
        exact ((Quiet.addOutbox _ _ _).trans (Quiet.addAnswers _ _)).trans
          (Quiet.modifyServer _ _ _)

theorem quiet_modifyRegistration (network : Network) (server : Nat) (client : String)
    (change : Registration → Registration) :
    Quiet network (network.modifyRegistration server client change) :=
  Quiet.modifyServer _ _ _

theorem quiet_dropRegistration (network : Network) (server : Nat) (client : String) :
    Quiet network (network.dropRegistration server client) :=
  Quiet.modifyServer _ _ _

theorem quiet_tidy (network : Network) (server : Nat) (client : String) :
    Quiet network (network.tidy server client) := by
  simp only [tidy]
  split
  · exact Quiet.refl network
  · split
    · exact Quiet.refl network
    · exact quiet_dropRegistration _ _ _

/-! ## Connections to a server -/

/-- What a step of a connection to a server does. -/
inductive VisitStep (network : Network) (visit : Visit) : Network → Prop where
  | greeted {expiry : Time} {client : String} {link later : Link} {frame : Bytes} :
      visit.stage = .greeting expiry → network.links[visit.link]? = some link →
      link.receive .right = (.frame frame, later) → Greeting.decode frame = .ok client →
      VisitStep network visit ((network.modifyLink visit.link fun _ => later).setVisit visit
        (.preparing client))
  | misgreeted {expiry : Time} {link later : Link} {frame : Bytes} {fault : Greeting.Fault} :
      visit.stage = .greeting expiry → network.links[visit.link]? = some link →
      link.receive .right = (.frame frame, later) → Greeting.decode frame = .error fault →
      VisitStep network visit ((network.modifyLink visit.link fun _ => later).endVisit visit)
  /-- The client leaves or is too slow. -/
  | ungreeted {expiry : Time} : visit.stage = .greeting expiry →
      VisitStep network visit (network.endVisit visit)
  | prepare {client : String} : visit.stage = .preparing client →
      VisitStep network visit (network.prepare visit client)
  | register {client : String} {outbox answers : Nat} :
      visit.stage = .registering client outbox answers →
      VisitStep network visit (network.register visit client outbox answers)
  | deregister {client : String} {channel : Nat} {place : ChannelPlace} :
      visit.stage = .serving client channel → network.channels[channel]? = some place →
      place.channel.hasEnded = true →
      VisitStep network visit (network.deregister visit client channel)

theorem greet_cases {visit : Visit} {expiry : Time} (greets : visit.stage = .greeting expiry)
    (greeted : network.greet visit expiry = some next) : VisitStep network visit next := by
  simp only [greet, Option.bind_eq_bind, Option.bind_eq_some_iff] at greeted
  obtain ⟨link, found, greeted⟩ := greeted
  split at greeted
  next received =>
    split at greeted
    next decoded =>
      cases greeted
      exact .greeted greets found received decoded
    next failed =>
      cases greeted
      exact .misgreeted greets found received failed
  · cases greeted
    exact .ungreeted greets
  · split at greeted
    · cases greeted
      exact .ungreeted greets
    · cases greeted

theorem visit?_cases {number : Nat} (moved : network.visit? number = some next) :
    ∃ visit ∈ network.visits, VisitStep network visit next := by
  simp only [visit?, Option.bind_eq_bind, Option.bind_eq_some_iff] at moved
  obtain ⟨visit, found, moved⟩ := moved
  refine ⟨visit, List.mem_of_find?_eq_some found, ?_⟩
  split at moved
  next greets => exact greet_cases greets moved
  next prepares =>
    cases moved
    exact .prepare prepares
  next registers =>
    cases moved
    exact .register registers
  next serves =>
    simp only [Option.bind_eq_some_iff] at moved
    obtain ⟨place, there, moved⟩ := moved
    split at moved
    next hasEnded =>
      cases moved
      exact .deregister serves there hasEnded
    · cases moved
  next => cases moved

theorem quiet_prepare (network : Network) (visit : Visit) (client : String) :
    Quiet network (network.prepare visit client) := by
  simp only [prepare]
  split
  next kept => exact (quiet_resources kept).trans (Quiet.setVisit _ _ _)
  next => exact Quiet.endVisit _ _

theorem quiet_register (network : Network) (visit : Visit) (client : String)
    (outbox answers : Nat) : Quiet network (network.register visit client outbox answers) := by
  simp only [register]
  split
  · exact Quiet.endVisit _ _
  next server _ =>
    have fresh : ChannelPlace.IsNew
        ⟨if server.isShutDown then (Channel.start ⟨.client client, some visit.address⟩ .right).stop
          else Channel.start ⟨.client client, some visit.address⟩ .right,
          outbox, answers, visit.link, server.service⟩ := by
      refine ⟨⟨.client client, some visit.address⟩, .right, ?_⟩
      dsimp only
      split
      · exact Or.inr rfl
      · exact Or.inl rfl
    have added : Quiet network (network.addChannel _).2 := Quiet.addChannel fresh
    split
    · exact ((added.trans (quiet_modifyRegistration _ _ _ _)).trans
        (Quiet.stopChannel _ _)).trans (Quiet.setVisit _ _ _)
    · exact (added.trans (quiet_modifyRegistration _ _ _ _)).trans (Quiet.setVisit _ _ _)

theorem quiet_deregister (network : Network) (visit : Visit) (client : String)
    (channel : Nat) : Quiet network (network.deregister visit client channel) :=
  (quiet_modifyRegistration _ _ _ _).trans (Quiet.endVisit _ _)

theorem quiet_visit {number : Nat} (moved : network.visit? number = some next) :
    Quiet network next := by
  obtain ⟨visit, _, step⟩ := visit?_cases moved
  cases step with
  | greeted _ found received _ =>
      exact (Quiet.replaceLink found (Link.loses_of_receive received).limit).trans
        (Quiet.setVisit _ _ _)
  | misgreeted _ found received _ =>
      exact (Quiet.replaceLink found (Link.loses_of_receive received).limit).trans
        (Quiet.endVisit _ _)
  | ungreeted _ => exact Quiet.endVisit _ _
  | prepare _ => exact quiet_prepare _ _ _
  | register _ => exact quiet_register _ _ _ _ _
  | deregister _ _ _ => exact quiet_deregister _ _ _ _

/-! ## Clients -/

/-- What a step of a client does. -/
inductive ClientStep (network : Network) (place : Nat) (client : Client) : Network → Prop where
  | connect : client.stage = .connecting →
      ClientStep network place client (network.connectClient place client)
  /-- The channel has ended, and the client hangs up. -/
  | leave {channel : Nat} {entry : ChannelPlace} : client.stage = .serving channel →
      network.channels[channel]? = some entry → entry.channel.hasEnded = true →
      client.isShutDown = true →
      ClientStep network place client ((network.modifyLink entry.link (·.drop .left)).modifyClient
        place fun client => { client with stage := .ended })
  | pause {channel : Nat} {entry : ChannelPlace} : client.stage = .serving channel →
      network.channels[channel]? = some entry → entry.channel.hasEnded = true →
      ClientStep network place client
        ((network.modifyLink entry.link (·.drop .left)).pauseClient place client)
  | resume {wake : Time} : client.stage = .pausing wake → wake ≤ network.now →
      ClientStep network place client
        (network.modifyClient place fun client => { client with stage := .connecting })
  | finish : client.isShutDown = true →
      ClientStep network place client
        (network.modifyClient place fun client => { client with stage := .ended })

theorem client?_cases {place : Nat} (moved : network.client? place = some next) :
    ∃ client, network.clients[place]? = some client ∧ ClientStep network place client next := by
  simp only [client?, Option.bind_eq_bind, Option.bind_eq_some_iff] at moved
  obtain ⟨client, found, moved⟩ := moved
  refine ⟨client, found, ?_⟩
  split at moved
  · cases moved
  · cases moved
  next connects =>
    split at moved
    next isShutDown =>
      cases moved
      exact .finish isShutDown
    · cases moved
      exact .connect connects
  next serves =>
    simp only [Option.bind_eq_some_iff] at moved
    obtain ⟨entry, there, moved⟩ := moved
    split at moved
    next hasEnded =>
      split at moved
      next isShutDown =>
        cases moved
        exact .leave serves there hasEnded isShutDown
      · cases moved
        exact .pause serves there hasEnded
    · cases moved
  next pauses =>
    split at moved
    next isShutDown =>
      cases moved
      exact .finish isShutDown
    · split at moved
      next late =>
        cases moved
        exact .resume pauses late
      · cases moved

theorem quiet_connect (network : Network) (server : Nat) (address : Address) :
    Quiet network (network.connect server address).2 := by
  simp only [connect]
  split
  · exact Quiet.addLink _ _
  · refine (Quiet.addLink network Link.standardMaxFrameLength).trans ?_
    exact Quiet.of_eq rfl rfl rfl rfl rfl (Nat.le_succ _) rfl

theorem quiet_connectClient (network : Network) (place : Nat) (client : Client) :
    Quiet network (network.connectClient place client) := by
  simp only [connectClient]
  split
  · refine (((quiet_connect _ _ _).trans (Quiet.modifyLink ?_)).trans
      (Quiet.addChannel ⟨_, _, Or.inl rfl⟩)).trans (Quiet.modifyClient _ _ _)
    exact fun link _ => link.maxFrameLength_send _ _
  · exact Quiet.modifyClient _ _ _

theorem quiet_client {place : Nat} (moved : network.client? place = some next) :
    Quiet network next := by
  obtain ⟨client, _, step⟩ := client?_cases moved
  cases step with
  | connect _ => exact quiet_connectClient _ _ _
  | leave _ _ _ _ | pause _ _ _ => exact (Quiet.dropLink _ _ _).trans (Quiet.modifyClient _ _ _)
  | resume _ _ | finish _ => exact Quiet.modifyClient _ _ _

/-! ## Watched links -/

/-- Somebody who watches a link receives from it, and an event says so. -/
theorem watch?_cases {place : Nat} {side : Side} (moved : network.watch? place side = some next) :
    ∃ link received later, network.links[place]? = some link ∧
      link.receive side = (received, later) ∧ ∃ event watched, event.IsQuiet ∧
        next = { network.modifyLink place (fun _ => later) with watched }.note event := by
  simp only [watch?, Option.bind_eq_bind, Option.bind_eq_some_iff] at moved
  obtain ⟨link, found, moved⟩ := moved
  split at moved
  · split at moved
    next frame later received =>
      cases moved
      exact ⟨link, _, later, found, received, .arrived place frame, _, trivial, rfl⟩
    next later received =>
      cases moved
      exact ⟨link, _, later, found, received, .closed place, _, trivial, rfl⟩
    · cases moved
  · cases moved

theorem quiet_watch {place : Nat} {side : Side} (moved : network.watch? place side = some next) :
    Quiet network next := by
  obtain ⟨link, _, later, found, received, event, watched, quiet, rfl⟩ := watch?_cases moved
  have read : Quiet network (network.modifyLink place fun _ => later) :=
    Quiet.replaceLink found (Link.loses_of_receive received).limit
  have watches : Quiet (network.modifyLink place fun _ => later)
      { network.modifyLink place (fun _ => later) with watched } :=
    Quiet.of_eq rfl rfl rfl rfl rfl (Nat.le_refl _) rfl
  exact (read.trans watches).trans (Quiet.note quiet)

/-! ## Control -/

/-- To shut a server down is to stop some channels, and then to mark it. -/
theorem shutDownServer_preserves {holds : Network → Prop} {server : Nat}
    (stops : ∀ {before : Network} {channel : Nat}, holds before →
      holds (before.modifyChannel channel Channel.stop))
    (marks : ∀ {before : Network}, holds before →
      holds (before.modifyServer server fun entry => { entry with isShutDown := true }))
    (start : holds network) : holds (network.shutDownServer server) := by
  simp only [shutDownServer]
  apply marks
  generalize network.visits = visits
  induction visits generalizing network with
  | nil => exact start
  | cons visit rest ih =>
      rw [List.foldl_cons]
      apply ih
      split
      · split
        · exact stops start
        · exact start
      · exact start

theorem quiet_shutDownServer (network : Network) (server : Nat) :
    Quiet network (network.shutDownServer server) :=
  shutDownServer_preserves (fun quiet => quiet.trans (Quiet.stopChannel _ _))
    (fun quiet => quiet.trans (Quiet.modifyServer _ _ _)) (Quiet.refl network)

theorem quiet_shutDownClient (network : Network) (client : Nat) :
    Quiet network (network.shutDownClient client) := by
  simp only [shutDownClient]
  refine Quiet.trans ?_ (Quiet.modifyClient _ _ _)
  split
  · exact Quiet.stopChannel _ _
  · exact Quiet.refl network

theorem quiet_forgetClient (network : Network) (server : Nat) (client : String) :
    Quiet network (network.forgetClient server client).2 := by
  simp only [forgetClient]
  split
  · exact Quiet.refl network
  · split
    · exact Quiet.refl network
    · exact quiet_dropRegistration _ _ _

theorem createOutbox_cases {target : Peer} {backlog : Option Nat} {settings : Settings}
    {place : Nat} (created : network.createOutbox target backlog settings = .ok (place, next)) :
    ∃ outbox, Outbox.create target (network.backlogAt backlog) settings = .ok outbox ∧
      place = network.outboxes.size ∧ next = (network.addOutbox outbox backlog).2 := by
  simp only [createOutbox, Except.map] at created
  split at created
  · cases created
  next outbox made =>
    cases created
    exact ⟨outbox, made, rfl, rfl⟩

/-- A new client comes with a new outbox for its server and with new answers. -/
theorem addClient_cases {settings : ClientSettings} {backlog : Option Nat} {service : Service}
    {place : Nat} (added : network.addClient settings backlog service = .ok (place, next)) :
    ∃ outbox created, network.createOutbox .server backlog settings.channel =
        .ok (outbox, created) ∧ place = network.clients.size ∧
      next = { (created.addAnswers settings.channel.rememberedReplies).2 with
        clients := network.clients.push
          ⟨settings, outbox, network.answers.size, service, none,
            Backoff.new settings.initialDelay settings.maxDelay settings.factor, false, .idle⟩ } := by
  simp only [addClient, bind, Except.bind] at added
  split at added
  · cases added
  · split at added
    · cases added
    next created =>
      cases made : network.createOutbox .server backlog settings.channel with
      | error fault =>
          rw [made] at created
          cases created
      | ok value =>
          obtain ⟨outbox, middle⟩ := value
          rw [made] at created
          cases created
          cases added
          obtain ⟨_, _, _, rfl⟩ := createOutbox_cases made
          exact ⟨outbox, _, rfl, rfl, rfl⟩

theorem quiet_createOutbox {target : Peer} {backlog : Option Nat} {settings : Settings}
    {place : Nat} (created : network.createOutbox target backlog settings = .ok (place, next)) :
    Quiet network next := by
  obtain ⟨outbox, _, _, rfl⟩ := createOutbox_cases created
  exact Quiet.addOutbox _ _ _

theorem quiet_addServer {settings : ServerSettings} {backlog : Option Nat} {service : Service}
    {place : Nat} (added : network.addServer settings backlog service = .ok (place, next)) :
    Quiet network next := by
  simp only [addServer, Except.map] at added
  split at added
  · cases added
  · cases added
    exact Quiet.of_eq rfl rfl rfl rfl rfl (Nat.le_refl _) rfl

theorem quiet_addClient {settings : ClientSettings} {backlog : Option Nat} {service : Service}
    {place : Nat} (added : network.addClient settings backlog service = .ok (place, next)) :
    Quiet network next := by
  obtain ⟨_, created, made, _, rfl⟩ := addClient_cases added
  have same : ∀ network clients, Quiet network { network with clients } := fun _ _ =>
    Quiet.of_eq rfl rfl rfl rfl rfl (Nat.le_refl _) rfl
  exact ((quiet_createOutbox made).trans (Quiet.addAnswers _ _)).trans (same _ _)

theorem quiet_orElseKeep {ε α : Type} {result : Except ε (α × Network)}
    (quiet : ∀ value after, result = .ok (value, after) → Quiet network after) :
    Quiet network (network.orElseKeep result) := by
  simp only [orElseKeep]
  split
  · exact quiet _ _ rfl
  · exact Quiet.refl network

end PeerCalls.Network
