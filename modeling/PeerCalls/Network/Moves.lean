import PeerCalls.Network.Basic

/-!
# What can happen in a network

A move is the next step of one activity: code that runs without letting others
go on. `move?` takes it, if the activity can go on now. Moves take no time.
-/

namespace PeerCalls

/-- The next step of one activity. -/
inductive Move where
  /-- A channel sends. `drops`: stopped meanwhile, it drops the frame in its hands. -/
  | send (channel : Nat) (drops : Bool)
  | receive (channel : Nat)
  | close (channel : Nat)
  | execute (number : Nat)
  | errand (number : Nat)
  | visit (number : Nat)
  | client (place : Nat)
  | watch (link : Nat) (side : Side)
  deriving Repr, DecidableEq

namespace Network

/-- What a channel tells others: ended calls are logged, and invocations begin to
be executed. -/
def report (network : Network) (channel : Nat) : Report → Network
  | .ended call reply => network.note (.ended channel call reply)
  | .execute invocation =>
    let (number, network) := network.number
    { network with
      executions := network.executions ++ [⟨number, channel, invocation, .ready⟩] }

/-- Put back a channel that has taken a step. -/
def afterStep (network : Network) (channel : Nat) (next : Station × List Report) : Network :=
  next.2.foldl (fun network report => network.report channel report)
    (network.setStation channel next.1)

def send? (network : Network) (channel : Nat) (drops : Bool) : Option Network := do
  let station ← network.station? channel
  return network.afterStep channel (← station.sendStep drops)

def receive? (network : Network) (channel : Nat) : Option Network := do
  let station ← network.station? channel
  return network.afterStep channel (← station.receiveStep)

def close? (network : Network) (channel : Nat) : Option Network := do
  let station ← network.station? channel
  return network.setStation channel (← station.closeStep)

/-! ## Executions -/

def setExecution (network : Network) (execution : Execution) : Network :=
  { network with executions := network.executions.map fun other =>
      if other.number = execution.number then execution else other }

def dropExecution (network : Network) (number : Nat) : Network :=
  { network with executions := network.executions.filter (·.number != number) }

/-- A service begins to execute an invocation. -/
def beginExecution (network : Network) (execution : Execution) : Network :=
  match network.channels[execution.channel]? with
  | none => network.dropExecution execution.number
  | some place =>
    let reaction := place.service place.channel.contact execution.invocation
    let wake := Time.wakeAfter network.now reaction.duration
    (network.setExecution { execution with stage := .busy wake reaction.conclusion }).note
      (.executing execution.channel execution.invocation)

/-- An execution has ended, and its channel gets the reply. -/
def endExecution (network : Network) (execution : Execution) (conclusion : Conclusion) :
    Network :=
  let network := (network.dropExecution execution.number).note
    (.executed execution.channel execution.invocation conclusion)
  match network.station? execution.channel with
  | none => network
  | some station =>
    network.setStation execution.channel
      (station.concludeStep ⟨execution.invocation.id, conclusion.verdict⟩)

def execute? (network : Network) (number : Nat) : Option Network := do
  let execution ← network.executions.find? (·.number = number)
  match execution.stage with
  | .ready => return network.beginExecution execution
  | .busy wake conclusion =>
    if wake ≤ network.now then return network.endExecution execution conclusion else none

/-! ## What a server keeps for its clients -/

def Server.registration? (server : Server) (client : String) : Option Registration :=
  server.registrations.find? (·.client = client)

/-- Insert a registration at its place in the order of the ids. -/
def insertRegistration (registration : Registration) : List Registration → List Registration
  | [] => [registration]
  | head :: rest =>
    if head.client < registration.client then head :: insertRegistration registration rest
    else registration :: head :: rest

/-- Change what a server keeps for a client. -/
def modifyRegistration (network : Network) (server : Nat) (client : String)
    (change : Registration → Registration) : Network :=
  network.modifyServer server fun entry =>
    { entry with registrations := entry.registrations.map fun registration =>
        if registration.client = client then change registration else registration }

/-- A server keeps nothing for a client any more. -/
def dropRegistration (network : Network) (server : Nat) (client : String) : Network :=
  network.modifyServer server fun entry =>
    { entry with registrations := entry.registrations.filter (·.client != client) }

/-- The outbox and the answers of a client: those that are kept, or new ones. -/
def resources (network : Network) (server : Nat) (client : String) :
    Except Outbox.Fault ((Nat × Nat) × Network) :=
  match network.servers[server]? with
  | none => .ok ((0, 0), network)
  | some entry =>
    match Server.registration? entry client with
    | some registration => .ok ((registration.outbox, registration.answers), network)
    | none =>
      match Outbox.create (.client client) (network.backlogAt entry.backlog)
          entry.settings.channel with
      | .error fault => .error fault
      | .ok outbox =>
        let (outbox, network) := network.addOutbox outbox entry.backlog
        let (answers, network) := network.addAnswers entry.settings.channel.rememberedReplies
        let registration := ⟨client, outbox, answers, none, false⟩
        .ok ((outbox, answers), network.modifyServer server fun entry =>
          { entry with registrations := insertRegistration registration entry.registrations })

/-- Somebody besides the server itself uses an outbox. -/
def isHeld (network : Network) (outbox : Nat) : Bool :=
  network.errands.any (fun errand =>
    match errand.stage with
    | .running place _ => place == outbox
    | _ => false)
  || network.visits.any (fun visit =>
    match visit.stage with
    | .registering _ place _ => place == outbox
    | .serving _ channel => (network.channels[channel]?).any (·.outbox == outbox)
    | _ => false)
  || network.executions.any (fun execution =>
    (network.channels[execution.channel]?).any (·.outbox == outbox))

/-- A server drops what it keeps for a client that never connected, unless there
is something in its queue or somebody uses its outbox. -/
def tidy (network : Network) (server : Nat) (client : String) : Network :=
  match (network.servers[server]?).bind (Server.registration? · client) with
  | none => network
  | some registration =>
    let isQueueEmpty := (network.outboxes[registration.outbox]?).all fun place =>
      place.outbox.queue.calls.isEmpty
    if registration.hasConnected || network.isHeld registration.outbox || !isQueueEmpty then
      network
    else network.dropRegistration server client

/-- A registered channel is there and not stopped. -/
def isConnected (network : Network) (registration : Registration) : Bool :=
  registration.channel.any fun channel =>
    (network.channels[channel]?).any fun place => !place.channel.isStopped

/-! ## Errands -/

def setErrand (network : Network) (errand : Errand) : Network :=
  { network with errands := network.errands.map fun other =>
      if other.number = errand.number then errand else other }

/-- An errand ends with its reply. -/
def endErrand (network : Network) (errand : Errand) (reply : Reply) : Network :=
  { network with errands := network.errands.filter (·.number != errand.number) }.note
    (.returned errand.number reply)

/-- The call of an errand enters an outbox. -/
def enterOutbox (network : Network) (errand : Errand) (place : Nat) : Option Network := do
  let entry ← network.outboxes[place]?
  let (run, outbox) := Run.start entry.outbox errand.call
  return (network.modifyOutbox place fun _ => outbox).setErrand
    { errand with stage := .running place run }

/-- A server finds the outbox for a call. -/
def seekOutbox (network : Network) (errand : Errand) (server : Nat) (client : String) :
    Option Network :=
  match network.resources server client with
  | .ok ((outbox, _), network) => network.enterOutbox errand outbox
  | .error fault =>
    some (network.endErrand errand
      (Reply.failure errand.call.id .other fault.fullMessage))

/-- The errand goes on with its run. A run that waits after it was not yet queued has
had its call accepted. -/
def continueErrand (network : Network) (errand : Errand) (place : Nat) (before : RunStage)
    (run : Run) : Network :=
  match before, run.stage, errand.route with
  | _, .returned reply, some (server, client) =>
    network.setErrand { errand with stage := .tidying server client reply }
  | _, .returned reply, none => network.endErrand errand reply
  | .enqueuing, .waiting _, _ =>
    (network.setErrand { errand with stage := .running place run }).note
      (.accepted errand.number place run.call)
  | _, _, _ => network.setErrand { errand with stage := .running place run }

/-- The run of an errand takes a step. -/
def runErrand (network : Network) (errand : Errand) (place : Nat) (run : Run) :
    Option Network := do
  let entry ← network.outboxes[place]?
  let ((next, outbox), backlog) ←
    run.step network.now entry.outbox (network.backlogAt entry.backlog)
  let network := (network.modifyOutbox place fun _ => outbox).setBacklog entry.backlog backlog
  return network.continueErrand errand place run.stage next

def errand? (network : Network) (number : Nat) : Option Network := do
  let errand ← network.errands.find? (·.number = number)
  match errand.stage with
  | .entering outbox => network.enterOutbox errand outbox
  | .seeking server client => network.seekOutbox errand server client
  | .running outbox run => network.runErrand errand outbox run
  | .tidying server client reply => return (network.tidy server client).endErrand errand reply

/-! ## Connections to a server -/

def setVisit (network : Network) (visit : Visit) (stage : VisitStage) : Network :=
  { network with visits := network.visits.map fun other =>
      if other.number = visit.number then { visit with stage } else other }

/-- A connection to a server ends. -/
def endVisit (network : Network) (visit : Visit) : Network :=
  { network with visits := network.visits.filter (·.number != visit.number) }.modifyLink
    visit.link (·.drop .right)

/-- A server waits for the greeting of a client. -/
def greet (network : Network) (visit : Visit) (expiry : Time) : Option Network := do
  let link ← network.links[visit.link]?
  match link.receive .right with
  | (.frame frame, link) =>
    let network := network.modifyLink visit.link fun _ => link
    match Greeting.decode frame with
    | .ok client => return network.setVisit visit (.preparing client)
    | .error _ => return network.endVisit visit
  | (.closed, _) => return network.endVisit visit
  | (.pending, _) => if expiry ≤ network.now then return network.endVisit visit else none

/-- A server gets what it keeps for a client. -/
def prepare (network : Network) (visit : Visit) (client : String) : Network :=
  match network.resources visit.server client with
  | .ok ((outbox, answers), network) =>
    network.setVisit visit (.registering client outbox answers)
  | .error _ => network.endVisit visit

/-- A server registers the channel for a client, stops the one before it, and
starts it. -/
def register (network : Network) (visit : Visit) (client : String) (outbox answers : Nat) :
    Network :=
  match network.servers[visit.server]? with
  | none => network.endVisit visit
  | some server =>
    let started := Channel.start ⟨.client client, some visit.address⟩ .right
    let channel := if server.isShutDown then started.stop else started
    let before := (Server.registration? server client).bind Registration.channel
    let (place, network) :=
      network.addChannel ⟨channel, outbox, answers, visit.link, server.service⟩
    let network := network.modifyRegistration visit.server client fun registration =>
      { registration with channel := some place, hasConnected := true }
    let network := match before with
      | some before => network.modifyChannel before Channel.stop
      | none => network
    network.setVisit visit (.serving client place)

/-- A channel has ended, and the server forgets it. -/
def deregister (network : Network) (visit : Visit) (client : String) (channel : Nat) :
    Network :=
  (network.modifyRegistration visit.server client fun registration =>
    if registration.channel = some channel then { registration with channel := none }
    else registration).endVisit visit

def visit? (network : Network) (number : Nat) : Option Network := do
  let visit ← network.visits.find? (·.number = number)
  match visit.stage with
  | .greeting expiry => network.greet visit expiry
  | .preparing client => return network.prepare visit client
  | .registering client outbox answers => return network.register visit client outbox answers
  | .serving client channel =>
    let place ← network.channels[channel]?
    if place.channel.hasEnded then return network.deregister visit client channel else none
  | .over => none

/-! ## Clients -/

/-- Open a connection to a server. A server that is shut down accepts it and never
looks at it. -/
def connect (network : Network) (server : Nat) (address : Address) : Nat × Network :=
  let (link, network) := network.addLink Link.standardMaxFrameLength
  let expiry := match network.servers[server]? with
    | some entry =>
      if entry.isShutDown then none
      else some (Time.wakeAfter network.now entry.settings.greetingTimeout)
    | none => none
  match expiry with
  | none => (link, network)
  | some expiry =>
    let (number, network) := network.number
    (link, { network with
      visits := network.visits ++ [⟨number, server, link, address, .greeting expiry⟩] })

/-- A client waits before it connects again. -/
def pauseClient (network : Network) (place : Nat) (client : Client) : Network :=
  let (delay, backoff) := client.backoff.fail
  network.modifyClient place fun client =>
    { client with backoff, stage := .pausing (Time.wakeAfter network.now delay) }

/-- A client connects to its server and greets it. -/
def connectClient (network : Network) (place : Nat) (client : Client) : Network :=
  match client.server, Greeting.encode client.settings.id with
  | some server, .ok greeting =>
    let (link, network) := network.connect server client.settings.server
    let network := network.modifyLink link fun link => (link.send .left greeting).2
    let started := Channel.start ⟨.server, some client.settings.server⟩ .left
    let (channel, network) := network.addChannel
      ⟨started, client.outbox, client.answers, link, client.service⟩
    network.modifyClient place fun client =>
      { client with backoff := client.backoff.reset, stage := .serving channel }
  | _, _ => network.pauseClient place client

def client? (network : Network) (place : Nat) : Option Network := do
  let client ← network.clients[place]?
  match client.stage with
  | .idle | .ended => none
  | .connecting =>
    if client.isShutDown then
      return network.modifyClient place fun client => { client with stage := .ended }
    else return network.connectClient place client
  | .serving channel =>
    let entry ← network.channels[channel]?
    if entry.channel.hasEnded then
      let network := network.modifyLink entry.link (·.drop .left)
      if client.isShutDown then
        return network.modifyClient place fun client => { client with stage := .ended }
      else return network.pauseClient place client
    else none
  | .pausing wake =>
    if client.isShutDown then
      return network.modifyClient place fun client => { client with stage := .ended }
    else if wake ≤ network.now then
      return network.modifyClient place fun client => { client with stage := .connecting }
    else none

/-! ## Watched links -/

def watch? (network : Network) (place : Nat) (side : Side) : Option Network := do
  let link ← network.links[place]?
  if (place, side) ∈ network.watched then
    match link.receive side with
    | (.frame frame, link) =>
      return (network.modifyLink place fun _ => link).note (.arrived place frame)
    | (.closed, link) =>
      let network := network.modifyLink place fun _ => link
      return { network with watched := network.watched.filter (· != (place, side)) }.note
        (.closed place)
    | (.pending, _) => none
  else none

/-- Take a move, if it can be taken now. -/
def move? (network : Network) : Move → Option Network
  | .send channel drops => network.send? channel drops
  | .receive channel => network.receive? channel
  | .close channel => network.close? channel
  | .execute number => network.execute? number
  | .errand number => network.errand? number
  | .visit number => network.visit? number
  | .client place => network.client? place
  | .watch link side => network.watch? link side

end Network

end PeerCalls
