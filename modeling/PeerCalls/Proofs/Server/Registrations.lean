import PeerCalls.Network.Control
import PeerCalls.Proofs.Network.Tables
import PeerCalls.Proofs.Queue

/-!
# What a server keeps for a client

A server looks up what it keeps for a client by the client's id. The lookup is all that
others depend on, so every change of the registrations is described by what it does to the
lookup of one id; the other ids are left alone.
-/

namespace PeerCalls.Network

/-! ## Lists of registrations -/

section Lists

variable {client : String} {registration : Registration} {registrations : List Registration}

theorem find?_insertRegistration_of_ne (other : registration.client ≠ client) :
    (insertRegistration registration registrations).find? (·.client = client) =
      registrations.find? (·.client = client) := by
  induction registrations with
  | nil => simp [insertRegistration, other]
  | cons head rest ih =>
      simp only [insertRegistration]
      split
      · rw [List.find?_cons, List.find?_cons, ih]
      · simp [other]

theorem find?_insertRegistration_self
    (missing : registrations.find? (·.client = registration.client) = none) :
    (insertRegistration registration registrations).find? (·.client = registration.client) =
      some registration := by
  induction registrations with
  | nil => simp [insertRegistration]
  | cons head rest ih =>
      rw [List.find?_cons] at missing
      split at missing
      · cases missing
      next different =>
        simp only [insertRegistration]
        split
        · rw [List.find?_cons, different]
          exact ih missing
        · simp

theorem find?_map_registrations {change : Registration → Registration}
    (keeps : ∀ registration, (change registration).client = registration.client)
    (changed : String) :
    (registrations.map fun registration =>
      if registration.client = changed then change registration else registration).find?
        (·.client = client) =
      if client = changed then (registrations.find? (·.client = client)).map change
      else registrations.find? (·.client = client) := by
  induction registrations with
  | nil => simp
  | cons head rest ih =>
      have same : (if head.client = changed then change head else head).client = head.client := by
        split
        · exact keeps head
        · rfl
      rw [List.map_cons, List.find?_cons, List.find?_cons, ih, same]
      by_cases here : head.client = client
      · subst here
        rw [decide_eq_true rfl, apply_ite some]
        rfl
      · rw [decide_eq_false here]

theorem find?_filter_registrations (dropped : String) :
    (registrations.filter (·.client != dropped)).find? (·.client = client) =
      if client = dropped then none else registrations.find? (·.client = client) := by
  rw [List.find?_filter]
  split
  next same =>
    subst same
    rw [List.find?_eq_none]
    intro registration _
    simp
  next other =>
    congr 1
    funext registration
    by_cases here : registration.client = client
    · simp [here, other]
    · simp [here]

end Lists

/-! ## The lookup -/

/-- What a server keeps for a client. -/
def registration? (network : Network) (server : Nat) (client : String) : Option Registration :=
  (network.servers[server]?).bind (Server.registration? · client)

/-- The outbox is the one that a server keeps for a client. -/
def Registers (network : Network) (server : Nat) (client : String) (outbox : Nat) : Prop :=
  ∃ registration, network.registration? server client = some registration ∧
    registration.outbox = outbox

variable {network next : Network} {server : Nat} {client : String}

theorem registration?_of_servers (same : next.servers = network.servers) (server : Nat)
    (client : String) : next.registration? server client = network.registration? server client := by
  rw [registration?, same, registration?]

theorem registration?_eq_find? (network : Network) (server : Nat) (client : String) :
    network.registration? server client =
      (network.registrations server).find? (·.client = client) := by
  rw [registration?, registrations]
  cases network.servers[server]? <;> rfl

theorem mem_knownClients : client ∈ network.knownClients server ↔
    ∃ registration, network.registration? server client = some registration := by
  rw [knownClients, List.mem_map, registration?_eq_find?, ← Option.isSome_iff_exists,
    List.find?_isSome]
  simp

/-! ## Changes -/

theorem registration?_modifyServer (network : Network) (server : Nat) (change : Server → Server)
    (other : Nat) (client : String) :
    (network.modifyServer server change).registration? other client =
      if other = server then
        (network.servers[server]?).bind fun entry => Server.registration? (change entry) client
      else network.registration? other client := by
  simp only [registration?, modifyServer, Array.getElem?_modify, eq_comm]
  split
  next same =>
    subst same
    rw [Option.bind_map]
    rfl
  next => rfl

theorem registration?_modifyRegistration {change : Registration → Registration}
    (keeps : ∀ registration, (change registration).client = registration.client)
    (network : Network) (server : Nat) (client : String) (otherServer : Nat)
    (otherClient : String) :
    (network.modifyRegistration server client change).registration? otherServer otherClient =
      if otherServer = server ∧ otherClient = client then
        (network.registration? server client).map change
      else network.registration? otherServer otherClient := by
  rw [modifyRegistration, registration?_modifyServer]
  by_cases sameServer : otherServer = server
  · subst sameServer
    simp only [registration?, Server.registration?, find?_map_registrations keeps, true_and]
    by_cases sameClient : otherClient = client
    · subst sameClient
      simp only [↓reduceIte, Option.map_bind]
      rfl
    · simp only [sameClient, ↓reduceIte]
  · simp [sameServer]

theorem registration?_dropRegistration (network : Network) (server : Nat) (client : String)
    (otherServer : Nat) (otherClient : String) :
    (network.dropRegistration server client).registration? otherServer otherClient =
      if otherServer = server ∧ otherClient = client then none
      else network.registration? otherServer otherClient := by
  rw [dropRegistration, registration?_modifyServer]
  by_cases sameServer : otherServer = server
  · subst sameServer
    simp only [registration?, Server.registration?, find?_filter_registrations, true_and]
    by_cases sameClient : otherClient = client
    · simp [sameClient]
    · simp only [sameClient, ↓reduceIte]
  · simp [sameServer]

/-- The places of outbox and answers for a client, and the network that has them. -/
inductive Provides (network : Network) (server : Nat) (client : String) :
    Nat × Nat → Network → Prop where
  /-- They are kept already. -/
  | kept {registration : Registration} :
      network.registration? server client = some registration →
      Provides network server client (registration.outbox, registration.answers) network
  /-- They are new, and kept from now on. -/
  | made {entry : Server} {outbox : Outbox} {next : Network} :
      network.servers[server]? = some entry → network.registration? server client = none →
      outbox.queue.target = .client client →
      next = { network with
        outboxes := network.outboxes.push ⟨outbox, entry.backlog⟩
        answers := next.answers
        servers := next.servers } →
      next.servers.size = network.servers.size → network.answers.size < next.answers.size →
      (∀ otherServer otherClient, next.registration? otherServer otherClient =
        if otherServer = server ∧ otherClient = client then
          some ⟨client, network.outboxes.size, network.answers.size, none, false⟩
        else network.registration? otherServer otherClient) →
      Provides network server client (network.outboxes.size, network.answers.size) next

theorem target_of_create {target : Peer} {backlog : Option Backlog} {settings : Settings}
    {outbox : Outbox} (created : Outbox.create target backlog settings = .ok outbox) :
    outbox.queue.target = target := by
  simp only [Outbox.create, bind, Except.bind] at created
  split at created
  · cases created
  · split at created
    · cases created
    next queue made =>
      cases created
      cases built : Queue.create target settings.maxQueueLength backlog with
      | error fault =>
          rw [built] at made
          cases made
      | ok other =>
          rw [built] at made
          cases made
          exact Queue.target_of_create built

theorem resources_provides {places : Nat × Nat} (there : server < network.servers.size)
    (kept : network.resources server client = .ok (places, next)) :
    Provides network server client places next := by
  have found := Array.getElem?_eq_getElem there
  simp only [resources, found] at kept
  split at kept
  next registration known =>
    cases kept
    apply Provides.kept
    rw [registration?, found]
    exact known
  next unknown =>
    have missing : network.registration? server client = none := by
      rw [registration?, found]
      exact unknown
    split at kept
    · cases kept
    next outbox created =>
      cases kept
      refine .made found missing (target_of_create created) rfl ?_ ?_ ?_
      · simp [modifyServer, addAnswers, addOutbox]
      · simp [modifyServer, addAnswers, addOutbox]
      · intro otherServer otherClient
        rw [registration?_modifyServer]
        by_cases sameServer : otherServer = server
        · subst sameServer
          have same : ((network.addOutbox outbox network.servers[otherServer].backlog).2.addAnswers
              network.servers[otherServer].settings.channel.rememberedReplies).2.servers[
                otherServer]? = some network.servers[otherServer] := found
          simp only [same, ↓reduceIte, Option.bind_some, true_and]
          by_cases sameClient : otherClient = client
          · subst sameClient
            simp only [↓reduceIte]
            have inserted := @find?_insertRegistration_self
              ⟨otherClient, network.outboxes.size, network.answers.size, none, false⟩ _ unknown
            exact inserted
          · simp only [sameClient, ↓reduceIte]
            rw [registration?, found]
            exact find?_insertRegistration_of_ne (Ne.symm sameClient)
        · simp only [sameServer, ↓reduceIte, false_and]
          rfl

/-- If there is nothing for a client, then nothing was kept. -/
theorem registration?_of_resources_error {fault : Outbox.Fault}
    (failed : network.resources server client = .error fault) :
    network.registration? server client = none := by
  simp only [resources] at failed
  split at failed
  · cases failed
  next entry found =>
    split at failed
    · cases failed
    next unknown =>
      rw [registration?, found]
      exact unknown

end PeerCalls.Network
