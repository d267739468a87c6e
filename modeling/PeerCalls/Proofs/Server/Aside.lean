import PeerCalls.Proofs.Network.Reports
import PeerCalls.Proofs.Network.Steps
import PeerCalls.Proofs.Server.Registrations

/-!
# What happens aside from servers

Most of what happens changes nothing of what servers keep and of the tasks for them: errands
and connections. Channels take their turns, links break, clients pause, new parts come.
-/

namespace PeerCalls.Network

/-- Between two states nothing has happened to what servers keep, to errands and to connections,
and no channel has begun. -/
structure Aside (before after : Network) : Prop where
  registrations : ∀ server client,
    after.registration? server client = before.registration? server client
  servers : before.servers.size ≤ after.servers.size
  errands : after.errands = before.errands
  visits : after.visits = before.visits
  channels : after.channels.size ≤ before.channels.size
  clients : ∀ {place : Nat} {client : Client}, after.clients[place]? = some client →
    ∃ old, before.clients[place]? = some old ∧ old.outbox = client.outbox
  nextNumber : before.nextNumber ≤ after.nextNumber

namespace Aside

variable {before middle after network : Network}

theorem of_eq (servers : after.servers = before.servers) (errands : after.errands = before.errands)
    (visits : after.visits = before.visits) (channels : after.channels.size = before.channels.size)
    (clients : after.clients = before.clients) (nextNumber : before.nextNumber ≤ after.nextNumber) :
    Aside before after where
  registrations := registration?_of_servers servers
  servers := Nat.le_of_eq (by rw [servers])
  errands
  visits
  channels := Nat.le_of_eq channels
  clients found := ⟨_, clients ▸ found, rfl⟩
  nextNumber

theorem refl (network : Network) : Aside network network :=
  of_eq rfl rfl rfl rfl rfl (Nat.le_refl _)

theorem trans (left : Aside before middle) (right : Aside middle after) : Aside before after where
  registrations server client :=
    (right.registrations server client).trans (left.registrations server client)
  servers := Nat.le_trans left.servers right.servers
  errands := right.errands.trans left.errands
  visits := right.visits.trans left.visits
  channels := Nat.le_trans right.channels left.channels
  clients found := by
    obtain ⟨middle, foundMiddle, same⟩ := right.clients found
    obtain ⟨old, foundOld, sameOld⟩ := left.clients foundMiddle
    exact ⟨old, foundOld, sameOld.trans same⟩
  nextNumber := Nat.le_trans left.nextNumber right.nextNumber

theorem modifyClient {change : Client → Client}
    (keeps : ∀ client, (change client).outbox = client.outbox) (place : Nat) :
    Aside network (network.modifyClient place change) where
  registrations := registration?_of_servers rfl
  servers := Nat.le_refl _
  errands := rfl
  visits := rfl
  channels := Nat.le_refl _
  clients {other client} found := by
    rw [Network.modifyClient, Array.getElem?_modify] at found
    split at found
    · obtain ⟨old, foundOld, rfl⟩ := Option.map_eq_some_iff.mp found
      exact ⟨old, foundOld, (keeps old).symm⟩
    · exact ⟨client, found, rfl⟩
  nextNumber := Nat.le_refl _

theorem modifyChannel (network : Network) (channel : Nat) (change : Channel → Channel) :
    Aside network (network.modifyChannel channel change) :=
  of_eq rfl rfl rfl (by simp [Network.modifyChannel]) rfl (Nat.le_refl _)

theorem modifyLink (network : Network) (link : Nat) (change : Link → Link) :
    Aside network (network.modifyLink link change) :=
  of_eq rfl rfl rfl rfl rfl (Nat.le_refl _)

theorem setStation (network : Network) (channel : Nat) (station : Station) :
    Aside network (network.setStation channel station) := by
  cases found : network.channels[channel]? with
  | none =>
      have same : network.setStation channel station = network := by
        rw [Network.setStation, found]
      rw [same]
      exact refl network
  | some place =>
      obtain ⟨backlogs, equal⟩ := setStation_eq station found
      rw [equal]
      exact of_eq rfl rfl rfl (by simp) rfl (Nat.le_refl _)

theorem afterStep (network : Network) (channel : Nat) (next : Station × List Report) :
    Aside network (network.afterStep channel next) := by
  have reported := reported_afterStep network channel next
  have put := setStation network channel next.1
  refine put.trans ?_
  have same := reported.same
  exact of_eq (by rw [same]) (by rw [same]) (by rw [same]) (by rw [same]) (by rw [same])
    reported.nextNumber

end Aside

variable {network next : Network}

/-! ## Moves -/

theorem aside_turns {move : Move} (moved : network.move? move = some next)
    (turns : (∃ channel drops, move = .send channel drops) ∨ (∃ channel, move = .receive channel) ∨
      ∃ channel, move = .close channel) : Aside network next := by
  rcases turns with ⟨channel, drops, rfl⟩ | ⟨channel, rfl⟩ | ⟨channel, rfl⟩
  · obtain ⟨_, _, _, _, rfl⟩ := send_cases moved
    exact .afterStep _ _ _
  · obtain ⟨_, _, _, _, rfl⟩ := receive_cases moved
    exact .afterStep _ _ _
  · obtain ⟨_, _, _, _, rfl⟩ := close_cases moved
    exact .afterStep _ _ _

theorem aside_execute {number : Nat} (moved : network.execute? number = some next) :
    Aside network next := by
  obtain ⟨execution, _, ⟨_, rfl⟩ | ⟨_, conclusion, _, rfl⟩⟩ := execute_cases moved
  · simp only [beginExecution]
    split <;> exact .of_eq rfl rfl rfl rfl rfl (Nat.le_refl _)
  · have dropped : Aside network ((network.dropExecution execution.number).note
        (.executed execution.channel execution.invocation conclusion)) :=
      .of_eq rfl rfl rfl rfl rfl (Nat.le_refl _)
    simp only [endExecution]
    split
    · exact dropped
    · exact dropped.trans (.setStation _ _ _)

theorem aside_watch {place : Nat} {side : Side} (moved : network.watch? place side = some next) :
    Aside network next := by
  obtain ⟨_, _, _, _, _, _, _, _, rfl⟩ := watch?_cases moved
  exact .of_eq rfl rfl rfl rfl rfl (Nat.le_refl _)

/-! ## What is done from outside -/

theorem aside_markServer (network : Network) (server : Nat) :
    Aside network (network.modifyServer server fun entry => { entry with isShutDown := true }) := by
  refine ⟨?_, ?_, rfl, rfl, Nat.le_refl _, fun found => ⟨_, found, rfl⟩, Nat.le_refl _⟩
  · intro other client
    rw [registration?_modifyServer]
    split
    next same => rw [same, registration?]; rfl
    next => rfl
  · simp [modifyServer]

theorem aside_shutDownServer (network : Network) (server : Nat) :
    Aside network (network.shutDownServer server) :=
  shutDownServer_preserves (fun aside => aside.trans (.modifyChannel _ _ _))
    (fun aside => aside.trans (aside_markServer _ _)) (.refl network)

theorem aside_addServer {settings : ServerSettings} {backlog : Option Nat} {service : Service}
    {place : Nat} (added : network.addServer settings backlog service = .ok (place, next)) :
    Aside network next := by
  simp only [addServer, Except.map] at added
  split at added
  · cases added
  · cases added
    refine ⟨?_, by simp, rfl, rfl, Nat.le_refl _, fun found => ⟨_, found, rfl⟩, Nat.le_refl _⟩
    intro server client
    simp only [registration?, Array.getElem?_push]
    split
    next same =>
      subst same
      simp [Server.registration?]
    next => rfl

end PeerCalls.Network
