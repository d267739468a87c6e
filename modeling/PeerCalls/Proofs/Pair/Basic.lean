import PeerCalls.Proofs.Network.AtMostOnce
import PeerCalls.Proofs.Network.Order
import PeerCalls.Proofs.Pair.Turn

/-!
# Two peers in a network

A pair is two peers that call each other: each has an outbox for its own calls and
answers to those of the other one. Links between them come and go, channels start at
the ends of links, one after the other or side by side, calls are issued in both
directions, and anything may fail. Nobody else works on the outboxes and the answers,
and nobody else sends on the links.
-/

namespace PeerCalls

/-- Where a network keeps what two peers need for each other, and the calls that are in
their queues at the beginning. -/
structure Pair where
  outbox : Side → Nat
  answers : Side → Nat
  restored : Side → List Call
  outbox_injective : Function.Injective outbox
  answers_injective : Function.Injective answers

/-- The side that a channel is on. -/
def Network.side? (network : Network) (channel : Nat) : Option Side :=
  (network.channels[channel]?).map fun place => place.channel.side

namespace Pair

variable (pair : Pair)

/-- The calls that came into the queue of a side, in this order. -/
def calls (network : Network) (side : Side) : List Call :=
  pair.restored side ++ network.acceptedIn (pair.outbox side)

/-- What the two peers have done so far. -/
def history (network : Network) : History where
  calls := pair.calls network
  answers side := (network.answers[pair.answers side]?).getD default
  concluded side invocation conclusion := ∃ channel, network.side? channel = some side ∧
    .executed channel invocation conclusion ∈ network.events
  limit length := ∃ (place : Nat) (link : Link), network.links[place]? = some link ∧
    link.maxFrameLength = length

/-- The channel works on the outbox and the answers of its side. -/
structure Connects (place : ChannelPlace) : Prop where
  outbox : place.outbox = pair.outbox place.channel.side
  answers : place.answers = pair.answers place.channel.side

/-! ## What may happen -/

/-- What may be done from outside: calls are issued through the outboxes, waiters give
up, and backlogs, links and channels fail. -/
def AdmitsAction : Action → Prop
  | .issue outbox call =>
      (outbox = pair.outbox .left ∨ outbox = pair.outbox .right) ∧ call.IsFresh
  | .signal _ | .takeSignal _ | .abandon _ _ | .refuse _ _ | .closeLink _ _ | .stopChannel _
  | .sleep _ => True
  | .issueTo _ _ _ | .enqueue _ _ | .dequeue _ | .complete _ _ | .send _ _ _ | .forget _ _
  | .startClient _ | .shutDownClient _ | .shutDownServer _ => False

/-- What may happen. A channel starts on a link that is there, with what belongs to its
side. -/
def Admits (network : Network) : Happening → Prop
  | .move _ | .pass _ | .cut _ _ | .equip _ _ | .addBacklog _ | .addLink _ => True
  | .act action => pair.AdmitsAction action
  | .startChannel _ side link outbox answers _ =>
      outbox = pair.outbox side ∧ answers = pair.answers side ∧ link < network.links.size
  | .addOutbox _ _ _ | .addAnswers _ | .addServer _ _ _ | .addClient _ _ _ | .reachServer _ _
  | .watch _ _ | .take _ _ => False

instance (call : Call) : Decidable call.IsFresh :=
  decidable_of_iff
    ((Invocation.delimiter ∉ Bytes.ofText call.invocation.name ∧
      call.invocation.params.length ≤ Invocation.maxParams ∧
      ∀ param ∈ call.invocation.params, param.length ≤ Invocation.maxFieldLength) ∧
      call.reply = none)
    ⟨fun ⟨⟨name, params, lengths⟩, unanswered⟩ => ⟨⟨name, params, lengths⟩, unanswered⟩,
      fun ⟨⟨name, params, lengths⟩, unanswered⟩ => ⟨⟨name, params, lengths⟩, unanswered⟩⟩

instance AdmitsAction.decidable : (action : Action) → Decidable (pair.AdmitsAction action)
  | .issue _ call => inferInstanceAs (Decidable ((_ ∨ _) ∧ call.IsFresh))
  | .signal _ | .takeSignal _ | .abandon _ _ | .refuse _ _ | .closeLink _ _ | .stopChannel _
  | .sleep _ => .isTrue trivial
  | .issueTo _ _ _ | .enqueue _ _ | .dequeue _ | .complete _ _ | .send _ _ _ | .forget _ _
  | .startClient _ | .shutDownClient _ | .shutDownServer _ => .isFalse id

instance Admits.decidable (network : Network) :
    (happening : Happening) → Decidable (pair.Admits network happening)
  | .move _ | .pass _ | .cut _ _ | .equip _ _ | .addBacklog _ | .addLink _ => .isTrue trivial
  | .act action => AdmitsAction.decidable pair action
  | .startChannel _ _ _ _ _ _ => inferInstanceAs (Decidable (_ ∧ _ ∧ _))
  | .addOutbox _ _ _ | .addAnswers _ | .addServer _ _ _ | .addClient _ _ _ | .reachServer _ _
  | .watch _ _ | .take _ _ => .isFalse id

/-- A network in which nothing has happened yet: there are the outboxes with what is
restored, and answers that are new. -/
structure IsAtRest (start : Network) : Prop where
  outboxes : ∀ side, ∃ entry, start.outboxes[pair.outbox side]? = some entry ∧
    entry.outbox.queue.calls = pair.restored side ∧ entry.outbox.waiters = Waiters.none
  restored : ∀ side, ∀ call ∈ pair.restored side, call.IsFresh
  answers : ∀ side, ∃ capacity, start.answers[pair.answers side]? = some (.new capacity)
  idle : start = { Network.empty with
    now := start.now
    backlogs := start.backlogs
    outboxes := start.outboxes
    answers := start.answers }

end Pair

end PeerCalls
