import PeerCalls.Network.Moves

/-!
# Time in a network

As long as something can move, no time passes. Then the clock goes on to the next
time at which a timer rings. Errands look at the clock first, then links and
channels move, and executions last; so a wait that ends at the same time as
something else has ended before it.
-/

namespace PeerCalls.Network

/-- All moves that may be possible, in the order in which they are tried. -/
def moves (network : Network) : List Move :=
  let channels := List.range network.channels.size
  network.errands.map (fun errand => .errand errand.number)
    ++ network.watched.map (fun (link, side) => .watch link side)
    ++ channels.map .receive
    ++ channels.map (fun channel => .send channel false)
    ++ channels.map .close
    ++ network.visits.map (fun visit => .visit visit.number)
    ++ (List.range network.clients.size).map .client
    ++ network.executions.map (fun execution => .execute execution.number)

/-- Take the first move that is possible. -/
def step? (network : Network) : Option Network :=
  network.moves.findSome? network.move?

/-- Move until nothing can move, at most `fuel` times. -/
def settleFor : (fuel : Nat) → Network → Network
  | 0, network => network
  | fuel + 1, network =>
    match network.step? with
    | some next => settleFor fuel next
    | none => network

/-- More moves than there are at one time. -/
def fuel : Nat := 10000000

/-- Move until nothing can move. -/
def settle (network : Network) : Network := settleFor fuel network

/-- When a channel goes on by itself. -/
def channelWake? (network : Network) (channel : Channel) : Option Time :=
  match channel.sender with
  | .waiting wake => if network.now < wake then some wake else none
  | _ => none

/-- The times at which timers ring. -/
def wakes (network : Network) : List Time :=
  (network.channels.toList.filterMap fun place => network.channelWake? place.channel)
    ++ network.executions.filterMap (fun execution =>
      match execution.stage with
      | .busy wake _ => some wake
      | .ready => none)
    ++ network.errands.filterMap (fun errand =>
      match errand.stage with
      | .running _ ⟨_, _, .waiting expiry⟩ => some expiry
      | _ => none)
    ++ network.visits.filterMap (fun visit =>
      match visit.stage with
      | .greeting expiry => some expiry
      | _ => none)
    ++ network.clients.toList.filterMap (fun client =>
      match client.stage with
      | .pausing wake => some wake
      | _ => none)

/-- The next time at which a timer rings. -/
def nextWake? (network : Network) : Option Time :=
  (network.wakes.filter (network.now < ·)).min?

/-- Let time pass up to a time, with at most `fuel` stops on the way. -/
def sleepUntilFor : (fuel : Nat) → Time → Network → Network
  | 0, _, network => network
  | fuel + 1, finish, network =>
    match network.nextWake? with
    | some wake =>
      if wake ≤ finish then sleepUntilFor fuel finish ({ network with now := wake }.settle)
      else { network with now := max network.now finish }
    | none => { network with now := max network.now finish }

/-- Let time pass up to a time. Everything settles before. -/
def sleepUntil (network : Network) (finish : Time) : Network :=
  sleepUntilFor fuel finish network.settle

/-- Let a span of time pass. -/
def sleep (network : Network) (span : Span) : Network :=
  network.sleepUntil (network.now + span.nanoseconds)

/-- Let time pass until something is the case, with at most `fuel` stops. -/
def awaitFor : (fuel : Nat) → (Network → Bool) → Network → Network
  | 0, _, network => network
  | fuel + 1, isReached, network =>
    if isReached network then network
    else
      match network.nextWake? with
      | some wake => awaitFor fuel isReached ({ network with now := wake }.settle)
      | none => network

/-- Let time pass until something is the case. -/
def await (network : Network) (isReached : Network → Bool) : Network :=
  awaitFor fuel isReached network.settle

end PeerCalls.Network
