import PeerCalls.Network.Action

/-!
# What happens to a network

Between two moves anything may be done to a network from outside, time may pass,
and new parts may be added. A happening is one such thing. A run is a list of
happenings; one that cannot happen changes nothing, so every list is a run. A
claim about some runs names a rule that each of their happenings obeys.
-/

namespace PeerCalls

/-- One thing that happens to a network. -/
inductive Happening where
  | move (move : Move)
  | act (action : Action)
  /-- Time goes on to a time, if that is to come. -/
  | pass (time : Time)
  /-- A link breaks at one end; what is on its way to that end is lost. -/
  | cut (link : Nat) (side : Side)
  /-- The application behind a channel reacts differently from now on. -/
  | equip (channel : Nat) (service : Service)
  | addBacklog (backlog : Backlog)
  | addOutbox (target : Peer) (backlog : Option Nat) (settings : Settings)
  | addAnswers (capacity : Nat)
  | addLink (maxFrameLength : Nat)
  | startChannel (contact : Contact) (side : Side) (link outbox answers : Nat)
      (service : Service)
  | addServer (settings : ServerSettings) (backlog : Option Nat) (service : Service)
  | addClient (settings : ClientSettings) (backlog : Option Nat) (service : Service)
  | reachServer (client server : Nat)
  | watch (link : Nat) (side : Side)
  /-- Somebody takes a frame from an end of a link. -/
  | take (link : Nat) (side : Side)

/-- Many moves happen, and time passes. -/
def Happening.sleeps : Happening → Bool
  | .act (.sleep _) => true
  | _ => false

theorem Happening.eq_sleep_of_sleeps {happening : Happening} (sleeps : happening.sleeps = true) :
    ∃ span, happening = .act (.sleep span) := by
  cases happening with
  | act action =>
      cases action with
      | sleep span => exact ⟨span, rfl⟩
      | _ => cases sleeps
  | _ => cases sleeps

namespace Network

/-- Take the network that comes with a result, if there is one. -/
def orElseKeep {ε α : Type} (network : Network) (result : Except ε (α × Network)) : Network :=
  match result with
  | .ok (_, next) => next
  | .error _ => network

/-- What a happening makes of a network. -/
def happen (network : Network) : Happening → Network
  | .move move => (network.move? move).getD network
  | .act action => (network.act action).2
  | .pass time => { network with now := max network.now time }
  | .cut link side => network.modifyLink link (·.drop side)
  | .equip channel service =>
      { network with channels := network.channels.modify channel fun place =>
          { place with service } }
  | .addBacklog backlog => (network.addBacklog (some backlog)).2
  | .addOutbox target backlog settings =>
      network.orElseKeep (network.createOutbox target backlog settings)
  | .addAnswers capacity => (network.addAnswers capacity).2
  | .addLink maxFrameLength => (network.addLink maxFrameLength).2
  | .startChannel contact side link outbox answers service =>
      (network.startChannel contact side link outbox answers service).2
  | .addServer settings backlog service =>
      network.orElseKeep (network.addServer settings backlog service)
  | .addClient settings backlog service =>
      network.orElseKeep (network.addClient settings backlog service)
  | .reachServer client server => network.reachServer client server
  | .watch link side => network.watch link side
  | .take link side => (network.receiveFrame link side).2

/-- A network after a run. -/
def run (network : Network) (happenings : List Happening) : Network :=
  happenings.foldl happen network

/-- Each happening of a run obeys a rule at its time. -/
def Obeys (rule : Network → Happening → Prop) : Network → List Happening → Prop
  | _, [] => True
  | network, happening :: rest =>
      rule network happening ∧ Obeys rule (network.happen happening) rest

instance Obeys.decidable (rule : Network → Happening → Prop)
    [decide : ∀ network happening, Decidable (rule network happening)] :
    (network : Network) → (happenings : List Happening) →
      Decidable (Obeys rule network happenings)
  | _, [] => .isTrue trivial
  | network, happening :: rest =>
      have := Obeys.decidable rule (network.happen happening) rest
      inferInstanceAs (Decidable (rule network happening ∧ _))

/-- What each happening preserves, a run preserves. -/
theorem Obeys.preserves {rule : Network → Happening → Prop} {invariant : Network → Prop}
    (step : ∀ network happening, rule network happening → invariant network →
      invariant (network.happen happening))
    {network : Network} {happenings : List Happening}
    (obeys : Obeys rule network happenings) (begins : invariant network) :
    invariant (network.run happenings) := by
  induction happenings generalizing network with
  | nil => exact begins
  | cons happening rest ih =>
      exact ih obeys.2 (step network happening obeys.1 begins)

theorem run_append (network : Network) (earlier later : List Happening) :
    network.run (earlier ++ later) = (network.run earlier).run later :=
  List.foldl_append

theorem obeys_append {rule : Network → Happening → Prop} {network : Network}
    {earlier later : List Happening} : Obeys rule network (earlier ++ later) ↔
      Obeys rule network earlier ∧ Obeys rule (network.run earlier) later := by
  induction earlier generalizing network with
  | nil => simp [Obeys, run]
  | cons happening rest ih => exact (and_congr_right fun _ => ih).trans and_assoc.symm

/-- Every run obeys the rule that admits everything. -/
theorem obeys_true (network : Network) (happenings : List Happening) :
    Obeys (fun _ _ => True) network happenings := by
  induction happenings generalizing network with
  | nil => trivial
  | cons happening rest ih => exact ⟨trivial, ih _⟩

/-! ## Sleeping -/

/-- The first possible move is a move. -/
theorem exists_move_of_step? {network next : Network} (moved : network.step? = some next) :
    ∃ move, network.happen (.move move) = next := by
  obtain ⟨move, _, moved⟩ := List.exists_of_findSome?_eq_some moved
  exact ⟨move, by simp [happen, moved]⟩

/-- To sleep is nothing but moves and the passing of time. -/
theorem sleep_preserves {invariant : Network → Prop}
    (moves : ∀ network move, invariant network → invariant (network.happen (.move move)))
    (passes : ∀ network time, invariant network → invariant (network.happen (.pass time)))
    {network : Network} (begins : invariant network) (span : Span) :
    invariant (network.sleep span) := by
  have settles : ∀ count network, invariant network → invariant (settleFor count network) := by
    intro count
    induction count with
    | zero => exact fun _ holds => holds
    | succ count ih =>
        intro network holds
        unfold settleFor
        split
        next next moved =>
          obtain ⟨move, rfl⟩ := exists_move_of_step? moved
          exact ih _ (moves network move holds)
        next => exact holds
  have sleeps : ∀ count finish network, invariant network →
      invariant (sleepUntilFor count finish network) := by
    intro count
    induction count with
    | zero => exact fun _ _ holds => holds
    | succ count ih =>
        intro finish network holds
        unfold sleepUntilFor
        split
        next wake found =>
          have later : network.now < wake := by
            have member := List.min?_mem found
            simpa using (List.mem_filter.mp member).2
          split
          · apply ih
            apply settles
            have passed := passes network wake holds
            rwa [happen, Nat.max_eq_right (Nat.le_of_lt later)] at passed
          · exact passes network finish holds
        next => exact passes network finish holds
  exact sleeps _ _ _ (settles _ _ begins)

/-- If a rule admits moves and the passing of time, then what is preserved by all that it
admits but sleeps is preserved by sleeps too. -/
theorem preserves_of_awake {rule : Network → Happening → Prop} {invariant : Network → Prop}
    (moves : ∀ network move, rule network (.move move))
    (passes : ∀ network time, rule network (.pass time))
    (awake : ∀ network happening, rule network happening → happening.sleeps = false →
      invariant network → invariant (network.happen happening))
    (network : Network) (happening : Happening) (admitted : rule network happening)
    (begins : invariant network) : invariant (network.happen happening) := by
  cases sleeps : happening.sleeps with
  | false => exact awake network happening admitted sleeps begins
  | true =>
      obtain ⟨span, rfl⟩ := Happening.eq_sleep_of_sleeps sleeps
      simp only [happen, act]
      apply sleep_preserves _ _ begins
      · exact fun network move holds => awake network (.move move) (moves network move) rfl holds
      · exact fun network time holds => awake network (.pass time) (passes network time) rfl holds

end Network

end PeerCalls
