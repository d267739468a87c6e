import PeerCalls.Proofs.Pair.Executions
import PeerCalls.Proofs.Pair.Waiting

/-!
# Runs of two peers

Two peers that have not done anything yet have nothing to justify. So in every state
that they reach, everything is justified, and the log tells what executions are under
way and what errands wait for.
-/

namespace PeerCalls.Pair

variable {pair : Pair}

/-- What holds between two peers all the time. -/
structure Sound (pair : Pair) (network : Network) : Prop where
  closed : pair.IsClosed network
  once : network.AdmitsOnce
  justified : pair.Justified network
  executes : pair.Executes network
  attends : pair.Attends network

theorem Sound.happen {network : Network} {happening : Happening} (sound : pair.Sound network)
    (step : pair.Step network (network.happen happening)) :
    pair.Sound (network.happen happening) where
  closed := sound.closed.step step
  once := sound.once.happen happening
  justified := sound.justified.step sound.closed step
  executes := sound.executes.step sound.justified sound.once.numbers step
  attends := sound.attends.step sound.justified sound.closed step

/-- What every step between two peers preserves holds after every run. -/
theorem run_preserves {network : Network} {invariant : Network → Prop}
    (step : ∀ {before after : Network}, pair.Sound before → pair.Sound after →
      pair.Step before after → invariant before → invariant after)
    {happenings : List Happening} (obeys : Network.Obeys pair.Admits network happenings)
    (sound : pair.Sound network) (begins : invariant network) :
    pair.Sound (network.run happenings) ∧ invariant (network.run happenings) := by
  have awake : ∀ network happening, pair.Admits network happening → happening.sleeps = false →
      pair.Sound network ∧ invariant network →
      pair.Sound (network.happen happening) ∧ invariant (network.happen happening) := by
    intro network happening admitted awake ⟨sound, holds⟩
    have taken := step_happen sound.closed admitted awake
    have later := sound.happen taken
    exact ⟨later, step sound later taken holds⟩
  have happens := @Network.preserves_of_awake pair.Admits
    (fun network => pair.Sound network ∧ invariant network) (fun _ _ => trivial)
    (fun _ _ => trivial) awake
  exact @Network.Obeys.preserves pair.Admits
    (fun network => pair.Sound network ∧ invariant network) happens network happenings
    obeys ⟨sound, begins⟩

namespace IsAtRest

variable {start : Network} (rest : pair.IsAtRest start)
include rest

/-- There is nothing in a network at rest but outboxes, answers and backlogs. -/
theorem field_eq {α : Type} (field : Network → α)
    (same : field { Network.empty with
      now := start.now
      backlogs := start.backlogs
      outboxes := start.outboxes
      answers := start.answers } = field Network.empty) : field start = field Network.empty :=
  (congrArg field rest.idle).trans same

theorem events : start.events = [] := rest.field_eq Network.events rfl

theorem channels : start.channels = #[] := rest.field_eq Network.channels rfl

theorem links : start.links = #[] := rest.field_eq Network.links rfl

theorem executions : start.executions = [] := rest.field_eq Network.executions rfl

theorem errands : start.errands = [] := rest.field_eq Network.errands rfl

theorem calls (side : Side) : pair.calls start side = pair.restored side := by
  simp [Pair.calls, Network.acceptedIn, rest.events]

theorem isClosed : pair.IsClosed start where
  visits := rest.field_eq Network.visits rfl
  clients := rest.field_eq Network.clients rfl
  watched := rest.field_eq Network.watched rfl
  route := by simp [rest.errands]
  fresh := by simp [rest.errands]
  stage := by simp [rest.errands]

theorem admitsOnce : start.AdmitsOnce where
  begun := by simp [rest.events]
  pending := by simp [rest.executions]
  numbers := by simp [Network.HasNumbers, rest.executions]
  numbered := by simp [rest.executions]
  once := by simp [Network.admittedFor, Network.executedFor, Network.readyFor, rest.events,
    rest.executions]
  known := by simp [Network.admittedFor, Network.executedFor, Network.readyFor, rest.events,
    rest.executions]

theorem justified : pair.Justified start where
  calls side := by
    rw [rest.calls]
    exact rest.restored side
  outboxes side := by
    obtain ⟨entry, found, queue, waiters⟩ := rest.outboxes side
    refine ⟨entry, found, ⟨[], (rest.calls side).trans queue.symm, by simp⟩, ?_, ?_⟩
    · rw [waiters]
      intro id number member
      cases member
    · rw [waiters]
      intro number reply resolved
      cases resolved
  answers side := by
    obtain ⟨capacity, found⟩ := rest.answers side
    refine ⟨_, found, ?_, nofun⟩
    simp only [history, found]
    rfl
  links := by simp [rest.links]
  channels := by simp [rest.channels]
  executions := by simp [rest.executions]
  executing := by simp [rest.events]
  ended := by simp [rest.events]

theorem executes : pair.Executes start where
  began := by simp [rest.events]
  busy := by simp [rest.executions]
  ends := by simp [rest.events]
  running := by simp [rest.executions]
  alone := by simp [rest.executions]

theorem attends : pair.Attends start where
  numbers := by simp [rest.errands]
  numbered := by simp [rest.errands]
  waits := by simp [rest.errands]
  waiting := by simp [rest.errands]
  accepted := by simp [rest.events]
  returned := by simp [rest.events]
  replies := by simp [rest.events]
  tells := by simp [rest.events]

theorem sound : pair.Sound start :=
  ⟨rest.isClosed, rest.admitsOnce, rest.justified, rest.executes, rest.attends⟩

theorem sound_run {happenings : List Happening}
    (obeys : Network.Obeys pair.Admits start happenings) : pair.Sound (start.run happenings) :=
  (@run_preserves pair start (fun _ => True) (fun _ _ _ _ => trivial) happenings obeys rest.sound
    trivial).1

end IsAtRest

/-! ## Two peers that meet -/

/-- Two peers, with calls of the left one that are left over. -/
def neighbours (calls : List Call) : Pair where
  outbox | .left => 0 | .right => 1
  answers | .left => 0 | .right => 1
  restored | .left => calls | .right => []
  outbox_injective side other same := by cases side <;> cases other <;> simp_all
  answers_injective side other same := by cases side <;> cases other <;> simp_all

/-- What the two keep for each other before they meet. -/
def beforeMeeting (calls : List Call) : Network :=
  { Network.empty with
    outboxes := #[⟨⟨⟨.server, 10, calls⟩, Waiters.none, false, Settings.standard⟩, none⟩,
      ⟨⟨⟨.client "c", 10, []⟩, Waiters.none, false, Settings.standard⟩, none⟩]
    answers := #[.new 10, .new 10] }

theorem isAtRest_beforeMeeting {calls : List Call} (fresh : ∀ call ∈ calls, call.IsFresh) :
    (neighbours calls).IsAtRest (beforeMeeting calls) where
  outboxes side := by cases side <;> exact ⟨_, rfl, rfl, rfl⟩
  restored side := by
    cases side with
    | left => exact fresh
    | right => exact fun _ member => absurd member List.not_mem_nil
  answers side := by cases side <;> exact ⟨10, rfl⟩
  idle := rfl

end PeerCalls.Pair
