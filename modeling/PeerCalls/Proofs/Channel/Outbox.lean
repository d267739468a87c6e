import PeerCalls.Channel.Outbox
import PeerCalls.Proofs.Queue

/-!
# What a step of a run does

A run that is not queued yet is accepted or ends. A run that waits ends with the
reply of its waiter, because nobody answers the waiter any more, or because its
time is up.
-/

namespace PeerCalls.Run

/-- A failure that a run reports for a call that is not in the queue. -/
def IsRefusal (run : Run) (reply : Reply) : Prop :=
  ∃ kind message, reply = Reply.failure run.call.id kind message ∧
    (kind = .queueOverflow ∨ kind = .other)

/-- The step of a run, taken at a time. -/
inductive Stepped (run : Run) (now : Time) (outbox : Outbox) :
    (Run × Outbox) × Option Backlog → Prop where
  | accepted {expiry : Time} {backlog : Option Backlog} :
      run.stage = .enqueuing → run.call.target = outbox.queue.target →
      outbox.queue.calls.length < outbox.queue.maxLength →
      Stepped run now outbox (({ run with stage := .waiting expiry },
        { outbox with
          queue := { outbox.queue with calls := outbox.queue.calls ++ [run.call] }
          isSignaled := true }), backlog)
  | refused {reply : Reply} {backlog : Option Backlog} :
      run.stage = .enqueuing → run.IsRefusal reply →
      Stepped run now outbox (run.finish outbox reply, backlog)
  | replied {expiry : Time} {reply : Reply} {backlog : Option Backlog} :
      run.stage = .waiting expiry → outbox.waiters.state run.waiter = .resolved reply →
      Stepped run now outbox (run.finish
        { outbox with waiters := outbox.waiters.modify run.waiter fun _ => .closed } reply,
        backlog)
  | abandoned {expiry : Time} {backlog : Option Backlog} :
      run.stage = .waiting expiry →
      (outbox.waiters.state run.waiter = .closed ∨ outbox.waiters.state run.waiter = .gone) →
      Stepped run now outbox (run.finish outbox
        (Reply.failure run.call.id .other "call was abandoned"), backlog)
  | expired {expiry : Time} {message : String} {backlog : Option Backlog} :
      run.stage = .waiting expiry → expiry ≤ now →
      outbox.waiters.state run.waiter = .waiting →
      Stepped run now outbox (run.finish
        { outbox with waiters := outbox.waiters.drop run.waiter }
        (Reply.failure run.call.id .timeout message), backlog)

theorem enqueue_stepped {run : Run} (now : Time) (outbox : Outbox) (backlog : Option Backlog)
    (begins : run.stage = .enqueuing) :
    Stepped run now outbox (run.enqueue now outbox backlog) := by
  have enqueued := outbox.queue.enqueue_cases backlog run.call
  unfold enqueue Outbox.enqueue
  generalize outbox.queue.enqueue backlog run.call = result at enqueued
  cases enqueued with
  | accepted sameTarget room => exact .accepted begins sameTarget room
  | overflow full => exact .refused begins ⟨.queueOverflow, _, rfl, Or.inl rfl⟩
  | error => exact .refused begins ⟨.other, _, rfl, Or.inr rfl⟩

theorem look_stepped {run : Run} {now expiry : Time} {outbox : Outbox} {next : Run × Outbox}
    (backlog : Option Backlog) (waits : run.stage = .waiting expiry)
    (looked : run.look now outbox expiry = some next) :
    Stepped run now outbox (next, backlog) := by
  unfold look Waiters.poll at looked
  cases state : outbox.waiters.state run.waiter with
  | resolved reply =>
      simp only [state, Option.some.injEq] at looked
      subst looked
      exact .replied waits state
  | closed =>
      simp only [state, Option.some.injEq] at looked
      subst looked
      exact .abandoned waits (Or.inl state)
  | gone =>
      simp only [state, Option.some.injEq] at looked
      subst looked
      exact .abandoned waits (Or.inr state)
  | waiting =>
      simp only [state] at looked
      split at looked
      next late =>
        cases looked
        exact .expired waits late state
      next => cases looked

theorem step_stepped {run : Run} {now : Time} {outbox : Outbox} {backlog : Option Backlog}
    {next : (Run × Outbox) × Option Backlog} (stepped : run.step now outbox backlog = some next) :
    Stepped run now outbox next := by
  unfold step at stepped
  split at stepped
  next begins =>
    cases stepped
    exact enqueue_stepped now outbox backlog begins
  next expiry waits =>
    obtain ⟨looked, found, rfl⟩ := Option.map_eq_some_iff.mp stepped
    exact look_stepped backlog waits found
  next => cases stepped

end PeerCalls.Run
