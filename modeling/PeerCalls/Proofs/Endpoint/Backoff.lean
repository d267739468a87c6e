import Mathlib.Algebra.Ring.Nat
import Mathlib.Data.List.Induction
import PeerCalls.Endpoint.Backoff
import PeerCalls.Endpoint.Settings

/-!
# Delays between attempts, calculated at once

A backoff multiplies its delay after each failure, in spans that are cut at the limit and cannot
be longer than the longest span. Since cutting before a multiplication and cutting after it come
to the same, the delay is the uncut power of the factor, cut once.
-/

namespace PeerCalls

namespace Span

@[simp] theorem nanoseconds_shorter (left right : Span) :
    (shorter left right).nanoseconds = min left.nanoseconds right.nanoseconds := by
  unfold shorter
  split
  next isLeft => exact (Nat.min_eq_left isLeft).symm
  next isRight => exact (Nat.min_eq_right (Nat.le_of_not_le isRight)).symm

@[simp] theorem nanoseconds_times (span : Span) (count : Nat) :
    (span.times count).nanoseconds = min (span.nanoseconds * count) max.nanoseconds :=
  nanoseconds_shorter _ _

end Span

/-- Settings of clients are only accepted if the initial delay is not longer than the limit. -/
theorem ClientSettings.initialDelay_le_of_validate {settings : ClientSettings}
    (valid : settings.validate = .ok ()) : settings.initialDelay ≤ settings.maxDelay := by
  apply Nat.le_of_not_lt
  intro short
  have short : settings.maxDelay < settings.initialDelay := short
  simp only [validate, short, if_true] at valid
  cases checked : Greeting.check settings.id with
  | ok value =>
      rw [checked] at valid
      cases valid
  | error fault =>
      rw [checked] at valid
      cases valid

/-- How an attempt to connect ended. -/
inductive Attempt where
  | failed
  | succeeded
  deriving Repr, DecidableEq

namespace Attempt

/-- How many attempts failed since the last one that succeeded, or since the first one. -/
def failedInARow (attempts : List Attempt) : Nat :=
  (attempts.reverse.takeWhile (· = failed)).length

@[simp] theorem failedInARow_failed (attempts : List Attempt) :
    failedInARow (attempts ++ [failed]) = failedInARow attempts + 1 := by
  simp [failedInARow]

@[simp] theorem failedInARow_succeeded (attempts : List Attempt) :
    failedInARow (attempts ++ [succeeded]) = 0 := by
  simp [failedInARow]

theorem failedInARow_replicate (attempts : List Attempt) (further : Nat) :
    failedInARow (attempts ++ List.replicate further failed) =
      failedInARow attempts + further := by
  induction further with
  | zero => simp
  | succ further ih =>
      rw [List.replicate_succ', ← List.append_assoc, failedInARow_failed, ih]
      rfl

end Attempt

namespace Backoff

/-- What an attempt makes of a backoff. -/
def learn (backoff : Backoff) : Attempt → Backoff
  | .failed => backoff.fail.2
  | .succeeded => backoff.reset

/-- A backoff after attempts. -/
def after (backoff : Backoff) (attempts : List Attempt) : Backoff :=
  attempts.foldl learn backoff

@[simp] theorem after_concat (backoff : Backoff) (attempts : List Attempt) (attempt : Attempt) :
    backoff.after (attempts ++ [attempt]) = (backoff.after attempts).learn attempt :=
  List.foldl_append

/-- The nanoseconds to wait after failures in a row: grown without bound, then cut. -/
def dueDelay (initial limit : Span) (factor failures : Nat) : Nat :=
  min (initial.nanoseconds * max factor 1 ^ failures) limit.nanoseconds

variable {initial limit : Span} {factor failures : Nat}

/-- It does not matter whether a delay is cut before it is multiplied as well. -/
theorem dueDelay_succ (initial limit : Span) (factor failures : Nat) :
    dueDelay initial limit factor (failures + 1) =
      min (dueDelay initial limit factor failures * max factor 1) limit.nanoseconds := by
  have grows : limit.nanoseconds ≤ limit.nanoseconds * max factor 1 :=
    Nat.le_mul_of_pos_right _ (Nat.le_max_right factor 1)
  simp only [dueDelay, Nat.pow_succ, ← Nat.mul_assoc, ← Nat.mul_min_mul_right]
  omega

theorem dueDelay_le (initial limit : Span) (factor failures : Nat) :
    dueDelay initial limit factor failures ≤ limit.nanoseconds :=
  Nat.min_le_right _ _

theorem dueDelay_le_add (initial limit : Span) (factor failures further : Nat) :
    dueDelay initial limit factor failures ≤
      dueDelay initial limit factor (failures + further) := by
  have grows : max factor 1 ^ failures ≤ max factor 1 ^ (failures + further) :=
    Nat.pow_le_pow_right (Nat.le_max_right factor 1) (Nat.le_add_right failures further)
  have scaled := Nat.mul_le_mul_left initial.nanoseconds grows
  unfold dueDelay
  omega

theorem dueDelay_zero (ordered : initial ≤ limit) :
    dueDelay initial limit factor 0 = initial.nanoseconds := by
  rw [dueDelay, Nat.pow_zero, Nat.mul_one]
  exact Nat.min_eq_left ordered

theorem le_dueDelay (ordered : initial ≤ limit) :
    initial.nanoseconds ≤ dueDelay initial limit factor failures := by
  have grows := dueDelay_le_add initial limit factor 0 failures
  rwa [dueDelay_zero ordered, Nat.zero_add] at grows

/-- A backoff with its settings, after failures in a row. -/
structure Stands (initial limit : Span) (factor failures : Nat) (backoff : Backoff) : Prop where
  initial_eq : backoff.initial = initial
  limit_eq : backoff.limit = limit
  factor_eq : backoff.factor = max factor 1
  current_eq : backoff.current.nanoseconds = dueDelay initial limit factor failures
  failures_eq : backoff.failures = failures

theorem stands_new (ordered : initial ≤ limit) :
    Stands initial limit factor 0 (new initial limit factor) where
  initial_eq := rfl
  limit_eq := rfl
  factor_eq := rfl
  current_eq := (dueDelay_zero ordered).symm
  failures_eq := rfl

namespace Stands

variable {backoff : Backoff}

theorem fail (stands : Stands initial limit factor failures backoff) (fits : limit ≤ Span.max) :
    Stands initial limit factor (failures + 1) backoff.fail.2 where
  initial_eq := stands.initial_eq
  limit_eq := stands.limit_eq
  factor_eq := stands.factor_eq
  current_eq := by
    have fits : limit.nanoseconds ≤ Span.max.nanoseconds := fits
    simp only [Backoff.fail, Span.nanoseconds_shorter, Span.nanoseconds_times, stands.current_eq,
      stands.factor_eq, stands.limit_eq, dueDelay_succ]
    omega
  failures_eq := congrArg (· + 1) stands.failures_eq

theorem reset (stands : Stands initial limit factor failures backoff)
    (ordered : initial ≤ limit) : Stands initial limit factor 0 backoff.reset where
  initial_eq := stands.initial_eq
  limit_eq := stands.limit_eq
  factor_eq := stands.factor_eq
  current_eq := by
    rw [dueDelay_zero ordered, ← stands.initial_eq]
    rfl
  failures_eq := rfl

end Stands

theorem stands_after (factor : Nat) (ordered : initial ≤ limit) (fits : limit ≤ Span.max)
    (attempts : List Attempt) :
    Stands initial limit factor (Attempt.failedInARow attempts)
      ((new initial limit factor).after attempts) := by
  induction attempts using List.reverseRecOn with
  | nil => exact stands_new ordered
  | append_singleton attempts attempt ih =>
      rw [after_concat]
      cases attempt with
      | failed =>
          rw [Attempt.failedInARow_failed]
          exact ih.fail fits
      | succeeded =>
          rw [Attempt.failedInARow_succeeded]
          exact ih.reset ordered

/-- The delay if the next attempt fails after others. -/
def delayAfter (initial limit : Span) (factor : Nat) (attempts : List Attempt) : Span :=
  ((new initial limit factor).after attempts).fail.1

theorem nanoseconds_delayAfter (ordered : initial ≤ limit) (fits : limit ≤ Span.max)
    (attempts : List Attempt) :
    (delayAfter initial limit factor attempts).nanoseconds =
      dueDelay initial limit factor (Attempt.failedInARow attempts) :=
  (stands_after factor ordered fits attempts).current_eq

/-- What the delay is if the next attempt fails. -/
structure DelaysDue (initial limit : Span) (factor : Nat) (attempts : List Attempt) : Prop where
  exact : (delayAfter initial limit factor attempts).nanoseconds =
    min (initial.nanoseconds * max factor 1 ^ Attempt.failedInARow attempts) limit.nanoseconds
  atLeast : initial ≤ delayAfter initial limit factor attempts
  atMost : delayAfter initial limit factor attempts ≤ limit
  grows : ∀ further, delayAfter initial limit factor attempts ≤
    delayAfter initial limit factor (attempts ++ List.replicate further .failed)
  fits : delayAfter initial limit factor attempts ≤ Span.max
  counts : ((new initial limit factor).after (attempts ++ [.failed])).failures =
    Attempt.failedInARow attempts + 1

/-- If the initial delay is not longer than the limit, the delay after failures in a row is the
initial delay times that power of the factor, as if there were no longest span, and at most the
limit. So between two successes the delays do not get shorter, they stay between the initial delay
and the limit, and the failures in a row are counted. -/
theorem delaysDue_of_ordered (factor : Nat) (attempts : List Attempt)
    (ordered : initial ≤ limit) (fits : limit ≤ Span.max) :
    DelaysDue initial limit factor attempts where
  exact := nanoseconds_delayAfter ordered fits attempts
  atLeast := by
    change initial.nanoseconds ≤ _
    rw [nanoseconds_delayAfter ordered fits]
    exact le_dueDelay ordered
  atMost := by
    change _ ≤ limit.nanoseconds
    rw [nanoseconds_delayAfter ordered fits]
    exact dueDelay_le _ _ _ _
  grows := by
    intro further
    change Span.nanoseconds _ ≤ Span.nanoseconds _
    rw [nanoseconds_delayAfter ordered fits, nanoseconds_delayAfter ordered fits,
      Attempt.failedInARow_replicate]
    exact dueDelay_le_add _ _ _ _ _
  fits := by
    change _ ≤ Span.max.nanoseconds
    rw [nanoseconds_delayAfter ordered fits]
    exact Nat.le_trans (dueDelay_le _ _ _ _) fits
  counts := by
    have stands := stands_after factor ordered fits (attempts ++ [.failed])
    rw [stands.failures_eq, Attempt.failedInARow_failed]

/-- A client whose delays outgrow the longest span at the third failure in a row. -/
def eagerSettings : ClientSettings :=
  { ClientSettings.standard "c" ⟨.v4 127 0 0 1, 1⟩ with
    initialDelay := Span.ofSeconds 1
    maxDelay := Span.max
    factor := 4294967295 }

theorem delaysDue_of_ordered_eager :
    eagerSettings.validate = .ok () ∧
    (delayAfter eagerSettings.initialDelay eagerSettings.maxDelay eagerSettings.factor
      [.failed, .succeeded, .failed, .failed]).nanoseconds =
        18446744065119617025 * 1000000000 ∧
    (delayAfter eagerSettings.initialDelay eagerSettings.maxDelay eagerSettings.factor
      [.failed, .failed, .failed]).nanoseconds = Span.max.nanoseconds := by
  have valid : eagerSettings.validate = .ok () := by rfl
  have due := fun attempts =>
    delaysDue_of_ordered eagerSettings.factor attempts
      (ClientSettings.initialDelay_le_of_validate valid) (Nat.le_refl Span.max.nanoseconds)
  exact ⟨valid, (due _).exact.trans (by decide +kernel), (due _).exact.trans (by decide +kernel)⟩

end Backoff

end PeerCalls
