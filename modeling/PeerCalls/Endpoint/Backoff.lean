import PeerCalls.Time

/-!
# Delays between attempts to connect

After each failed attempt in a row the delay grows by a factor, up to a limit. A
success starts anew. Factor and failures are numbers of 32 bits, and it is assumed
that fewer than 2 ^ 32 attempts fail in a row, so that the failures can be counted.
-/

namespace PeerCalls

/-- The delay before the next attempt, and how many attempts failed in a row. -/
structure Backoff where
  initial : Span
  limit : Span
  factor : Nat
  current : Span
  failures : Nat
  deriving Repr, DecidableEq, Inhabited

namespace Backoff

/-- A factor of zero counts as one. -/
def new (initial limit : Span) (factor : Nat) : Backoff :=
  ⟨initial, limit, max factor 1, initial, 0⟩

/-- An attempt failed: the delay before the next one. -/
def fail (backoff : Backoff) : Span × Backoff :=
  (backoff.current,
    { backoff with
      current := (backoff.current.times backoff.factor).shorter backoff.limit
      failures := backoff.failures + 1 })

/-- An attempt succeeded. -/
def reset (backoff : Backoff) : Backoff :=
  { backoff with current := backoff.initial, failures := 0 }

end Backoff

end PeerCalls
