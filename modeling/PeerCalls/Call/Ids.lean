/-!
# Call ids

Ids are drawn from a clock: ten thousand for each millisecond, counted up within
it. If the clock stands still or goes back, counting goes on where it was, into
milliseconds to come if need be.
-/

namespace PeerCalls

/-- What a source of ids has given out last. -/
structure IdSource where
  millisecond : UInt64
  sequence : UInt64
  deriving Repr, DecidableEq, Inhabited

namespace IdSource

/-- The ids of one millisecond. -/
def perMillisecond : UInt64 := 10000

/-- A source that has given out nothing. -/
def fresh : IdSource := ⟨0, 0⟩

/-- The id given out last. -/
def last (source : IdSource) : UInt64 :=
  source.millisecond * perMillisecond + source.sequence

/-- The state after the next id, given what the clock reads. -/
def advance (source : IdSource) (reading : UInt64) : IdSource :=
  if reading > source.millisecond then ⟨reading, 0⟩
  else if source.sequence + 1 = perMillisecond then ⟨source.millisecond + 1, 0⟩
  else ⟨source.millisecond, source.sequence + 1⟩

/-- The next id, given what the clock reads. -/
def next (source : IdSource) (reading : UInt64) : UInt64 × IdSource :=
  let advanced := source.advance reading
  (advanced.last, advanced)

/-- The next ids of a clock that stands still. -/
def nextMany (source : IdSource) (reading : UInt64) : (count : Nat) → List UInt64 × IdSource
  | 0 => ([], source)
  | count + 1 =>
    let (id, source) := source.next reading
    let (ids, source) := source.nextMany reading count
    (id :: ids, source)

end IdSource

end PeerCalls
