import PeerCalls.Proofs.Association
import PeerCalls.Proofs.Channel.Endings
import PeerCalls.Proofs.Channel.Outbox

/-!
# Runs that are abandoned

Several runs with one call id may pass through an outbox, as a call can be run again. Of what
happens after a run has registered, only the first thing counts that concerns its id: a reply
is for this run, but if another run with the id registers or ends before, then this run is
abandoned. A run that ends forgets the waiter for its id also if it is that of another run, so
the one that registered last need not get the reply.
-/

namespace PeerCalls

/-! ## Waiters that are forgotten -/

namespace Waiters

variable {waiters : Waiters}

theorem pendingFor?_remove (waiters : Waiters) (id other : UInt64) :
    (waiters.remove id).pendingFor? other =
      if other = id then Option.none else waiters.pendingFor? other := by
  unfold remove
  split
  next number found => exact Association.lookup_filter waiters.pending id other
  next missing =>
    split
    next same => rw [same, missing]
    next => rfl

theorem state_remove (waiters : Waiters) (id : UInt64) (number : Nat) :
    (waiters.remove id).state number =
      if waiters.pendingFor? id = some number then closeWaiting (waiters.state number)
      else waiters.state number := by
  unfold remove
  split
  next found isFound =>
    change (waiters.modify found closeWaiting).state number = _
    rw [isFound]
    split
    next same =>
      cases same
      exact state_modify_self closeWaiting rfl
    next differs =>
      exact state_modify_of_ne (fun same => differs (congrArg some same.symm)) closeWaiting
  next missing => rw [missing, if_neg (by simp)]

theorem pendingFor?_register (waiters : Waiters) (id other : UInt64) :
    (waiters.register id).2.pendingFor? other =
      if other = id then some waiters.all.size else waiters.pendingFor? other := by
  simp only [register, pendingFor?, size_remove, List.lookup_cons]
  have removed := waiters.pendingFor?_remove id other
  by_cases same : other = id
  · simp [same]
  · rw [if_neg same] at removed ⊢
    rw [beq_eq_false_iff_ne.mpr same]
    exact removed

theorem state_register (waiters : Waiters) (id : UInt64) {number : Nat}
    (known : number < waiters.all.size) :
    (waiters.register id).2.state number = (waiters.remove id).state number := by
  simp [register, state, Array.getElem?_push, size_remove, Nat.ne_of_lt known]

theorem state_register_self (waiters : Waiters) (id : UInt64) :
    (waiters.register id).2.state waiters.all.size = .waiting := by
  simp [register, state, ← size_remove waiters id]

theorem pendingFor?_complete (waiters : Waiters) (reply : Reply) (other : UInt64) :
    (waiters.complete reply).2.pendingFor? other =
      if other = reply.id then Option.none else waiters.pendingFor? other := by
  unfold complete
  split
  next number found => exact Association.lookup_filter waiters.pending reply.id other
  next missing =>
    split
    next same => rw [same, missing]
    next => rfl

theorem size_complete (waiters : Waiters) (reply : Reply) :
    (waiters.complete reply).2.all.size = waiters.all.size := by
  unfold complete
  split
  · exact size_modify _ _ _
  · rfl

end Waiters

/-! ## Runs that pass through an outbox -/

/-- What can be noticed of the runs that pass through an outbox. -/
inductive Note where
  | registered (run : Nat) (id : UInt64)
  | queued (run : Nat)
  | completed (reply : Reply)
  | returned (run : Nat) (id : UInt64) (reply : Reply)
  deriving Repr, DecidableEq

namespace Note

/-- Another run with an id registers or ends. -/
def disturbs (run : Nat) (id : UInt64) : Note → Bool
  | registered other otherId | returned other otherId _ => decide (other ≠ run ∧ otherId = id)
  | queued _ | completed _ => false

/-- What a run with an id hears of: a reply to the id, or another run with the id. -/
def concerns (run : Nat) (id : UInt64) : Note → Bool
  | completed reply => decide (reply.id = id)
  | note => note.disturbs run id

/-- What is noticed after a run has registered. -/
def since (run : Nat) : List Note → List Note
  | [] => []
  | registered other _ :: rest => if other = run then rest else since run rest
  | _ :: rest => since run rest

/-- The reply of a run that is abandoned. -/
def abandoned (id : UInt64) : Reply := Reply.failure id .other "call was abandoned"

/-- What a waiter knows after the first note that concerns its run. -/
def told : Option Note → Waiter
  | none => .waiting
  | some (completed reply) => .resolved reply
  | some (registered _ _) | some (queued _) | some (returned _ _ _) => .closed

end Note

/-- An outbox with the runs that pass through it, in the order in which they began, and what
was noticed of them. -/
structure Passage where
  now : Time
  outbox : Outbox
  backlog : Option Backlog
  runs : List Run
  notes : List Note

/-- What can happen next: a run begins or takes a step, a channel gives a reply or does
something else with the queue, or time goes by. -/
inductive Passage.Event where
  | begin (call : Call)
  | step (run : Nat)
  | complete (reply : Reply)
  | serve (queue : Queue) (isSignaled : Bool) (backlog : Option Backlog)
  | wait (now : Time)

namespace Passage

/-- An outbox that no run has passed through. -/
def fresh (now : Time) (outbox : Outbox) (backlog : Option Backlog) : Passage :=
  ⟨now, { outbox with waiters := .none }, backlog, [], []⟩

/-- What a step of a run shows. -/
def shown (number : Nat) (run : Run) : List Note :=
  match run.stage with
  | .enqueuing => []
  | .waiting _ => [.queued number]
  | .returned reply => [.returned number run.call.id reply]

def happen (passage : Passage) : Event → Passage
  | .begin call =>
    let (run, outbox) := Run.start passage.outbox call
    { passage with
      outbox
      runs := passage.runs ++ [run]
      notes := passage.notes ++ [.registered passage.runs.length call.id] }
  | .step number =>
    match passage.runs[number]?.bind (·.step passage.now passage.outbox passage.backlog) with
    | some ((run, outbox), backlog) =>
      { passage with
        outbox, backlog
        runs := passage.runs.set number run
        notes := passage.notes ++ shown number run }
    | none => passage
  | .complete reply =>
    { passage with
      outbox := (passage.outbox.complete reply).2
      notes := passage.notes ++ [.completed reply] }
  | .serve queue isSignaled backlog =>
    { passage with outbox := { passage.outbox with queue, isSignaled }, backlog }
  | .wait now => { passage with now }

/-- One thing after the other happens. -/
def run (passage : Passage) (events : List Event) : Passage :=
  events.foldl happen passage

end Passage

/-! ## What a waiter knows -/

namespace Note

variable {number : Nat} {id : UInt64} {notes more : List Note}

theorem since_append (isThere : .registered number id ∈ notes) (more : List Note) :
    since number (notes ++ more) = since number notes ++ more := by
  induction notes with
  | nil => cases isThere
  | cons note rest ih =>
      cases note with
      | registered other otherId =>
          rw [List.cons_append, since, since]
          split
          next => rfl
          next differs =>
            apply ih
            apply (List.mem_cons.mp isThere).resolve_left
            rintro ⟨⟩
            exact differs rfl
      | queued | completed | returned => exact ih (by simpa using isThere)

theorem since_registered (isNew : ∀ id, .registered number id ∉ notes) (id : UInt64) :
    since number (notes ++ [.registered number id]) = [] := by
  induction notes with
  | nil => rw [List.nil_append, since, if_pos rfl]
  | cons note rest ih =>
      have others : ∀ id, .registered number id ∉ rest :=
        fun id member => isNew id (List.mem_cons_of_mem note member)
      cases note with
      | registered other otherId =>
          rw [List.cons_append, since, if_neg]
          · exact ih others
          · rintro rfl
            exact isNew otherId List.mem_cons_self
      | queued | completed | returned => exact ih others

theorem since_append_of_ne_nil (isThere : since number notes ≠ []) (more : List Note) :
    since number (notes ++ more) = since number notes ++ more := by
  induction notes with
  | nil => exact absurd rfl isThere
  | cons note rest ih =>
      cases note with
      | registered other otherId =>
          rw [since] at isThere ⊢
          rw [List.cons_append, since]
          split
          next => rfl
          next differs =>
            rw [if_neg differs] at isThere
            exact ih isThere
      | queued | completed | returned => exact ih isThere

theorem told_eq_waiting_iff {first : Option Note} : told first = .waiting ↔ first = none := by
  cases first with
  | none => exact iff_of_true rfl rfl
  | some note => cases note <;> simp [told]

/-- A waiter is closed because of another run. -/
theorem exists_disturbs_of_told (notes : List Note)
    (closed : told (notes.find? (concerns number id)) = .closed) :
    ∃ note ∈ notes, note.disturbs number id = true := by
  cases first : notes.find? (concerns number id) with
  | none =>
      rw [first] at closed
      cases closed
  | some note =>
      rw [first] at closed
      have isConcerned := List.find?_some first
      refine ⟨note, List.mem_of_find?_eq_some first, ?_⟩
      cases note with
      | completed reply => cases closed
      | registered | queued | returned => exact isConcerned

/-- A waiter has the first reply. -/
theorem find?_of_told {reply : Reply}
    (resolved : told (notes.find? (concerns number id)) = .resolved reply) :
    notes.find? (concerns number id) = some (.completed reply) := by
  cases first : notes.find? (concerns number id) with
  | none =>
      rw [first] at resolved
      cases resolved
  | some note =>
      rw [first] at resolved
      cases note with
      | completed other =>
          cases resolved
          rfl
      | registered | queued | returned => cases resolved

theorem told_ne_gone (first : Option Note) : told first ≠ .gone := by
  cases first with
  | none => simp [told]
  | some note => cases note <;> simp [told]

end Note

namespace Waiters

/-- A run forgets the waiter for its id, whosever it is, and its own one waits no more. -/
structure Forgets (number : Nat) (id : UInt64) (before after : Waiters) : Prop where
  size : after.all.size = before.all.size
  pending : ∀ other, after.pendingFor? other =
    if other = id then Option.none else before.pendingFor? other
  others : ∀ other, other ≠ number → after.state other =
    if before.pendingFor? id = some other then closeWaiting (before.state other)
    else before.state other
  own : after.state number ≠ .waiting

variable {waiters : Waiters} {number : Nat} {id : UInt64}

theorem closeWaiting_ne (waiter : Waiter) : closeWaiting waiter ≠ .waiting := by
  cases waiter <;> simp [closeWaiting]

theorem closeWaiting_of_ne {waiter : Waiter} (differs : waiter ≠ .waiting) :
    closeWaiting waiter = waiter := by
  cases waiter with
  | waiting => exact absurd rfl differs
  | resolved | closed | gone => rfl

theorem forgets_remove
    (isPending : waiters.state number = .waiting → waiters.pendingFor? id = some number) :
    Forgets number id waiters (waiters.remove id) where
  size := waiters.size_remove id
  pending := waiters.pendingFor?_remove id
  others other _ := waiters.state_remove id other
  own := by
    rw [state_remove]
    split
    · exact closeWaiting_ne _
    next absent => exact fun waits => absent (isPending waits)

/-- A waiter that has looked, or has gone away, waits no more. -/
theorem forgets_modify {change : Waiter → Waiter} (changes : ∀ waiter, change waiter ≠ .waiting) :
    Forgets number id waiters ((waiters.modify number change).remove id) where
  size := by rw [size_remove, size_modify]
  pending := (waiters.modify number change).pendingFor?_remove id
  others other differs := by
    rw [state_remove, state_modify_of_ne differs]
    rfl
  own := by
    have noWaiting : (waiters.modify number change).state number ≠ .waiting := by
      simp only [state, modify, Array.getD_eq_getD_getElem?, Array.getElem?_modify, if_true]
      cases waiters.all[number]? with
      | none => simp
      | some waiter => exact changes waiter
    rw [state_remove]
    split
    · exact closeWaiting_ne _
    · exact noWaiting

end Waiters

/-- Waiters know what their runs have heard: each waits, unless something concerned it. -/
structure Tracks (waiters : Waiters) (runs : List Run) (notes : List Note) : Prop where
  size : waiters.all.size = runs.length
  number : ∀ {number : Nat} {run : Run}, runs[number]? = some run → run.waiter = number
  registered : ∀ {number : Nat}, number < runs.length ↔ ∃ id, .registered number id ∈ notes
  pending : ∀ {id : UInt64} {number : Nat}, waiters.pendingFor? id = some number ↔
    ∃ run, runs[number]? = some run ∧ run.call.id = id ∧ waiters.state number = .waiting
  known : ∀ {number : Nat} {run : Run}, runs[number]? = some run →
    (∀ reply, run.stage ≠ .returned reply) → waiters.state number =
      Note.told ((Note.since number notes).find? (Note.concerns number run.call.id))

namespace Tracks

variable {waiters after : Waiters} {runs : List Run} {notes : List Note} {number : Nat}
  {run : Run} {id : UInt64} {note : Note}

theorem since_append (tracks : Tracks waiters runs notes) (isRun : runs[number]? = some run)
    (more : List Note) : Note.since number (notes ++ more) = Note.since number notes ++ more := by
  obtain ⟨id, isThere⟩ := tracks.registered.mp (List.getElem?_eq_some_iff.mp isRun).1
  exact Note.since_append isThere more

/-- A run waits for its own id only. -/
theorem id_eq_of_pending (tracks : Tracks waiters runs notes) (isRun : runs[number]? = some run)
    (isPending : waiters.pendingFor? id = some number) : run.call.id = id := by
  obtain ⟨found, isFound, isId, _⟩ := tracks.pending.mp isPending
  cases isRun.symm.trans isFound
  exact isId

/-- A waiter is closed when another run takes its place or forgets it. -/
theorem known_of_forgotten (tracks : Tracks waiters runs notes) (isRun : runs[number]? = some run)
    (isOpen : ∀ reply, run.stage ≠ .returned reply)
    (concerns : note.concerns number run.call.id = decide (run.call.id = id))
    (closes : Note.told (some note) = .closed)
    (changes : after.state number = if waiters.pendingFor? id = some number then
      Waiters.closeWaiting (waiters.state number) else waiters.state number) :
    after.state number = Note.told
      ((Note.since number (notes ++ [note])).find? (Note.concerns number run.call.id)) := by
  have known := tracks.known isRun isOpen
  rw [tracks.since_append isRun, List.find?_append]
  cases first : (Note.since number notes).find? (Note.concerns number run.call.id) with
  | some heard =>
      rw [first] at known
      have noWaiting : waiters.state number ≠ .waiting := by
        rw [known, Ne, Note.told_eq_waiting_iff]
        simp
      rw [changes, Waiters.closeWaiting_of_ne noWaiting, ite_self, known]
      rfl
  | none =>
      rw [first] at known
      have waits : waiters.state number = .waiting := known
      by_cases same : run.call.id = id
      · have isPending := tracks.pending.mpr ⟨run, isRun, same, waits⟩
        have isHeard : note.concerns number run.call.id = true := by rw [concerns, same]; simp
        rw [changes, if_pos isPending, waits, Option.none_or, List.find?_singleton, isHeard]
        exact closes.symm
      · have notPending : waiters.pendingFor? id ≠ some number :=
          fun isPending => same (tracks.id_eq_of_pending isRun isPending)
        have notHeard : note.concerns number run.call.id = false := by rw [concerns]; simpa using same
        rw [changes, if_neg notPending, waits, Option.none_or, List.find?_singleton, notHeard]
        rfl

/-- A run still waits if it is pending for another id. -/
theorem waiting_iff_of_forgotten (tracks : Tracks waiters runs notes)
    (isRun : runs[number]? = some run)
    (changes : after.state number = if waiters.pendingFor? id = some number then
      Waiters.closeWaiting (waiters.state number) else waiters.state number) :
    after.state number = .waiting ↔
      run.call.id ≠ id ∧ waiters.pendingFor? run.call.id = some number := by
  rw [changes]
  constructor
  · intro waits
    split at waits
    next => exact absurd waits (Waiters.closeWaiting_ne _)
    next notPending =>
      have isPending := tracks.pending.mpr ⟨run, isRun, rfl, waits⟩
      refine ⟨?_, isPending⟩
      rintro rfl
      exact notPending isPending
  · rintro ⟨differs, isPending⟩
    obtain ⟨_, _, _, waits⟩ := tracks.pending.mp isPending
    rw [if_neg, waits]
    exact fun isHere => differs (tracks.id_eq_of_pending isRun isHere)

/-- What concerns no run changes nothing. -/
theorem since_silent (tracks : Tracks waiters runs notes) (isRun : runs[number]? = some run)
    (silent : note.concerns number run.call.id = false) :
    (Note.since number (notes ++ [note])).find? (Note.concerns number run.call.id) =
      (Note.since number notes).find? (Note.concerns number run.call.id) := by
  rw [tracks.since_append isRun, List.find?_append, List.find?_singleton, silent]
  exact Option.or_none

theorem registered_append (tracks : Tracks waiters runs notes)
    (silent : ∀ number id, note ≠ .registered number id) :
    number < runs.length ↔ ∃ id, .registered number id ∈ notes ++ [note] := by
  rw [tracks.registered]
  apply exists_congr
  intro id
  rw [List.mem_append, List.mem_singleton, or_iff_left (silent number id).symm]

theorem getElem?_set_iff {other : Nat} {next found : Run} (isRun : runs[number]? = some run) :
    (runs.set number next)[other]? = some found ↔
      other = number ∧ found = next ∨ other ≠ number ∧ runs[other]? = some found := by
  have inside := (List.getElem?_eq_some_iff.mp isRun).1
  rw [List.getElem?_set]
  by_cases same : number = other
  · subst same
    simp [inside, eq_comm]
  · simp [same, Ne.symm same]

/-- A run ends, and the waiter for its id is forgotten. -/
theorem finish (tracks : Tracks waiters runs notes) (isRun : runs[number]? = some run)
    (forgets : Waiters.Forgets number run.call.id waiters after) (reply : Reply) :
    Tracks after (runs.set number { run with stage := .returned reply })
      (notes ++ [.returned number run.call.id reply]) where
  size := by rw [forgets.size, tracks.size, List.length_set]
  number isOther := by
    rcases (getElem?_set_iff isRun).mp isOther with ⟨rfl, rfl⟩ | ⟨_, isOther⟩
    · have same := tracks.number isRun
      exact same
    · exact tracks.number isOther
  registered := by
    rw [List.length_set]
    exact tracks.registered_append nofun
  pending {id other} := by
    rw [forgets.pending, ite_eq_iff]
    constructor
    · rintro (⟨_, isNone⟩ | ⟨differs, isPending⟩)
      · cases isNone
      obtain ⟨found, isOther, rfl, _⟩ := tracks.pending.mp isPending
      have another : other ≠ number := by
        rintro rfl
        exact differs (tracks.id_eq_of_pending isRun isPending).symm
      have waits := (tracks.waiting_iff_of_forgotten isOther (forgets.others other another)).mpr
        ⟨differs, isPending⟩
      exact ⟨found, (getElem?_set_iff isRun).mpr (.inr ⟨another, isOther⟩), rfl, waits⟩
    · rintro ⟨found, isOther, rfl, waits⟩
      rcases (getElem?_set_iff isRun).mp isOther with ⟨rfl, rfl⟩ | ⟨another, isOther⟩
      · exact absurd waits forgets.own
      · exact .inr ((tracks.waiting_iff_of_forgotten isOther
          (forgets.others other another)).mp waits)
  known {other found} isOther isOpen := by
    rcases (getElem?_set_iff isRun).mp isOther with ⟨rfl, rfl⟩ | ⟨another, isOther⟩
    · exact absurd rfl (isOpen reply)
    · apply tracks.known_of_forgotten isOther isOpen _ rfl (forgets.others other another)
      simp [Note.concerns, Note.disturbs, Ne.symm another, eq_comm]

/-- A run waits, and nothing else has changed. -/
theorem queue (tracks : Tracks waiters runs notes) (isRun : runs[number]? = some run)
    (isOpen : ∀ reply, run.stage ≠ .returned reply) (stage : RunStage) :
    Tracks waiters (runs.set number { run with stage }) (notes ++ [.queued number]) where
  size := by rw [tracks.size, List.length_set]
  number isOther := by
    rcases (getElem?_set_iff isRun).mp isOther with ⟨rfl, rfl⟩ | ⟨_, isOther⟩
    · have same := tracks.number isRun
      exact same
    · exact tracks.number isOther
  registered := by
    rw [List.length_set]
    exact tracks.registered_append nofun
  pending {id other} := by
    rw [tracks.pending]
    constructor
    · rintro ⟨found, isOther, isId, waits⟩
      by_cases same : other = number
      · subst same
        cases isRun.symm.trans isOther
        exact ⟨_, (getElem?_set_iff isRun).mpr (.inl ⟨rfl, rfl⟩), isId, waits⟩
      · exact ⟨found, (getElem?_set_iff isRun).mpr (.inr ⟨same, isOther⟩), isId, waits⟩
    · rintro ⟨found, isOther, isId, waits⟩
      rcases (getElem?_set_iff isRun).mp isOther with ⟨rfl, rfl⟩ | ⟨_, isOther⟩
      · exact ⟨run, isRun, isId, waits⟩
      · exact ⟨found, isOther, isId, waits⟩
  known {other found} isOther isOpenThere := by
    rcases (getElem?_set_iff isRun).mp isOther with ⟨rfl, rfl⟩ | ⟨_, isOther⟩
    · exact (tracks.known isRun isOpen).trans (congrArg _ (tracks.since_silent isRun rfl).symm)
    · rw [tracks.since_silent isOther rfl]
      exact tracks.known isOther isOpenThere

theorem getElem?_concat_iff {other : Nat} {next found : Run} :
    (runs ++ [next])[other]? = some found ↔
      other = runs.length ∧ found = next ∨ runs[other]? = some found := by
  by_cases same : other = runs.length
  · subst same
    simp [eq_comm]
  · by_cases inside : other < runs.length
    · simp [List.getElem?_append_left inside, same]
    · have outside : runs.length + 1 ≤ other := by omega
      simp [same, List.getElem?_eq_none (Nat.le_of_succ_le outside),
        List.getElem?_eq_none (l := runs ++ [next]) (by simpa using outside)]

/-- A run begins, and its waiter takes the place of the one before it. -/
theorem register (tracks : Tracks waiters runs notes) (call : Call) :
    Tracks (waiters.register call.id).2 (runs ++ [⟨call, (waiters.register call.id).1, .enqueuing⟩])
      (notes ++ [.registered runs.length call.id]) := by
  have changes : ∀ {number run}, runs[number]? = some run →
      (waiters.register call.id).2.state number =
        if waiters.pendingFor? call.id = some number then
          Waiters.closeWaiting (waiters.state number) else waiters.state number := by
    intro number run isRun
    have inside := (List.getElem?_eq_some_iff.mp isRun).1
    rw [waiters.state_register call.id (tracks.size ▸ inside), Waiters.state_remove]
  have isNew : ∀ id, .registered runs.length id ∉ notes :=
    fun id member => Nat.lt_irrefl _ (tracks.registered.mpr ⟨id, member⟩)
  have waits := waiters.state_register_self call.id
  rw [tracks.size] at waits
  constructor
  · simp [Waiters.register, Waiters.size_remove, tracks.size]
  · intro number run isRun
    rcases getElem?_concat_iff.mp isRun with ⟨rfl, rfl⟩ | isRun
    · exact (waiters.size_remove call.id).trans tracks.size
    · exact tracks.number isRun
  · intro number
    rw [List.length_append, List.length_singleton, Nat.lt_succ_iff_lt_or_eq, tracks.registered]
    simp [exists_or]
  · intro id number
    rw [Waiters.pendingFor?_register, tracks.size, ite_eq_iff]
    constructor
    · rintro (⟨rfl, isSame⟩ | ⟨differs, isPending⟩)
      · cases isSame
        exact ⟨_, getElem?_concat_iff.mpr (.inl ⟨rfl, rfl⟩), rfl, waits⟩
      · obtain ⟨run, isRun, rfl, _⟩ := tracks.pending.mp isPending
        exact ⟨run, getElem?_concat_iff.mpr (.inr isRun), rfl,
          (tracks.waiting_iff_of_forgotten isRun (changes isRun)).mpr ⟨differs, isPending⟩⟩
    · rintro ⟨run, isRun, rfl, isWaiting⟩
      rcases getElem?_concat_iff.mp isRun with ⟨rfl, rfl⟩ | isRun
      · exact .inl ⟨rfl, rfl⟩
      · exact .inr ((tracks.waiting_iff_of_forgotten isRun (changes isRun)).mp isWaiting)
  · intro number run isRun isOpen
    rcases getElem?_concat_iff.mp isRun with ⟨rfl, rfl⟩ | isRun
    · rw [Note.since_registered isNew]
      exact waits
    · apply tracks.known_of_forgotten isRun isOpen _ rfl (changes isRun)
      have another : runs.length ≠ number :=
        Nat.ne_of_gt (List.getElem?_eq_some_iff.mp isRun).1
      simp [Note.concerns, Note.disturbs, another, eq_comm]

/-- The first reply to the id of a run that waits is for this run. -/
theorem complete (tracks : Tracks waiters runs notes) (reply : Reply) :
    Tracks (waiters.complete reply).2 runs (notes ++ [.completed reply]) where
  size := by rw [Waiters.size_complete, tracks.size]
  number := tracks.number
  registered := tracks.registered_append nofun
  pending {id number} := by
    have tells := waiters.tells_complete reply
    rw [Waiters.pendingFor?_complete, ite_eq_iff]
    constructor
    · rintro (⟨_, isNone⟩ | ⟨differs, isPending⟩)
      · cases isNone
      obtain ⟨run, isRun, rfl, waits⟩ := tracks.pending.mp isPending
      refine ⟨run, isRun, rfl, (tells.kept ?_).trans waits⟩
      exact fun told => differs (tracks.id_eq_of_pending isRun told.1)
    · rintro ⟨run, isRun, rfl, waits⟩
      have notTold : ¬ (waiters.pendingFor? reply.id = some number ∧
          waiters.state number = .waiting) := by
        rintro ⟨isHere, waited⟩
        cases waits.symm.trans (tells.told isHere waited)
      have waited := (tells.kept notTold).symm.trans waits
      have isPending := tracks.pending.mpr ⟨run, isRun, rfl, waited⟩
      refine .inr ⟨fun same => notTold ⟨?_, waited⟩, isPending⟩
      rw [← same, isPending]
  known {number run} isRun isOpen := by
    have tells := waiters.tells_complete reply
    have known := tracks.known isRun isOpen
    rw [tracks.since_append isRun, List.find?_append]
    cases first : (Note.since number notes).find? (Note.concerns number run.call.id) with
    | some heard =>
        rw [first] at known
        refine (tells.kept ?_).trans known
        rintro ⟨_, waits⟩
        rw [known, Note.told_eq_waiting_iff] at waits
        cases waits
    | none =>
        rw [first] at known
        have waits : waiters.state number = .waiting := known
        have isPending := tracks.pending.mpr ⟨run, isRun, rfl, waits⟩
        rw [Option.none_or, List.find?_singleton]
        by_cases same : reply.id = run.call.id
        · rw [Note.concerns, decide_eq_true same]
          exact tells.told (same ▸ isPending) waits
        · rw [Note.concerns, decide_eq_false same]
          refine (tells.kept ?_).trans waits
          exact fun told => same (tracks.id_eq_of_pending isRun told.1).symm

end Tracks

/-! ## Replies that are made up -/

/-- No fault of a backlog looks like a run that is abandoned. -/
theorem Backlog.Fault.fullMessage_ne_abandoned (fault : Backlog.Fault) :
    fault.fullMessage ≠ "call was abandoned" := by
  intro same
  have letters := congrArg (fun text => text.toList.take 2) same
  cases fault with
  | refused operation => cases operation <;> revert letters <;> decide
  | disk activity fault =>
      cases activity with
      | writingFile => cases fault <;> revert same <;> decide
      | listingDirectory | makingDirectory | makingFile | replacing | removingFile =>
          simp [fullMessage, cause?, message, Activity.message?] at letters

theorem Queue.Fault.fullMessage_ne_abandoned (fault : Queue.Fault) :
    fault.fullMessage ≠ "call was abandoned" := by
  cases fault with
  | backlog fault => exact fault.fullMessage_ne_abandoned
  | wrongTarget id target expected =>
      intro same
      have letters := congrArg (fun text => text.toList.take 6) same
      simp [fullMessage, message] at letters

namespace Run

variable {run : Run} {now : Time} {outbox : Outbox} {backlog : Option Backlog}

/-- A run whose call is not queued is not abandoned. -/
theorem enqueue_ne_abandoned :
    (run.enqueue now outbox backlog).1.1.stage ≠ .returned (Note.abandoned run.call.id) := by
  unfold enqueue
  split
  · simp
  · simp [finish, Note.abandoned, Reply.failure]
  next fault _ _ _ =>
    simp only [finish, Note.abandoned, Reply.failure, Ne, RunStage.returned.injEq, Reply.mk.injEq,
      true_and, Verdict.failure.injEq]
    exact fault.fullMessage_ne_abandoned

end Run

namespace Passage

variable {passage : Passage}

/-- The waiters know what the runs have heard. -/
def Tracks (passage : Passage) : Prop :=
  PeerCalls.Tracks passage.outbox.waiters passage.runs passage.notes

theorem tracks_fresh (now : Time) (outbox : Outbox) (backlog : Option Backlog) :
    (fresh now outbox backlog).Tracks := by
  constructor <;> simp [fresh, Waiters.none, Waiters.pendingFor?]

/-- What a run shows in a step, and what it makes of the waiters. -/
theorem tracks_step {number : Nat} {run : Run} {next : (Run × Outbox) × Option Backlog}
    (tracks : passage.Tracks) (isRun : passage.runs[number]? = some run)
    (stepped : run.step passage.now passage.outbox passage.backlog = some next) :
    PeerCalls.Tracks next.1.2.waiters (passage.runs.set number next.1.1)
      (passage.notes ++ shown number next.1.1) := by
  have isNumber := tracks.number isRun
  have isPending : passage.outbox.waiters.state number = .waiting →
      passage.outbox.waiters.pendingFor? run.call.id = some number :=
    fun waits => tracks.pending.mpr ⟨run, isRun, rfl, waits⟩
  cases Run.step_stepped stepped with
  | accepted begins _ _ => exact tracks.queue isRun (by simp [begins]) _
  | refused _ _ | abandoned _ _ => exact tracks.finish isRun (Waiters.forgets_remove isPending) _
  | replied _ _ =>
      rw [isNumber]
      exact tracks.finish isRun (Waiters.forgets_modify (by simp)) _
  | expired _ _ _ =>
      rw [isNumber]
      exact tracks.finish isRun (Waiters.forgets_modify (by simp)) _

theorem tracks_happen (tracks : passage.Tracks) (event : Event) :
    (passage.happen event).Tracks := by
  cases event with
  | begin call => exact tracks.register call
  | complete reply => exact tracks.complete reply
  | serve | wait => exact tracks
  | step number =>
      cases isRun : passage.runs[number]? with
      | none =>
          simp only [happen, isRun, Option.bind_none]
          exact tracks
      | some run =>
          cases stepped : run.step passage.now passage.outbox passage.backlog with
          | none =>
              simp only [happen, isRun, Option.bind_some, stepped]
              exact tracks
          | some next =>
              simp only [happen, isRun, Option.bind_some, stepped]
              exact tracks_step tracks isRun stepped

/-- A run is abandoned only if another run with its id has registered or ended since it has
registered itself, or if it was told so. -/
def Accounts (notes : List Note) : Prop :=
  ∀ number id, .returned number id (Note.abandoned id) ∈ notes → ∃ middle later,
    Note.since number notes = middle ++ .returned number id (Note.abandoned id) :: later ∧
      ((∃ note ∈ middle, note.disturbs number id = true) ∨
        .completed (Note.abandoned id) ∈ middle)

/-- How the runs of a passage are answered. -/
structure AnswersRuns (passage : Passage) : Prop where
  abandoned : Accounts passage.notes
  /-- A run that waits takes the first reply to its id, if no other run with this id has
  registered or ended before the reply. -/
  replied : ∀ number run expiry early reply late, passage.runs[number]? = some run →
    run.stage = .waiting expiry →
    Note.since number passage.notes = early ++ .completed reply :: late →
    reply.id = run.call.id → (∀ note ∈ early, note.concerns number run.call.id = false) →
    ∃ outbox, run.step passage.now passage.outbox passage.backlog =
      some (({ run with stage := .returned reply }, outbox), passage.backlog)

/-- The reason for which a run is abandoned is found among what it has heard. -/
theorem exists_reason {number : Nat} {run : Run} {next : (Run × Outbox) × Option Backlog}
    (tracks : passage.Tracks) (isRun : passage.runs[number]? = some run)
    (stepped : run.step passage.now passage.outbox passage.backlog = some next)
    (isAbandoned : next.1.1.stage = .returned (Note.abandoned run.call.id)) :
    (∃ note ∈ Note.since number passage.notes, note.disturbs number run.call.id = true) ∨
      .completed (Note.abandoned run.call.id) ∈ Note.since number passage.notes := by
  have isNumber := tracks.number isRun
  cases stage : run.stage with
  | enqueuing =>
      rw [Run.step, stage] at stepped
      cases stepped
      exact absurd isAbandoned Run.enqueue_ne_abandoned
  | returned reply =>
      rw [Run.step, stage] at stepped
      cases stepped
  | waiting expiry =>
      have known := tracks.known isRun (by simp [stage])
      cases Run.step_stepped stepped with
      | accepted begins | refused begins => cases stage.symm.trans begins
      | replied _ resolved =>
          rw [isNumber, known] at resolved
          cases isAbandoned
          exact .inr (List.mem_of_find?_eq_some (Note.find?_of_told resolved))
      | abandoned _ ended =>
          rw [isNumber, known] at ended
          exact .inl (Note.exists_disturbs_of_told _
            (ended.resolve_right (Note.told_ne_gone _)))
      | expired _ _ _ => cases isAbandoned

/-- A run that has a reply takes it in its next step. -/
theorem step_of_replied {number : Nat} {run : Run} {expiry : Time} {reply : Reply}
    {early late : List Note} (tracks : passage.Tracks) (isRun : passage.runs[number]? = some run)
    (waits : run.stage = .waiting expiry)
    (heard : Note.since number passage.notes = early ++ .completed reply :: late)
    (isOwn : reply.id = run.call.id)
    (silent : ∀ note ∈ early, note.concerns number run.call.id = false) :
    ∃ outbox, run.step passage.now passage.outbox passage.backlog =
      some (({ run with stage := .returned reply }, outbox), passage.backlog) := by
  have first : (Note.since number passage.notes).find? (Note.concerns number run.call.id) =
      some (.completed reply) := by
    rw [heard, List.find?_append, List.find?_eq_none.mpr (by simpa using silent), Option.none_or,
      List.find?_cons_of_pos (by simpa [Note.concerns] using isOwn)]
  have resolved := tracks.known isRun (by simp [waits])
  rw [first, ← tracks.number isRun] at resolved
  have resolved : passage.outbox.waiters.state run.waiter = .resolved reply := resolved
  simp only [Run.step, waits, Run.look, Waiters.poll, resolved, Option.map_some]
  exact ⟨_, rfl⟩

theorem Accounts.append {notes : List Note} {note : Note} (accounts : Accounts notes)
    (explains : ∀ number id, note = .returned number id (Note.abandoned id) →
      Note.since number (notes ++ [note]) = Note.since number notes ++ [note] ∧
        ((∃ note ∈ Note.since number notes, note.disturbs number id = true) ∨
          .completed (Note.abandoned id) ∈ Note.since number notes)) :
    Accounts (notes ++ [note]) := by
  intro number id returned
  rcases List.mem_append.mp returned with old | new
  · obtain ⟨middle, later, heard, reason⟩ := accounts number id old
    refine ⟨middle, later ++ [note], ?_, reason⟩
    rw [Note.since_append_of_ne_nil (by simp [heard]), heard, List.append_assoc, List.cons_append]
  · obtain rfl := List.mem_singleton.mp new
    obtain ⟨heard, reason⟩ := explains number id rfl
    exact ⟨_, [], heard, reason⟩

theorem accounts_happen (tracks : passage.Tracks) (accounts : Accounts passage.notes)
    (event : Event) : Accounts (passage.happen event).notes := by
  cases event with
  | begin call => exact accounts.append fun _ _ same => by cases same
  | complete reply => exact accounts.append fun _ _ same => by cases same
  | serve | wait => exact accounts
  | step number =>
      cases isRun : passage.runs[number]? with
      | none =>
          simp only [happen, isRun, Option.bind_none]
          exact accounts
      | some run =>
          cases stepped : run.step passage.now passage.outbox passage.backlog with
          | none =>
              simp only [happen, isRun, Option.bind_some, stepped]
              exact accounts
          | some next =>
              simp only [happen, isRun, Option.bind_some, stepped]
              have sameCall : next.1.1.call = run.call := by
                cases Run.step_stepped stepped <;> rfl
              unfold shown
              split
              · simpa using accounts
              · exact accounts.append fun _ _ same => by cases same
              next reply isReply =>
                apply accounts.append
                intro other id same
                cases same
                rw [sameCall] at isReply ⊢
                exact ⟨tracks.since_append isRun _, exists_reason tracks isRun stepped isReply⟩

theorem accounts_run (tracks : passage.Tracks) (accounts : Accounts passage.notes)
    (events : List Event) :
    (passage.run events).Tracks ∧ Accounts (passage.run events).notes := by
  induction events generalizing passage with
  | nil => exact ⟨tracks, accounts⟩
  | cons event rest ih =>
      exact ih (tracks_happen tracks event) (accounts_happen tracks accounts event)

/-- Whatever happens to the runs that pass through an outbox, they are answered like this. -/
theorem answers_run (now : Time) (outbox : Outbox) (backlog : Option Backlog)
    (events : List Event) : ((fresh now outbox backlog).run events).AnswersRuns := by
  obtain ⟨tracks, accounts⟩ := accounts_run (tracks_fresh now outbox backlog)
    (fun _ _ returned => by cases returned) events
  exact ⟨accounts, fun _ _ _ _ _ _ => step_of_replied tracks⟩

/-- It is not true that a run is abandoned only if another one registers after it: the run
that is replaced ends, and forgets the waiter of the one that has replaced it. -/
theorem not_replaced_of_abandoned : ¬ ∀ (now : Time) (outbox : Outbox) (backlog : Option Backlog)
    (events : List Event) (number : Nat) (id : UInt64),
      .returned number id (Note.abandoned id) ∈
          ((fresh now outbox backlog).run events).notes →
        ∃ middle later,
          Note.since number ((fresh now outbox backlog).run events).notes =
            middle ++ .returned number id (Note.abandoned id) :: later ∧
          ∃ other ≠ number, .registered other id ∈ middle := by
  intro replaced
  have notes : ((fresh 0 ⟨⟨.server, 10, []⟩, .none, false, .standard⟩ none).run
      [.begin (.new .server ⟨5, "f", []⟩), .begin (.new .server ⟨5, "f", []⟩), .step 0, .step 1,
        .step 0, .step 1]).notes =
      [.registered 0 5, .registered 1 5, .queued 0, .queued 1, .returned 0 5 (Note.abandoned 5),
        .returned 1 5 (Note.abandoned 5)] := by
    rfl
  obtain ⟨middle, later, heard, other, _, isThere⟩ := replaced 0 _ none _ 1 5 (by
    rw [notes]
    simp)
  rw [notes] at heard
  have member : Note.registered other 5 ∈ middle ++ .returned 1 5 (Note.abandoned 5) :: later :=
    List.mem_append_left _ isThere
  rw [← heard] at member
  simp [Note.since] at member

end Passage

end PeerCalls
