import PeerCalls.Proofs.Pair.Justified

/-!
# Errands between two peers

Most steps leave errands alone: they go on waiting, and nothing is said of them in the
log. What is left is a call that is issued, and the three steps of an errand. Two peers
stay among themselves in all of this, and everything between them stays justified.
-/

namespace PeerCalls

/-- The event is about an errand. -/
def Event.IsOfErrand : Event → Prop
  | .accepted _ _ _ | .returned _ _ => True
  | .ended _ _ _ | .executing _ _ | .executed _ _ _ | .arrived _ _ | .closed _ => False

/-- Runs go on waiting for replies to their calls. -/
def KeepsWaiting (before after : Network) : Prop :=
  ∀ ⦃place : Nat⦄ ⦃entry : OutboxPlace⦄ ⦃run : Run⦄, before.outboxes[place]? = some entry →
    run.WaitsIn entry.outbox.waiters →
      ∃ later, after.outboxes[place]? = some later ∧ run.WaitsIn later.outbox.waiters

theorem keepsWaiting_setOutboxes {network : Network} {outboxes : Array OutboxPlace}
    (grows : Grows OutboxPlace.KeepsCalls (fun _ => False) network.outboxes outboxes) :
    KeepsWaiting network { network with outboxes } := by
  intro place entry run found waits
  obtain ⟨later, foundLater, keeps⟩ := grows.kept found
  exact ⟨later, foundLater, waits.changes keeps.waiters⟩

/-- The errands are left alone. -/
structure LeavesErrands (before after : Network) : Prop where
  errands : after.errands = before.errands
  visits : after.visits = before.visits
  clients : after.clients = before.clients
  watched : after.watched = before.watched
  nextNumber : before.nextNumber ≤ after.nextNumber
  events : ∃ others, after.events = before.events ++ others ∧
    ∀ event ∈ others, ¬ event.IsOfErrand
  waits : KeepsWaiting before after

namespace Station

theorem Change.waitsIn {before after : Station} {told : List Report} {run : Run}
    (change : Change before after told) (waits : run.WaitsIn before.outbox.waiters) :
    run.WaitsIn after.outbox.waiters := by
  cases change with
  | @dequeue call reply _ _ _ _ _ => exact waits.changes (Waiters.changes_complete _ reply)
  | invoked _ _ _ answered => cases answered <;> exact waits
  | _ => exact waits

theorem Turn.waitsIn {first last : Station} {told : List Report} {run : Run}
    (turn : Turn first last told) (waits : run.WaitsIn first.outbox.waiters) :
    run.WaitsIn last.outbox.waiters :=
  turn.preserves Change.waitsIn waits

end Station

namespace LeavesErrands

variable {before middle after network : Network}

theorem trans (left : LeavesErrands before middle) (right : LeavesErrands middle after) :
    LeavesErrands before after where
  errands := right.errands.trans left.errands
  visits := right.visits.trans left.visits
  clients := right.clients.trans left.clients
  watched := right.watched.trans left.watched
  nextNumber := Nat.le_trans left.nextNumber right.nextNumber
  events := by
    obtain ⟨first, equalFirst, silentFirst⟩ := left.events
    obtain ⟨second, equalSecond, silentSecond⟩ := right.events
    refine ⟨first ++ second, by rw [equalSecond, equalFirst, List.append_assoc], ?_⟩
    intro event member
    rcases List.mem_append.mp member with member | member
    · exact silentFirst event member
    · exact silentSecond event member
  waits _ _ _ found waits := by
    obtain ⟨entry, found, waits⟩ := left.waits found waits
    exact right.waits found waits

/-- Neither errands nor outboxes nor the log change. -/
theorem of_same (errands : after.errands = before.errands) (visits : after.visits = before.visits)
    (clients : after.clients = before.clients) (watched : after.watched = before.watched)
    (nextNumber : before.nextNumber ≤ after.nextNumber) (log : after.log = before.log)
    (outboxes : after.outboxes = before.outboxes) : LeavesErrands before after where
  errands
  visits
  clients
  watched
  nextNumber
  events := ⟨[], by simp [Network.events, log]⟩
  waits _ _ _ found waits := ⟨_, outboxes ▸ found, waits⟩

theorem note {event : Event} (silent : ¬ event.IsOfErrand) :
    LeavesErrands network (network.note event) where
  errands := rfl
  visits := rfl
  clients := rfl
  watched := rfl
  nextNumber := Nat.le_refl _
  events := ⟨[event], Network.events_note network event, by simpa using silent⟩
  waits _ _ _ found waits := ⟨_, found, waits⟩

theorem setOutboxes {outboxes : Array OutboxPlace}
    (grows : Grows OutboxPlace.KeepsCalls (fun _ => False) network.outboxes outboxes) :
    LeavesErrands network { network with outboxes } where
  errands := rfl
  visits := rfl
  clients := rfl
  watched := rfl
  nextNumber := Nat.le_refl _
  events := ⟨[], (List.append_nil _).symm, by simp⟩
  waits := keepsWaiting_setOutboxes grows

theorem setStation {channel : Nat} {station next : Station}
    (found : network.station? channel = some station)
    (waits : ∀ {run : Run}, run.WaitsIn station.outbox.waiters →
      run.WaitsIn next.outbox.waiters) :
    LeavesErrands network (network.setStation channel next) := by
  obtain ⟨place, entry, _, _, foundPlace, foundEntry, _, _, rfl⟩ :=
    Network.station?_eq_some_iff.mp found
  obtain ⟨backlogs, equal⟩ := Network.setStation_eq next foundPlace
  refine ⟨by rw [equal], by rw [equal], by rw [equal], by rw [equal],
    Nat.le_of_eq (by rw [equal]), ⟨[], ?_, by simp⟩, ?_⟩
  · rw [Network.events_setStation next foundPlace, List.append_nil]
  · intro other otherEntry run foundOther waitsIn
    rw [Network.outboxes_setStation next foundPlace]
    split
    next same =>
      subst same
      cases foundEntry.symm.trans foundOther
      exact ⟨_, by rw [foundEntry]; rfl, waits waitsIn⟩
    next => exact ⟨otherEntry, foundOther, waitsIn⟩

theorem report (channel : Nat) (report : Report) :
    LeavesErrands network (network.report channel report) := by
  cases report with
  | ended call reply =>
      have noted : LeavesErrands network (network.note (.ended channel call reply)) := note id
      exact noted
  | execute invocation => exact of_same rfl rfl rfl rfl (Nat.le_succ _) rfl rfl

theorem reports (channel : Nat) (told : List Report) :
    LeavesErrands network
      (told.foldl (fun network report => network.report channel report) network) := by
  induction told generalizing network with
  | nil => exact of_same rfl rfl rfl rfl (Nat.le_refl _) rfl rfl
  | cons head rest ih => exact (report channel head).trans ih

theorem turn {channel : Nat} {station : Station} {next : Station × List Report}
    (found : network.station? channel = some station) (turn : station.Turn next.1 next.2) :
    LeavesErrands network (network.afterStep channel next) :=
  (setStation found turn.waitsIn).trans (reports channel next.2)

theorem begin (execution : Execution) :
    LeavesErrands network (network.beginExecution execution) := by
  simp only [Network.beginExecution]
  split
  · exact of_same rfl rfl rfl rfl (Nat.le_refl _) rfl rfl
  · refine LeavesErrands.trans ?_ (note id)
    exact of_same rfl rfl rfl rfl (Nat.le_refl _) rfl rfl

theorem conclude (execution : Execution) (conclusion : Conclusion) :
    LeavesErrands network (network.endExecution execution conclusion) := by
  have dropped : LeavesErrands network (network.dropExecution execution.number) :=
    of_same rfl rfl rfl rfl (Nat.le_refl _) rfl rfl
  have noted : LeavesErrands (network.dropExecution execution.number)
      ((network.dropExecution execution.number).note
        (.executed execution.channel execution.invocation conclusion)) := note id
  have ended := dropped.trans noted
  simp only [Network.endExecution]
  split
  · exact ended
  next found => exact ended.trans (setStation found id)

end LeavesErrands

namespace Pair

variable {pair : Pair} {before after network : Network}

/-! ## Two peers stay among themselves -/

theorem mem_setErrand {errand replacement : Errand}
    (member : errand ∈ (network.setErrand replacement).errands) :
    errand = replacement ∨ errand ∈ network.errands ∧ errand.number ≠ replacement.number := by
  obtain ⟨old, oldMember, equal⟩ := List.mem_map.mp member
  split at equal
  · exact Or.inl equal.symm
  next different =>
    subst equal
    exact Or.inr ⟨oldMember, different⟩

theorem IsClosed.leaves (closed : pair.IsClosed before) (leaves : LeavesErrands before after) :
    pair.IsClosed after where
  visits := leaves.visits.trans closed.visits
  clients := leaves.clients.trans closed.clients
  watched := leaves.watched.trans closed.watched
  route := leaves.errands ▸ closed.route
  fresh := leaves.errands ▸ closed.fresh
  stage := leaves.errands ▸ closed.stage

/-- An errand is replaced by one for the same call. -/
theorem IsClosed.setErrand (closed : pair.IsClosed network) {errand : Errand} {side : Side}
    {run : Run} (member : errand ∈ network.errands) (same : run.call = errand.call) :
    ∀ other ∈ (network.setErrand { errand with
      stage := .running (pair.outbox side) run }).errands,
      other.route = none ∧ other.call.IsFresh ∧
        ∃ side, other.stage = .entering (pair.outbox side) ∨
          ∃ run, other.stage = .running (pair.outbox side) run ∧ run.call = other.call := by
  intro other otherMember
  rcases mem_setErrand otherMember with rfl | ⟨old, _⟩
  · exact ⟨closed.route errand member, closed.fresh errand member, side,
      Or.inr ⟨run, rfl, same⟩⟩
  · exact ⟨closed.route other old, closed.fresh other old, closed.stage other old⟩

/-- The outbox of an errand that has begun to enter it. -/
theorem IsClosed.entering (closed : pair.IsClosed network) {errand : Errand} {place : Nat}
    (member : errand ∈ network.errands) (stage : errand.stage = .entering place) :
    ∃ side, place = pair.outbox side := by
  obtain ⟨side, entering | ⟨run, running, _⟩⟩ := closed.stage errand member
  · cases stage.symm.trans entering
    exact ⟨side, rfl⟩
  · cases stage.symm.trans running

/-- The outbox and the call of an errand that runs. -/
theorem IsClosed.running (closed : pair.IsClosed network) {errand : Errand} {place : Nat}
    {run : Run} (member : errand ∈ network.errands) (stage : errand.stage = .running place run) :
    ∃ side, place = pair.outbox side ∧ run.call = errand.call := by
  obtain ⟨side, entering | ⟨other, running, same⟩⟩ := closed.stage errand member
  · cases stage.symm.trans entering
  · cases stage.symm.trans running
    exact ⟨side, rfl, same⟩

theorem IsClosed.step (closed : pair.IsClosed before) (step : pair.Step before after) :
    pair.IsClosed after := by
  cases step with
  | clock | channels _ | links _ =>
      exact closed.leaves (.of_same rfl rfl rfl rfl (Nat.le_refl _) rfl rfl)
  | outboxes grows => exact closed.leaves (.setOutboxes grows)
  | turn found turn => exact closed.leaves (.turn found turn)
  | begin _ _ => exact closed.leaves (.begin _)
  | conclude _ _ => exact closed.leaves (.conclude _ _)
  | @issue side call fresh =>
      have all : ∀ errand ∈ (before.issue (pair.outbox side) call).2.errands,
          errand ∈ before.errands ∨
            errand = ⟨before.nextNumber, call, none, .entering (pair.outbox side)⟩ := by
        intro errand member
        exact (List.mem_append.mp member).imp_right List.mem_singleton.mp
      refine ⟨closed.visits, closed.clients, closed.watched, ?_, ?_, ?_⟩
      · intro errand member
        rcases all errand member with old | rfl
        · exact closed.route errand old
        · rfl
      · intro errand member
        rcases all errand member with old | rfl
        · exact closed.fresh errand old
        · exact fresh
      · intro errand member
        rcases all errand member with old | rfl
        · exact closed.stage errand old
        · exact ⟨side, Or.inl rfl⟩
  | @enter errand place entry member stage found =>
      obtain ⟨side, rfl⟩ := closed.entering member stage
      have all := @IsClosed.setErrand pair before closed errand side
        (Run.start entry.outbox errand.call).1 member rfl
      exact ⟨closed.visits, closed.clients, closed.watched, fun other member => (all other member).1,
        fun other member => (all other member).2.1, fun other member => (all other member).2.2⟩
  | @accept errand place run expiry _ member stage _ accepts errands =>
      obtain ⟨side, rfl, same⟩ := closed.running member stage
      have all := @IsClosed.setErrand pair before closed errand side
        { run with stage := .waiting expiry } member same
      rw [← errands] at all
      refine ⟨?_, ?_, ?_, fun other member => (all other member).1,
        fun other member => (all other member).2.1, fun other member => (all other member).2.2⟩
      · rw [accepts.same]
        exact closed.visits
      · rw [accepts.same]
        exact closed.clients
      · rw [accepts.same]
        exact closed.watched
  | «return» _ _ _ _ _ =>
      exact ⟨closed.visits, closed.clients, closed.watched,
        fun other member => closed.route other (List.mem_filter.mp member).1,
        fun other member => closed.fresh other (List.mem_filter.mp member).1,
        fun other member => closed.stage other (List.mem_filter.mp member).1⟩

/-- With every step the history goes on. -/
theorem Step.goesOn (justified : pair.Justified before) (step : pair.Step before after) :
    pair.GoesOn before after := by
  cases step with
  | clock | outboxes _ | issue _ | enter _ _ _ => exact ⟨fun _ _ onSide => onSide, .refl _⟩
  | channels grows => exact goesOn_setChannels grows
  | links grows => exact goesOn_setLinks grows
  | turn found turn =>
      have advances := turn.advances (justified.station found).1
      exact (goesOn_setStation justified found turn.keeps advances).trans (goesOn_reports _ _ _)
  | @begin execution member ready =>
      simp only [Network.beginExecution]
      split
      · exact ⟨fun _ _ onSide => onSide, .refl _⟩
      · exact ⟨fun _ _ onSide => onSide, (goesOn_note (before.setExecution _) _).continues⟩
  | conclude member _ => exact (justified.conclude member _).1
  | accept _ _ _ accepts _ => exact goesOn_accept accepts
  | @«return» errand _ _ _ _ reply _ _ _ _ _ _ =>
      exact ⟨fun _ _ onSide => onSide,
        (goesOn_note before (.returned errand.number reply)).continues⟩

/-- Every step keeps everything justified. -/
theorem Justified.step (justified : pair.Justified before) (closed : pair.IsClosed before)
    (step : pair.Step before after) : pair.Justified after := by
  cases step with
  | @clock now backlogs => exact justified.setClock now backlogs
  | channels grows => exact justified.setChannels grows
  | outboxes grows => exact justified.setOutboxes grows
  | links grows => exact justified.setLinks grows
  | issue fresh => exact justified.setErrands _ _
  | turn found turn =>
      obtain ⟨holds, onSide⟩ := justified.station found
      have advances := turn.advances holds
      have learned := continues_setStation justified found turn.keeps
      refine (justified.setStation found turn.keeps advances).reports ?_
      intro report member
      exact ⟨_, keepsSides_setStation found turn.keeps onSide,
        learned.report (advances.told report member)⟩
  | @begin execution member ready =>
      simp only [Network.beginExecution]
      split
      · apply justified.setExecutions
        intro other stays
        exact ⟨other, (List.mem_filter.mp stays).1, rfl, rfl⟩
      next =>
        have replaced : ∀ wake conclusion, pair.Justified (before.setExecution
            { execution with stage := .busy wake conclusion }) := by
          intro wake conclusion
          apply justified.setExecutions
          intro other stays
          obtain ⟨old, oldMember, equal⟩ := List.mem_map.mp stays
          split at equal
          · subst equal
            exact ⟨execution, member, rfl, rfl⟩
          · subst equal
            exact ⟨old, oldMember, rfl, rfl⟩
        exact (replaced _ _).note (justified.executions execution member)
  | conclude member _ => exact (justified.conclude member _).2
  | @enter errand place entry member stage found =>
      have keeps : entry.KeepsCalls
          { entry with outbox := (Run.start entry.outbox errand.call).2 } :=
        ⟨rfl, entry.outbox.waiters.changes_register errand.call.id⟩
      have registered := justified.setOutboxes (OutboxPlace.grows_modifyOutbox found keeps)
      exact registered.setErrands _ _
  | accept member stage _ accepts _ =>
      obtain ⟨side, rfl, same⟩ := closed.running member stage
      exact justified.accept (same ▸ closed.fresh _ member) accepts
  | @«return» errand place entry run outbox reply backlogs member stage found keeps _ =>
      have finished := justified.setOutboxes (OutboxPlace.grows_modifyOutbox found keeps)
      have dropped := (finished.setClock before.now backlogs).setErrands
        (before.errands.filter (·.number != errand.number)) before.nextNumber
      exact dropped.note trivial

end Pair

end PeerCalls
