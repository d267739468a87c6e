import Mathlib.Data.List.Nodup
import PeerCalls.Proofs.Network.Tables

/-!
# Executions that begin and end

Executions under way have numbers of their own, so one of them can be replaced or
dropped without touching the others.
-/

namespace PeerCalls

/-- The executions under way have different numbers. -/
def Network.HasNumbers (network : Network) : Prop :=
  (network.executions.map Execution.number).Nodup

/-- A service begins to execute an invocation. -/
structure Begins (execution : Execution) (before after : Network) : Prop where
  same : after = { before with executions := after.executions, log := after.log }
  events : after.events = before.events ++
    [.executing execution.channel execution.invocation]
  executions : ∃ left right wake conclusion,
    before.executions = left ++ execution :: right ∧
    after.executions = left ++ { execution with stage := .busy wake conclusion } :: right

/-- A service has executed an invocation, and the execution is gone. -/
structure Finishes (execution : Execution) (conclusion : Conclusion) (before after : Network) :
    Prop where
  same : after = { before with executions := after.executions, log := after.log }
  events : after.events = before.events ++
    [.executed execution.channel execution.invocation conclusion]
  executions : ∃ left right, before.executions = left ++ execution :: right ∧
    after.executions = left ++ right

namespace Network

variable {network : Network} {left right : List Execution} {execution : Execution}

/-- No other execution has the number of one that is under way. -/
theorem HasNumbers.others (numbers : network.HasNumbers)
    (split : network.executions = left ++ execution :: right) :
    ∀ other ∈ left ++ right, other.number ≠ execution.number := by
  rw [HasNumbers, split, List.map_append, List.map_cons, List.nodup_middle, List.nodup_cons,
    ← List.map_append] at numbers
  intro other member same
  exact numbers.1 (same ▸ List.mem_map_of_mem member)

theorem executions_setExecution (numbers : network.HasNumbers)
    (split : network.executions = left ++ execution :: right) {replacement : Execution}
    (same : replacement.number = execution.number) :
    (network.setExecution replacement).executions = left ++ replacement :: right := by
  have others := numbers.others split
  have keeps : ∀ executions : List Execution, (∀ other ∈ executions, other ∈ left ++ right) →
      executions.map (fun other =>
        if other.number = replacement.number then replacement else other) = executions := by
    intro executions inside
    apply (List.map_congr_left _).trans (List.map_id executions)
    intro other member
    rw [if_neg (same ▸ others other (inside other member)), id]
  simp only [setExecution, split, List.map_append, List.map_cons, same, if_true]
  rw [← same, keeps left fun _ => List.mem_append_left _,
    keeps right fun _ => List.mem_append_right _]

theorem executions_dropExecution (numbers : network.HasNumbers)
    (split : network.executions = left ++ execution :: right) :
    (network.dropExecution execution.number).executions = left ++ right := by
  have others := numbers.others split
  have keeps : ∀ executions : List Execution, (∀ other ∈ executions, other ∈ left ++ right) →
      executions.filter (·.number != execution.number) = executions := by
    intro executions inside
    rw [List.filter_eq_self]
    intro other member
    simpa using others other (inside other member)
  simp only [dropExecution, split, List.filter_append, List.filter_cons, bne_self_eq_false,
    Bool.false_eq_true, if_false]
  rw [keeps left fun _ => List.mem_append_left _, keeps right fun _ => List.mem_append_right _]

/-- An execution of a channel that is there begins. -/
theorem begins_beginExecution (numbers : network.HasNumbers)
    (member : execution ∈ network.executions) {place : ChannelPlace}
    (found : network.channels[execution.channel]? = some place) :
    Begins execution network (network.beginExecution execution) := by
  obtain ⟨left, right, split⟩ := List.append_of_mem member
  simp only [beginExecution, found]
  exact ⟨rfl, events_note _ _, left, right, _, _, split, executions_setExecution numbers split rfl⟩

theorem finishes_dropExecution (numbers : network.HasNumbers)
    (member : execution ∈ network.executions) (conclusion : Conclusion) :
    Finishes execution conclusion network
      ((network.dropExecution execution.number).note
        (.executed execution.channel execution.invocation conclusion)) := by
  obtain ⟨left, right, split⟩ := List.append_of_mem member
  exact ⟨rfl, events_note _ _, left, right, split, executions_dropExecution numbers split⟩

end Network

end PeerCalls
