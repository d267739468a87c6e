import PeerCalls.Network.Log
import PeerCalls.Proofs.Pair.Runs

/-!
# Replies tell what was done

Whoever calls learns what the other side did. If a call ends with a value, then the
other side has executed exactly this call, once, and with this value; if it ends with a
failure of the service, then the other side has executed exactly this call, once. This
holds for what channels report and for what errands return, in whatever order calls,
timeouts, repeated attempts, disconnects and executions follow each other.
-/

namespace PeerCalls

/-- How a service has executed an invocation for a cache of answers. -/
def Network.concludedBy? (network : Network) (answers : Nat) :
    Event → Option (Invocation × Conclusion)
  | .executed channel invocation conclusion =>
      if network.worksOn answers channel then some (invocation, conclusion) else none
  | _ => none

/-- The invocations that services have executed for a cache of answers, and how they
ended. -/
def Network.concludedFor (network : Network) (answers : Nat) : List (Invocation × Conclusion) :=
  network.events.filterMap (network.concludedBy? answers)

namespace Pair

variable (pair : Pair) (network : Network) (side : Side)

/-- The other side has begun to execute this invocation of a side, once, and nothing
else with its id. -/
def ExecutesOnce (invocation : Invocation) : Prop :=
  (network.executedFor (pair.answers side.other)).filter (·.id = invocation.id) = [invocation]

/-- What a reply to an invocation of a side says is what the other side has done. -/
def Tells (invocation : Invocation) (reply : Reply) : Prop :=
  match reply.verdict with
  | .success value => pair.ExecutesOnce network side invocation ∧
      (invocation, .value value) ∈ network.concludedFor (pair.answers side.other)
  | .failure .remoteException _ => pair.ExecutesOnce network side invocation ∧
      ∃ conclusion, (invocation, conclusion) ∈ network.concludedFor (pair.answers side.other)
  | .failure _ _ => True

/-- All replies tell what the other side has done. -/
structure RepliesTruly : Prop where
  /-- A channel reports how a call has ended. -/
  ended : ∀ channel call reply, .ended channel call reply ∈ network.events →
    ∃ side, network.side? channel = some side ∧
      (∃ issued ∈ pair.calls network side, issued.reset = call.reset) ∧
      reply.id = call.id ∧ pair.Tells network side call.invocation reply
  /-- An errand returns after the queue has taken its call. -/
  returned : ∀ errand reply, .returned errand reply ∈ network.events →
    ∀ side call, .accepted errand (pair.outbox side) call ∈ network.events →
      reply.id = call.id ∧ pair.Tells network side call.invocation reply
  /-- An errand that returns more than a failure on its own side has had its call
  taken. -/
  accepted : ∀ errand reply, .returned errand reply ∈ network.events →
    reply.TellsNothing ∨
      ∃ side call, .accepted errand (pair.outbox side) call ∈ network.events

variable {pair} {network} {side}

/-- In a list with different keys there is one element for each key. -/
theorem filter_eq_singleton {α β : Type} [DecidableEq β] {key : α → β} {elements : List α}
    {element : α} (distinct : (elements.map key).Nodup) (member : element ∈ elements) :
    elements.filter (fun other => key other = key element) = [element] := by
  obtain ⟨left, right, rfl⟩ := List.append_of_mem member
  rw [List.map_append, List.map_cons, List.nodup_middle, List.nodup_cons, ← List.map_append]
    at distinct
  have apart : ∀ other ∈ left ++ right, key other ≠ key element := by
    intro other otherMember same
    exact distinct.1 (same ▸ List.mem_map_of_mem otherMember)
  have leftOut : left.filter (fun other => key other = key element) = [] := by
    rw [List.filter_eq_nil_iff]
    intro other otherMember
    simpa using apart other (List.mem_append_left right otherMember)
  have rightOut : right.filter (fun other => key other = key element) = [] := by
    rw [List.filter_eq_nil_iff]
    intro other otherMember
    simpa using apart other (List.mem_append_right left otherMember)
  rw [List.filter_append, List.filter_cons_of_pos (by simp), leftOut, rightOut, List.nil_append]

/-- A side has begun to execute an invocation once if an execution of it is over. -/
theorem Sound.executesOnce (sound : pair.Sound network) {invocation : Invocation}
    {conclusion : Conclusion}
    (concluded : (pair.history network).concluded side.other invocation conclusion) :
    pair.ExecutesOnce network side invocation ∧
      (invocation, conclusion) ∈ network.concludedFor (pair.answers side.other) := by
  obtain ⟨channel, onSide, executed⟩ := concluded
  have works := sound.justified.worksOn_iff.mpr onSide
  have began := sound.executes.began channel invocation conclusion executed
  constructor
  · apply filter_eq_singleton
    · have once := sound.once.once (pair.answers side.other)
      rw [Network.admittedFor, List.map_append] at once
      exact (List.nodup_append.mp once).1
    · exact Network.mem_executedFor_iff.mpr ⟨channel, began, works⟩
  · exact List.mem_filterMap.mpr ⟨_, executed, by simp [Network.concludedBy?, works]⟩

/-- A reply that a call got says nothing of an execution, or it comes from the other
side. -/
theorem History.Ends.tellsNothing_or_backs {history : History} {call : Call} {reply : Reply}
    (ends : history.Ends side call reply) : reply.TellsNothing ∨ history.Backs side reply := by
  cases verdict : reply.verdict with
  | success value =>
      right
      apply ends.backs <;> simp [Reply.isRetryableFailure, Reply.kind?, verdict]
  | failure kind message =>
      by_cases remote : kind = .remoteException
      · right
        subst remote
        apply ends.backs <;>
          simp [Reply.isRetryableFailure, Reply.kind?, verdict, FailureKind.isRetryable]
      · exact Or.inl ⟨kind, message, verdict, remote⟩

theorem Sound.tells (sound : pair.Sound network)
    (distinct : ((pair.calls network side).map Call.id).Nodup) {call : Call} {reply : Reply}
    (member : call ∈ pair.calls network side) (sameId : reply.id = call.id)
    (said : reply.TellsNothing ∨ (pair.history network).Backs side reply) :
    pair.Tells network side call.invocation reply := by
  have same : ∀ other ∈ pair.calls network side, other.id = reply.id → other = call :=
    fun other otherMember equal =>
      List.inj_on_of_nodup_map distinct otherMember member (equal.trans sameId)
  rcases said with ⟨kind, message, verdict, known⟩ | backed
  · simp only [Tells, verdict]
  · simp only [History.Backs] at backed
    simp only [Tells]
    split
    next value success =>
      simp only [success] at backed
      obtain ⟨other, otherMember, equal, concluded⟩ := backed
      cases same other otherMember equal
      exact sound.executesOnce concluded
    next message failure =>
      simp only [failure] at backed
      obtain ⟨other, otherMember, equal, conclusion, concluded⟩ := backed
      cases same other otherMember equal
      obtain ⟨once, ended⟩ := sound.executesOnce concluded
      exact ⟨once, conclusion, ended⟩
    next => trivial

theorem Sound.repliesTruly (sound : pair.Sound network)
    (distinct : ∀ side, ((pair.calls network side).map Call.id).Nodup) :
    pair.RepliesTruly network where
  ended channel call reply member := by
    obtain ⟨side, onSide, issued, ends⟩ := sound.justified.ended channel call reply member
    obtain ⟨original, originalMember, same⟩ := issued
    have invocation := Call.invocation_eq_of_reset_eq same
    have sameId : reply.id = original.id := ends.id.trans (congrArg Invocation.id invocation).symm
    refine ⟨side, onSide, ⟨original, originalMember, same⟩, ends.id, invocation ▸ ?_⟩
    exact sound.tells (distinct side) originalMember sameId
      (History.Ends.tellsNothing_or_backs ends)
  returned errand reply returned side call accepted := by
    obtain ⟨sameId, said⟩ := sound.attends.replies errand reply returned side call accepted
    refine ⟨sameId, sound.tells (distinct side) ?_ sameId ?_⟩
    · exact List.mem_append_right _ (List.mem_filterMap.mpr
        ⟨_, accepted, by simp [Network.acceptedIn?]⟩)
    · rcases said with nothing | ⟨issued, _, ends⟩
      · exact Or.inl nothing
      · exact History.Ends.tellsNothing_or_backs ends
  accepted errand reply returned := sound.attends.tells errand reply returned

/-- Two peers begin at rest, and call each other with ids that are different on each
side. Whatever happens, replies tell what the other side has done. -/
theorem repliesTruly_run {start : Network} {happenings : List Happening}
    (rest : pair.IsAtRest start) (obeys : Network.Obeys pair.Admits start happenings)
    (distinct : ∀ side, ((pair.calls (start.run happenings) side).map Call.id).Nodup) :
    pair.RepliesTruly (start.run happenings) :=
  (rest.sound_run obeys).repliesTruly distinct

/-- A call that is left over. -/
def greetings : List Call := [Call.new .server ⟨1, "greet", []⟩]

/-- The other peer issues a call with the same id. Both are executed side by side: one
ends with a value, the other one with a failure. -/
def greeting : List Happening :=
  [.addLink 1000,
    .startChannel ⟨.server, none⟩ .left 0 0 0 fun _ _ => .atOnce (.failed "busy"),
    .startChannel ⟨.client "c", none⟩ .right 0 1 1 fun _ _ => .atOnce (.value [7]),
    .act (.issue 1 (Call.new (.client "c") ⟨1, "ask", [[3]]⟩)), .move (.errand 0),
    .move (.errand 0), .move (.send 0 false), .move (.send 0 false), .move (.send 0 false),
    .move (.send 1 false), .move (.send 1 false), .move (.send 1 false), .move (.receive 1),
    .move (.receive 0), .move (.execute 1), .move (.execute 2), .move (.execute 1),
    .move (.execute 2), .move (.send 0 false), .move (.send 0 false), .move (.send 1 false),
    .move (.send 1 false), .move (.receive 1), .move (.receive 0), .move (.send 0 false),
    .move (.send 0 false), .move (.send 1 false), .move (.send 1 false), .move (.errand 0)]

theorem repliesTruly_greeting :
    (neighbours greetings).RepliesTruly ((beforeMeeting greetings).run greeting) ∧
    (Log.endings ((beforeMeeting greetings).run greeting).log.toList).map
      (fun ending => ending.content.2.2) =
        [Reply.success 1 [7], Reply.failure 1 .remoteException "busy"] := by
  have rest := @isAtRest_beforeMeeting greetings (by decide +kernel)
  have obeys : Network.Obeys (neighbours greetings).Admits (beforeMeeting greetings) greeting := by
    decide +kernel
  refine ⟨repliesTruly_run rest obeys ?_, by decide +kernel⟩
  intro side
  cases side <;> decide +kernel

end Pair

end PeerCalls
