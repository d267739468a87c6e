import PeerCalls.Proofs.Channel.Turns

/-!
# Which invocations a turn admits

A turn reports an invocation for execution only if its id was unknown to the
answers before, and then the id is known.
-/

namespace PeerCalls

/-- Answers before and after some ids were admitted, in this order. -/
structure Answers.Admits (ids : List UInt64) (before after : Answers) : Prop where
  nodup : ids.Nodup
  unknown : ∀ id ∈ ids, ¬ before.IsKnown id
  begun : ∀ id ∈ ids, id ∈ after.executing
  stays : ∀ id ∈ before.executing, id ∈ after.executing
  grows : ∀ id, before.IsKnown id → after.IsKnown id

namespace Answers.Admits

variable {before middle after : Answers} {first second : List UInt64} {id : UInt64}

theorem none (same : after = before) : Admits [] before after :=
  ⟨List.nodup_nil, by simp, by simp, fun _ running => same ▸ running,
    fun _ known => same ▸ known⟩

theorem known (admits : Admits first before after) (id : UInt64) (member : id ∈ first) :
    after.IsKnown id :=
  Or.inl (admits.begun id member)

theorem single (unknown : ¬ before.IsKnown id) :
    Admits [id] before { before with executing := id :: before.executing } where
  nodup := by simp
  unknown other member := by
    cases List.mem_singleton.mp member
    exact unknown
  begun other member := by
    cases List.mem_singleton.mp member
    exact List.mem_cons_self
  stays other running := List.mem_cons_of_mem id running
  grows other known := known.imp_left (List.mem_cons_of_mem id)

theorem trans (left : Admits first before middle) (right : Admits second middle after) :
    Admits (first ++ second) before after where
  nodup := by
    rw [List.nodup_append]
    refine ⟨left.nodup, right.nodup, ?_⟩
    rintro id old _ new rfl
    exact right.unknown id new (left.known id old)
  unknown id member := by
    rcases List.mem_append.mp member with member | member
    · exact left.unknown id member
    · exact fun known => right.unknown id member (left.grows id known)
  begun id member := by
    rcases List.mem_append.mp member with member | member
    · exact right.stays id (left.begun id member)
    · exact right.begun id member
  stays id running := right.stays id (left.stays id running)
  grows id known := right.grows id (left.grows id known)

end Answers.Admits

/-- The ids of the invocations that are reported for execution. -/
def Report.admitted (reports : List Report) : List UInt64 :=
  (reports.filterMap Report.invocation?).map Invocation.id

namespace Station

theorem Change.admits {before after : Station} {told : List Report}
    (change : Change before after told) :
    Answers.Admits (Report.admitted told) before.answers after.answers := by
  cases change with
  | invoked received isMethod decoded answered =>
      cases answered with
      | execute unknown => exact .single unknown
      | inProgress _ | cached _ _ _ | obsolete _ _ => exact .none rfl
  | _ => exact .none rfl

theorem Turn.admits {first last : Station} {told : List Report} (turn : Turn first last told) :
    Answers.Admits (Report.admitted told) first.answers last.answers := by
  induction turn with
  | done => exact .none rfl
  | step change _ ih =>
      have both := change.admits.trans ih
      rwa [Report.admitted, Report.admitted, ← List.map_append, ← List.filterMap_append] at both

end Station

end PeerCalls
