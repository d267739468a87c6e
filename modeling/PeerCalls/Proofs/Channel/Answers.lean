import PeerCalls.Channel.Answers

/-!
# What answers know about a call

An id is known to answers while its call is being executed, while its reply is
kept, and from then on because the reply is forgotten. A known id stays known, and
a call whose execution is over stays over, whatever arrives and whatever is
recorded.
-/

namespace PeerCalls.Answers

variable {answers : Answers} {id : UInt64} {reply : Reply}

/-- A reply to the call is kept. -/
def IsKept (answers : Answers) (id : UInt64) : Prop :=
  ∃ reply ∈ answers.replies, reply.id = id

/-- The call was admitted before, as far as anybody can tell. -/
def IsKnown (answers : Answers) (id : UInt64) : Prop :=
  id ∈ answers.executing ∨ answers.IsKept id ∨ answers.isForgotten id = true

/-- The call is not being executed, and will not be from now on. -/
def IsOver (answers : Answers) (id : UInt64) : Prop :=
  id ∉ answers.executing ∧ (answers.IsKept id ∨ answers.isForgotten id = true)

theorem IsOver.isKnown (isOver : answers.IsOver id) : answers.IsKnown id :=
  Or.inr isOver.2

/-! ## Arrivals -/

theorem reply?_eq_none_iff : answers.reply? id = none ↔ ¬ answers.IsKept id := by
  simp [reply?, IsKept]

theorem mem_of_reply?_eq_some (found : answers.reply? id = some reply) :
    reply ∈ answers.replies ∧ reply.id = id :=
  ⟨List.mem_of_find?_eq_some found, by simpa using List.find?_some found⟩

/-- What answers can say about a call that arrives. -/
inductive Arrival (answers : Answers) (id : UInt64) : Disposition × Answers → Prop where
  | inProgress : id ∈ answers.executing → Arrival answers id (.inProgress, answers)
  | cached {reply : Reply} :
      id ∉ answers.executing → reply ∈ answers.replies → reply.id = id →
      Arrival answers id (.cached reply, answers)
  | obsolete :
      id ∉ answers.executing → answers.isForgotten id = true →
      Arrival answers id (.obsolete, answers)
  | execute :
      ¬ answers.IsKnown id →
      Arrival answers id (.execute, { answers with executing := id :: answers.executing })

theorem arrive_cases (answers : Answers) (id : UInt64) :
    Arrival answers id (answers.arrive id) := by
  unfold arrive
  split
  next running => exact .inProgress running
  next idle =>
    split
    next reply found =>
      have kept := mem_of_reply?_eq_some found
      exact .cached idle kept.1 kept.2
    next missing =>
      split
      next forgotten => exact .obsolete idle forgotten
      next remembered =>
        apply Arrival.execute
        rintro (running | kept | forgotten)
        · exact idle running
        · exact reply?_eq_none_iff.mp missing kept
        · exact remembered forgotten

theorem IsKnown.arrive (known : answers.IsKnown id) (other : UInt64) :
    (answers.arrive other).2.IsKnown id := by
  have arrival := answers.arrive_cases other
  generalize answers.arrive other = result at arrival
  cases arrival with
  | inProgress _ | cached _ _ _ | obsolete _ _ => exact known
  | execute _ => exact known.imp_left (List.mem_cons_of_mem other)

theorem IsOver.arrive (isOver : answers.IsOver id) (other : UInt64) :
    (answers.arrive other).2.IsOver id := by
  have arrival := answers.arrive_cases other
  generalize answers.arrive other = result at arrival
  cases arrival with
  | inProgress _ | cached _ _ _ | obsolete _ _ => exact isOver
  | execute unknown =>
      refine ⟨?_, isOver.2⟩
      rw [List.mem_cons, not_or]
      refine ⟨?_, isOver.1⟩
      rintro rfl
      exact unknown isOver.isKnown

/-! ## Records -/

theorem mem_insertReply_self (reply : Reply) (replies : List Reply) :
    reply ∈ insertReply reply replies := by
  induction replies with
  | nil => simp [insertReply]
  | cons head rest ih =>
      unfold insertReply
      split
      · exact List.mem_cons_self
      · split
        · exact List.mem_cons_self
        · exact List.mem_cons_of_mem head ih

theorem eq_or_mem_of_mem_insertReply {kept : Reply} {replies : List Reply}
    (member : kept ∈ insertReply reply replies) : kept = reply ∨ kept ∈ replies := by
  induction replies with
  | nil => simpa [insertReply] using member
  | cons head rest ih =>
      unfold insertReply at member
      split at member
      · exact List.mem_cons.mp member
      · split at member
        · rcases List.mem_cons.mp member with same | member
          · exact Or.inl same
          · exact Or.inr (List.mem_cons_of_mem head member)
        · rcases List.mem_cons.mp member with same | member
          · exact Or.inr (same ▸ List.mem_cons_self)
          · exact (ih member).imp_right (List.mem_cons_of_mem head)

/-- Inserting a reply replaces at most the one with the same id. -/
theorem mem_insertReply_or_eq (reply : Reply) {kept : Reply} {replies : List Reply}
    (member : kept ∈ replies) : kept ∈ insertReply reply replies ∨ kept.id = reply.id := by
  induction replies with
  | nil => cases member
  | cons head rest ih =>
      unfold insertReply
      split
      · exact Or.inl (List.mem_cons_of_mem reply member)
      · split
        next same =>
          rcases List.mem_cons.mp member with rfl | member
          · exact Or.inr same.symm
          · exact Or.inl (List.mem_cons_of_mem reply member)
        next =>
          rcases List.mem_cons.mp member with rfl | member
          · exact Or.inl List.mem_cons_self
          · exact (ih member).imp_left (List.mem_cons_of_mem head)

theorem le_larger_self (forgotten : Option UInt64) (id : UInt64) : id ≤ larger forgotten id := by
  unfold larger
  split
  · split
    · exact UInt64.le_refl id
    next above => exact UInt64.not_lt.mp above
  · exact UInt64.le_refl id

theorem le_larger_of_mem {forgotten : Option UInt64} {known : UInt64}
    (member : known ∈ forgotten) (id : UInt64) : known ≤ larger forgotten id := by
  cases member
  simp only [larger]
  split
  next above => exact UInt64.le_of_lt above
  · exact UInt64.le_refl known

/-- What is kept after an eviction was kept before. -/
theorem mem_of_mem_evict {capacity : Nat} {kept : Reply} {replies : List Reply}
    {forgotten : Option UInt64} (member : kept ∈ (evict capacity replies forgotten).1) :
    kept ∈ replies := by
  induction replies generalizing forgotten with
  | nil => exact member
  | cons smallest rest ih =>
      unfold evict at member
      split at member
      · exact member
      · exact List.mem_cons_of_mem smallest (ih member)

/-- An eviction remembers how far it has forgotten. -/
theorem exists_forgotten_of_evict {capacity : Nat} {replies : List Reply}
    {forgotten : Option UInt64} (forgot : ∃ known ∈ forgotten, id ≤ known) :
    ∃ known ∈ (evict capacity replies forgotten).2, id ≤ known := by
  induction replies generalizing forgotten with
  | nil => exact forgot
  | cons smallest rest ih =>
      unfold evict
      split
      · exact forgot
      · obtain ⟨known, member, below⟩ := forgot
        exact ih ⟨_, rfl, UInt64.le_trans below (le_larger_of_mem member smallest.id)⟩

/-- A reply is kept by an eviction, or it is forgotten. -/
theorem mem_evict_or_forgotten (capacity : Nat) (forgotten : Option UInt64) {kept : Reply}
    {replies : List Reply} (member : kept ∈ replies) :
    kept ∈ (evict capacity replies forgotten).1 ∨
      ∃ known ∈ (evict capacity replies forgotten).2, kept.id ≤ known := by
  induction replies generalizing forgotten with
  | nil => cases member
  | cons smallest rest ih =>
      unfold evict
      split
      · exact Or.inl member
      · rcases List.mem_cons.mp member with rfl | member
        · exact Or.inr (exists_forgotten_of_evict ⟨_, rfl, le_larger_self forgotten kept.id⟩)
        · exact ih _ member

theorem isForgotten_iff : answers.isForgotten id = true ↔
    ∃ known ∈ answers.forgottenUpTo, id ≤ known := by
  simp [isForgotten, Option.any_eq_true]

@[simp] theorem executing_record (answers : Answers) (reply : Reply) :
    (answers.record reply).executing = answers.executing.filter (· != reply.id) := rfl

theorem eq_or_mem_of_mem_record {kept : Reply}
    (member : kept ∈ (answers.record reply).replies) : kept = reply ∨ kept ∈ answers.replies :=
  eq_or_mem_of_mem_insertReply (mem_of_mem_evict member)

theorem isForgotten_record (forgotten : answers.isForgotten id = true) (reply : Reply) :
    (answers.record reply).isForgotten id = true :=
  isForgotten_iff.mpr (exists_forgotten_of_evict (isForgotten_iff.mp forgotten))

/-- A reply that was inserted is kept after the record, or it is forgotten. -/
theorem isKept_or_isForgotten_of_mem_insertReply {kept : Reply}
    (member : kept ∈ insertReply reply answers.replies) :
    (answers.record reply).IsKept kept.id ∨
      (answers.record reply).isForgotten kept.id = true := by
  rcases mem_evict_or_forgotten answers.capacity answers.forgottenUpTo member with
    stays | forgotten
  · exact Or.inl ⟨kept, stays, rfl⟩
  · exact Or.inr (isForgotten_iff.mpr forgotten)

/-- A recorded call is over. -/
theorem isOver_record_self (answers : Answers) (reply : Reply) :
    (answers.record reply).IsOver reply.id :=
  ⟨by simp, isKept_or_isForgotten_of_mem_insertReply (mem_insertReply_self reply _)⟩

theorem IsOver.record (isOver : answers.IsOver id) (reply : Reply) :
    (answers.record reply).IsOver id := by
  by_cases same : id = reply.id
  · subst same
    exact isOver_record_self answers reply
  · constructor
    · intro running
      exact isOver.1 (List.mem_filter.mp running).1
    · rcases isOver.2 with ⟨kept, member, rfl⟩ | forgotten
      · have stays := (mem_insertReply_or_eq reply member).resolve_right same
        exact isKept_or_isForgotten_of_mem_insertReply stays
      · exact Or.inr (isForgotten_record forgotten reply)

theorem IsKnown.record (known : answers.IsKnown id) (reply : Reply) :
    (answers.record reply).IsKnown id := by
  by_cases same : id = reply.id
  · subst same
    exact (isOver_record_self answers reply).isKnown
  · rcases known with running | known
    · left
      simp [running, same]
    · by_cases running : id ∈ answers.executing
      · left
        simp [running, same]
      · exact (IsOver.record ⟨running, known⟩ reply).isKnown

end PeerCalls.Answers
