import Mathlib.Data.List.Induction

/-!
# Lists that are split at one of their entries

A history is often split at something that happened: there is what was before and what came
after. When a history grows by an entry, it is split at this entry, or where it could be split
already.
-/

namespace PeerCalls.Splitting

variable {Entry : Type} {entries earlier later : List Entry} {entry last : Entry}

/-- Two lists that are joined are split in the first one or in the second one. -/
theorem append_eq_iff {more : List Entry} : entries ++ more = earlier ++ entry :: later ↔
    (∃ rest, entries = earlier ++ entry :: rest ∧ later = rest ++ more) ∨
      ∃ front, earlier = entries ++ front ∧ more = front ++ entry :: later := by
  constructor
  · intro split
    rcases List.append_eq_append_iff.mp split with ⟨front, rfl, rest⟩ | ⟨middle, rfl, rest⟩
    · exact .inr ⟨front, rfl, rest⟩
    · cases middle with
      | nil => exact .inr ⟨[], by simp, rest.symm⟩
      | cons head middle =>
          rw [List.cons_append, List.cons.injEq] at rest
          exact .inl ⟨middle, by rw [rest.1], rest.2⟩
  · rintro (⟨rest, rfl, rfl⟩ | ⟨front, rfl, rfl⟩) <;> simp

/-- A list that grows is split at its last entry, or where it could be split before. -/
theorem concat_eq_iff : entries ++ [last] = earlier ++ entry :: later ↔
    (earlier = entries ∧ entry = last ∧ later = []) ∨
      ∃ init, later = init ++ [last] ∧ entries = earlier ++ entry :: init := by
  rw [append_eq_iff, or_comm]
  refine or_congr ?_ (exists_congr fun _ => and_comm)
  constructor
  · rintro ⟨front, rfl, same⟩
    rcases List.singleton_eq_append_iff.mp same with ⟨rfl, same⟩ | ⟨_, same⟩ <;> cases same
    exact ⟨List.append_nil entries, rfl, rfl⟩
  · rintro ⟨rfl, rfl, rfl⟩
    exact ⟨[], (List.append_nil earlier).symm, rfl⟩

/-- What holds of all entries of a list that grows held before, and holds of the last one. -/
theorem forall_mem_concat {holds : Entry → Prop} :
    (∀ entry ∈ entries ++ [last], holds entry) ↔ (∀ entry ∈ entries, holds entry) ∧ holds last := by
  rw [List.forall_mem_append, List.forall_mem_singleton]

/-- What holds of each entry and those before it, when a list grows. -/
theorem forall_split_concat {holds : List Entry → Entry → Prop} :
    (∀ earlier entry later, entries ++ [last] = earlier ++ entry :: later →
        holds earlier entry) ↔
      (∀ earlier entry later, entries = earlier ++ entry :: later → holds earlier entry) ∧
        holds entries last := by
  constructor
  · intro all
    refine ⟨?_, all entries last [] rfl⟩
    rintro earlier entry later rfl
    exact all earlier entry (later ++ [last]) (by simp)
  · rintro ⟨former, latter⟩ earlier entry later split
    rcases concat_eq_iff.mp split with ⟨rfl, rfl, rfl⟩ | ⟨init, rfl, rfl⟩
    · exact latter
    · exact former earlier entry init rfl

end PeerCalls.Splitting
