import Mathlib.Data.List.Forall2
import PeerCalls.Call.Ids

/-!
# Ids for readings of a clock

However the clock runs, each id is one more than the id before, but not less than ten thousand
times the reading. A source does not calculate it so: it keeps a millisecond and a sequence
number, starts anew when the clock is ahead, counts when it is not, and carries into the next
millisecond. `Stands` says how the two numbers make up the id that was given out last, and
this survives milliseconds that are borrowed from the future, a clock that catches up and a
clock that goes back.
-/

namespace PeerCalls.IdSource

/-! ## What is given out and what is due -/

/-- The ids for readings of the clock, one after the other. -/
def issue (source : IdSource) : List UInt64 → List UInt64
  | [] => []
  | reading :: readings => (source.next reading).1 :: (source.next reading).2.issue readings

/-- The state after the ids for some readings. -/
def after (source : IdSource) (readings : List UInt64) : IdSource :=
  readings.foldl advance source

/-- The id that is due for a reading after another id. -/
def due (previous : Nat) (reading : UInt64) : Nat :=
  max (previous + 1) (10000 * reading.toNat)

/-- The ids that are due for readings, one after the other. -/
def dues (previous : Nat) : List UInt64 → List Nat
  | [] => []
  | reading :: readings => due previous reading :: dues (due previous reading) readings

/-- A clock that stands still is read again and again. -/
theorem nextMany_eq (source : IdSource) (reading : UInt64) (count : Nat) :
    source.nextMany reading count =
      (source.issue (List.replicate count reading),
        source.after (List.replicate count reading)) := by
  induction count generalizing source with
  | zero => rfl
  | succ count ih =>
      have others := ih (source.next reading).2
      simp only [nextMany, others]
      rfl

theorem lt_due (previous : Nat) (reading : UInt64) : previous < due previous reading :=
  Nat.le_max_left _ _

theorem lt_of_mem_dues {previous id : Nat} {readings : List UInt64}
    (member : id ∈ dues previous readings) : previous < id := by
  induction readings generalizing previous with
  | nil => cases member
  | cons reading readings ih =>
      have next := lt_due previous reading
      cases List.mem_cons.mp member with
      | inl isFirst => rwa [isFirst]
      | inr later => exact Nat.lt_trans next (ih later)

theorem pairwise_dues (previous : Nat) (readings : List UInt64) :
    (dues previous readings).Pairwise (· < ·) := by
  induction readings generalizing previous with
  | nil => exact List.Pairwise.nil
  | cons reading readings ih => exact (ih _).cons fun _ later => lt_of_mem_dues later

theorem forall₂_dues (previous : Nat) (readings : List UInt64) :
    List.Forall₂ (fun reading id => 10000 * reading.toNat ≤ id) readings
      (dues previous readings) := by
  induction readings generalizing previous with
  | nil => exact List.Forall₂.nil
  | cons reading readings ih => exact (ih _).cons (Nat.le_max_right _ _)

/-- Ids run ahead of the clock by no more than one for each id. -/
theorem le_of_getElem?_dues {previous position id : Nat} {readings : List UInt64}
    (found : (dues previous readings)[position]? = some id) :
    id ≤ previous + (position + 1) ∨
      ∃ reading ∈ readings.take (position + 1), id ≤ 10000 * reading.toNat + position := by
  induction readings generalizing previous position with
  | nil => simp [dues] at found
  | cons reading readings ih =>
      have isDue : due previous reading = previous + 1 ∨
          due previous reading = 10000 * reading.toNat := by
        unfold due
        omega
      cases position with
      | zero =>
          have isFirst : due previous reading = id := by simpa [dues] using found
          cases isDue with
          | inl counted => exact .inl (by omega)
          | inr read => exact .inr ⟨reading, List.mem_cons_self, by omega⟩
      | succ position =>
          have later : (dues (due previous reading) readings)[position]? = some id := by
            simpa [dues] using found
          cases ih later with
          | inl near =>
              cases isDue with
              | inl counted => exact .inl (by omega)
              | inr read => exact .inr ⟨reading, List.mem_cons_self, by omega⟩
          | inr near =>
              obtain ⟨other, isEarlier, bound⟩ := near
              exact .inr ⟨other, List.mem_cons_of_mem reading isEarlier, by omega⟩

/-! ## One id -/

/-- A source that has given out an id last: ten thousand times its millisecond, and its sequence
number. -/
structure Stands (source : IdSource) (previous : Nat) : Prop where
  sequence : source.sequence.toNat < 10000
  value : 10000 * source.millisecond.toNat + source.sequence.toNat = previous

/-- No number on the way to the next id is too large for 64 bits. -/
structure HasRoom (source : IdSource) (reading : UInt64) : Prop where
  counting : source.sequence.toNat + 1 < UInt64.size
  carrying : source.millisecond.toNat + 1 < UInt64.size
  product : (source.advance reading).millisecond.toNat * perMillisecond.toNat < UInt64.size
  sum : (source.advance reading).millisecond.toNat * perMillisecond.toNat
    + (source.advance reading).sequence.toNat < UInt64.size

theorem stands_fresh : Stands fresh 0 :=
  ⟨by decide, by decide⟩

theorem toNat_add_one {word : UInt64} (room : word.toNat + 1 < UInt64.size) :
    (word + 1).toNat = word.toNat + 1 := by
  rw [UInt64.toNat_add]
  exact Nat.mod_eq_of_lt room

/-- The ways to the next id, told in natural numbers. -/
inductive Advance (source : IdSource) (reading : UInt64) : Prop where
  | ahead (later : source.millisecond.toNat < reading.toNat)
      (result : source.advance reading = ⟨reading, 0⟩)
  | carried (notLater : reading.toNat ≤ source.millisecond.toNat)
      (full : source.sequence.toNat + 1 = 10000)
      (result : source.advance reading = ⟨source.millisecond + 1, 0⟩)
  | counted (notLater : reading.toNat ≤ source.millisecond.toNat)
      (notFull : source.sequence.toNat + 1 < 10000)
      (result : source.advance reading = ⟨source.millisecond, source.sequence + 1⟩)

theorem advance_cases {source : IdSource} (reading : UInt64)
    (small : source.sequence.toNat < 10000) : Advance source reading := by
  have next : (source.sequence + 1).toNat = source.sequence.toNat + 1 :=
    toNat_add_one (Nat.lt_trans (Nat.succ_lt_succ small) (by decide))
  by_cases later : source.millisecond < reading
  · exact .ahead (UInt64.lt_iff_toNat_lt.mp later) (if_pos later)
  · have notLater : reading.toNat ≤ source.millisecond.toNat :=
      Nat.le_of_not_lt fun isLater => later (UInt64.lt_iff_toNat_lt.mpr isLater)
    have isFull : source.sequence + 1 = perMillisecond ↔ source.sequence.toNat + 1 = 10000 := by
      rw [← UInt64.toNat_inj, next]
      exact Iff.rfl
    by_cases full : source.sequence + 1 = perMillisecond
    · exact .carried notLater (isFull.mp full) ((if_neg later).trans (if_pos full))
    · have notFull : source.sequence.toNat + 1 ≠ 10000 := fun isLast => full (isFull.mpr isLast)
      exact .counted notLater (Nat.lt_of_le_of_ne small notFull)
        ((if_neg later).trans (if_neg full))

namespace Stands

variable {source : IdSource} {previous : Nat} {reading : UInt64}

theorem toNat_last (stands : Stands source previous) (fits : previous < UInt64.size) :
    source.last.toNat = previous := by
  have value := stands.value
  have whole : source.last.toNat =
      (source.millisecond.toNat * 10000 % UInt64.size + source.sequence.toNat) % UInt64.size := by
    rw [last, UInt64.toNat_add, UInt64.toNat_mul]
    rfl
  have product : source.millisecond.toNat * 10000 % UInt64.size =
      source.millisecond.toNat * 10000 := Nat.mod_eq_of_lt (by omega)
  rw [whole, product, Nat.mod_eq_of_lt (by omega)]
  omega

theorem advance (stands : Stands source previous) (fits : due previous reading < UInt64.size) :
    Stands (source.advance reading) (due previous reading) := by
  have value := stands.value
  have small := stands.sequence
  unfold due at fits ⊢
  cases advance_cases reading small with
  | ahead later result =>
      -- The reading is worth more than all ids of the millisecond before it.
      rw [result]
      constructor
      · exact Nat.zero_lt_succ 9999
      · change 10000 * reading.toNat + 0 = _
        omega
  | carried notLater full result =>
      have next : (source.millisecond + 1).toNat = source.millisecond.toNat + 1 :=
        toNat_add_one (by omega)
      rw [result]
      constructor
      · exact Nat.zero_lt_succ 9999
      · change 10000 * (source.millisecond + 1).toNat + 0 = _
        omega
  | counted notLater notFull result =>
      have next : (source.sequence + 1).toNat = source.sequence.toNat + 1 :=
        toNat_add_one (Nat.lt_trans (Nat.succ_lt_succ small) (by decide))
      rw [result]
      constructor
      · change (source.sequence + 1).toNat < 10000
        omega
      · change 10000 * source.millisecond.toNat + (source.sequence + 1).toNat = _
        omega

theorem hasRoom (stands : Stands source previous) (fits : due previous reading < UInt64.size) :
    HasRoom source reading := by
  have size : UInt64.size = 18446744073709551616 := rfl
  have each : perMillisecond.toNat = 10000 := rfl
  have before := lt_due previous reading
  have small := stands.sequence
  have value := stands.value
  have next := (stands.advance fits).value
  constructor
  · omega
  · omega
  · rw [each]
    omega
  · rw [each]
    omega

theorem toNat_issue {readings : List UInt64} (stands : Stands source previous)
    (fits : ∀ id ∈ dues previous readings, id < UInt64.size) :
    (source.issue readings).map UInt64.toNat = dues previous readings := by
  induction readings generalizing source previous with
  | nil => rfl
  | cons reading readings ih =>
      obtain ⟨fitsFirst, fitsLater⟩ := List.forall_mem_cons.mp fits
      have advanced := stands.advance fitsFirst
      have first : (source.advance reading).last.toNat = due previous reading :=
        advanced.toNat_last fitsFirst
      have later := ih advanced fitsLater
      change (source.advance reading).last.toNat ::
        ((source.advance reading).issue readings).map UInt64.toNat = _
      rw [first, later, dues]

/-- A source stands at some id after readings, and has room for what is due next. -/
theorem exists_after {past future : List UInt64} (stands : Stands source previous)
    (fits : ∀ id ∈ dues previous (past ++ future), id < UInt64.size) :
    ∃ given, Stands (source.after past) given ∧ ∀ id ∈ dues given future, id < UInt64.size := by
  induction past generalizing source previous with
  | nil => exact ⟨previous, stands, fits⟩
  | cons reading past ih =>
      obtain ⟨fitsFirst, fitsLater⟩ := List.forall_mem_cons.mp fits
      exact ih (stands.advance fitsFirst) fitsLater

end Stands

/-! ## All ids -/

/-- What the ids for readings of the clock are. -/
structure IssuesDues (readings : List UInt64) : Prop where
  exact : (fresh.issue readings).map UInt64.toNat = dues 0 readings
  ascending : (fresh.issue readings).Pairwise (· < ·)
  atLeast : List.Forall₂ (fun reading id => 10000 * reading.toNat ≤ id.toNat) readings
    (fresh.issue readings)
  atMost : ∀ position id, (fresh.issue readings)[position]? = some id →
    ∃ reading ∈ readings.take (position + 1),
      id.toNat ≤ 10000 * reading.toNat + (position + 1)
  sequence : ∀ past, past <+: readings → (fresh.after past).sequence < perMillisecond
  hasRoom : ∀ past reading future, readings = past ++ reading :: future →
    HasRoom (fresh.after past) reading

/-- As long as the ids that are due fit 64 bits, a new source gives out exactly these, whatever
the clock reads. They ascend, none is less than ten thousand times its reading, and none is more
than ten thousand times a reading so far and the number of ids so far. The sequence number stays
below ten thousand, and nothing overflows on the way. -/
theorem issuesDues_of_fits (readings : List UInt64)
    (fits : ∀ id ∈ dues 0 readings, id < UInt64.size) : IssuesDues readings where
  exact := stands_fresh.toNat_issue fits
  ascending := by
    have ascending := pairwise_dues 0 readings
    rw [← stands_fresh.toNat_issue fits, List.pairwise_map] at ascending
    exact ascending.imp UInt64.lt_iff_toNat_lt.mpr
  atLeast := by
    have atLeast := forall₂_dues 0 readings
    rwa [← stands_fresh.toNat_issue fits, List.forall₂_map_right_iff] at atLeast
  atMost := by
    intro position id found
    have isDue : (dues 0 readings)[position]? = some id.toNat := by
      rw [← stands_fresh.toNat_issue fits, List.getElem?_map, found]
      rfl
    cases le_of_getElem?_dues isDue with
    | inl counted =>
        cases readings with
        | nil => cases found
        | cons reading readings => exact ⟨reading, List.mem_cons_self, by omega⟩
    | inr read =>
        obtain ⟨reading, isEarlier, bound⟩ := read
        exact ⟨reading, isEarlier, by omega⟩
  sequence := by
    intro past isPrefix
    obtain ⟨future, rfl⟩ := isPrefix
    obtain ⟨given, stands, _⟩ := stands_fresh.exists_after fits
    exact UInt64.lt_iff_toNat_lt.mpr stands.sequence
  hasRoom := by
    intro past reading future split
    rw [split] at fits
    obtain ⟨given, stands, fitsNext⟩ := stands_fresh.exists_after fits
    exact stands.hasRoom (fitsNext _ List.mem_cons_self)

/-- The last millisecond that has ids, read twice, and then a clock that goes back. -/
theorem issuesDues_of_fits_lastMillisecond :
    (∀ id ∈ dues 0 [1844674407370955, 1844674407370955, 7], id < UInt64.size) ∧
    (fresh.issue [1844674407370955, 1844674407370955, 7]).map UInt64.toNat =
      [18446744073709550000, 18446744073709550001, 18446744073709550002] ∧
    HasRoom (fresh.after [1844674407370955, 1844674407370955]) 7 := by
  have fits : ∀ id ∈ dues 0 [1844674407370955, 1844674407370955, 7], id < UInt64.size := by
    decide
  have issued := issuesDues_of_fits _ fits
  exact ⟨fits, issued.exact, issued.hasRoom [_, _] 7 [] rfl⟩

end PeerCalls.IdSource
