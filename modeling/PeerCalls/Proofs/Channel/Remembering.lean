import Mathlib.Data.Finset.Card
import Mathlib.Data.List.Induction
import Mathlib.Order.Bounds.Basic
import PeerCalls.Proofs.Channel.Answers
import PeerCalls.Proofs.Splitting

/-!
# Answers remember the largest ids

Whatever arrives and whatever is recorded, in whatever order, the replies that are kept are
the latest to the calls with the largest ids, as many as there is room for. The largest id
whose reply was recorded and is not kept is where the answers have forgotten up to. So what
a call is answered can be told from the history alone.
-/

namespace PeerCalls.Answers

/-- What is asked of answers. -/
inductive Request where
  | arrive (id : UInt64)
  | record (reply : Reply)

def step (answers : Answers) : Request → Answers
  | .arrive id => (answers.arrive id).2
  | .record reply => answers.record reply

def run (answers : Answers) (history : List Request) : Answers :=
  history.foldl step answers

variable {capacity : Nat} {history : List Request} {answers : Answers}
variable {id : UInt64} {reply : Reply}

theorem run_concat (answers : Answers) (history : List Request) (request : Request) :
    answers.run (history ++ [request]) = (answers.run history).step request := by
  simp [run]

/-! ## The history -/

/-- The replies that were recorded, the first one first. -/
def recorded (history : List Request) : List Reply :=
  history.filterMap fun
    | .arrive _ => none
    | .record reply => some reply

/-- The calls whose replies were recorded. -/
def recordedIds (history : List Request) : Finset UInt64 :=
  ((recorded history).map Reply.id).toFinset

/-- The reply that was recorded last for a call. -/
def latest? (history : List Request) (id : UInt64) : Option Reply :=
  (recorded history).reverse.find? (fun reply => reply.id == id)

/-- The call was admitted, and its reply was not recorded since. -/
def IsAdmitted (capacity : Nat) (history : List Request) (id : UInt64) : Prop :=
  ∃ earlier later, history = earlier ++ .arrive id :: later ∧
    (((new capacity).run earlier).arrive id).1 = .execute ∧
    ∀ reply, .record reply ∈ later → reply.id ≠ id

@[simp] theorem recorded_arrive (history : List Request) (id : UInt64) :
    recorded (history ++ [.arrive id]) = recorded history := by
  simp [recorded]

@[simp] theorem recorded_record (history : List Request) (reply : Reply) :
    recorded (history ++ [.record reply]) = recorded history ++ [reply] := by
  simp [recorded]

theorem recordedIds_arrive (history : List Request) (id : UInt64) :
    recordedIds (history ++ [.arrive id]) = recordedIds history := by
  simp [recordedIds]

theorem recordedIds_record (history : List Request) (reply : Reply) :
    recordedIds (history ++ [.record reply]) = insert reply.id (recordedIds history) := by
  simp [recordedIds]

theorem latest?_arrive (history : List Request) (id other : UInt64) :
    latest? (history ++ [.arrive id]) other = latest? history other := by
  simp [latest?]

theorem latest?_record (history : List Request) (reply : Reply) (id : UInt64) :
    latest? (history ++ [.record reply]) id =
      if reply.id = id then some reply else latest? history id := by
  by_cases same : reply.id = id <;> simp [latest?, same]

theorem not_isAdmitted_nil : ¬ IsAdmitted capacity [] id := by
  rintro ⟨earlier, later, split, _⟩
  cases earlier <;> cases split

theorem isAdmitted_arrive {other : UInt64} :
    IsAdmitted capacity (history ++ [.arrive other]) id ↔
      IsAdmitted capacity history id ∨
        other = id ∧ (((new capacity).run history).arrive id).1 = .execute := by
  constructor
  · rintro ⟨earlier, later, split, admitted, open_⟩
    -- The call was admitted before, or by the last request.
    rcases Splitting.concat_eq_iff.mp split with ⟨rfl, same, rfl⟩ | ⟨init, rfl, rfl⟩
    · cases same
      exact .inr ⟨rfl, admitted⟩
    · refine .inl ⟨earlier, init, rfl, admitted, fun reply member => open_ reply ?_⟩
      exact List.mem_append_left _ member
  · rintro (⟨earlier, later, rfl, admitted, open_⟩ | ⟨rfl, admitted⟩)
    · refine ⟨earlier, later ++ [.arrive other], by simp, admitted, fun reply member => ?_⟩
      exact open_ reply (by simpa using member)
    · exact ⟨history, [], rfl, admitted, by simp⟩

theorem isAdmitted_record :
    IsAdmitted capacity (history ++ [.record reply]) id ↔
      IsAdmitted capacity history id ∧ reply.id ≠ id := by
  constructor
  · rintro ⟨earlier, later, split, admitted, open_⟩
    rcases Splitting.concat_eq_iff.mp split with ⟨_, same, _⟩ | ⟨init, rfl, rfl⟩
    · cases same
    · refine ⟨⟨earlier, init, rfl, admitted, fun reply member => open_ reply ?_⟩, ?_⟩
      · exact List.mem_append_left _ member
      · exact open_ reply (by simp)
  · rintro ⟨⟨earlier, later, rfl, admitted, open_⟩, otherId⟩
    refine ⟨earlier, later ++ [.record reply], by simp, admitted, fun other member => ?_⟩
    rcases List.mem_append.mp member with member | last
    · exact open_ other member
    · cases List.mem_singleton.mp last
      exact otherId

/-- A call is being executed if it was admitted and its reply was not recorded since. -/
theorem mem_executing_iff (capacity : Nat) (history : List Request) (id : UInt64) :
    id ∈ ((new capacity).run history).executing ↔ IsAdmitted capacity history id := by
  induction history using List.reverseRecOn with
  | nil => simpa [run, new] using not_isAdmitted_nil
  | append_singleton history request ih =>
      rw [run_concat]
      cases request with
      | record reply =>
          rw [isAdmitted_record, ← ih]
          simp [step, ne_comm]
      | arrive other =>
          rw [isAdmitted_arrive, ← ih, step]
          by_cases same : other = id
          · subst same
            have arrival := ((new capacity).run history).arrive_cases other
            generalize ((new capacity).run history).arrive other = result at arrival
            cases arrival <;> simp
          · have arrival := ((new capacity).run history).arrive_cases other
            generalize ((new capacity).run history).arrive other = result at arrival
            cases arrival <;> simp [same, Ne.symm same]

/-! ## The largest of a set of ids -/

/-- These are the largest of the ids: so many, or all if there are fewer. -/
structure IsLargest (count : Nat) (ids largest : Finset UInt64) : Prop where
  subset : largest ⊆ ids
  card : largest.card = min count ids.card
  above : ∀ id ∈ largest, ∀ other ∈ ids \ largest, other < id

namespace IsLargest

variable {count : Nat} {ids largest : Finset UInt64}

/-- If something was left out, there was no room for it. -/
theorem card_of_mem_sdiff (isLargest : IsLargest count ids largest) (left : id ∈ ids \ largest) :
    largest.card = count := by
  have fewer : largest.card < ids.card := by
    apply Finset.card_lt_card
    refine ⟨isLargest.subset, fun all => ?_⟩
    obtain ⟨member, missing⟩ := Finset.mem_sdiff.mp left
    exact missing (all member)
  have card := isLargest.card
  omega

/-- Whatever is left out, there are enough ids above it. -/
theorem le_card_filter (isLargest : IsLargest count ids largest) {left : UInt64}
    (member : left ∈ ids \ largest) (below : id ≤ left) :
    count ≤ (ids.filter (fun other => id < other)).card := by
  rw [← isLargest.card_of_mem_sdiff member]
  apply Finset.card_le_card
  intro other large
  refine Finset.mem_filter.mpr ⟨isLargest.subset large, ?_⟩
  exact UInt64.lt_of_le_of_lt below (isLargest.above other large left member)

/-- If something was left out, there is room only for what is there. -/
theorem mem_of_room (isLargest : IsLargest count ids largest) {left : UInt64}
    (member : left ∈ ids \ largest) (room : (insert id largest).card ≤ count) :
    id ∈ largest := by
  by_contra missing
  rw [Finset.card_insert_of_notMem missing, isLargest.card_of_mem_sdiff member] at room
  omega

/-- What there is room for was not left out. -/
theorem sdiff_insert (isLargest : IsLargest count ids largest)
    (room : (insert id largest).card ≤ count) :
    insert id ids \ insert id largest = ids \ largest := by
  rw [Finset.insert_sdiff_insert, Finset.sdiff_insert]
  apply Finset.erase_eq_of_notMem
  intro left
  exact (Finset.mem_sdiff.mp left).2 (isLargest.mem_of_room left room)

/-- What there is room for comes to the largest. -/
theorem grow (isLargest : IsLargest count ids largest)
    (room : (insert id largest).card ≤ count) :
    IsLargest count (insert id ids) (insert id largest) where
  subset := Finset.insert_subset_insert id isLargest.subset
  card := by
    have card := isLargest.card
    by_cases known : id ∈ largest
    · rwa [Finset.insert_eq_of_mem known, Finset.insert_eq_of_mem (isLargest.subset known)]
    · have missing : id ∉ ids := fun member =>
        known (isLargest.mem_of_room (Finset.mem_sdiff.mpr ⟨member, known⟩) room)
      rw [Finset.card_insert_of_notMem known] at room ⊢
      rw [Finset.card_insert_of_notMem missing]
      omega
  above := by
    rw [isLargest.sdiff_insert room]
    intro large member other left
    rw [Finset.insert_eq_of_mem (isLargest.mem_of_room left room)] at member
    exact isLargest.above large member other left

/-! If there is no room for an id, the smallest has to go. -/

variable {smallest : UInt64}

theorem lt_of_mem_insert (isLargest : IsLargest count ids largest)
    (least : IsLeast (insert id largest : Finset UInt64) smallest) {left large : UInt64}
    (missing : left ∈ ids \ largest) (member : large ∈ insert id largest)
    (stays : large ≠ smallest) : left < large := by
  rcases Finset.mem_insert.mp member with rfl | member
  · have known : smallest ∈ largest :=
      (Finset.mem_insert.mp (Finset.mem_coe.mp least.1)).resolve_left stays.symm
    have below : smallest ≤ large := least.2 (Finset.mem_coe.mpr member)
    exact UInt64.lt_of_lt_of_le (isLargest.above smallest known left missing) below
  · exact isLargest.above large member left missing

theorem sdiff_insert_erase (isLargest : IsLargest count ids largest)
    (least : IsLeast (insert id largest : Finset UInt64) smallest) :
    insert id ids \ (insert id largest).erase smallest = insert smallest (ids \ largest) := by
  ext other
  constructor
  · intro left
    obtain ⟨member, gone⟩ := Finset.mem_sdiff.mp left
    rw [Finset.mem_insert] at member ⊢
    by_cases same : other = smallest
    · exact .inl same
    · have missing : other ∉ insert id largest := fun large =>
        gone (Finset.mem_erase.mpr ⟨same, large⟩)
      rw [Finset.mem_insert, not_or] at missing
      exact .inr (Finset.mem_sdiff.mpr ⟨member.resolve_left missing.1, missing.2⟩)
  · intro left
    rcases Finset.mem_insert.mp left with rfl | left
    · have member : other ∈ insert id ids :=
        Finset.insert_subset_insert id isLargest.subset (Finset.mem_coe.mp least.1)
      exact Finset.mem_sdiff.mpr ⟨member, Finset.notMem_erase other _⟩
    · have member : other ∈ insert id ids :=
        Finset.mem_insert_of_mem (Finset.mem_sdiff.mp left).1
      refine Finset.mem_sdiff.mpr ⟨member, fun large => ?_⟩
      obtain ⟨stays, large⟩ := Finset.mem_erase.mp large
      exact UInt64.lt_irrefl other (isLargest.lt_of_mem_insert least left large stays)

/-- An id for which there is no room comes instead of the smallest. -/
theorem shift (isLargest : IsLargest count ids largest)
    (full : (insert id largest).card = count + 1)
    (least : IsLeast (insert id largest : Finset UInt64) smallest) :
    IsLargest count (insert id ids) ((insert id largest).erase smallest) where
  subset := (Finset.erase_subset _ _).trans (Finset.insert_subset_insert id isLargest.subset)
  card := by
    have many := Finset.card_le_card (Finset.insert_subset_insert id isLargest.subset)
    rw [Finset.card_erase_of_mem (Finset.mem_coe.mp least.1), full]
    omega
  above := by
    rw [isLargest.sdiff_insert_erase least]
    intro large kept other left
    obtain ⟨stays, member⟩ := Finset.mem_erase.mp kept
    rcases Finset.mem_insert.mp left with rfl | left
    · have below : other ≤ large := least.2 (Finset.mem_coe.mpr member)
      exact UInt64.lt_of_le_of_ne below stays.symm
    · exact isLargest.lt_of_mem_insert least left member stays

end IsLargest

/-- This is the largest of the ids, if there is any. -/
def IsWatermark (ids : Finset UInt64) : Option UInt64 → Prop
  | none => ids = ∅
  | some id => IsGreatest (ids : Set UInt64) id

namespace IsWatermark

variable {ids : Finset UInt64} {forgotten : Option UInt64}

theorem exists_le_iff (isWatermark : IsWatermark ids forgotten) :
    (∃ known ∈ forgotten, id ≤ known) ↔ ∃ known ∈ ids, id ≤ known := by
  cases forgotten with
  | none =>
      have isEmpty : ids = ∅ := isWatermark
      simp [isEmpty]
  | some largest =>
      constructor
      · rintro ⟨known, found, below⟩
        cases found
        exact ⟨largest, Finset.mem_coe.mp isWatermark.1, below⟩
      · rintro ⟨known, member, below⟩
        have bound : known ≤ largest := isWatermark.2 (Finset.mem_coe.mpr member)
        exact ⟨largest, rfl, UInt64.le_trans below bound⟩

theorem insert_larger (isWatermark : IsWatermark ids forgotten) (id : UInt64) :
    IsWatermark (insert id ids) (some (larger forgotten id)) := by
  have atLeast : ∀ known ∈ insert id ids, known ≤ larger forgotten id := by
    intro known member
    rcases Finset.mem_insert.mp member with rfl | member
    · exact le_larger_self forgotten known
    · obtain ⟨largest, found, below⟩ :=
        isWatermark.exists_le_iff.mpr ⟨known, member, UInt64.le_refl known⟩
      exact UInt64.le_trans below (le_larger_of_mem found id)
  refine ⟨?_, fun known member => atLeast known (Finset.mem_coe.mp member)⟩
  cases forgotten with
  | none => simp [larger]
  | some largest =>
      have known : largest ∈ ids := Finset.mem_coe.mp isWatermark.1
      simp only [larger]
      split <;> simp [known]

end IsWatermark

/-! ## Records -/

/-- The ids of replies. -/
def ids (replies : List Reply) : Finset UInt64 := (replies.map Reply.id).toFinset

/-- The replies are in the order of their ids, with one for an id. -/
def Sorted (replies : List Reply) : Prop := replies.Pairwise (fun one other => one.id < other.id)

variable {replies : List Reply} {forgotten : Option UInt64}

theorem mem_ids : id ∈ ids replies ↔ ∃ reply ∈ replies, reply.id = id := by
  simp [ids]

@[simp] theorem ids_cons (reply : Reply) (replies : List Reply) :
    ids (reply :: replies) = insert reply.id (ids replies) := by
  simp [ids]

theorem ids_insertReply (reply : Reply) (replies : List Reply) :
    ids (insertReply reply replies) = insert reply.id (ids replies) := by
  induction replies with
  | nil => rfl
  | cons head rest ih =>
      unfold insertReply
      split
      · rw [ids_cons]
      · split
        next same => rw [ids_cons, ids_cons, same, Finset.insert_idem]
        next => rw [ids_cons, ih, ids_cons, Finset.insert_comm]

theorem Sorted.insertReply (sorted : Sorted replies) (reply : Reply) :
    Sorted (insertReply reply replies) := by
  induction replies with
  | nil => simp [Answers.insertReply, Sorted]
  | cons head rest ih =>
      obtain ⟨least, sortedRest⟩ := List.pairwise_cons.mp sorted
      unfold Answers.insertReply
      split
      next below =>
        refine List.pairwise_cons.mpr ⟨fun other member => ?_, sorted⟩
        rcases List.mem_cons.mp member with rfl | member
        · exact below
        · exact UInt64.lt_trans below (least other member)
      next notBelow =>
        split
        next same =>
          refine List.pairwise_cons.mpr ⟨fun other member => ?_, sortedRest⟩
          rw [same]
          exact least other member
        next distinct =>
          refine List.pairwise_cons.mpr ⟨fun other member => ?_, ih sortedRest⟩
          rcases eq_or_mem_of_mem_insertReply member with rfl | member
          · exact UInt64.lt_of_le_of_ne (UInt64.not_lt.mp notBelow) (Ne.symm distinct)
          · exact least other member

theorem Sorted.nodup_map_id (sorted : Sorted replies) : (replies.map Reply.id).Nodup :=
  (List.pairwise_map.mpr sorted).imp fun below => UInt64.ne_of_lt below

/-- A sorted list has as many replies as ids. -/
theorem Sorted.card_ids (sorted : Sorted replies) : (ids replies).card = replies.length := by
  rw [ids, List.toFinset_card_of_nodup sorted.nodup_map_id, List.length_map]

theorem Sorted.isLeast {smallest : Reply} {rest : List Reply}
    (sorted : Sorted (smallest :: rest)) :
    IsLeast (ids (smallest :: rest) : Set UInt64) smallest.id := by
  refine ⟨by simp, fun id known => ?_⟩
  obtain ⟨reply, member, rfl⟩ := mem_ids.mp (Finset.mem_coe.mp known)
  rcases List.mem_cons.mp member with rfl | member
  · exact UInt64.le_refl _
  · exact UInt64.le_of_lt ((List.pairwise_cons.mp sorted).1 reply member)

theorem Sorted.ids_erase {smallest : Reply} {rest : List Reply}
    (sorted : Sorted (smallest :: rest)) :
    (ids (smallest :: rest)).erase smallest.id = ids rest := by
  rw [ids_cons, Finset.erase_insert]
  intro member
  obtain ⟨reply, member, same⟩ := mem_ids.mp member
  exact UInt64.ne_of_lt ((List.pairwise_cons.mp sorted).1 reply member) same.symm

theorem evict_of_length_le (fits : replies.length ≤ capacity) :
    evict capacity replies forgotten = (replies, forgotten) := by
  cases replies with
  | nil => rfl
  | cons smallest rest =>
      unfold evict
      rw [if_pos fits]

theorem evict_of_length_eq {smallest : Reply} {rest : List Reply} (full : rest.length = capacity) :
    evict capacity (smallest :: rest) forgotten = (rest, some (larger forgotten smallest.id)) := by
  unfold evict
  rw [if_neg (by rw [List.length_cons]; omega), evict_of_length_le full.le]

/-! ## The refinement -/

/-- What is left of the history. -/
structure Remembers (capacity : Nat) (history : List Request) (answers : Answers) : Prop where
  room : answers.capacity = max capacity 1
  sorted : Sorted answers.replies
  kept : IsLargest (max capacity 1) (recordedIds history) (ids answers.replies)
  latest : ∀ reply ∈ answers.replies, latest? history reply.id = some reply
  forgotten : IsWatermark (recordedIds history \ ids answers.replies) answers.forgottenUpTo

namespace Remembers

theorem new (capacity : Nat) : Remembers capacity [] (new capacity) where
  room := rfl
  sorted := List.Pairwise.nil
  kept := ⟨Finset.Subset.refl ∅, by simp [Answers.new, ids, recordedIds, recorded],
    fun id member => absurd member (Finset.notMem_empty id)⟩
  latest := by simp [Answers.new]
  forgotten := Finset.sdiff_self ∅

theorem arrive (remembers : Remembers capacity history answers) (id : UInt64) :
    Remembers capacity (history ++ [.arrive id]) (answers.arrive id).2 := by
  have arrived : Remembers capacity (history ++ [.arrive id]) answers := by
    constructor
    · exact remembers.room
    · exact remembers.sorted
    · rw [recordedIds_arrive]
      exact remembers.kept
    · simpa only [latest?_arrive] using remembers.latest
    · rw [recordedIds_arrive]
      exact remembers.forgotten
  have arrival := answers.arrive_cases id
  generalize answers.arrive id = result at arrival
  cases arrival with
  | inProgress _ | cached _ _ _ | obsolete _ _ => exact arrived
  | execute _ => exact { arrived with }

/-- The reply that comes is the latest to its call. -/
theorem latest_insertReply (remembers : Remembers capacity history answers) (reply : Reply) :
    ∀ kept ∈ insertReply reply answers.replies,
      latest? (history ++ [.record reply]) kept.id = some kept := by
  intro kept member
  rw [latest?_record]
  split
  next same =>
    have distinct := (remembers.sorted.insertReply reply).nodup_map_id
    have self := mem_insertReply_self reply answers.replies
    rw [List.inj_on_of_nodup_map distinct self member same]
  next differs =>
    rcases eq_or_mem_of_mem_insertReply member with rfl | member
    · exact absurd rfl differs
    · exact remembers.latest kept member

/-- So many replies there are with the one that comes. -/
theorem length_insertReply (remembers : Remembers capacity history answers) (reply : Reply) :
    (insertReply reply answers.replies).length =
      (insert reply.id (ids answers.replies)).card := by
  rw [← ids_insertReply, (remembers.sorted.insertReply reply).card_ids]

theorem record_of_fits (remembers : Remembers capacity history answers)
    (fits : (insertReply reply answers.replies).length ≤ answers.capacity) :
    Remembers capacity (history ++ [.record reply]) (answers.record reply) := by
  have room : (insert reply.id (ids answers.replies)).card ≤ max capacity 1 := by
    rw [← remembers.length_insertReply, ← remembers.room]
    exact fits
  unfold Answers.record
  rw [evict_of_length_le fits]
  constructor
  · exact remembers.room
  · exact remembers.sorted.insertReply reply
  · rw [recordedIds_record, ids_insertReply]
    exact remembers.kept.grow room
  · exact remembers.latest_insertReply reply
  · rw [recordedIds_record, ids_insertReply, remembers.kept.sdiff_insert room]
    exact remembers.forgotten

theorem record_of_full (remembers : Remembers capacity history answers)
    {smallest : Reply} {rest : List Reply}
    (inserted : insertReply reply answers.replies = smallest :: rest)
    (full : rest.length = answers.capacity) :
    Remembers capacity (history ++ [.record reply]) (answers.record reply) := by
  have sorted := remembers.sorted.insertReply reply
  have latest := remembers.latest_insertReply reply
  have isInsert := ids_insertReply reply answers.replies
  have length := remembers.length_insertReply reply
  rw [inserted] at sorted latest isInsert length
  have tooMany : (insert reply.id (ids answers.replies)).card = max capacity 1 + 1 := by
    rw [← length, List.length_cons, full, remembers.room]
  have least : IsLeast (insert reply.id (ids answers.replies) : Finset UInt64) smallest.id := by
    rw [← isInsert]
    exact sorted.isLeast
  have isRest : ids rest = (insert reply.id (ids answers.replies)).erase smallest.id := by
    rw [← isInsert, sorted.ids_erase]
  unfold Answers.record
  rw [inserted, evict_of_length_eq full]
  constructor
  · exact remembers.room
  · exact (List.pairwise_cons.mp sorted).2
  · rw [recordedIds_record, isRest]
    exact remembers.kept.shift tooMany least
  · exact fun kept member => latest kept (List.mem_cons_of_mem smallest member)
  · rw [recordedIds_record, isRest, remembers.kept.sdiff_insert_erase least]
    exact remembers.forgotten.insert_larger smallest.id

theorem record (remembers : Remembers capacity history answers) (reply : Reply) :
    Remembers capacity (history ++ [.record reply]) (answers.record reply) := by
  by_cases fits : (insertReply reply answers.replies).length ≤ answers.capacity
  · exact remembers.record_of_fits fits
  · -- There was at most what there is room for, so that one is too many.
    have length := remembers.length_insertReply reply
    have atMost := Finset.card_insert_le reply.id (ids answers.replies)
    have held := remembers.kept.card
    have room := remembers.room
    cases inserted : insertReply reply answers.replies with
    | nil => simp [inserted] at fits
    | cons smallest rest =>
        rw [inserted, List.length_cons] at fits length
        exact remembers.record_of_full inserted (by omega)

theorem run (capacity : Nat) (history : List Request) :
    Remembers capacity history ((Answers.new capacity).run history) := by
  induction history using List.reverseRecOn with
  | nil => exact Remembers.new capacity
  | append_singleton history request ih =>
      rw [run_concat]
      cases request with
      | arrive id => exact ih.arrive id
      | record reply => exact ih.record reply

end Remembers

/-! ## What a call is answered -/

theorem arrive_eq_inProgress_iff :
    (answers.arrive id).1 = .inProgress ↔ id ∈ answers.executing := by
  grind [arrive]

theorem arrive_eq_cached_iff : (answers.arrive id).1 = .cached reply ↔
    id ∉ answers.executing ∧ answers.reply? id = some reply := by
  grind [arrive]

theorem arrive_eq_obsolete_iff : (answers.arrive id).1 = .obsolete ↔
    id ∉ answers.executing ∧ ¬ answers.IsKept id ∧ answers.isForgotten id = true := by
  grind [arrive, reply?_eq_none_iff]

theorem arrive_eq_execute_iff : (answers.arrive id).1 = .execute ↔
    id ∉ answers.executing ∧ ¬ answers.IsKept id ∧ ¬ answers.isForgotten id = true := by
  grind [arrive, reply?_eq_none_iff]

theorem mem_ids_replies : id ∈ ids answers.replies ↔ answers.IsKept id :=
  mem_ids

/-- The reply to a kept call is the latest that was recorded. -/
theorem Remembers.reply?_eq_some_iff (remembers : Remembers capacity history answers) :
    answers.reply? id = some reply ↔
      id ∈ ids answers.replies ∧ latest? history id = some reply := by
  constructor
  · intro found
    obtain ⟨member, rfl⟩ := mem_of_reply?_eq_some found
    exact ⟨mem_ids.mpr ⟨reply, member, rfl⟩, remembers.latest reply member⟩
  · rintro ⟨known, latest⟩
    cases found : answers.reply? id with
    | none => exact absurd (mem_ids_replies.mp known) (reply?_eq_none_iff.mp found)
    | some kept =>
        obtain ⟨member, rfl⟩ := mem_of_reply?_eq_some found
        rw [← remembers.latest kept member, latest]

/-- If a call is forgotten, as many larger ones were recorded as there is room for. -/
theorem Remembers.le_card_filter (remembers : Remembers capacity history answers)
    (forgotten : answers.isForgotten id = true) :
    max capacity 1 ≤ ((recordedIds history).filter (fun other => id < other)).card := by
  rw [isForgotten_iff, remembers.forgotten.exists_le_iff] at forgotten
  obtain ⟨left, member, below⟩ := forgotten
  exact remembers.kept.le_card_filter member below

/-- The history tells which replies are kept, how far is forgotten, and what a call that
arrives now is answered. -/
structure RefinesHistory (capacity : Nat) (history : List Request) (answers : Answers) : Prop
    extends Remembers capacity history answers where
  inProgress : ∀ id, (answers.arrive id).1 = .inProgress ↔ IsAdmitted capacity history id
  cached : ∀ id reply, (answers.arrive id).1 = .cached reply ↔
    ¬ IsAdmitted capacity history id ∧ id ∈ ids answers.replies ∧
      latest? history id = some reply
  obsolete : ∀ id, (answers.arrive id).1 = .obsolete ↔
    ¬ IsAdmitted capacity history id ∧ id ∉ ids answers.replies ∧
      ∃ forgotten ∈ answers.forgottenUpTo, id ≤ forgotten
  execute : ∀ id, (answers.arrive id).1 = .execute ↔
    ¬ IsAdmitted capacity history id ∧ id ∉ ids answers.replies ∧
      ¬ ∃ forgotten ∈ answers.forgottenUpTo, id ≤ forgotten
  outnumbered : ∀ id, (answers.arrive id).1 = .obsolete →
    max capacity 1 ≤ ((recordedIds history).filter (fun other => id < other)).card

theorem refinesHistory_run (capacity : Nat) (history : List Request) :
    RefinesHistory capacity history ((new capacity).run history) := by
  have remembers := Remembers.run capacity history
  refine { remembers with
    inProgress := fun id => ?_, cached := fun id reply => ?_, obsolete := fun id => ?_,
    execute := fun id => ?_, outnumbered := fun id obsolete => ?_ }
  · rw [arrive_eq_inProgress_iff, mem_executing_iff]
  · rw [arrive_eq_cached_iff, mem_executing_iff, remembers.reply?_eq_some_iff]
  · rw [arrive_eq_obsolete_iff, mem_executing_iff, mem_ids_replies, isForgotten_iff]
  · rw [arrive_eq_execute_iff, mem_executing_iff, mem_ids_replies, isForgotten_iff]
  · exact remembers.le_card_filter (arrive_eq_obsolete_iff.mp obsolete).2.2

/-- A call that is being executed is not forgotten with those that are smaller than others. -/
example : (((new 1).run [.arrive 1, .arrive 2, .arrive 3, .record (.success 3 []),
    .record (.success 2 [])]).arrive 1).1 = .inProgress := by decide

end PeerCalls.Answers
