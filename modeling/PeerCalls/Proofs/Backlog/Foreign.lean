import PeerCalls.Proofs.Backlog.Altering

/-!
# Directories with foreign content

The directory of a target may contain anything: files with other names, files that hold no
call, directories and links. The calls are read from those files that hold one, in the order of
the numbers in their names, and files with the same number in the order in which they are
listed. Taking the first call deletes its file and nothing else.
-/

namespace PeerCalls.FileBacklog

open scoped List
open FileSystem

/-! ## The order of files -/

section

variable {α : Type} {first second : α} {listing : List α}

/-- Of two members of a list one stands before the other. -/
theorem pair_sublist_or (isFirst : first ∈ listing) (isSecond : second ∈ listing)
    (differs : first ≠ second) : [first, second] <+ listing ∨ [second, first] <+ listing := by
  induction listing with
  | nil => exact absurd isFirst List.not_mem_nil
  | cons head rest ih => grind

theorem not_pair_sublist_of_nodup (distinct : listing.Nodup)
    (inOrder : [first, second] <+ listing) : ¬ [second, first] <+ listing := by
  induction listing with
  | nil => exact absurd inOrder (by simp)
  | cons head rest ih => grind

end

namespace Candidate

/-- The number of one file is smaller, or it is the same and the file is listed before. -/
def Before (listing : List FileName) (first second : Candidate) : Prop :=
  first.id < second.id ∨ first.id = second.id ∧ [first.file, second.file] <+ listing

variable {names : List FileName} {first second : Candidate}

theorem Before.asymm (distinct : names.Nodup) (before : first.Before names second) :
    ¬ second.Before names first := by
  intro after
  cases before with
  | inl less =>
      cases after with
      | inl greater => exact UInt64.lt_asymm less greater
      | inr same => exact UInt64.ne_of_lt less same.1.symm
  | inr listed =>
      cases after with
      | inl greater => exact UInt64.ne_of_lt greater listed.1.symm
      | inr swapped => exact not_pair_sublist_of_nodup distinct listed.2 swapped.2

/-- What the names in a directory say stands as the names do. -/
theorem pair_sublist_of_filterMap (inOrder : [first, second] <+ names.filterMap ofName?) :
    [first.file, second.file] <+ names := by
  have listed : (names.filterMap ofName?).Pairwise
      fun first second => [first.file, second.file] <+ names := by
    rw [List.pairwise_filterMap]
    apply List.pairwise_iff_forall_sublist.mpr
    intro name other listed candidate isCandidate another isAnother
    rwa [file_of_ofName? isCandidate, file_of_ofName? isAnother]
  exact List.pairwise_iff_forall_sublist.mp listed inOrder

/-- Sorting leaves files with the same number as they are listed. -/
theorem pairwise_before_candidatesOf (distinct : names.Nodup) :
    (candidatesOf names).Pairwise (Before names) := by
  have sorted : (candidatesOf names).Nodup :=
    (List.mergeSort_perm _ _).nodup_iff.mpr (nodup_filterMap_ofName? distinct)
  apply List.pairwise_iff_forall_sublist.mpr
  intro first second inOrder
  have ordered : first.id ≤ second.id :=
    List.pairwise_iff_forall_sublist.mp (pairwise_candidatesOf names) inOrder
  cases UInt64.lt_or_eq_of_le ordered with
  | inl less => exact .inl less
  | inr same =>
      have members : ∀ candidate ∈ [first, second], candidate ∈ names.filterMap ofName? :=
        fun candidate member => List.mem_mergeSort.mp (inOrder.mem member)
      have differs : first ≠ second := by simpa using sorted.sublist inOrder
      refine .inr ⟨same, ?_⟩
      cases pair_sublist_or (members first (by simp)) (members second (by simp)) differs with
      | inl listed => exact pair_sublist_of_filterMap listed
      | inr swapped =>
          -- The other way round they would be sorted that way.
          have stable := List.pair_sublist_mergeSort le_trans le_total
            (decide_eq_true (UInt64.le_of_eq same.symm)) swapped
          exact absurd stable (not_pair_sublist_of_nodup sorted inOrder)

end Candidate

/-! ## Files that hold calls -/

/-- What a name says: it is a text that does not begin with a point, and a number stands before
its first dash. -/
theorem ofName?_eq_some_iff {file : FileName} {candidate : Candidate} :
    Candidate.ofName? file = some candidate ↔
      (∃ text, file = Bytes.ofText text) ∧ file.head? ≠ some 0x2e ∧
        (∃ number, file = Bytes.ofText number ++ 0x2d :: candidate.method ∧
          Decimal.Writes number.toList candidate.id.toNat) ∧ candidate.file = file := by
  constructor
  · intro named
    unfold Candidate.ofName? at named
    split at named
    next => cases named
    next text isText =>
      split at named
      next => cases named
      next isVisible =>
        split at named
        next => cases named
        next dash method isRest =>
          split at named
          next => cases named
          next number isNumber =>
            obtain ⟨id, isId, rfl⟩ := Option.map_eq_some_iff.mp named
            obtain rfl : dash = 0x2d := by
              have remains : file.dropWhile (· != 0x2d) ≠ [] := by simp [isRest]
              simpa [isRest] using List.head_dropWhile_not (· != 0x2d) remains
            have isFile : file = Bytes.ofText number ++ 0x2d :: method := by
              rw [← Utf8.decode_eq_ok_iff.mp isNumber, ← isRest]
              exact List.takeWhile_append_dropWhile.symm
            exact ⟨⟨text, Utf8.decode_eq_ok_iff.mp isText⟩, isVisible,
              ⟨number, isFile, Decimal.word?_eq_some_iff.mp isId⟩, rfl⟩
  · rintro ⟨⟨text, isText⟩, isVisible, ⟨number, isFile, writes⟩, rfl⟩
    have noDash : ∀ byte ∈ Bytes.ofText number, (byte != 0x2d) = true :=
      fun _ member => ne_dash_of_writes writes member
    have before : candidate.file.takeWhile (· != 0x2d) = Bytes.ofText number := by
      rw [isFile, List.takeWhile_append_of_pos noDash]
      simp
    have after : candidate.file.dropWhile (· != 0x2d) = 0x2d :: candidate.method := by
      rw [isFile, List.dropWhile_append_of_pos noDash]
      simp
    have decoded := Utf8.decode_eq_ok_iff.mpr isText
    simp only [Candidate.ofName?, decoded, if_neg isVisible, after, before, Utf8.decode_ofText,
      Decimal.word?_eq_some_iff.mpr writes, Option.map_some]

/-- A file with a call in it: its name, the number in the name, and the call. -/
structure CallFile where
  name : FileName
  id : UInt64
  call : Call
  deriving Repr, DecidableEq

namespace CallFile

/-- A regular file of a target that holds a call. A number has no dash, so this one ends at the
first dash of the name. -/
structure IsIn (backlog : FileBacklog) (disk : FileSystem) (target : Peer) (file : CallFile) :
    Prop where
  isText : ∃ text, file.name = Bytes.ofText text
  isVisible : file.name.head? ≠ some 0x2e
  isNumbered : ∃ number rest, file.name = Bytes.ofText number ++ 0x2d :: rest ∧
    Decimal.Writes number.toList file.id.toNat
  holds : ∃ content, disk.at? (backlog.path target file.name) = some (.file content) ∧
    StoredCall.decode target content = .ok file.call

/-- In the order of the numbers, and as they are listed where the numbers are the same. -/
def Before (listing : List FileName) (first second : CallFile) : Prop :=
  first.id < second.id ∨ first.id = second.id ∧ [first.name, second.name] <+ listing

/-- A file that may hold a call, with the call in it. -/
def ofEntry (entry : Candidate × Call) : CallFile :=
  ⟨entry.1.file, entry.1.id, entry.2⟩

end CallFile

/-- The files of a target that hold calls. -/
def callFiles (backlog : FileBacklog) (disk : FileSystem) (target : Peer) : List CallFile :=
  (backlog.stored disk target).map CallFile.ofEntry

section

variable {backlog : FileBacklog} {disk : FileSystem} {target : Peer} {file : FileName}
  {entry : Candidate × Call}

theorem mem_callFiles (tree : disk.IsTree) {file : CallFile} :
    file ∈ backlog.callFiles disk target ↔ file.IsIn backlog disk target := by
  unfold callFiles
  rw [List.mem_map]
  constructor
  · rintro ⟨⟨candidate, call⟩, isStored, rfl⟩
    obtain ⟨named, reads⟩ := mem_stored.mp isStored
    obtain ⟨isText, isVisible, ⟨number, isName, writes⟩, _⟩ := ofName?_eq_some_iff.mp named
    exact ⟨isText, isVisible, ⟨number, _, isName, writes⟩, (callIn_eq_some_iff tree).mp reads⟩
  · intro isIn
    obtain ⟨number, rest, isName, writes⟩ := isIn.isNumbered
    refine ⟨(⟨file.id, rest, file.name⟩, file.call), mem_stored.mpr ⟨?_, ?_⟩, rfl⟩
    · exact ofName?_eq_some_iff.mpr ⟨isIn.isText, isIn.isVisible, ⟨number, isName, writes⟩, rfl⟩
    · exact (callIn_eq_some_iff tree).mpr isIn.holds

/-- What is stored stands in the order of its files. -/
theorem pairwise_before_stored (tree : disk.IsTree) :
    (backlog.stored disk target).Pairwise fun first second =>
      first.1.Before (disk.namesIn (backlog.directory target)) second.1 := by
  have ordered : (backlog.found disk target).Pairwise
      (Candidate.Before (disk.namesIn (backlog.directory target))) := by
    unfold found
    split
    next names listed =>
      rw [(reached_of_list listed).2]
      exact Candidate.pairwise_before_candidatesOf (tree.nodup_namesIn _)
    next => exact List.Pairwise.nil
  apply ordered.filterMap
  intro first second before entry isEntry other isOther
  obtain ⟨_, _, rfl⟩ := Option.map_eq_some_iff.mp isEntry
  obtain ⟨_, _, rfl⟩ := Option.map_eq_some_iff.mp isOther
  exact before

theorem nodup_of_pairwise_before {names : List FileName} (distinct : names.Nodup)
    {entries : List (Candidate × Call)}
    (ordered : entries.Pairwise fun first second => first.1.Before names second.1) :
    entries.Nodup := by
  apply ordered.imp
  rintro entry _ before rfl
  exact before.asymm distinct before

/-- A file has one call. -/
theorem eq_of_file_eq {other : Candidate × Call} (isStored : entry ∈ backlog.stored disk target)
    (isOther : other ∈ backlog.stored disk target) (same : entry.1.file = other.1.file) :
    entry = other := by
  have here := mem_stored.mp isStored
  have there := mem_stored.mp isOther
  rw [same, there.1, there.2] at here
  exact Prod.ext (Option.some.inj here.1).symm (Option.some.inj here.2).symm

/-! ## Taking the first call -/

theorem callIn_erase : backlog.callIn (disk.erase (backlog.path target file)) target file = none := by
  unfold callIn FileSystem.read
  cases finds : (disk.erase (backlog.path target file)).find (backlog.path target file) with
  | error fault => rfl
  | ok found =>
      have nothing := at?_eq_of_find finds
      rw [at?_erase (path_ne_nil _ _ _), if_pos rfl] at nothing
      rw [← nothing]
      rfl

/-- What is deleted is not read, and all else is. -/
theorem mem_stored_erase :
    entry ∈ backlog.stored (disk.erase (backlog.path target file)) target ↔
      entry ∈ backlog.stored disk target ∧ entry.1.file ≠ file := by
  rw [mem_stored, mem_stored]
  by_cases isHere : entry.1.file = file
  · rw [isHere, callIn_erase]
    simp
  · rw [callIn_of_onlyAt (.erase (path_ne_nil _ _ _)) isHere]
    simp [isHere]

theorem ne_directory_of_mem_stored (tree : disk.IsTree)
    (isStored : entry ∈ backlog.stored disk target) :
    disk.at? (backlog.path target entry.1.file) ≠ some .directory := by
  obtain ⟨content, isThere, _⟩ := (callIn_eq_some_iff tree).mp (mem_stored.mp isStored).2
  rw [isThere]
  exact nofun

/-- When the file of the first call is deleted, the other calls are left in their order. -/
theorem stored_erase_head {first : Candidate × Call} {rest : List (Candidate × Call)}
    (tree : disk.IsTree) (isStored : backlog.stored disk target = first :: rest) :
    backlog.stored (disk.erase (backlog.path target first.1.file)) target = rest := by
  have distinct := tree.nodup_namesIn (backlog.directory target)
  have ordered : (first :: rest).Pairwise fun first second =>
      first.1.Before (disk.namesIn (backlog.directory target)) second.1 :=
    isStored ▸ pairwise_before_stored tree
  have orderedRest := (List.pairwise_cons.mp ordered).2
  have isFirst : first ∈ backlog.stored disk target := by simp [isStored]
  have treeAfter := tree.erase (path_ne_nil _ _ _) (ne_directory_of_mem_stored tree isFirst)
  have orderedAfter :
      (backlog.stored (disk.erase (backlog.path target first.1.file)) target).Pairwise
        fun first second => first.1.Before (disk.namesIn (backlog.directory target)) second.1 := by
    apply (pairwise_before_stored treeAfter).imp
    intro one other before
    refine before.imp_right (And.imp_right fun listed => listed.trans ?_)
    rw [namesIn_erase]
    exact List.filter_sublist
  have notAgain := (List.nodup_cons.mp (nodup_of_pairwise_before distinct ordered)).1
  -- Both lists have the same members, and only one order.
  apply List.Perm.eq_of_pairwise _ orderedAfter orderedRest
  · apply (List.perm_ext_iff_of_nodup (nodup_of_pairwise_before distinct orderedAfter)
      (nodup_of_pairwise_before distinct orderedRest)).mpr
    intro entry
    rw [mem_stored_erase, isStored, List.mem_cons]
    constructor
    · rintro ⟨rfl | isRest, elsewhere⟩
      · exact absurd rfl elsewhere
      · exact isRest
    · intro isRest
      refine ⟨.inr isRest, fun sameFile => ?_⟩
      have isEntry : entry ∈ backlog.stored disk target := by simp [isStored, isRest]
      exact notAgain (eq_of_file_eq isEntry isFirst sameFile ▸ isRest)
  · exact fun one other _ _ before after => absurd after (before.asymm distinct)

/-- The file of the first call that is stored is deleted, and nothing else. -/
theorem run_dequeue_stored (tree : disk.IsTree)
    (listed : backlog.unlisted? disk target = none) :
    (backlog.dequeue target).run.run disk =
      (.ok ((backlog.stored disk target).head?.map Prod.snd),
        match (backlog.stored disk target).head? with
        | none => disk
        | some entry => disk.erase (backlog.path target entry.1.file)) := by
  have candidates : (backlog.candidates target).run.run disk =
      (.ok (backlog.found disk target), disk) := by
    rw [run_candidates_found, listed]
  unfold dequeue
  rw [run_bind_ok _ candidates, run_bind_ok _ run_firstCall_found]
  cases isFirst : (backlog.stored disk target).head? with
  | none => rfl
  | some entry =>
      obtain ⟨_, reads⟩ := mem_stored.mp (List.mem_of_head? isFirst)
      obtain ⟨content, isThere, _⟩ := (callIn_eq_some_iff tree).mp reads
      have removes : disk.remove (backlog.path target entry.1.file) =
          .ok (disk.erase (backlog.path target entry.1.file)) := by
        simp only [FileSystem.remove, tree.find_eq isThere, bind, Except.bind, pure, Except.pure]
      have removed : (backlog.removeFile target entry.1.file).run.run disk =
          (.ok true, disk.erase (backlog.path target entry.1.file)) := by
        unfold removeFile
        rw [run_bind_ok _ (run_request _ disk)]
        simp only [perform, removes, change]
        rfl
      exact run_bind_ok _ removed

/-- What is left can be listed again. -/
theorem unlisted?_dequeue (tree : disk.IsTree) (listed : backlog.unlisted? disk target = none) :
    backlog.unlisted? ((backlog.dequeue target).run.run disk).2 target = none := by
  rw [run_dequeue_stored tree listed]
  cases (backlog.stored disk target).head? with
  | none => exact listed
  | some entry =>
      have longer : (backlog.directory target).length <
          (backlog.path target entry.1.file).length := by
        rw [length_path, length_directory]
        omega
      exact (unlisted?_congr (find_erase longer)).trans listed

theorem stored_dequeue (tree : disk.IsTree) (listed : backlog.unlisted? disk target = none) :
    backlog.stored ((backlog.dequeue target).run.run disk).2 target =
      (backlog.stored disk target).tail := by
  rw [run_dequeue_stored tree listed]
  cases isStored : backlog.stored disk target with
  | nil => exact isStored
  | cons first rest => exact stored_erase_head tree isStored

/-! ## All of it -/

/-- What a backlog makes of a directory in which these files hold calls, whatever else is
there. -/
structure Tolerates (backlog : FileBacklog) (disk : FileSystem) (target : Peer)
    (files : List CallFile) : Prop where
  mem : ∀ file, file ∈ files ↔ file.IsIn backlog disk target
  ordered : files.Pairwise (CallFile.Before (disk.namesIn (backlog.directory target)))
  readAll : (backlog.readAll target).run.run disk = (.ok (files.map CallFile.call), disk)
  peek : (backlog.peek target).run.run disk = (.ok (files.head?.map CallFile.call), disk)
  dequeue : ((backlog.dequeue target).run.run disk).1 = .ok (files.head?.map CallFile.call)
  /-- Only the file of the call that is taken is deleted. -/
  deletes : ∀ path, ((backlog.dequeue target).run.run disk).2.at? path =
    if files.head?.map (fun file => backlog.path target file.name) = some path then none
    else disk.at? path
  others : ((backlog.readAll target).run.run ((backlog.dequeue target).run.run disk).2).1 =
    .ok (files.tail.map CallFile.call)

theorem map_call_ofEntry (entries : List (Candidate × Call)) :
    (entries.map CallFile.ofEntry).map CallFile.call = entries.map Prod.snd := by
  rw [List.map_map]
  rfl

/-- Whatever a directory contains, the calls in its files are read and taken in their order. -/
theorem tolerates_callFiles (tree : disk.IsTree)
    (isDirectory : disk.at? (backlog.directory target) = some .directory) :
    backlog.Tolerates disk target (backlog.callFiles disk target) := by
  have listed : backlog.unlisted? disk target = none := by
    rw [unlisted?, list_eq (tree.find_eq isDirectory)]
  have dequeues := run_dequeue_stored tree listed
  have first : (backlog.callFiles disk target).head?.map CallFile.call =
      (backlog.stored disk target).head?.map Prod.snd := by
    rw [← List.head?_map, ← List.head?_map, callFiles, map_call_ofEntry]
  constructor
  case mem => exact fun file => mem_callFiles tree
  case ordered => exact List.pairwise_map.mpr (pairwise_before_stored tree)
  case readAll => rw [run_readAll_stored, listed, callFiles, map_call_ofEntry]
  case peek => rw [run_peek_stored, listed, first]
  case dequeue => rw [dequeues, first]
  case deletes =>
    intro path
    rw [dequeues, callFiles, List.head?_map]
    cases (backlog.stored disk target).head? with
    | none => rfl
    | some entry =>
        simp only [at?_erase (path_ne_nil _ _ _), Option.map_some, Option.some.injEq, eq_comm]
        rfl
  case others =>
    rw [run_readAll_stored, unlisted?_dequeue tree listed, stored_dequeue tree listed, callFiles,
      ← List.map_tail, map_call_ofEntry]

end

/-- A directory with all kinds of entries. -/
def untidy : FileSystem :=
  let content := StoredCall.encode (.new .server ⟨5, "A", []⟩)
  let server := Bytes.ofText "server"
  ⟨([server], .directory) :: [("README", .file []), ("12-A", .file content),
    (".3-A.tmp", .file content), ("4-A", .directory), ("05-B", .file content),
    ("+5-C", .file content), ("x-A", .file content), ("7-A", .link),
    ("2-A", .file content.tail)].map fun entry => ([server, Bytes.ofText entry.1], entry.2),
    .oldestFirst⟩

theorem isTree_untidy : untidy.IsTree :=
  isTree_of_entries (by decide +kernel) (by decide +kernel)

theorem tolerates_callFiles_untidy :
    untidy.IsTree ∧ untidy.at? (directory ⟨[], ""⟩ .server) = some .directory ∧
      Tolerates ⟨[], ""⟩ untidy .server (callFiles ⟨[], ""⟩ untidy .server) := by
  have isDirectory : untidy.at? (directory ⟨[], ""⟩ .server) = some .directory := by
    decide +kernel
  exact ⟨isTree_untidy, isDirectory, tolerates_callFiles isTree_untidy isDirectory⟩

example : (callFiles ⟨[], ""⟩ untidy .server).map CallFile.name =
    ["05-B", "+5-C", "12-A"].map Bytes.ofText := by cbv

end PeerCalls.FileBacklog
