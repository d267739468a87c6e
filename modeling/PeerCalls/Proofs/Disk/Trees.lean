import Mathlib.Data.List.Induction
import PeerCalls.Proofs.Disk

/-!
# File systems that are trees

In a tree every entry is in a directory, its name is not too long, and no path has two
entries. A request is refused, only looks, or makes one change at the paths that it names,
and what it makes of a tree is a tree. Where nothing changed but at one path, everything is
found as before that is not at this path or below it.
-/

namespace PeerCalls.FileSystem

variable {files before after : FileSystem} {path other directory : Path}
  {name : FileName} {entry : Entry}

/-! ## What is found -/

theorem at?_of_walk_concat {walked rest : Path} {found : Option Entry}
    (reached : files.at? walked = some .directory)
    (walks : files.walk walked (rest ++ [name]) = .ok found) :
    files.walk walked rest = .ok (some .directory) ∧ name.length ≤ maxNameLength ∧
      files.at? (walked ++ rest ++ [name]) = found := by
  induction rest generalizing walked with
  | nil =>
      simp only [List.nil_append, walk, List.isEmpty_nil, if_true] at walks
      split at walks
      next => cases walks
      next short =>
        cases walks
        exact ⟨congrArg _ reached, Nat.not_lt.mp short, by rw [List.append_nil]⟩
  | cons first rest ih =>
      rw [List.cons_append, walk] at walks
      split at walks
      next => cases walks
      next firstFits =>
        rw [if_neg (by simp)] at walks
        split at walks
        next isDirectory =>
          obtain ⟨reaches, short, isFound⟩ := ih isDirectory walks
          refine ⟨?_, short, by simpa using isFound⟩
          rw [walk, if_neg firstFits]
          split
          next last =>
            rw [List.isEmpty_iff] at last
            subst last
            rw [isDirectory]
          next => rwa [isDirectory]
        next => cases walks
        next => cases walks
        next => cases walks

/-- What is found at a path is there, below a directory that is reached. -/
theorem at?_of_find {found : Option Entry}
    (finds : files.find (directory ++ [name]) = .ok found) :
    files.find directory = .ok (some .directory) ∧ name.length ≤ maxNameLength ∧
      files.at? (directory ++ [name]) = found :=
  at?_of_walk_concat rfl finds

theorem at?_eq_of_find {found : Option Entry} (finds : files.find path = .ok found) :
    files.at? path = found := by
  cases path using List.reverseRecOn with
  | nil => exact Except.ok.inj finds
  | append_singleton directory name => exact (at?_of_find finds).2.2

/-- The base directory is always there, so a path at which something else is found leads
somewhere. -/
theorem exists_concat_of_find {found : Option Entry} (finds : files.find path = .ok found)
    (differs : found ≠ some .directory) : ∃ directory name, path = directory ++ [name] := by
  cases path using List.reverseRecOn with
  | nil =>
      cases finds
      exact absurd rfl differs
  | append_singleton directory name => exact ⟨directory, name, rfl⟩

/-- Only a directory is listed. -/
theorem reached_of_list {names : List FileName} (listed : files.list directory = .ok names) :
    files.find directory = .ok (some .directory) ∧ names = files.namesIn directory := by
  unfold list at listed
  cases finds : files.find directory with
  | error fault => simp [finds, bind, Except.bind] at listed
  | ok there =>
      rw [finds] at listed
      rcases there with _ | _ | content | _
      · cases listed
      · cases listed
        exact ⟨rfl, rfl⟩
      · cases listed
      · cases listed

/-! ## Changes at one path -/

/-- Nothing changes but what is at one path. -/
structure OnlyAt (path : Path) (before after : FileSystem) : Prop where
  at? : ∀ other, other ≠ path → after.at? other = before.at? other
  names : ∀ directory,
    (after.namesIn directory).filter (fun name => directory ++ [name] ≠ path) =
      (before.namesIn directory).filter (fun name => directory ++ [name] ≠ path)

theorem namesByAge_erase (path directory : Path) :
    (files.erase path).namesByAge directory =
      (files.namesByAge directory).filter fun name => directory ++ [name] ≠ path := by
  simp only [namesByAge, erase]
  induction files.entries with
  | nil => rfl
  | cons first rest ih =>
      obtain ⟨known, entry⟩ := first
      rw [List.filterMap_cons]
      cases found : nameIn? directory known with
      | none =>
          by_cases same : known = path
          · rw [List.filter_cons_of_neg (by simpa using same), ih]
          · rw [List.filter_cons_of_pos (by simpa using same), List.filterMap_cons, found, ih]
      | some name =>
          have isHere := nameIn?_eq_some_iff.mp found
          by_cases same : known = path
          · rw [List.filter_cons_of_neg (by simpa using same), ih,
              List.filter_cons_of_neg (by simp [← isHere, same])]
          · rw [List.filter_cons_of_pos (by simpa using same), List.filterMap_cons, found,
              List.filter_cons_of_pos (by simp [← isHere, same]), ih]

/-- What is taken away does not change the order of the rest. -/
theorem namesIn_erase (path directory : Path) :
    (files.erase path).namesIn directory =
      (files.namesIn directory).filter fun name => directory ++ [name] ≠ path := by
  rw [namesIn, namesByAge_erase]
  exact files.order.filter _ _

namespace OnlyAt

theorem refl (path : Path) (files : FileSystem) : OnlyAt path files files :=
  ⟨fun _ _ => rfl, fun _ => rfl⟩

theorem put (nonempty : path ≠ []) (entry : Entry) :
    OnlyAt path files (files.put path entry) where
  at? other differs := by rw [at?_put nonempty, if_neg differs]
  names directory := by
    rw [namesIn, namesIn, ← ListingOrder.filter, ← ListingOrder.filter]
    apply congrArg files.order.arrange
    rcases @namesByAge_put files path directory entry with same | ⟨name, isHere, _, same⟩
    · rw [same]
    · rw [same, List.filter_append]
      simp [isHere]

theorem erase (nonempty : path ≠ []) : OnlyAt path files (files.erase path) where
  at? other differs := by rw [at?_erase nonempty, if_neg differs]
  names directory := by
    rw [namesIn_erase, List.filter_filter]
    simp

/-- Everything is found as before that is not at the path or below it. -/
theorem find (only : OnlyAt path before after) (apart : ¬ path <+: other) :
    after.find other = before.find other := by
  apply walk_congr_below
  intro above isAbove
  apply only.at?
  rintro rfl
  exact apart isAbove

theorem read (only : OnlyAt path before after) (apart : ¬ path <+: other) :
    after.read other = before.read other := by
  rw [FileSystem.read, FileSystem.read, only.find apart]

end OnlyAt

end PeerCalls.FileSystem

/-! ## Requests -/

namespace PeerCalls

/-- A request that changes nothing. -/
def DiskRequest.looks : DiskRequest → Bool
  | .list _ | .isDirectory _ | .read _ | .sync _ => true
  | .makeDirectory _ | .makeFile _ | .append _ _ | .rename _ _ | .remove _ => false

namespace FileSystem

/-- What a request answers, and what it makes of a file system. -/
inductive Performed (files : FileSystem) :
    (request : DiskRequest) → Except DiskFault request.Answer → FileSystem → Prop where
  | refused {request : DiskRequest} {fault : DiskFault} :
      Performed files request (.error fault) files
  | looked {request : DiskRequest} {answer : Except DiskFault request.Answer} :
      request.looks = true → Performed files request answer files
  | madeDirectory {path : Path} : files.find path = .ok none →
      Performed files (.makeDirectory path) (.ok ()) (files.put path .directory)
  | madeFile {path : Path} {found : Option Entry} : files.find path = .ok found →
      found ≠ some .directory →
      Performed files (.makeFile path) (.ok ()) (files.put path (.file []))
  | appended {path : Path} {content more : Bytes} : files.find path = .ok (some (.file content)) →
      Performed files (.append path more) (.ok ()) (files.put path (.file (content ++ more)))
  | renamed {source destination : Path} {entry : Entry} {found : Option Entry} :
      files.find source = .ok (some entry) → entry ≠ .directory →
      files.find destination = .ok found → found ≠ some .directory →
      Performed files (.rename source destination) (.ok ())
        ((files.erase source).put destination entry)
  | removed {path : Path} {entry : Entry} : files.find path = .ok (some entry) →
      entry ≠ .directory → Performed files (.remove path) (.ok ()) (files.erase path)

theorem performed (files : FileSystem) (request : DiskRequest) :
    Performed files request (files.perform request).1 (files.perform request).2 := by
  cases request with
  | list _ | isDirectory _ | read _ | sync _ => exact .looked rfl
  | makeDirectory path =>
      simp only [perform, makeDirectory]
      cases found : files.find path with
      | error fault => exact .refused
      | ok there =>
          cases there with
          | none => exact .madeDirectory found
          | some entry => exact .refused
  | makeFile path =>
      simp only [perform, makeFile]
      cases found : files.find path with
      | error fault => exact .refused
      | ok there =>
          rcases there with _ | _ | content | _
          · exact .madeFile found (by simp)
          · exact .refused
          · exact .madeFile found (by simp)
          · exact .refused
  | append path more =>
      simp only [perform, append, read]
      cases found : files.find path with
      | error fault => exact .refused
      | ok there =>
          rcases there with _ | _ | content | _
          · exact .refused
          · exact .refused
          · exact .appended found
          · exact .refused
  | rename source destination =>
      simp only [perform, rename]
      cases foundSource : files.find source with
      | error fault => exact .refused
      | ok there =>
          cases foundDestination : files.find destination with
          | error fault => exact .refused
          | ok known =>
              rcases there with _ | _ | content | _
              · exact .refused
              · exact .refused
              all_goals rcases known with _ | _ | old | _
              all_goals first
                | exact .refused
                | exact .renamed foundSource (by simp) foundDestination (by simp)
  | remove path =>
      simp only [perform, remove]
      cases found : files.find path with
      | error fault => exact .refused
      | ok there =>
          rcases there with _ | _ | content | _
          · exact .refused
          · exact .refused
          · exact .removed found (by simp)
          · exact .removed found (by simp)

/-- No request takes a directory away. -/
theorem at?_directory_perform {files : FileSystem} {path : Path}
    (isThere : files.at? path = some .directory) (request : DiskRequest) :
    (files.perform request).2.at? path = some .directory := by
  have elsewhere : ∀ {other : Path} {found : Option Entry}, files.find other = .ok found →
      found ≠ some .directory → other ≠ [] ∧ path ≠ other := by
    intro other found finds differs
    constructor
    · rintro rfl
      exact differs (Except.ok.inj finds).symm
    · rintro rfl
      exact differs ((at?_eq_of_find finds).symm.trans isThere)
  have performed := performed files request
  generalize (files.perform request).1 = answer at performed
  generalize (files.perform request).2 = after at performed ⊢
  cases performed with
  | refused | looked => exact isThere
  | madeDirectory missing =>
      obtain ⟨nonempty, differs⟩ := elsewhere missing (by simp)
      rwa [at?_put nonempty, if_neg differs]
  | madeFile finds noDirectory =>
      obtain ⟨nonempty, differs⟩ := elsewhere finds noDirectory
      rwa [at?_put nonempty, if_neg differs]
  | appended finds =>
      obtain ⟨nonempty, differs⟩ := elsewhere finds (by simp)
      rwa [at?_put nonempty, if_neg differs]
  | renamed finds noDirectory free notThere =>
      obtain ⟨sourceNonempty, notSource⟩ := elsewhere finds (by simpa using noDirectory)
      obtain ⟨nonempty, differs⟩ := elsewhere free notThere
      rwa [at?_put nonempty, if_neg differs, at?_erase sourceNonempty, if_neg notSource]
  | removed finds noDirectory =>
      obtain ⟨nonempty, differs⟩ := elsewhere finds (by simpa using noDirectory)
      rwa [at?_erase nonempty, if_neg differs]

/-- A request that is refused changes nothing. -/
theorem perform_refused {files : FileSystem} {request : DiskRequest} {fault : DiskFault}
    (refused : (files.perform request).1 = .error fault) : (files.perform request).2 = files := by
  have performed := performed files request
  rw [refused] at performed
  generalize (files.perform request).2 = after at performed
  cases performed <;> rfl

/-- A request that makes, writes or removes a file changes nothing elsewhere. -/
theorem onlyAt_perform {files : FileSystem} {path : Path} {request : DiskRequest}
    (nonempty : path ≠ []) (isHere : request = .makeFile path ∨
      (∃ content, request = .append path content) ∨ request = .remove path) :
    OnlyAt path files (files.perform request).2 := by
  have performed := performed files request
  generalize (files.perform request).2 = after at performed
  generalize (files.perform request).1 = answer at performed
  rcases isHere with rfl | ⟨content, rfl⟩ | rfl
  all_goals cases performed
  all_goals first
    | exact .refl _ _
    | exact .put nonempty _
    | exact .erase nonempty

/-! ## Trees -/

/-- Every entry is in a directory, under a name that is not too long, and no path has two
entries. -/
structure IsTree (files : FileSystem) : Prop where
  distinct : (files.entries.map Prod.fst).Nodup
  parent : ∀ directory name, (files.at? (directory ++ [name])).isSome = true →
    files.at? directory = some .directory
  short : ∀ directory name, (files.at? (directory ++ [name])).isSome = true →
    name.length ≤ maxNameLength

theorem isTree_empty : empty.IsTree where
  distinct := List.nodup_nil
  parent directory name there := by
    rw [at?_eq_lookup (by simp)] at there
    cases there
  short directory name there := by
    rw [at?_eq_lookup (by simp)] at there
    cases there

/-- A list of entries is a tree if each of them is in place. -/
theorem isTree_of_entries {files : FileSystem} (distinct : (files.entries.map Prod.fst).Nodup)
    (placed : ∀ entry ∈ files.entries, files.at? entry.1.dropLast = some .directory ∧
      ∀ name ∈ entry.1.getLast?, name.length ≤ maxNameLength) : files.IsTree := by
  have inPlace : ∀ directory name, (files.at? (directory ++ [name])).isSome = true →
      files.at? directory = some .directory ∧ name.length ≤ maxNameLength := by
    intro directory name there
    rw [at?_eq_lookup (by simp), Association.isSome_lookup_iff] at there
    obtain ⟨entry, member⟩ := there
    have placedThere := placed _ member
    rw [List.dropLast_concat, List.getLast?_concat] at placedThere
    exact ⟨placedThere.1, placedThere.2 name rfl⟩
  exact ⟨distinct, fun directory name there => (inPlace directory name there).1,
    fun directory name there => (inPlace directory name there).2⟩

namespace IsTree

variable {files : FileSystem} {path directory : Path} {name : FileName} {entry : Entry}

/-- In a tree everything is found. -/
theorem find_eq (tree : files.IsTree) (there : files.at? path = some entry) :
    files.find path = .ok (some entry) := by
  induction path using List.reverseRecOn generalizing entry with
  | nil => exact congrArg _ there
  | append_singleton directory name ih =>
      have isSome : (files.at? (directory ++ [name])).isSome = true := by
        rw [there]
        rfl
      have reached := ih (tree.parent directory name isSome)
      rw [find_concat reached (tree.short directory name isSome), there]

/-- Nothing is below a path at which there is no directory. -/
theorem namesIn_eq_nil (tree : files.IsTree) (noDirectory : files.at? path ≠ some .directory) :
    files.namesIn path = [] := by
  apply List.eq_nil_iff_forall_not_mem.mpr
  intro name member
  exact noDirectory (tree.parent path name (mem_namesIn.mp member))

theorem nodup_namesIn (tree : files.IsTree) (directory : Path) :
    (files.namesIn directory).Nodup := by
  have names : files.namesByAge directory =
      (files.entries.map Prod.fst).filterMap (nameIn? directory) := by
    rw [List.filterMap_map]
    rfl
  rw [nodup_namesIn_iff, names]
  apply tree.distinct.filterMap
  intro first second name isFirst isSecond
  rw [nameIn?_eq_some_iff.mp isFirst, nameIn?_eq_some_iff.mp isSecond]

theorem put (tree : files.IsTree) (inside : files.at? directory = some .directory)
    (fits : name.length ≤ maxNameLength)
    (kept : files.at? (directory ++ [name]) = some .directory → entry = .directory) :
    (files.put (directory ++ [name]) entry).IsTree where
  distinct := by
    simp only [FileSystem.put]
    split
    next =>
      have same : ∀ known : Path × Entry,
          (if known.1 = directory ++ [name] then (known.1, entry) else known).1 = known.1 := by
        intro known
        split <;> rfl
      rw [List.map_map]
      simp only [Function.comp_def, same]
      exact tree.distinct
    next missing =>
      rw [List.map_append, List.nodup_append]
      refine ⟨tree.distinct, by simp, ?_⟩
      rintro path member _ here rfl
      obtain ⟨⟨known, old⟩, isEntry, rfl⟩ := List.mem_map.mp member
      obtain rfl : known = directory ++ [name] := by simpa using here
      rw [at?_eq_lookup (by simp), Association.isSome_lookup_iff] at missing
      exact missing ⟨old, isEntry⟩
  parent above last there := by
    have nonempty : directory ++ [name] ≠ [] := by simp
    rw [at?_put nonempty] at there ⊢
    have before : files.at? above = some .directory := by
      split at there
      next same => rwa [(List.append_inj' same rfl).1]
      next => exact tree.parent above last there
    split
    next same => rw [kept (same ▸ before)]
    next => exact before
  short above last there := by
    rw [at?_put (by simp)] at there
    split at there
    next same => rwa [List.singleton_injective (List.append_inj' same rfl).2]
    next => exact tree.short above last there

theorem erase (tree : files.IsTree) (nonempty : path ≠ [])
    (noDirectory : files.at? path ≠ some .directory) : (files.erase path).IsTree where
  distinct := tree.distinct.sublist (List.filter_sublist.map _)
  parent above last there := by
    rw [at?_erase nonempty] at there ⊢
    split at there
    next => cases there
    next =>
      have before := tree.parent above last there
      rw [if_neg, before]
      rintro rfl
      exact noDirectory before
  short above last there := by
    rw [at?_erase nonempty] at there
    split at there
    next => cases there
    next => exact tree.short above last there

/-- A tree with something at a path that leads somewhere, and not instead of a directory. -/
theorem put_of_find (tree : files.IsTree) {found : Option Entry}
    (finds : files.find path = .ok found) (differs : found ≠ some .directory) (entry : Entry) :
    (files.put path entry).IsTree := by
  obtain ⟨directory, name, rfl⟩ := exists_concat_of_find finds differs
  obtain ⟨reached, short, rfl⟩ := at?_of_find finds
  exact tree.put (at?_eq_of_find reached) short fun there => absurd there differs

theorem erase_of_find (tree : files.IsTree) (finds : files.find path = .ok (some entry))
    (differs : entry ≠ .directory) : (files.erase path).IsTree := by
  obtain ⟨directory, name, rfl⟩ := exists_concat_of_find finds fun same => differs (Option.some.inj same)
  apply tree.erase (by simp)
  rw [at?_eq_of_find finds]
  exact fun same => differs (Option.some.inj same)

/-- A tree stays one whatever is asked of it. -/
theorem perform (tree : files.IsTree) (request : DiskRequest) :
    (files.perform request).2.IsTree := by
  have performed := performed files request
  generalize (files.perform request).2 = after at performed
  generalize (files.perform request).1 = answer at performed
  cases performed with
  | refused | looked _ => exact tree
  | madeDirectory finds => exact tree.put_of_find finds nofun _
  | madeFile finds differs => exact tree.put_of_find finds differs _
  | appended finds => exact tree.put_of_find finds nofun _
  | removed finds differs => exact tree.erase_of_find finds differs
  | @renamed source destination entry found findsSource isNoDirectory finds differs =>
      have erased := tree.erase_of_find findsSource isNoDirectory
      obtain ⟨directory, name, rfl⟩ := exists_concat_of_find finds differs
      obtain ⟨reached, short, rfl⟩ := at?_of_find finds
      have nonempty : source ≠ [] := by
        rintro rfl
        exact isNoDirectory (Option.some.inj (Except.ok.inj findsSource)).symm
      apply erased.put _ short
      · intro there
        rw [at?_erase nonempty] at there
        split at there
        next => cases there
        next => exact absurd there differs
      · rw [at?_erase nonempty, if_neg, at?_eq_of_find reached]
        rintro rfl
        rw [reached] at findsSource
        cases findsSource
        exact isNoDirectory rfl

end IsTree

/-! ## New directories -/

section

variable {files : FileSystem} {path rest : Path} {name : FileName}

/-- There is no directory below a path at which nothing is. -/
theorem list_below_missing (missing : files.find path = .ok none) (rest : Path) :
    files.list (path ++ rest) = .error .notFound := by
  cases rest with
  | nil =>
      rw [List.append_nil]
      simp only [list, missing]
      rfl
  | cons next rest =>
      obtain ⟨directory, name, rfl⟩ := exists_concat_of_find missing (by simp)
      obtain ⟨reached, short, isMissing⟩ := at?_of_find missing
      have finds : files.find (directory ++ [name] ++ next :: rest) = .error .notFound := by
        rw [List.append_assoc, List.singleton_append, find, walk_append reached, List.nil_append,
          walk, if_neg (Nat.not_lt.mpr short), if_neg (by simp), isMissing]
      simp only [list, finds]
      rfl

variable (tree : files.IsTree) (missing : files.find path = .ok none)
include tree missing

theorem list_new_directory : (files.put path .directory).list path = .ok [] := by
  have isMissing := at?_eq_of_find missing
  have nonempty : path ≠ [] := by
    rintro rfl
    cases isMissing
  have made := tree.put_of_find missing (by simp) .directory
  have reached := made.find_eq (by rw [at?_put nonempty, if_pos rfl] : _ = some .directory)
  have noNames := tree.namesIn_eq_nil (by rw [isMissing]; simp : files.at? path ≠ some .directory)
  rw [list_eq reached]
  apply congrArg
  apply List.eq_nil_iff_forall_not_mem.mpr
  intro name member
  rw [mem_namesIn, at?_put nonempty, if_neg (by simp), ← mem_namesIn, noNames] at member
  cases member

/-- Nothing is below a new directory. A name that is too long is found to be so only now. -/
theorem list_below_new_directory :
    (files.put path .directory).list (path ++ name :: rest) =
      .error (if name.length > maxNameLength then .nameTooLong else .notFound) := by
  have isMissing := at?_eq_of_find missing
  have nonempty : path ≠ [] := by
    rintro rfl
    cases isMissing
  have made := tree.put_of_find missing (by simp) .directory
  have reached := made.find_eq (by rw [at?_put nonempty, if_pos rfl] : _ = some .directory)
  have nothing : (files.put path .directory).at? (path ++ [name]) = none := by
    rw [at?_put nonempty, if_neg (by simp)]
    apply Option.not_isSome_iff_eq_none.mp
    intro there
    cases isMissing.symm.trans (tree.parent path name there)
  have finds : (files.put path .directory).find (path ++ name :: rest) =
      if name.length > maxNameLength then .error .nameTooLong
      else if rest.isEmpty then .ok none else .error .notFound := by
    rw [find, walk_append reached, List.nil_append, walk, nothing]
  simp only [list, finds]
  split
  · rfl
  · split <;> rfl

end

end FileSystem

end PeerCalls
