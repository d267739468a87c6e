import Mathlib.Data.List.Nodup
import PeerCalls.Disk.Basic
import PeerCalls.Proofs.Association

/-!
# What a file system answers

What is at a path depends only on the last change at this path, and the names in a
directory are those at which something is. Below a directory that is reached, a name that
is not too long is found, and a request is answered by what is there.
-/

namespace PeerCalls.FileSystem

open Association

variable {files changed : FileSystem} {path other directory : Path} {entry : Entry}

/-! ## Entries -/

theorem at?_eq_lookup (nonempty : path ≠ []) : files.at? path = files.entries.lookup path := by
  cases path with
  | nil => exact absurd rfl nonempty
  | cons name rest => rfl

theorem at?_empty (nonempty : path ≠ []) : empty.at? path = none := by
  rw [at?_eq_lookup nonempty]
  rfl

theorem at?_erase (nonempty : path ≠ []) (other : Path) :
    (files.erase path).at? other = if other = path then none else files.at? other := by
  cases other with
  | nil => rw [if_neg nonempty.symm]; rfl
  | cons name rest => exact lookup_filter files.entries path (name :: rest)

theorem at?_put (nonempty : path ≠ []) (entry : Entry) (other : Path) :
    (files.put path entry).at? other = if other = path then some entry else files.at? other := by
  cases other with
  | nil => rw [if_neg nonempty.symm]; rfl
  | cons name rest =>
      rw [at?_eq_lookup (List.cons_ne_nil name rest), at?_eq_lookup (List.cons_ne_nil name rest),
        put, at?_eq_lookup nonempty]
      split
      next there =>
        rw [lookup_map]
        obtain ⟨old, found⟩ := Option.isSome_iff_exists.mp there
        rw [found, Option.map_some]
      next missing =>
        have missing := Option.not_isSome_iff_eq_none.mp missing
        rw [List.lookup_append]
        by_cases same : name :: rest = path
        · rw [if_pos same, same, missing]
          simp
        · simp [same, List.lookup_cons, beq_eq_false_iff_ne.mpr same]

/-! ## Names in a directory -/

theorem nameIn?_eq_some_iff {name : FileName} :
    nameIn? directory path = some name ↔ path = directory ++ [name] := by
  unfold nameIn?
  constructor
  · intro found
    split at found
    next inside =>
      obtain ⟨init, rfl⟩ := List.getLast?_eq_some_iff.mp found
      have length : init.length = directory.length := by simpa using inside.1
      have same := inside.2
      rw [← length, List.take_left] at same
      rw [same]
    next => cases found
  · rintro rfl
    simp

theorem mem_namesByAge {name : FileName} :
    name ∈ files.namesByAge directory ↔ (files.at? (directory ++ [name])).isSome = true := by
  rw [at?_eq_lookup (by simp), isSome_lookup_iff, namesByAge, List.mem_filterMap]
  constructor
  · rintro ⟨⟨path, entry⟩, member, found⟩
    exact ⟨entry, nameIn?_eq_some_iff.mp found ▸ member⟩
  · rintro ⟨entry, member⟩
    exact ⟨_, member, nameIn?_eq_some_iff.mpr rfl⟩

/-- The names in a directory are those at which there is something. -/
theorem mem_namesIn {name : FileName} :
    name ∈ files.namesIn directory ↔ (files.at? (directory ++ [name])).isSome = true :=
  (files.order.perm _).mem_iff.trans mem_namesByAge

theorem nodup_namesIn_iff : (files.namesIn directory).Nodup ↔ (files.namesByAge directory).Nodup :=
  (files.order.perm _).nodup_iff

theorem nodup_namesIn_erase (distinct : (files.namesIn directory).Nodup) (path : Path) :
    ((files.erase path).namesIn directory).Nodup := by
  rw [nodup_namesIn_iff] at distinct ⊢
  exact distinct.sublist (List.filter_sublist.filterMap _)

/-- A new entry is the newest one, and another one keeps its place. -/
theorem namesByAge_put (path directory : Path) (entry : Entry) :
    (files.put path entry).namesByAge directory = files.namesByAge directory ∨
      ∃ name, directory ++ [name] = path ∧ name ∉ files.namesByAge directory ∧
        (files.put path entry).namesByAge directory = files.namesByAge directory ++ [name] := by
  simp only [namesByAge, put]
  split
  next =>
    have same : ∀ known : Path × Entry,
        nameIn? directory (if known.1 = path then (known.1, entry) else known).1 =
          nameIn? directory known.1 := by
      intro known
      split <;> rfl
    left
    rw [List.filterMap_map]
    simp only [Function.comp_def, same]
  next missing =>
    simp only [List.filterMap_append, List.filterMap_cons, List.filterMap_nil]
    cases found : nameIn? directory path with
    | none => exact .inl (List.append_nil _)
    | some name =>
        have isHere := nameIn?_eq_some_iff.mp found
        refine .inr ⟨name, isHere.symm, fun old => missing ?_, rfl⟩
        rw [isHere]
        exact mem_namesByAge.mp old

theorem nodup_namesIn_put (distinct : (files.namesIn directory).Nodup) (path : Path)
    (entry : Entry) : ((files.put path entry).namesIn directory).Nodup := by
  rw [nodup_namesIn_iff] at distinct ⊢
  rcases @namesByAge_put files path directory entry with same | ⟨name, _, isNew, added⟩
  · rwa [same]
  · rw [added]
    exact distinct.append (List.nodup_singleton name) (List.disjoint_singleton.mpr isNew)

/-! ## Walking -/

/-- A walk goes on from the directory that it has reached. -/
theorem walk_append {walked rest more : Path} {name : FileName}
    (reached : files.walk walked rest = .ok (some .directory)) :
    files.walk walked (rest ++ name :: more) = files.walk (walked ++ rest) (name :: more) := by
  induction rest generalizing walked with
  | nil => simp
  | cons first rest ih =>
      rw [walk] at reached
      rw [List.cons_append, walk]
      split at reached
      next => cases reached
      next firstFits =>
        rw [if_neg firstFits, if_neg (by simp)]
        split at reached
        next last =>
          rw [List.isEmpty_iff] at last
          subst last
          rw [Except.ok.injEq] at reached
          simp [reached]
        next =>
          split at reached
          next isDirectory => simpa [isDirectory] using ih reached
          next => cases reached
          next => cases reached
          next => cases reached

theorem walk_concat {walked rest : Path} {name : FileName}
    (reached : files.walk walked rest = .ok (some .directory))
    (fits : name.length ≤ maxNameLength) :
    files.walk walked (rest ++ [name]) = .ok (files.at? (walked ++ rest ++ [name])) := by
  rw [walk_append reached, walk, if_neg (Nat.not_lt.mpr fits)]
  rfl

/-- Below a directory a name is found if it is not too long. -/
theorem find_concat {name : FileName} (reached : files.find directory = .ok (some .directory))
    (fits : name.length ≤ maxNameLength) :
    files.find (directory ++ [name]) = .ok (files.at? (directory ++ [name])) :=
  walk_concat reached fits

/-- A name that is too long is not even looked for. -/
theorem find_tooLong {name : FileName} (reached : files.find directory = .ok (some .directory))
    (long : maxNameLength < name.length) :
    files.find (directory ++ [name]) = .error .nameTooLong := by
  rw [find, walk_append reached, walk, if_pos long]

theorem length_le_of_walk {walked rest : Path} {found : Option Entry}
    (finds : files.walk walked rest = .ok found) : ∀ name ∈ rest, name.length ≤ maxNameLength := by
  induction rest generalizing walked with
  | nil => simp
  | cons first rest ih =>
      rw [walk] at finds
      split at finds
      next => cases finds
      next fits =>
        rw [List.forall_mem_cons]
        refine ⟨Nat.le_of_not_lt fits, ?_⟩
        split at finds
        next last => simp [List.isEmpty_iff.mp last]
        next =>
          split at finds
          next => exact ih finds
          next => cases finds
          next => cases finds
          next => cases finds

theorem walk_congr_below {walked rest : Path}
    (same : ∀ path, path <+: walked ++ rest → changed.at? path = files.at? path) :
    changed.walk walked rest = files.walk walked rest := by
  induction rest generalizing walked with
  | nil => rw [walk, walk, same walked (by simp)]
  | cons name rest ih =>
      have here := same (walked ++ [name]) ⟨rest, by simp⟩
      have below : changed.walk (walked ++ [name]) rest = files.walk (walked ++ [name]) rest := by
        apply ih
        simpa using same
      rw [walk, walk, here, below]

/-- What is found at a path does not depend on what is at longer ones. -/
theorem find_congr (same : ∀ path, path.length ≤ directory.length →
    changed.at? path = files.at? path) : changed.find directory = files.find directory := by
  apply walk_congr_below
  exact fun path isAbove => same path isAbove.length_le

theorem find_put (longer : directory.length < path.length) (entry : Entry) :
    (files.put path entry).find directory = files.find directory := by
  apply find_congr
  intro other short
  rw [at?_put (List.ne_nil_of_length_pos (Nat.zero_lt_of_lt longer)), if_neg]
  rintro rfl
  exact absurd longer (Nat.not_lt.mpr short)

theorem find_erase (longer : directory.length < path.length) :
    (files.erase path).find directory = files.find directory := by
  apply find_congr
  intro other short
  rw [at?_erase (List.ne_nil_of_length_pos (Nat.zero_lt_of_lt longer)), if_neg]
  rintro rfl
  exact absurd longer (Nat.not_lt.mpr short)

/-! ## Answers -/

section

variable {name : FileName} {content : Bytes}
  (reached : files.find directory = .ok (some .directory))
include reached

theorem list_eq : files.list directory = .ok (files.namesIn directory) := by
  simp only [list, reached, bind, Except.bind, pure, Except.pure]

theorem isDirectory_eq : files.isDirectory directory = true := by
  simp only [isDirectory, reached]

variable (fits : name.length ≤ maxNameLength)
include fits

theorem list_missing (missing : files.at? (directory ++ [name]) = none) :
    files.list (directory ++ [name]) = .error .notFound := by
  simp only [list, find_concat reached fits, missing, bind, Except.bind]
  rfl

theorem read_eq (found : files.at? (directory ++ [name]) = some (.file content)) :
    files.read (directory ++ [name]) = .ok content := by
  simp only [read, find_concat reached fits, found, bind, Except.bind, pure, Except.pure]

theorem remove_eq (found : files.at? (directory ++ [name]) = some (.file content)) :
    files.remove (directory ++ [name]) = .ok (files.erase (directory ++ [name])) := by
  simp only [remove, find_concat reached fits, found, bind, Except.bind, pure, Except.pure]

theorem makeDirectory_eq (missing : files.at? (directory ++ [name]) = none) :
    files.makeDirectory (directory ++ [name]) =
      .ok (files.put (directory ++ [name]) .directory) := by
  simp only [makeDirectory, find_concat reached fits, missing, bind, Except.bind, pure,
    Except.pure]

theorem makeDirectory_exists (found : files.at? (directory ++ [name]) = some .directory) :
    files.makeDirectory (directory ++ [name]) = .error .alreadyExists := by
  simp only [makeDirectory, find_concat reached fits, found, bind, Except.bind]
  rfl

theorem makeFile_eq (missing : files.at? (directory ++ [name]) = none) :
    files.makeFile (directory ++ [name]) = .ok (files.put (directory ++ [name]) (.file [])) := by
  simp only [makeFile, find_concat reached fits, missing, bind, Except.bind, pure, Except.pure]

theorem append_eq (found : files.at? (directory ++ [name]) = some (.file content))
    (more : Bytes) : files.append (directory ++ [name]) more =
      .ok (files.put (directory ++ [name]) (.file (content ++ more))) := by
  simp only [append, read_eq reached fits found, bind, Except.bind, pure, Except.pure]

theorem rename_eq {destination : FileName} (short : destination.length ≤ maxNameLength)
    (found : files.at? (directory ++ [name]) = some (.file content))
    (free : files.at? (directory ++ [destination]) ≠ some .directory) :
    files.rename (directory ++ [name]) (directory ++ [destination]) =
      .ok ((files.erase (directory ++ [name])).put (directory ++ [destination])
        (.file content)) := by
  simp only [rename, find_concat reached fits, find_concat reached short, found, bind,
    Except.bind, pure, Except.pure]

/-- A file is written under a name where nothing is, and then takes another name. Nothing else
changes. -/
theorem exists_written {destination : FileName} (short : destination.length ≤ maxNameLength)
    (missing : files.at? (directory ++ [name]) = none)
    (free : files.at? (directory ++ [destination]) ≠ some .directory) (content : Bytes) :
    ∃ made written,
      files.perform (.makeFile (directory ++ [name])) = (.ok (), made) ∧
      made.perform (.append (directory ++ [name]) content) = (.ok (), written) ∧
      written.perform (.rename (directory ++ [name]) (directory ++ [destination])) =
        (.ok (), (written.erase (directory ++ [name])).put (directory ++ [destination])
          (.file content)) ∧
      (∀ path, (written.erase (directory ++ [name])).at? path = files.at? path) ∧
      ∀ other, (files.namesIn other).Nodup →
        ((written.erase (directory ++ [name])).namesIn other).Nodup := by
  have nonempty : directory ++ [name] ≠ [] := by simp
  have longer : directory.length < (directory ++ [name]).length := by simp
  have reachedMade := (find_put longer (.file [])).trans reached
  have madeThere : (files.put (directory ++ [name]) (.file [])).at? (directory ++ [name]) =
      some (.file []) := by
    rw [at?_put nonempty, if_pos rfl]
  have reachedWritten := (find_put longer (.file content)).trans reachedMade
  have at?_written : ∀ path, ((files.put (directory ++ [name]) (.file [])).put
      (directory ++ [name]) (.file content)).at? path =
        if path = directory ++ [name] then some (.file content) else files.at? path := by
    intro path
    rw [at?_put nonempty, at?_put nonempty]
    split <;> rfl
  have isFree : ((files.put (directory ++ [name]) (.file [])).put
      (directory ++ [name]) (.file content)).at? (directory ++ [destination]) ≠
        some .directory := by
    rw [at?_written]
    split
    · exact nofun
    · exact free
  refine ⟨_, _, congrArg files.change (makeFile_eq reached fits missing),
    congrArg (change _) (append_eq reachedMade fits madeThere content),
    congrArg (change _) (rename_eq reachedWritten fits short
      ((at?_written _).trans (if_pos rfl)) isFree), ?_, ?_⟩
  · intro path
    rw [at?_erase nonempty, List.nil_append, at?_written]
    split
    next here => rw [here, missing]
    next => rfl
  · intro other distinct
    exact nodup_namesIn_erase (nodup_namesIn_put (nodup_namesIn_put distinct _ _) _ _) _

end

end PeerCalls.FileSystem
