import PeerCalls.Bytes

/-!
# A file system

Directories, files and links below a base directory. A path is the list of names
that lead to an entry, and no name is longer than 255 bytes. A path is walked
from the left, so the first name that does not fit decides how it fails. Links
are never followed to anything: they lead nowhere. In which order the names in a
directory are listed is up to the file system.
-/

namespace PeerCalls

/-- A name in a directory. It is not always a text. -/
abbrev FileName := Bytes

/-- The names that lead from the base directory to an entry. -/
abbrev Path := List FileName

/-- What a file system has at a path. -/
inductive Entry where
  | directory
  | file (content : Bytes)
  /-- A symbolic link that leads nowhere. -/
  | link
  deriving Repr, DecidableEq, Inhabited

/-- Why a file system refuses a request. -/
inductive DiskFault where
  | notFound
  | notADirectory
  | isADirectory
  | alreadyExists
  | nameTooLong
  deriving Repr, DecidableEq

/-- A fault in one word. -/
def DiskFault.name : DiskFault → String
  | notFound => "NotFound"
  | notADirectory => "NotADirectory"
  | isADirectory => "IsADirectory"
  | alreadyExists => "AlreadyExists"
  | nameTooLong => "InvalidFilename"

/-- The words of the operating system. -/
def DiskFault.message : DiskFault → String
  | notFound => "No such file or directory (os error 2)"
  | notADirectory => "Not a directory (os error 20)"
  | isADirectory => "Is a directory (os error 21)"
  | alreadyExists => "File exists (os error 17)"
  | nameTooLong => "File name too long (os error 36)"

/-- An order in which the names in a directory are listed. Names that come or go
do not change the order of the others. -/
structure ListingOrder where
  /-- Bring the names, given from the oldest to the newest, into the order. -/
  arrange : List FileName → List FileName
  perm : ∀ names, (arrange names).Perm names
  filter : ∀ (keeps : FileName → Bool) (names : List FileName),
    arrange (names.filter keeps) = (arrange names).filter keeps

namespace ListingOrder

def oldestFirst : ListingOrder where
  arrange names := names
  perm names := .refl names
  filter _ _ := rfl

def newestFirst : ListingOrder where
  arrange := List.reverse
  perm := List.reverse_perm
  filter _ _ := List.filter_reverse.symm

instance : Inhabited ListingOrder := ⟨oldestFirst⟩

end ListingOrder

/-- The entries of a file system by their paths, from the oldest to the newest, and
the order in which it lists them. -/
structure FileSystem where
  entries : List (Path × Entry)
  order : ListingOrder
  deriving Inhabited

instance : Repr FileSystem := ⟨fun files => reprPrec files.entries⟩

namespace FileSystem

/-- The longest name in bytes. -/
def maxNameLength : Nat := 255

/-- Only the base directory, with nothing in it. As in a file system in memory, new
names are listed first. -/
def empty : FileSystem := ⟨[], .newestFirst⟩

/-- What is at a path, without walking to it. -/
def at? (files : FileSystem) (path : Path) : Option Entry :=
  match path with
  | [] => some .directory
  | path => files.entries.lookup path

/-- Walk on from a directory. There may be nothing at the end of the path, but
everything before must be a directory. -/
def walk (files : FileSystem) : (walked rest : Path) → Except DiskFault (Option Entry)
  | walked, [] => .ok (files.at? walked)
  | walked, name :: rest =>
    if name.length > maxNameLength then .error .nameTooLong
    else if rest.isEmpty then .ok (files.at? (walked ++ [name]))
    else
      match files.at? (walked ++ [name]) with
      | some .directory => files.walk (walked ++ [name]) rest
      | some (.file _) => .error .notADirectory
      | some .link => .error .notFound
      | none => .error .notFound

/-- What is at the end of a path. -/
def find (files : FileSystem) (path : Path) : Except DiskFault (Option Entry) :=
  files.walk [] path

/-- Take away the entry at a path. -/
def erase (files : FileSystem) (path : Path) : FileSystem :=
  { files with entries := files.entries.filter (·.1 != path) }

/-- Put an entry at a path: at the place of the one that is there, or as the newest. -/
def put (files : FileSystem) (path : Path) (entry : Entry) : FileSystem :=
  { files with
    entries :=
      if (files.at? path).isSome then
        files.entries.map fun (known, old) => if known = path then (known, entry) else (known, old)
      else files.entries ++ [(path, entry)] }

/-- The name of an entry in a directory, if it is in that directory. -/
def nameIn? (directory path : Path) : Option FileName :=
  if path.length = directory.length + 1 ∧ path.take directory.length = directory then
    path.getLast?
  else none

/-- The names in a directory, from the oldest to the newest. -/
def namesByAge (files : FileSystem) (directory : Path) : List FileName :=
  files.entries.filterMap fun (path, _) => nameIn? directory path

/-- The names in a directory, as they are listed. -/
def namesIn (files : FileSystem) (directory : Path) : List FileName :=
  files.order.arrange (files.namesByAge directory)

end FileSystem

/-- What can be asked of a file system. -/
inductive DiskRequest where
  | list (directory : Path)
  | isDirectory (path : Path)
  | makeDirectory (path : Path)
  | read (path : Path)
  /-- Make a file without content, or take away the content of one. -/
  | makeFile (path : Path)
  /-- Add to the end of a file. -/
  | append (path : Path) (content : Bytes)
  /-- Have the content of a file survive a crash of the system. -/
  | sync (path : Path)
  | rename (source destination : Path)
  | remove (path : Path)
  deriving Repr, DecidableEq

namespace DiskRequest

/-- What a file system answers. -/
def Answer : DiskRequest → Type
  | list _ => List FileName
  | isDirectory _ => Bool
  | read _ => Bytes
  | makeDirectory _ | makeFile _ | append _ _ | sync _ | rename _ _ | remove _ => Unit

end DiskRequest

namespace FileSystem

/-- The names in the directory at a path. -/
def list (files : FileSystem) (directory : Path) : Except DiskFault (List FileName) := do
  match ← files.find directory with
  | some .directory => return files.namesIn directory
  | some (.file _) => throw .notADirectory
  | some .link | none => throw .notFound

/-- The content of the file at a path. -/
def read (files : FileSystem) (path : Path) : Except DiskFault Bytes := do
  match ← files.find path with
  | some (.file content) => return content
  | some .directory => throw .isADirectory
  | some .link | none => throw .notFound

def isDirectory (files : FileSystem) (path : Path) : Bool :=
  match files.find path with
  | .ok (some .directory) => true
  | _ => false

def makeDirectory (files : FileSystem) (path : Path) : Except DiskFault FileSystem := do
  match ← files.find path with
  | some _ => throw .alreadyExists
  | none => return files.put path .directory

def makeFile (files : FileSystem) (path : Path) : Except DiskFault FileSystem := do
  match ← files.find path with
  | some .directory => throw .isADirectory
  | some .link => throw .notFound
  | some (.file _) | none => return files.put path (.file [])

def append (files : FileSystem) (path : Path) (content : Bytes) :
    Except DiskFault FileSystem := do
  return files.put path (.file ((← files.read path) ++ content))

/-- A file or link takes another path, instead of the file or link there. -/
def rename (files : FileSystem) (source destination : Path) : Except DiskFault FileSystem := do
  match ← files.find source, ← files.find destination with
  | none, _ => throw .notFound
  | some .directory, _ => throw .isADirectory
  | some _, some .directory => throw .isADirectory
  | some entry, _ => return (files.erase source).put destination entry

def remove (files : FileSystem) (path : Path) : Except DiskFault FileSystem := do
  match ← files.find path with
  | none => throw .notFound
  | some .directory => throw .isADirectory
  | some _ => return files.erase path

/-- A change that is made completely or not at all. -/
def change (files : FileSystem) (result : Except DiskFault FileSystem) :
    Except DiskFault Unit × FileSystem :=
  match result with
  | .ok changed => (.ok (), changed)
  | .error fault => (.error fault, files)

/-- Answer a request. -/
def perform (files : FileSystem) :
    (request : DiskRequest) → Except DiskFault request.Answer × FileSystem
  | .list directory => (files.list directory, files)
  | .isDirectory path => (.ok (files.isDirectory path), files)
  | .read path => (files.read path, files)
  | .makeDirectory path => files.change (files.makeDirectory path)
  | .makeFile path => files.change (files.makeFile path)
  | .append path content => files.change (files.append path content)
  | .sync _ => (.ok (), files)
  | .rename source destination => files.change (files.rename source destination)
  | .remove path => files.change (files.remove path)

end FileSystem

end PeerCalls
