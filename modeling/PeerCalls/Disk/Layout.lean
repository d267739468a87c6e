import PeerCalls.Disk.Basic

/-!
# Paths as they are written

A path is written with slashes between its names; a name without content and a
single point mean nothing. A file system is listed in the order of its written
paths, with a slash after each directory.
-/

namespace PeerCalls

namespace Path

/-- The byte between two names. -/
def separator : UInt8 := 0x2f

/-- The names in a written path. `name` is the beginning of the first one. -/
def namesFrom (name : FileName) : Bytes → List FileName
  | [] => [name]
  | byte :: rest =>
    if byte = separator then name :: namesFrom [] rest else namesFrom (name ++ [byte]) rest

/-- A part of a written path that leads nowhere else: no content, or a point. -/
def staysPut (name : FileName) : Bool := name.isEmpty || name == [0x2e]

/-- Read a path. -/
def ofBytes (written : Bytes) : Path :=
  (namesFrom [] written).filter (!staysPut ·)

/-- Read a path from a text. -/
def ofText (written : String) : Path := ofBytes (Bytes.ofText written)

/-- Write a path. -/
def written (path : Path) : Bytes := [separator].intercalate path

end Path

namespace FileSystem

/-- Have directories at all places on the way to a path where nothing is. -/
def withDirectoriesBelow (files : FileSystem) : (walked rest : Path) → FileSystem
  | _, [] => files
  | walked, name :: rest =>
    let path := walked ++ [name]
    let files := if (files.at? path).isSome then files else files.put path .directory
    files.withDirectoriesBelow path rest

/-- Have a directory at a path, and all directories above it. -/
def withDirectory (files : FileSystem) (path : Path) : FileSystem :=
  files.withDirectoriesBelow [] path

/-- Have an entry at a path, and all directories above it. -/
def withEntry (files : FileSystem) (path : Path) (entry : Entry) : FileSystem :=
  (files.withDirectory path.dropLast).put path entry

/-- The path of an entry in a listing. -/
def listed (path : Path) (entry : Entry) : Bytes :=
  if entry = .directory then path.written ++ [Path.separator] else path.written

/-- All entries, in the order of their written paths. -/
def listing (files : FileSystem) : List (Bytes × Entry) :=
  (files.entries.map fun (path, entry) => (listed path entry, entry)).mergeSort
    fun first second => !decide (second.1 < first.1)

end FileSystem

end PeerCalls
