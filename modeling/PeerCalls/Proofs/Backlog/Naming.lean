import PeerCalls.Proofs.Backlog.Files

/-!
# Names that are safe

The name of a file or of a directory is made of a text that somebody else may have chosen, the name
of a method or the id of a client. Whatever it is, the name has no characters but ASCII letters,
digits, `_`, `-` and `%`, so it does not lead out of its directory and is not taken for a file that
is not complete; it can be taken apart again; and no other text makes the same name.
-/

namespace PeerCalls.FileBacklog

/-- ASCII letters, digits, `_`, `-` and `%`. -/
def IsNameCharacter (character : Char) : Prop :=
  character.isAlphanum = true ∨ character ∈ ['_', '-', '%']

instance : DecidablePred IsNameCharacter :=
  fun character => inferInstanceAs (Decidable (character.isAlphanum = true ∨ _))

/-- A name with which every file system can do. -/
def IsPortable (name : FileName) : Prop :=
  ∀ byte ∈ name, ∃ character : Char,
    byte = UInt8.ofNat character.toNat ∧ IsNameCharacter character

/-- Plain bytes and the marks of escapes are the codes of characters of names. -/
theorem exists_nameCharacter {byte : UInt8} (kind : isPlain byte = true ∨ byte = 0x25) :
    ∃ character : Char, byte = UInt8.ofNat character.toNat ∧ IsNameCharacter character := by
  have every : ∀ code : Fin 128,
      isPlain (UInt8.ofNat code) = true ∨ UInt8.ofNat code = 0x25 →
        UInt8.ofNat code = UInt8.ofNat (Char.ofNat code).toNat ∧
          IsNameCharacter (Char.ofNat code) := by
    decide +kernel
  have ascii : byte.toNat < 128 := by
    cases kind with
    | inl plain => exact toNat_lt_of_isPlain plain
    | inr isMark =>
        rw [isMark]
        decide
  have known := every ⟨byte.toNat, ascii⟩
  rw [UInt8.ofNat_toNat] at known
  exact ⟨Char.ofNat byte.toNat, known kind⟩

theorem isPortable_escape (text : String) : IsPortable (escape text) :=
  fun _ member => exists_nameCharacter (mem_escape member)

theorem isPortable_fileName (id : UInt64) (name : String) : IsPortable (fileName id name) :=
  fun _ member => exists_nameCharacter (mem_fileName id name member)

theorem isPortable_directoryName (target : Peer) : IsPortable (directoryName target) := by
  have fixed : (Bytes.ofText "server" ++ Bytes.ofText "client-").all isPlain = true := by decide
  rw [List.all_eq_true] at fixed
  intro byte member
  apply exists_nameCharacter
  cases target with
  | server => exact .inl (fixed byte (List.mem_append_left _ member))
  | client id =>
      cases List.mem_append.mp member with
      | inl isPrefix => exact .inl (fixed byte (List.mem_append_right _ isPrefix))
      | inr escaped => exact mem_escape escaped

theorem slash_not_mem_fileName (id : UInt64) (name : String) : 0x2f ∉ fileName id name := by
  intro member
  cases mem_fileName id name member with
  | inl plain => exact absurd plain (by decide)
  | inr isMark => exact absurd isMark (by decide)

/-- The first dash of a file name stands behind the number that says which call it is. -/
theorem exists_digits_fileName (id : UInt64) (name : String) :
    ∃ digits : String, fileName id name = Bytes.ofText digits ++ 0x2d :: escape name ∧
      0x2d ∉ Bytes.ofText digits ∧ Decimal.word? digits.toList = some id := by
  refine ⟨toString id.toNat, rfl, ?_, Decimal.word?_toString id⟩
  intro member
  exact absurd (ne_dash_of_mem id member) (by decide)

/-- What holds of the names that a backlog gives to files and directories. -/
structure NamesSafely (backlog : FileBacklog) : Prop where
  escape_portable : ∀ text, IsPortable (escape text)
  escape_inj : ∀ left right, escape left = escape right → left = right
  file_portable : ∀ id name, IsPortable (fileName id name)
  file_visible : ∀ id name, (fileName id name).head? ≠ some 0x2e
  file_inside : ∀ id name, 0x2f ∉ fileName id name
  file_split : ∀ id name, ∃ digits : String,
    fileName id name = Bytes.ofText digits ++ 0x2d :: escape name ∧
      0x2d ∉ Bytes.ofText digits ∧ Decimal.word? digits.toList = some id
  file_read : ∀ id name,
    Candidate.ofName? (fileName id name) = some ⟨id, escape name, fileName id name⟩
  directory_portable : ∀ target, IsPortable (directoryName target)
  directory_inj : ∀ left right, backlog.directory left = backlog.directory right → left = right

/-- Every text has a portable escape and shares it with no other text. The name of a file is
neither hidden nor a path, and split at its first dash it tells the id of the call and the escape
of its method. Two targets never share a directory. -/
theorem namesSafely (backlog : FileBacklog) : NamesSafely backlog where
  escape_portable := isPortable_escape
  escape_inj := fun _ _ => escape_injective
  file_portable := isPortable_fileName
  file_visible := head?_fileName_ne
  file_inside := slash_not_mem_fileName
  file_split := exists_digits_fileName
  file_read := ofName?_fileName
  directory_portable := isPortable_directoryName
  directory_inj := fun _ _ => directory_injective

example : escape "../etc/pass-wd_ä" = Bytes.ofText "%2E%2E%2Fetc%2Fpass-wd_%C3%A4" := by decide

end PeerCalls.FileBacklog
