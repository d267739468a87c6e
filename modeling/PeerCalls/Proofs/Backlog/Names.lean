import Mathlib.Data.List.TakeWhile
import Mathlib.Data.Nat.Digits.Defs
import PeerCalls.Backlog.Files

/-!
# File names of calls

The name of a file tells the id of the call in it and the method, and it is not the name of
a file that is not complete. Targets have different directories, and the calls to a target
with different ids or methods have different files.
-/

namespace PeerCalls

/-! ## ASCII -/

namespace Bytes

theorem ofText_injective {left right : String} (same : ofText left = ofText right) :
    left = right := by
  have read := Utf8.decode_ofText left
  rw [same, Utf8.decode_ofText, Except.ok.injEq] at read
  exact read.symm

theorem utf8EncodeChar_of_lt {character : Char} (ascii : character.toNat < 128) :
    String.utf8EncodeChar character = [UInt8.ofNat character.toNat] := by
  unfold String.utf8EncodeChar
  exact if_pos (Nat.le_of_lt_succ ascii)

/-- An ASCII text has one byte for each character. -/
theorem ofText_ofList {characters : List Char}
    (ascii : ∀ character ∈ characters, character.toNat < 128) :
    ofText (String.ofList characters) =
      characters.map fun character => UInt8.ofNat character.toNat := by
  have encoded : characters.flatMap String.utf8EncodeChar =
      characters.map fun character => UInt8.ofNat character.toNat := by
    induction characters with
    | nil => rfl
    | cons first rest ih =>
        rw [List.forall_mem_cons] at ascii
        rw [List.flatMap_cons, utf8EncodeChar_of_lt ascii.1, ih ascii.2, List.map_cons,
          List.singleton_append]
  rw [← encoded]
  change (String.ofList characters).toByteArray.data.toList = _
  rw [String.toByteArray_ofList]
  simp [List.utf8Encode]

/-- ASCII bytes are a text. -/
theorem exists_ofText {bytes : Bytes} (ascii : ∀ byte ∈ bytes, byte.toNat < 128) :
    ∃ text, bytes = ofText text := by
  have valid : ∀ byte ∈ bytes, (Char.ofNat byte.toNat).toNat = byte.toNat := by
    intro byte member
    have isValid : byte.toNat.isValidChar := Or.inl (Nat.lt_trans (ascii byte member) (by decide))
    rw [Char.ofNat, dif_pos isValid]
    rfl
  refine ⟨String.ofList (bytes.map fun byte => Char.ofNat byte.toNat), ?_⟩
  rw [ofText_ofList, List.map_map]
  · symm
    rw [← List.map_id' bytes, List.map_map]
    apply List.map_congr_left
    intro byte member
    simp [valid byte member]
  · intro character member
    obtain ⟨byte, isByte, rfl⟩ := List.mem_map.mp member
    rw [valid byte isByte]
    exact ascii byte isByte

end Bytes

/-! ## Decimal numbers -/

namespace Decimal

theorem digit?_of_isDigit {character : Char} (isDigit : character.isDigit = true) :
    digit? character = some (character.toNat - '0'.toNat) := by
  have bounds : '0' ≤ character ∧ character ≤ '9' := Char.isDigit_iff_toNat.mp isDigit
  rw [digit?, if_pos bounds]

theorem digits?_of_isDigit {characters : List Char}
    (isDigit : ∀ character ∈ characters, character.isDigit = true) (value : Nat) :
    digits? value characters = some (Nat.ofDigitChars 10 characters value) := by
  induction characters generalizing value with
  | nil => rfl
  | cons first rest ih =>
      rw [List.forall_mem_cons] at isDigit
      rw [digits?, digit?_of_isDigit isDigit.1, Nat.ofDigitChars_cons, Nat.mul_comm 10]
      exact ih isDigit.2 _

theorem natural?_toDigits (number : Nat) : natural? (Nat.toDigits 10 number) = some number := by
  have isDigit : ∀ character ∈ Nat.toDigits 10 number, character.isDigit = true :=
    fun _ member => Nat.isDigit_of_mem_toDigits (by decide) (by decide) member
  have read := digits?_of_isDigit isDigit 0
  rw [Nat.ofDigitChars_toDigits (by decide) (by decide)] at read
  have nonempty : Nat.toDigits 10 number ≠ [] := Nat.toDigits_ne_nil
  unfold natural?
  split
  next empty => exact absurd empty nonempty
  next plus => exact absurd (isDigit '+' (by simp [plus])) (by decide)
  next rest plus => exact absurd (isDigit '+' (by simp [plus])) (by decide)
  next => exact read

/-- A word that is written is read again. -/
theorem word?_toString (word : UInt64) : word? (toString word.toNat).toList = some word := by
  have written : (toString word.toNat).toList = Nat.toDigits 10 word.toNat :=
    String.toList_ofList
  rw [written, word?, natural?_toDigits]
  simp [word.toNat_lt_size]

/-- A text that is read as a number: digits, at least one, and maybe a plus sign before them. -/
def Writes (characters : List Char) (number : Nat) : Prop :=
  ∃ digits, (characters = digits ∨ characters = '+' :: digits) ∧ digits ≠ [] ∧
    (∀ character ∈ digits, character.isDigit = true) ∧ Nat.ofDigitChars 10 digits 0 = number

theorem isDigit_of_digit? {character : Char} {digit : Nat}
    (read : digit? character = some digit) : character.isDigit = true := by
  unfold digit? at read
  split at read
  next bounds => exact Char.isDigit_iff_toNat.mpr bounds
  next => cases read

theorem digits?_eq_some_iff {characters : List Char} {value number : Nat} :
    digits? value characters = some number ↔
      (∀ character ∈ characters, character.isDigit = true) ∧
        Nat.ofDigitChars 10 characters value = number := by
  constructor
  · intro read
    have isDigit : ∀ character ∈ characters, character.isDigit = true := by
      induction characters generalizing value with
      | nil => exact fun _ member => absurd member List.not_mem_nil
      | cons first rest ih =>
          rw [digits?] at read
          split at read
          next digit isFirst =>
            exact List.forall_mem_cons.mpr ⟨isDigit_of_digit? isFirst, ih read⟩
          next => cases read
    rw [digits?_of_isDigit isDigit] at read
    exact ⟨isDigit, Option.some.inj read⟩
  · rintro ⟨isDigit, rfl⟩
    exact digits?_of_isDigit isDigit value

theorem natural?_eq_some_iff {characters : List Char} {number : Nat} :
    natural? characters = some number ↔ Writes characters number := by
  have plus : ¬ '+'.isDigit = true := by decide
  unfold Writes
  constructor
  · intro read
    unfold natural? at read
    split at read
    next => cases read
    next => cases read
    next rest notAlone =>
      exact ⟨rest, .inr rfl, fun isEmpty => notAlone isEmpty, digits?_eq_some_iff.mp read⟩
    next nonempty _ _ =>
      exact ⟨characters, .inl rfl, nonempty, digits?_eq_some_iff.mp read⟩
  · rintro ⟨digits, rfl | rfl, nonempty, written⟩
    · unfold natural?
      split
      next => exact absurd rfl nonempty
      next => exact absurd (written.1 '+' List.mem_cons_self) plus
      next => exact absurd (written.1 '+' List.mem_cons_self) plus
      next => exact digits?_eq_some_iff.mpr written
    · unfold natural?
      split
      next isNil => cases isNil
      next isPlus => exact absurd (List.cons.inj isPlus).2 nonempty
      next rest isCons =>
        cases isCons
        exact digits?_eq_some_iff.mpr written
      next differs => exact absurd rfl (differs digits)

theorem word?_eq_some_iff {characters : List Char} {word : UInt64} :
    word? characters = some word ↔ Writes characters word.toNat := by
  unfold word?
  rw [← natural?_eq_some_iff]
  split
  next value read =>
    rw [read, Option.some.injEq]
    split
    next fits =>
      rw [Option.some.injEq]
      constructor
      · rintro rfl
        rw [UInt64.toNat_ofNat_of_lt' fits]
      · rintro rfl
        exact UInt64.ofNat_toNat
    next large =>
      constructor
      · exact nofun
      · rintro rfl
        exact absurd word.toNat_lt_size large
  next read =>
    rw [read]
    exact ⟨nofun, nofun⟩

/-- A number is written in ASCII digits. -/
theorem ofText_toString (number : Nat) : Bytes.ofText (toString number) =
    (Nat.toDigits 10 number).map fun character => UInt8.ofNat character.toNat := by
  apply Bytes.ofText_ofList
  intro character member
  have isDigit : 48 ≤ character.toNat ∧ character.toNat ≤ 57 := Char.isDigit_iff_toNat.mp
    (Nat.isDigit_of_mem_toDigits (by decide) (by decide) member)
  omega

theorem mem_ofText_toString {number : Nat} {byte : UInt8}
    (member : byte ∈ Bytes.ofText (toString number)) : 0x30 ≤ byte ∧ byte ≤ 0x39 := by
  rw [ofText_toString, List.mem_map] at member
  obtain ⟨character, digit, rfl⟩ := member
  obtain ⟨low, high⟩ := Char.isDigit_iff_toNat.mp
    (Nat.isDigit_of_mem_toDigits (by decide) (by decide) digit)
  have small : character.toNat < UInt8.size := Nat.lt_of_le_of_lt high (by decide)
  rw [UInt8.le_iff_toNat_le, UInt8.le_iff_toNat_le, UInt8.toNat_ofNat_of_lt' small]
  exact ⟨low, high⟩

end Decimal

namespace FileBacklog

/-! ## Escapes -/

theorem exists_fin_of_lt {value : UInt8} (small : value < 16) :
    ∃ digit : Fin 16, value = UInt8.ofNat digit :=
  ⟨⟨value.toNat, UInt8.lt_iff_toNat_lt.mp small⟩, UInt8.ofNat_toNat.symm⟩

theorem isPlain_hexDigit {value : UInt8} (small : value < 16) :
    isPlain (hexDigit value) = true := by
  obtain ⟨digit, rfl⟩ := exists_fin_of_lt small
  revert digit
  decide

theorem hexDigit_injective {left right : UInt8} (leftSmall : left < 16) (rightSmall : right < 16)
    (same : hexDigit left = hexDigit right) : left = right := by
  obtain ⟨leftDigit, rfl⟩ := exists_fin_of_lt leftSmall
  obtain ⟨rightDigit, rfl⟩ := exists_fin_of_lt rightSmall
  revert leftDigit rightDigit
  decide

theorem div_lt_sixteen (byte : UInt8) : byte / 16 < 16 := by
  have bound := byte.toNat_lt
  rw [UInt8.lt_iff_toNat_lt, UInt8.toNat_div]
  change byte.toNat / 16 < 16
  omega

theorem mod_lt_sixteen (byte : UInt8) : byte % 16 < 16 := by
  rw [UInt8.lt_iff_toNat_lt, UInt8.toNat_mod]
  exact Nat.mod_lt _ (by decide)

theorem eq_of_div_of_mod {left right : UInt8} (high : left / 16 = right / 16)
    (low : left % 16 = right % 16) : left = right := by
  rw [← UInt8.toNat_inj, UInt8.toNat_div, UInt8.toNat_div] at high
  rw [← UInt8.toNat_inj, UInt8.toNat_mod, UInt8.toNat_mod] at low
  change left.toNat / 16 = right.toNat / 16 at high
  change left.toNat % 16 = right.toNat % 16 at low
  apply UInt8.toNat_inj.mp
  omega

/-- What stands for a byte in a file name stands for no other byte. -/
theorem escapeByte_inj {left right : UInt8} {leftRest rightRest : Bytes}
    (same : escapeByte left ++ leftRest = escapeByte right ++ rightRest) :
    left = right ∧ leftRest = rightRest := by
  -- The mark of an escape is not plain.
  have mark : isPlain 0x25 = false := by decide
  unfold escapeByte at same
  split at same
  next leftPlain =>
    split at same
    next => exact List.cons.inj same
    next =>
      rw [(List.cons.inj same).1, mark] at leftPlain
      cases leftPlain
  next =>
    split at same
    next rightPlain =>
      rw [← (List.cons.inj same).1, mark] at rightPlain
      cases rightPlain
    next =>
      simp only [List.cons_append, List.nil_append, List.cons.injEq, true_and] at same
      obtain ⟨high, low, rest⟩ := same
      constructor
      · apply eq_of_div_of_mod
        · exact hexDigit_injective (div_lt_sixteen _) (div_lt_sixteen _) high
        · exact hexDigit_injective (mod_lt_sixteen _) (mod_lt_sixteen _) low
      · exact rest

theorem escapeByte_ne_nil (byte : UInt8) : escapeByte byte ≠ [] := by
  unfold escapeByte
  split <;> exact List.cons_ne_nil _ _

theorem flatMap_escapeByte_injective {left right : Bytes}
    (same : left.flatMap escapeByte = right.flatMap escapeByte) : left = right := by
  induction left generalizing right with
  | nil =>
      cases right with
      | nil => rfl
      | cons first rest => simp [escapeByte_ne_nil] at same
  | cons first rest ih =>
      cases right with
      | nil => simp [escapeByte_ne_nil] at same
      | cons other others =>
          obtain ⟨rfl, sameRest⟩ := escapeByte_inj same
          rw [ih sameRest]

/-- Different texts have different escapes. -/
theorem escape_injective {left right : String} (same : escape left = escape right) :
    left = right :=
  Bytes.ofText_injective (flatMap_escapeByte_injective same)

/-- An escape consists of plain bytes and marks. -/
theorem mem_escape {text : String} {byte : UInt8} (member : byte ∈ escape text) :
    isPlain byte = true ∨ byte = 0x25 := by
  obtain ⟨original, _, inside⟩ := List.mem_flatMap.mp member
  unfold escapeByte at inside
  split at inside
  next plain =>
    rw [List.mem_singleton] at inside
    exact Or.inl (inside ▸ plain)
  next =>
    simp only [List.mem_cons, List.not_mem_nil, or_false] at inside
    rcases inside with rfl | rfl | rfl
    · exact Or.inr rfl
    · exact Or.inl (isPlain_hexDigit (div_lt_sixteen _))
    · exact Or.inl (isPlain_hexDigit (mod_lt_sixteen _))

theorem toNat_lt_of_isPlain {byte : UInt8} (plain : isPlain byte = true) : byte.toNat < 128 := by
  simp only [isPlain, Bool.or_eq_true, Bool.and_eq_true, decide_eq_true_eq, beq_iff_eq,
    UInt8.le_iff_toNat_le] at plain
  rcases plain with (((⟨_, high⟩ | ⟨_, high⟩) | ⟨_, high⟩) | rfl) | rfl
  · exact Nat.lt_of_le_of_lt high (by decide)
  · exact Nat.lt_of_le_of_lt high (by decide)
  · exact Nat.lt_of_le_of_lt high (by decide)
  · decide
  · decide

/-! ## Directories and files -/

/-- Different targets have different directories. -/
theorem directoryName_injective {left right : Peer}
    (same : directoryName left = directoryName right) : left = right := by
  have server : Bytes.ofText "server" = [0x73, 0x65, 0x72, 0x76, 0x65, 0x72] := by decide
  have client : Bytes.ofText "client-" = [0x63, 0x6c, 0x69, 0x65, 0x6e, 0x74, 0x2d] := by decide
  cases left with
  | server =>
      cases right with
      | server => rfl
      | client id => simp [directoryName, server, client] at same
  | client id =>
      cases right with
      | server => simp [directoryName, server, client] at same
      | client other => rw [escape_injective (List.append_cancel_left same)]

variable (id : UInt64) (name : String)

theorem ne_dash_of_mem {byte : UInt8} (member : byte ∈ Bytes.ofText (toString id.toNat)) :
    (byte != 0x2d) = true := by
  obtain ⟨low, _⟩ := Decimal.mem_ofText_toString member
  rw [bne_iff_ne]
  rintro rfl
  exact absurd low (by decide)

theorem takeWhile_fileName :
    (fileName id name).takeWhile (· != 0x2d) = Bytes.ofText (toString id.toNat) := by
  rw [fileName, List.takeWhile_append_of_pos fun _ member => ne_dash_of_mem id member]
  simp

theorem dropWhile_fileName :
    (fileName id name).dropWhile (· != 0x2d) = 0x2d :: escape name := by
  rw [fileName, List.dropWhile_append_of_pos fun _ member => ne_dash_of_mem id member]
  simp

theorem mem_fileName {byte : UInt8} (member : byte ∈ fileName id name) :
    isPlain byte = true ∨ byte = 0x25 := by
  rw [fileName, List.mem_append, List.mem_cons] at member
  rcases member with digit | rfl | escaped
  · obtain ⟨low, high⟩ := Decimal.mem_ofText_toString digit
    simp [isPlain, low, high]
  · decide
  · exact mem_escape escaped

/-- A file name is ASCII and so a text. -/
theorem exists_ofText_fileName : ∃ text, fileName id name = Bytes.ofText text := by
  apply Bytes.exists_ofText
  intro byte member
  rcases mem_fileName id name member with plain | rfl
  · exact toNat_lt_of_isPlain plain
  · decide

theorem head?_fileName_ne : (fileName id name).head? ≠ some 0x2e := by
  intro isPoint
  rcases mem_fileName id name (List.mem_of_mem_head? isPoint) with plain | isMark
  · exact absurd plain (by decide)
  · exact absurd isMark (by decide)

/-- The file of a call, with what its name says. -/
def Candidate.of (call : Call) : Candidate :=
  ⟨call.id, escape call.name, fileName call.id call.name⟩

/-- The name of the file of a call tells its id and its method. -/
theorem ofName?_fileName :
    Candidate.ofName? (fileName id name) = some ⟨id, escape name, fileName id name⟩ := by
  obtain ⟨text, isText⟩ := exists_ofText_fileName id name
  have decoded : Utf8.decode (fileName id name) = .ok text := Utf8.decode_eq_ok_iff.mpr isText
  simp only [Candidate.ofName?, decoded, head?_fileName_ne, if_false, dropWhile_fileName,
    takeWhile_fileName, Utf8.decode_ofText, Decimal.word?_toString, Option.map_some]

theorem fileName_injective {left right : UInt64} {leftName rightName : String}
    (same : fileName left leftName = fileName right rightName) :
    left = right ∧ leftName = rightName := by
  have candidates := ofName?_fileName left leftName
  rw [same, ofName?_fileName, Option.some.injEq, Candidate.mk.injEq] at candidates
  exact ⟨candidates.1.symm, (escape_injective candidates.2.1).symm⟩

/-- A number is written in ASCII characters, none of them a dash. -/
theorem ne_dash_of_writes {text : String} {number : Nat}
    (writes : Decimal.Writes text.toList number) {byte : UInt8} (member : byte ∈ Bytes.ofText text) :
    (byte != 0x2d) = true := by
  obtain ⟨digits, shape, _, isDigit, _⟩ := writes
  have inRange : ∀ character ∈ text.toList, character.toNat < 128 ∧ character.toNat ≠ 0x2d := by
    have digitsInRange : ∀ character ∈ digits, character.toNat < 128 ∧ character.toNat ≠ 0x2d := by
      intro character isCharacter
      have bounds : 48 ≤ character.toNat ∧ character.toNat ≤ 57 :=
        Char.isDigit_iff_toNat.mp (isDigit character isCharacter)
      omega
    cases shape with
    | inl same =>
        rw [same]
        exact digitsInRange
    | inr same =>
        rw [same, List.forall_mem_cons]
        exact ⟨by decide, digitsInRange⟩
  have written := Bytes.ofText_ofList fun character isCharacter => (inRange character isCharacter).1
  rw [String.ofList_toList] at written
  rw [written] at member
  obtain ⟨character, isCharacter, rfl⟩ := List.mem_map.mp member
  obtain ⟨ascii, noDash⟩ := inRange character isCharacter
  have small : character.toNat < UInt8.size := Nat.lt_trans ascii (by decide)
  rw [bne_iff_ne, ne_eq, ← UInt8.toNat_inj, UInt8.toNat_ofNat_of_lt' small]
  exact noDash

/-- A file that is not complete is not the file of a call. -/
theorem partialName_ne_fileName (file : FileName) : partialName file ≠ fileName id name := by
  intro same
  apply head?_fileName_ne id name
  rw [← same]
  rfl

end FileBacklog

end PeerCalls
