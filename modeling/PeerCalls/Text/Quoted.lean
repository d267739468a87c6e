/-!
# Quoted text

Messages show foreign text between quotation marks, so that it cannot be
mistaken for a part of the message: a mark of the same kind, a backslash and the
characters without a glyph are written as escapes.
-/

namespace PeerCalls.Quoted

/-- Characters that are written by their number: the controls, the space that
does not break, and the hyphen that shows only at the end of a line. -/
def isHidden (character : Char) : Bool :=
  character.toNat < 0x20 || (0x7f ≤ character.toNat && character.toNat ≤ 0xa0)
    || character.toNat == 0xad

/-- A number in hexadecimal, lower case, without leading zeros. -/
def hexadecimal (number : Nat) : String :=
  String.ofList (Nat.toDigits 16 number)

/-- One character inside quotation marks of the given kind. -/
def escape (mark character : Char) : String :=
  if character = '\x00' then "\\0"
  else if character = '\t' then "\\t"
  else if character = '\r' then "\\r"
  else if character = '\n' then "\\n"
  else if character = '\\' then "\\\\"
  else if character = mark then "\\" ++ mark.toString
  else if isHidden character then "\\u\x7b" ++ hexadecimal character.toNat ++ "\x7d"
  else character.toString

/-- A text in double quotation marks. -/
def text (content : String) : String :=
  "\"" ++ content.foldl (fun written character => written ++ escape '"' character) ""
    ++ "\""

/-- A character in single quotation marks. -/
def char (content : Char) : String :=
  "'" ++ escape '\'' content ++ "'"

/-- A byte as the character with its number, in single quotation marks. -/
def byte (content : UInt8) : String :=
  char (Char.ofNat content.toNat)

end PeerCalls.Quoted
