import PeerCalls.Text.Hexadecimal

/-!
# Socket addresses

An address is a host and a port: `1.2.3.4:5` or `[::1]:5`. `parse?` reads both
forms, and `text` writes them back, an IPv6 host with its longest run of zero
groups left out.
-/

namespace PeerCalls

/-- A numeric host address. -/
inductive Host where
  | v4 (first second third fourth : UInt8)
  | v6 (groups : List UInt16) (scope : UInt32)
  deriving Repr, DecidableEq, Inhabited

/-- A host and a port. -/
structure Address where
  host : Host
  port : UInt16
  deriving Repr, DecidableEq, Inhabited

namespace Host

/-- Four numbers with points between them. -/
def dotted (first second third fourth : Nat) : String :=
  toString first ++ "." ++ toString second ++ "." ++ toString third ++ "."
    ++ toString fourth

/-- A group of an IPv6 address in hexadecimal. -/
def groupText (group : UInt16) : String :=
  String.ofList (Nat.toDigits 16 group.toNat)

/-- Groups with colons between them. -/
def groupsText (groups : List UInt16) : String :=
  ":".intercalate (groups.map groupText)

/-- Start and length of the first of the longest runs of zero groups. `start` and
`length` describe the run that ends just before `index`. -/
def longestZeros : List UInt16 → (index start length : Nat) → (best : Nat × Nat) → Nat × Nat
  | [], _, _, _, best => best
  | group :: rest, index, start, length, best =>
    if group = 0 then
      let start := if length = 0 then index else start
      let best := if length + 1 > best.2 then (start, length + 1) else best
      longestZeros rest (index + 1) start (length + 1) best
    else longestZeros rest (index + 1) start 0 best

/-- An IPv6 host: an embedded IPv4 address is written with points, and the
longest run of at least two zero groups as a pair of colons. -/
def textV6 (groups : List UInt16) : String :=
  match groups with
  | [0, 0, 0, 0, 0, 0xffff, high, low] =>
    "::ffff:" ++ dotted (high.toNat / 256) (high.toNat % 256) (low.toNat / 256)
      (low.toNat % 256)
  | _ =>
    let (start, length) := longestZeros groups 0 0 0 (0, 0)
    if length > 1 then
      groupsText (groups.take start) ++ "::" ++ groupsText (groups.drop (start + length))
    else groupsText groups

end Host

namespace Address

/-- An address as it is written. -/
def text (address : Address) : String :=
  let port := ":" ++ toString address.port.toNat
  match address.host with
  | .v4 first second third fourth =>
    Host.dotted first.toNat second.toNat third.toNat fourth.toNat ++ port
  | .v6 groups scope =>
    let zone := if scope = 0 then "" else "%" ++ toString scope.toNat
    "[" ++ Host.textV6 groups ++ zone ++ "]" ++ port

/-- The value of a digit in a base up to sixteen. -/
def digit? (base : Nat) (character : Char) : Option Nat :=
  (Hexadecimal.value? character).filter (· < base)

/-- The digits at the front of a text, at most `fuel` of them: how many there
are, their value, and what follows. -/
def digits (base : Nat) : (fuel count value : Nat) → List Char → Nat × Nat × List Char
  | 0, count, value, rest => (count, value, rest)
  | _, count, value, [] => (count, value, [])
  | fuel + 1, count, value, character :: rest =>
    match digit? base character with
    | some digit => digits base fuel (count + 1) (value * base + digit) rest
    | none => (count, value, character :: rest)

/-- A number below `bound` at the front of a text. A number limited to
`maxDigits` digits is refused if another digit follows. -/
def number? (base bound : Nat) (maxDigits : Option Nat) (characters : List Char) :
    Option (Nat × List Char) :=
  let (count, value, rest) := digits base characters.length 0 0 characters
  if count = 0 ∨ bound ≤ value ∨ maxDigits.any (· < count) then none
  else some (value, rest)

/-- One byte of an IPv4 address: up to three digits, no leading zero. -/
def octet? (characters : List Char) : Option (UInt8 × List Char) :=
  match characters with
  | '0' :: next :: rest =>
    if (digit? 10 next).isSome then none else some (0, next :: rest)
  | _ => (number? 10 256 (some 3) characters).map fun (value, rest) => (UInt8.ofNat value, rest)

/-- A given character at the front of a text. -/
def skip? (expected : Char) : List Char → Option (List Char)
  | character :: rest => if character = expected then some rest else none
  | [] => none

/-- An IPv4 host at the front of a text. -/
def hostV4? (characters : List Char) : Option ((UInt8 × UInt8 × UInt8 × UInt8) × List Char) := do
  let (first, rest) ← octet? characters
  let (second, rest) ← octet? (← skip? '.' rest)
  let (third, rest) ← octet? (← skip? '.' rest)
  let (fourth, rest) ← octet? (← skip? '.' rest)
  return ((first, second, third, fourth), rest)

/-- Up to `limit` groups of an IPv6 host, with colons between them; the last two
may be an IPv4 host. Says whether they were. -/
def groups : (limit : Nat) → (isFirst : Bool) → List Char → List UInt16 × Bool × List Char
  | 0, _, characters => ([], false, characters)
  | limit + 1, isFirst, characters =>
    match if isFirst then some characters else skip? ':' characters with
    | none => ([], false, characters)
    | some body =>
      match if limit = 0 then none else hostV4? body with
      | some ((first, second, third, fourth), rest) =>
        ([UInt16.ofNat (first.toNat * 256 + second.toNat),
          UInt16.ofNat (third.toNat * 256 + fourth.toNat)], true, rest)
      | none =>
        match number? 16 65536 (some 4) body with
        | none => ([], false, characters)
        | some (group, rest) =>
          let (more, embedded, rest) := groups limit false rest
          (UInt16.ofNat group :: more, embedded, rest)

/-- An IPv6 host at the front of a text: eight groups, or fewer around a pair of
colons that stands for at least one zero group. -/
def hostV6? (characters : List Char) : Option (List UInt16 × List Char) := do
  let (head, embedded, rest) := groups 8 true characters
  if head.length = 8 then
    return (head, rest)
  else if embedded then
    none
  else
    let rest ← skip? ':' (← skip? ':' rest)
    let (tail, _, rest) := groups (8 - (head.length + 1)) true rest
    return (head ++ List.replicate (8 - head.length - tail.length) 0 ++ tail, rest)

/-- The scope of an IPv6 host, after a percent sign. -/
def scope? (characters : List Char) : Option (UInt32 × List Char) :=
  match characters with
  | '%' :: rest =>
    (number? 10 UInt32.size none rest).map fun (value, rest) => (UInt32.ofNat value, rest)
  | _ => some (0, characters)

/-- A colon and a port, up to the end of the text. -/
def port? (characters : List Char) : Option UInt16 := do
  let (value, rest) ← number? 10 65536 none (← skip? ':' characters)
  if rest.isEmpty then some (UInt16.ofNat value) else none

/-- Read an address. -/
def parse? (written : String) : Option Address :=
  match written.toList with
  | '[' :: characters => do
    let (host, rest) ← hostV6? characters
    let (scope, rest) ← scope? rest
    let port ← port? (← skip? ']' rest)
    return ⟨.v6 host scope, port⟩
  | characters => do
    let ((first, second, third, fourth), rest) ← hostV4? characters
    let port ← port? rest
    return ⟨.v4 first second third fourth, port⟩

end Address

end PeerCalls
