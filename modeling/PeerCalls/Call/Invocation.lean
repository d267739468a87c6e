import PeerCalls.Bytes
import PeerCalls.Text.Quoted

/-!
# Method invocations

What goes over the wire for one call: its id, the name of the method and the
parameters. The frame format ends a name with a semicolon, counts parameters in
one byte and their lengths in four, so `Invocation.make` admits exactly what fits
(`make_eq_ok_iff`).
-/

namespace PeerCalls

/-- One remote method call. Parameters are opaque byte strings. -/
structure Invocation where
  id : UInt64
  name : String
  params : List Bytes
  deriving Repr, DecidableEq, Inhabited

namespace Invocation

/-- The byte that ends a method name in a frame. -/
def delimiter : UInt8 := 0x3b

/-- The most parameters of one call. -/
def maxParams : Nat := 255

/-- The longest field whose length fits four bytes. -/
def maxFieldLength : Nat := UInt32.size - 1

/-- Why an invocation does not fit the frame format. -/
inductive Fault where
  | reservedName (name : String)
  | tooManyParams (name : String) (count : Nat)
  | longParam (name : String) (index length : Nat)
  deriving Repr, DecidableEq

def Fault.message : Fault → String
  | reservedName name =>
    "method name " ++ Quoted.text name ++ " contains the reserved delimiter "
      ++ Quoted.byte delimiter
  | tooManyParams name count =>
    "method " ++ Quoted.text name ++ " has " ++ toString count
      ++ " parameters, the maximum is " ++ toString maxParams
  | longParam name index length =>
    "parameter " ++ toString index ++ " of method " ++ Quoted.text name ++ " has "
      ++ toString length ++ " bytes, the maximum is " ++ toString maxFieldLength

/-- Position and length of the first parameter that is too long. -/
def longParam? : (index : Nat) → List Bytes → Option (Nat × Nat)
  | _, [] => none
  | index, param :: rest =>
    if param.length ≤ maxFieldLength then longParam? (index + 1) rest
    else some (index, param.length)

/-- An invocation, if it fits the frame format. -/
def make (id : UInt64) (name : String) (params : List Bytes) : Except Fault Invocation :=
  if delimiter ∈ Bytes.ofText name then .error (.reservedName name)
  else if params.length > maxParams then .error (.tooManyParams name params.length)
  else
    match longParam? 0 params with
    | some (index, length) => .error (.longParam name index length)
    | none => .ok ⟨id, name, params⟩

/-- The invocations that have a frame. -/
structure Admissible (invocation : Invocation) : Prop where
  name : delimiter ∉ Bytes.ofText invocation.name
  params : invocation.params.length ≤ maxParams
  lengths : ∀ param ∈ invocation.params, param.length ≤ maxFieldLength

theorem longParam?_eq_none_iff {index : Nat} {params : List Bytes} :
    longParam? index params = none ↔ ∀ param ∈ params, param.length ≤ maxFieldLength := by
  induction params generalizing index with
  | nil => simp [longParam?]
  | cons param rest ih =>
    unfold longParam?
    split
    next fits => simp [ih, fits]
    next long => simp [long]

/-- `make` admits an invocation exactly if it has a frame. -/
theorem make_eq_ok_iff {id : UInt64} {name : String} {params : List Bytes}
    {invocation : Invocation} :
    make id name params = .ok invocation ↔
      invocation = ⟨id, name, params⟩ ∧ invocation.Admissible := by
  constructor
  · intro made
    unfold make at made
    split at made
    · cases made
    next nameFits =>
      split at made
      · cases made
      next countFits =>
        split at made
        · cases made
        next lengthsFit =>
          cases made
          exact ⟨rfl, nameFits, Nat.le_of_not_lt countFits, longParam?_eq_none_iff.mp lengthsFit⟩
  · rintro ⟨rfl, nameFits, countFits, lengthsFit⟩
    have countFits : ¬ params.length > maxParams := by simpa using countFits
    simp [make, nameFits, countFits, longParam?_eq_none_iff.mpr lengthsFit]

end Invocation

end PeerCalls
