import PeerCalls.Service.Arithmetic
import PeerCalls.Text.Utf8

/-!
# A service of samples

Methods that show each way in which an execution can end: at once or late, with a
small or a large value, with an error, or by breaking down. What it does not know
is left to arithmetic.
-/

namespace PeerCalls.Sampler

/-- React to the number in the first parameter: without one, break down. -/
def withNumber (invocation : Invocation) (react : Nat → Reaction) : Reaction :=
  match invocation.params with
  | [] => .atOnce .broken
  | first :: _ =>
    match Arithmetic.decode first with
    | .ok number => react number.toNat
    | .error fault => .atOnce (.failed fault.message)

/-- The text in a parameter, with a mark for bytes that are no text. -/
def textIn (param : Bytes) : String :=
  match Utf8.decode param with
  | .ok text => text
  | .error _ => "\ufffd"

/-- A text of one character, several times. -/
def repeated (count : Nat) (character : Char) : String :=
  String.ofList (List.replicate count character)

/-- React to an invocation. -/
def service : Service := fun contact invocation =>
  let first := invocation.params.head?
  match invocation.name with
  | "Echo" => .atOnce ((first.map Conclusion.value).getD .broken)
  | "Void" => .atOnce (.value [])
  | "Fail" => .atOnce (.failed ((first.map textIn).getD ""))
  | "Context" => .atOnce (.failed "outer")
  | "Panic" => .atOnce .broken
  | "Who" => .atOnce (.value (Bytes.ofText contact.peer.text))
  | "Big" => withNumber invocation fun count => .atOnce (.value (List.replicate count 0xab))
  | "BigFail" => withNumber invocation fun count => .atOnce (.failed (repeated count 'x'))
  | "Slow" =>
    withNumber invocation fun milliseconds =>
      ⟨Span.ofMilliseconds milliseconds, .value ((invocation.params[1]?).getD [])⟩
  | "SlowFail" =>
    withNumber invocation fun milliseconds =>
      ⟨Span.ofMilliseconds milliseconds, .failed "slow failure"⟩
  | _ => Arithmetic.service contact invocation

end PeerCalls.Sampler
