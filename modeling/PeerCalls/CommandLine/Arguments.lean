/-!
# Arguments of the command line

The program takes an address, options with values, and flags, in any order. An
option is written `--name value` or `--name=value`; a value that begins with a
dash needs the second form. After `--` nothing is an option any more. An option is
settled when something else follows: until then it is not looked at whether it has
a value, or whether it was given before.
-/

namespace PeerCalls.CommandLine

/-- An option that has a value. -/
inductive ValueOption where
  | clientId
  | backlogDirectory
  deriving Repr, DecidableEq

namespace ValueOption

/-- The option with a name. -/
def ofName? (name : String) : Option ValueOption :=
  if name = "client-id" then some clientId
  else if name = "backlog-dir" then some backlogDirectory
  else none

/-- An option as it is shown, with a word for its value. -/
def text : ValueOption → String
  | clientId => "--client-id <CLIENT_ID>"
  | backlogDirectory => "--backlog-dir <BACKLOG_DIR>"

end ValueOption

/-- An option without a value. -/
inductive Flag where
  | verbose
  | help
  deriving Repr, DecidableEq

namespace Flag

/-- The flag with a name. -/
def ofName? (name : String) : Option Flag :=
  if name = "verbose" then some verbose
  else if name = "help" then some help
  else none

/-- The flag with a letter. -/
def ofLetter? (letter : Char) : Option Flag :=
  if letter = 'v' then some verbose
  else if letter = 'h' then some help
  else none

def text : Flag → String
  | verbose => "--verbose"
  | help => "--help"

end Flag

/-- What a command line asks for. -/
structure Arguments where
  address : Option String
  clientId : Option String
  backlogDirectory : Option String
  isVerbose : Bool
  deriving Repr, DecidableEq, Inhabited

/-- Why there are no arguments. -/
inductive Refusal where
  /-- Somebody asks how the program is used. -/
  | help
  | missingAddress
  | missingValue (option : ValueOption)
  | repeated (argument : String)
  | unexpected (argument : String)
  | unneededValue (flag : Flag) (value : String)
  deriving Repr, DecidableEq

/-- What is wrong with a command line. -/
def Refusal.message : Refusal → String
  | help => ""
  | missingAddress => "the following required arguments were not provided:"
  | missingValue option =>
    "a value is required for '" ++ option.text ++ "' but none was supplied"
  | repeated argument => "the argument '" ++ argument ++ "' cannot be used multiple times"
  | unexpected argument => "unexpected argument '" ++ argument ++ "' found"
  | unneededValue flag value =>
    "unexpected value '" ++ value ++ "' for '" ++ flag.text ++ "' found; no more were expected"

namespace Arguments

def empty : Arguments := ⟨none, none, none, false⟩

/-- The value of an option. -/
def valueOf (arguments : Arguments) : ValueOption → Option String
  | .clientId => arguments.clientId
  | .backlogDirectory => arguments.backlogDirectory

/-- Give a value to an option, once. -/
def assign (arguments : Arguments) (option : ValueOption) (value : String) :
    Except Refusal Arguments :=
  if (arguments.valueOf option).isSome then .error (.repeated option.text)
  else
    match option with
    | .clientId => .ok { arguments with clientId := some value }
    | .backlogDirectory => .ok { arguments with backlogDirectory := some value }

/-- Raise a flag, once. -/
def raise (arguments : Arguments) : Flag → Except Refusal Arguments
  | .help => .error .help
  | .verbose =>
    if arguments.isVerbose then .error (.repeated Flag.verbose.text)
    else .ok { arguments with isVerbose := true }

end Arguments

/-- How far a command line has been read. -/
structure Progress where
  arguments : Arguments
  /-- An option that is not settled, with its value if that has been read. -/
  unsettled : Option (ValueOption × Option String)
  /-- Nothing is an option any more. -/
  isTrailing : Bool
  deriving Repr, DecidableEq, Inhabited

namespace Progress

def start : Progress := ⟨Arguments.empty, none, false⟩

/-- Settle the option that was read last. -/
def settle (progress : Progress) : Except Refusal Progress :=
  match progress.unsettled with
  | none => .ok progress
  | some (option, none) => .error (.missingValue option)
  | some (option, some value) =>
    (progress.arguments.assign option value).map fun arguments =>
      { progress with arguments, unsettled := none }

/-- Read an argument that is no option. -/
def position (progress : Progress) (argument : String) : Except Refusal Progress := do
  if progress.arguments.address.isSome then
    throw (.unexpected argument)
  let settled ← progress.settle
  return { settled with arguments := { settled.arguments with address := some argument } }

/-- Read a flag. -/
def raise (progress : Progress) (flag : Flag) : Except Refusal Progress := do
  let settled ← progress.settle
  return { settled with arguments := ← settled.arguments.raise flag }

/-- Read an option with a name, and with what follows an equals sign. -/
def option (progress : Progress) (name : String) (attached : Option String) :
    Except Refusal Progress :=
  match ValueOption.ofName? name, Flag.ofName? name, attached with
  | some option, _, some value => do
    let settled ← progress.settle
    return { settled with arguments := ← settled.arguments.assign option value }
  | some option, _, none => do
    return { ← progress.settle with unsettled := some (option, none) }
  | none, some flag, some value => throw (.unneededValue flag value)
  | none, some flag, none => progress.raise flag
  | none, none, _ => throw (.unexpected ("--" ++ name))

/-- Read flags that are given by their letters. -/
def letters : Progress → List Char → Except Refusal Progress
  | progress, [] => .ok progress
  | progress, letter :: rest =>
    match Flag.ofLetter? letter with
    | some flag => do (← progress.raise flag).letters rest
    | none => .error (.unexpected (String.ofList ['-', letter]))

/-- Name and attached value of an option. -/
def splitOption (characters : List Char) : String × Option String :=
  let name := String.ofList (characters.takeWhile (· != '='))
  match characters.dropWhile (· != '=') with
  | [] => (name, none)
  | _ :: value => (name, some (String.ofList value))

/-- Read an argument without a dash at its front: the value of the option before
it, or an address. -/
def plain (progress : Progress) (argument : String) : Except Refusal Progress :=
  match progress.unsettled with
  | some (option, none) => .ok { progress with unsettled := some (option, some argument) }
  | _ => progress.position argument

/-- Read one argument. -/
def read (progress : Progress) (argument : String) : Except Refusal Progress :=
  if progress.isTrailing then progress.position argument
  else
    match argument.toList with
    | ['-'] => progress.plain argument
    | ['-', '-'] => .ok { progress with isTrailing := true }
    | '-' :: '-' :: characters =>
      let (name, attached) := splitOption characters
      progress.option name attached
    | '-' :: characters => progress.letters characters
    | _ => progress.plain argument

end Progress

/-- Read a command line. -/
def Arguments.parse (written : List String) : Except Refusal Arguments := do
  let progress ← (← written.foldlM Progress.read Progress.start).settle
  if progress.arguments.address.isNone then
    throw .missingAddress
  return progress.arguments

end PeerCalls.CommandLine
