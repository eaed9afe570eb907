/-
# ReplicaDiff.CommandLine.Arguments — reading a command line

Tokens are read from left to right.  Those before the command may raise flags
only; those after it may raise flags again and give values to options.  The value
of an option stands in its token, after an equals sign, or it is the next token,
if that token looks like neither a flag nor an option.

A value in a token of its own is looked at when the next flag or option is met, or
at the end.  So a token that cannot be placed is noticed before a wrong value to
its left.
-/
import ReplicaDiff.CommandLine.Choice

namespace ReplicaDiff.CommandLine

set_option autoImplicit false

/-- What help can be about. -/
inductive Topic where
  | overview
  | command (c : Command)
  /-- The command that gives help. -/
  | help
deriving DecidableEq

/-- What is wrong with a command line. -/
inductive Misuse where
  /-- There is nothing on it. -/
  | empty
  | missingCommand
  | unknownCommand (token : String)
  | unknownArgument (token : String)
  /-- A flag or an option is given twice. -/
  | repeated (name : String)
  | missingValue (c : Choice)
  | badValue (c : Choice) (text : String) (reason : BadValue)
  /-- A value is given to something that takes none. -/
  | unexpectedValue (token : String)
deriving DecidableEq

/-- Why a command line asks for no work. -/
inductive Stop where
  | help (topic : Topic)
  | version
  | misuse (error : Misuse)
deriving DecidableEq

/-- A command line that asks for work. -/
structure Arguments where
  command : Command
  flags : Flags
  choices : Choices

/-- What a name after hyphens stands for. -/
inductive Mark where
  | flag (f : Flag)
  | choice (c : Choice)
  | help
  | version

namespace Mark

/-- What a name after two hyphens stands for, before or after the command. -/
def ofLong? (name : String) (afterCommand : Bool) : Option Mark :=
  match Flag.all.find? (·.long = name) with
  | some f => some (.flag f)
  | none =>
      if name = "help" then some .help
      else if afterCommand then (Choice.all.find? (·.long = name)).map .choice
      else if name = "version" then some .version
      else none

/-- What a character after one hyphen stands for, before or after the command. -/
def ofShort? (c : Char) (afterCommand : Bool) : Option Mark :=
  match Flag.all.find? (·.short? = some c) with
  | some f => some (.flag f)
  | none =>
      if c = 'h' then some .help
      else if afterCommand then (Choice.all.find? (·.short? = some c)).map .choice
      else if c = 'V' then some .version
      else none

end Mark

/-- An option whose value stands in a token of its own, and that token once it has been met. -/
structure Pending where
  choice : Choice
  value : Option String

/-- What the tokens on the left have said. -/
structure Reading where
  /-- The flags before the command. -/
  before : Flags
  command : Option Command
  /-- The flags after the command. -/
  after : Flags
  choices : Choices
  pending : Option Pending
  /-- Whether two hyphens alone have been met, after which nothing is a flag or an option. -/
  plainOnly : Bool

namespace Reading

/-- Nothing has been read. -/
def start : Reading := ⟨{}, none, {}, .none, none, false⟩

/-- What help is about at this place. -/
def topic (r : Reading) : Topic :=
  match r.command with
  | some c => .command c
  | none => .overview

/-- Give an option the value of a text. -/
def assign (r : Reading) (c : Choice) (text : String) : Except Stop Reading :=
  if (r.choices c).isSome then .error (.misuse (.repeated c.long))
  else
    match parseValue text c.kind with
    | .ok value => .ok { r with choices := r.choices.give c value }
    | .error reason => .error (.misuse (.badValue c text reason))

/-- Give the pending option its value. -/
def settle (r : Reading) : Except Stop Reading :=
  match r.pending with
  | none => .ok r
  | some ⟨c, none⟩ => .error (.misuse (.missingValue c))
  | some ⟨c, some text⟩ => assign { r with pending := none } c text

/-- Await the value of an option. -/
def await (r : Reading) (c : Choice) : Except Stop Reading := do
  let r ← r.settle
  .ok { r with pending := some ⟨c, none⟩ }

/-- Give an option the value that stands in its token. -/
def give (r : Reading) (c : Choice) (text : String) : Except Stop Reading := do
  assign (← r.settle) c text

/-- Raise a flag on the side of the command where it stands. -/
def raise (r : Reading) (f : Flag) : Except Stop Reading := do
  let r ← r.settle
  let raised := if r.command.isSome then r.after else r.before
  if raised.has f then .error (.misuse (.repeated f.long))
  else if r.command.isSome then .ok { r with after := r.after.raise f }
  else .ok { r with before := r.before.raise f }

/-- Stop, unless the pending option has no value. -/
def stop (r : Reading) (reason : Stop) : Except Stop Reading := do
  let _ ← r.settle
  .error reason

/-- Take what follows two hyphens. -/
def takeLong (r : Reading) (token name : String) (value : Option String) :
    Except Stop Reading :=
  match Mark.ofLong? name r.command.isSome, value with
  | none, _ => .error (.misuse (.unknownArgument token))
  | some (.choice c), some text => r.give c text
  | some (.choice c), none => r.await c
  | some _, some _ => .error (.misuse (.unexpectedValue token))
  | some (.flag f), none => r.raise f
  | some .help, none => r.stop (.help r.topic)
  | some .version, none => r.stop .version

/-- The value in a token of short names: all that follows the name of an option, less an equals
sign at its front. -/
def attached? : List Char → Option String
  | [] => none
  | '=' :: value => some (String.ofList value)
  | value => some (String.ofList value)

/-- Take what follows one hyphen: flags, and at the end an option. -/
def takeShort (token : String) : Reading → List Char → Except Stop Reading
  | r, [] => .ok r
  | r, c :: rest =>
      match Mark.ofShort? c r.command.isSome with
      | none => .error (.misuse (.unknownArgument token))
      | some (.choice choice) =>
          match attached? rest with
          | some text => r.give choice text
          | none => r.await choice
      | some (.flag f) => do takeShort token (← r.raise f) rest
      | some .help => r.stop (.help r.topic)
      | some .version => r.stop .version

/-- Take a token that is neither a flag nor an option. -/
def takePlain (r : Reading) (token : String) : Except Stop Reading :=
  match r.pending, r.command with
  | some ⟨c, none⟩, _ => .ok { r with pending := some ⟨c, some token⟩ }
  | _, some _ => .error (.misuse (.unknownArgument token))
  | _, none =>
      match Command.ofName? token with
      | some command => .ok { r with command := some command }
      | none => .error (.misuse (.unknownCommand token))

/-- The name of the command that gives help. -/
def helpCommand : String := "help"

/-- Refuse a token where nothing more may stand. -/
def refusePlain (r : Reading) (token : String) : Stop :=
  if r.command.isSome || (Command.ofName? token).isSome || token = helpCommand then
    .misuse (.unknownArgument token)
  else .misuse (.unknownCommand token)

/-- Split a long name from the value after the first equals sign. -/
def splitLong (cs : List Char) : String × Option String :=
  let name := String.ofList (cs.takeWhile (· != '='))
  match cs.dropWhile (· != '=') with
  | [] => (name, none)
  | _ :: value => (name, some (String.ofList value))

/-- Take a token. -/
def take (r : Reading) (token : String) : Except Stop Reading :=
  if r.plainOnly then .error (r.refusePlain token)
  else
    match token.toList with
    | ['-', '-'] => .ok { r with plainOnly := true }
    | '-' :: '-' :: rest =>
        let (name, value) := splitLong rest
        r.takeLong token name value
    | '-' :: c :: rest => takeShort token r (c :: rest)
    | _ => r.takePlain token

/-- What the tokens after the command that gives help ask for. -/
def helpOn (asked : List String) : Stop :=
  match asked with
  | [] => .help .overview
  | token :: rest =>
      let unknown (token : String) : Stop := .misuse (.unknownCommand token)
      match Command.ofName? token, rest with
      | some c, [] => .help (.command c)
      | some _, more :: _ => unknown more
      | none, [] => if token = helpCommand then .help .help else unknown token
      | none, more :: _ => if token = helpCommand then unknown more else unknown token

/-- Whether a token is the command that gives help. -/
def asksForHelp (r : Reading) (token : String) : Bool :=
  token = helpCommand && r.command.isNone && !r.plainOnly

/-- What a whole command line says. -/
def finish (r : Reading) : Except Stop Arguments :=
  match r.command with
  | none => .error (.misuse (if r.before = {} then .empty else .missingCommand))
  | some command => do
      let r ← r.settle
      .ok ⟨command, r.before.union r.after, r.choices⟩

/-- Take the remaining tokens. -/
def takeAll : Reading → List String → Except Stop Arguments
  | r, [] => r.finish
  | r, token :: rest =>
      if r.asksForHelp token then .error (helpOn rest)
      else do takeAll (← r.take token) rest

end Reading

/-- Read the tokens of a command line. -/
def Arguments.read (tokens : List String) : Except Stop Arguments := Reading.start.takeAll tokens

/-- The configuration that a command line asks for: that of the file, or the default one, with the
values of the options in place of its own. -/
def Arguments.config (a : Arguments) (base : Config) : Config := base.override a.choices.overrides

end ReplicaDiff.CommandLine
