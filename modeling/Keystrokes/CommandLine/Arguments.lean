import Keystrokes.Keyboard.Platform
import Keystrokes.Toml.Number

/-!
# The arguments of the command

Options are long, such as `--timeout 500` or `--timeout=500`, or short, such as
`-t 500`, `-t500` or `-t=500`; short options without a value may be joined.  An
option is given once.  The value of an option is looked at when the next option
has been recognised, or at the end, so an argument that is not known is reported
before a faulty value in front of it.
-/

set_option autoImplicit false

namespace Keystrokes

/-! ## Arguments -/

/-- What the arguments ask for. -/
structure Arguments where
  /-- The keymap file; the user's own when none is named. -/
  config : Option String := none
  /-- Only report on the keymap. -/
  checkConfig : Bool := false
  /-- A timeout in place of the keymap's. -/
  timeout : Option Nat := none
  /-- A platform in place of the keymap's. -/
  platform : Option Platform := none
  /-- The written shortcut that ends listening. -/
  quit : String := "Control+c"
  /-- Write more to the log. -/
  verbose : Bool := false
  deriving DecidableEq

/-- Why the arguments lead to no run of the command. -/
inductive UsageError where
  /-- A value is not of the kind that its option takes. -/
  | valueValidation
  /-- An option is without its value, or its value is empty. -/
  | invalidValue
  | unknownArgument
  /-- An option is given twice. -/
  | argumentConflict
  /-- An option that takes no value is given one. -/
  | tooManyValues
  /-- Help is asked for. -/
  | displayHelp
  /-- The version is asked for. -/
  | displayVersion
  deriving DecidableEq

namespace UsageError

/-- The name of the kind of error. -/
def name : UsageError → String
  | .valueValidation => "ValueValidation"
  | .invalidValue => "InvalidValue"
  | .unknownArgument => "UnknownArgument"
  | .argumentConflict => "ArgumentConflict"
  | .tooManyValues => "TooManyValues"
  | .displayHelp => "DisplayHelp"
  | .displayVersion => "DisplayVersion"

/-- The exit code: asking for help or the version is no fault. -/
def exitCode : UsageError → Nat
  | .displayHelp | .displayVersion => 0
  | _ => 2

end UsageError

/-- An option that takes a value. -/
inductive ValueOption where
  | config
  | timeout
  | platform
  | quit
  deriving DecidableEq

/-- An option without a value. -/
inductive Switch where
  | checkConfig
  | verbose
  | help
  | version
  deriving DecidableEq

/-- An option of either sort. -/
inductive ArgumentName where
  | value (option : ValueOption)
  | switch (switch : Switch)
  deriving DecidableEq

namespace ArgumentName

/-- The option of a long name. -/
def ofLong? : String → Option ArgumentName
  | "config" => some (.value .config)
  | "timeout" => some (.value .timeout)
  | "platform" => some (.value .platform)
  | "quit" => some (.value .quit)
  | "check-config" => some (.switch .checkConfig)
  | "verbose" => some (.switch .verbose)
  | "help" => some (.switch .help)
  | "version" => some (.switch .version)
  | _ => none

/-- The option of a letter. -/
def ofShort? : Char → Option ArgumentName
  | 'c' => some (.value .config)
  | 't' => some (.value .timeout)
  | 'p' => some (.value .platform)
  | 'q' => some (.value .quit)
  | 'v' => some (.switch .verbose)
  | 'h' => some (.switch .help)
  | 'V' => some (.switch .version)
  | _ => none

end ArgumentName

/-! ## Reading the arguments -/

/-- A number of 64 bits; a plus sign may stand in front. -/
def timeoutValue? (text : String) : Option Nat :=
  let digits := match text.toList with
    | '+' :: digits => digits
    | digits => digits
  if digits.isEmpty || !digits.all Char.isDigit then none
  else
    let value := Toml.numberOf 10 digits
    if value < Nat.pow 2 64 then some value else none

/-- Arguments read so far. -/
structure ArgumentDraft where
  arguments : Arguments := {}
  /-- The options given so far. -/
  given : List ArgumentName := []
  /-- An option that takes its value from the arguments to come, with the value if
  it has come. -/
  waiting : Option (ValueOption × Option String) := none
  deriving DecidableEq

namespace ArgumentDraft

/-- An option is given: for the second time, it conflicts with itself. -/
def give (draft : ArgumentDraft) (name : ArgumentName) : Except UsageError ArgumentDraft :=
  if draft.given.contains name then .error .argumentConflict
  else .ok { draft with given := name :: draft.given }

/-- Set an option to a value. -/
def assign (draft : ArgumentDraft) (option : ValueOption) (value : String) :
    Except UsageError ArgumentDraft := do
  let draft ← draft.give (.value option)
  let arguments := draft.arguments
  let arguments ← match option with
    | .config =>
        if value.isEmpty then .error .invalidValue else .ok { arguments with config := some value }
    | .timeout =>
        match timeoutValue? value with
        | some timeout => .ok { arguments with timeout := some timeout }
        | none => .error .valueValidation
    | .platform =>
        match Platform.ofName? value with
        | some platform => .ok { arguments with platform := some platform }
        | none => .error .valueValidation
    | .quit => .ok { arguments with quit := value }
  return { draft with arguments }

/-- Look at the option that waits for its value. -/
def settle (draft : ArgumentDraft) : Except UsageError ArgumentDraft :=
  match draft.waiting with
  | none => .ok draft
  | some (_, none) => .error .invalidValue
  | some (option, some value) => { draft with waiting := none }.assign option value

/-- An option is given with its value. -/
def attach (draft : ArgumentDraft) (option : ValueOption) (value : String) :
    Except UsageError ArgumentDraft := do
  (← draft.settle).assign option value

/-- An option is given, and its value is to come. -/
def await (draft : ArgumentDraft) (option : ValueOption) : Except UsageError ArgumentDraft := do
  return { ← draft.settle with waiting := some (option, none) }

/-- An option without a value is given. -/
def turnOn (draft : ArgumentDraft) (switch : Switch) : Except UsageError ArgumentDraft := do
  let draft ← draft.settle
  match switch with
  | .help => .error .displayHelp
  | .version => .error .displayVersion
  | .checkConfig =>
      let draft ← draft.give (.switch switch)
      return { draft with arguments := { draft.arguments with checkConfig := true } }
  | .verbose =>
      let draft ← draft.give (.switch switch)
      return { draft with arguments := { draft.arguments with verbose := true } }

/-- A long option, read after its two hyphens. -/
def long (draft : ArgumentDraft) (text : List Char) : Except UsageError ArgumentDraft :=
  let name := String.ofList (text.takeWhile (· != '='))
  let value := match text.dropWhile (· != '=') with
    | _ :: value => some (String.ofList value)
    | [] => none
  match ArgumentName.ofLong? name, value with
  | none, _ => .error .unknownArgument
  | some (.value option), some value => draft.attach option value
  | some (.value option), none => draft.await option
  | some (.switch _), some _ => .error .tooManyValues
  | some (.switch switch), none => draft.turnOn switch

/-- Short options, read after their hyphen.  What follows the letter of an option
that takes a value is its value. -/
def short (draft : ArgumentDraft) : List Char → Except UsageError ArgumentDraft
  | [] => .ok draft
  | letter :: rest =>
      match ArgumentName.ofShort? letter with
      | none => .error .unknownArgument
      | some (.value option) =>
          match rest with
          | [] => draft.await option
          | '=' :: value => draft.attach option (String.ofList value)
          | value => draft.attach option (String.ofList value)
      | some (.switch switch) => do
          (← draft.turnOn switch).short rest

/-- An argument that is no option is the value of the option that waits for one. -/
def plain (draft : ArgumentDraft) (text : String) : Except UsageError ArgumentDraft :=
  match draft.waiting with
  | some (option, none) => .ok { draft with waiting := some (option, some text) }
  | _ => .error .unknownArgument

/-- Read the arguments one after the other.  After two hyphens by themselves
nothing is an option, and there is nothing else an argument could be. -/
def readAll (draft : ArgumentDraft) : List String → Except UsageError ArgumentDraft
  | [] => draft.settle
  | argument :: rest =>
      match argument.toList with
      | ['-', '-'] => if rest.isEmpty then draft.settle else .error .unknownArgument
      | '-' :: '-' :: text => do (← draft.long text).readAll rest
      | '-' :: letter :: letters => do (← draft.short (letter :: letters)).readAll rest
      | _ => do (← draft.plain argument).readAll rest

end ArgumentDraft

/-- Read the arguments of the command. -/
def Arguments.read (arguments : List String) : Except UsageError Arguments := do
  return (← ({} : ArgumentDraft).readAll arguments).arguments

end Keystrokes
