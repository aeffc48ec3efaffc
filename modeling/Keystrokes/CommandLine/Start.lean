import Keystrokes.CommandLine.Arguments
import Keystrokes.Keymap

/-!
# The start of the command

The command loads a keymap file, then lets the arguments replace its timeout and
its platform.  What goes wrong is told with its causes, the outermost first.
-/

set_option autoImplicit false

namespace Keystrokes

/-! ## Loading the keymap -/

/-- Why a file cannot be read. -/
inductive FileError where
  | missing
  | notUtf8
  | other (description : String)
  deriving DecidableEq

/-- The wording of a file error. -/
def FileError.message : FileError → String
  | .missing => "No such file or directory (os error 2)"
  | .notUtf8 => "stream did not contain valid UTF-8"
  | .other description => description

/-- Why the command fails before it has begun. -/
inductive StartFailure where
  /-- A keymap file cannot be read; without a path, it is the user's own. -/
  | unreadable (path : Option String) (error : FileError)
  /-- A keymap file is refused. -/
  | refused (path : Option String) (error : KeymapError)
  /-- The timeout of the command line is out of range. -/
  | timeoutOutOfRange (timeout : Nat)
  deriving DecidableEq

namespace StartFailure

/-- Which keymap could not be loaded. -/
def context (path : Option String) : String :=
  match path with
  | some path => "failed to load keymap " ++ path
  | none => "failed to load default keymap"

/-- The causes of a failure, the outermost first.  A file error is a cause under
two names. -/
def causes : StartFailure → List String
  | .unreadable path error => [context path, "IO error: " ++ error.message, error.message]
  | .refused path error => [context path, error.message]
  | .timeoutOutOfRange timeout => ["--timeout " ++ timeoutRangeText timeout]

/-- The causes of a failure in one line. -/
def message (failure : StartFailure) : String :=
  ": ".intercalate failure.causes

end StartFailure

namespace Arguments

/-- The keymap of a file, or the empty keymap when there is no file. -/
def loadKeymap (arguments : Arguments) (content : Option (Except FileError String)) :
    Except StartFailure (Keymap × List Note) :=
  match content with
  | none => .ok ({}, [])
  | some (.error error) => .error (.unreadable arguments.config error)
  | some (.ok text) =>
      match Keymap.read text with
      | .ok read => .ok read
      | .error error => .error (.refused arguments.config error)

/-- A keymap with what the arguments put in its place: their timeout, if it may be
asked for, and their platform. -/
def override (arguments : Arguments) (keymap : Keymap) : Except StartFailure Keymap :=
  let platform := arguments.platform.or keymap.platform
  match arguments.timeout with
  | none => .ok { keymap with platform }
  | some timeout =>
      if timeoutInRange timeout then .ok { keymap with timeout, platform }
      else .error (.timeoutOutOfRange timeout)

/-- The keymap to run with, and what is told on the way to it, which is told even if
the arguments are refused in the end.  `content` is the content of the file that is
named, or of the user's own file if there is one. -/
def start (arguments : Arguments) (content : Option (Except FileError String)) :
    Except StartFailure Keymap × List Note :=
  match arguments.loadKeymap content with
  | .error failure => (.error failure, [])
  | .ok (keymap, notes) => (arguments.override keymap, notes)

end Arguments

end Keystrokes
