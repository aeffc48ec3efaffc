import Keystrokes.CommandLine.Report
import Keystrokes.CommandLine.Start

/-!
# The command

Reads the arguments and the keymap file, and reports on the keymap.  Listening
needs a terminal that gives up its keys one by one, which this command leaves to
the programs that use the library.
-/

set_option autoImplicit false

namespace Keystrokes.Command

/-- How the command is used. -/
def usage : String :=
  "\n".intercalate
    ["Usage: keyseq [OPTIONS]",
      "",
      "Options:",
      "  -c, --config <CONFIG>      TOML keymap file (defaults to ~/.config/keyseq/keymap.toml)",
      "      --check-config         Validate the keymap, print the parsed bindings and exit",
      "  -t, --timeout <MS>         Override the sequence timeout in milliseconds",
      "  -p, --platform <PLATFORM>  Override the platform used for $mod (apple or other)",
      "  -q, --quit <BINDING>       Binding that exits listen mode [default: Control+c]",
      "  -v, --verbose              Enable debug logging",
      "  -h, --help                 Print help",
      "  -V, --version              Print version"]

/-- The folder of the user's configuration files. -/
def configurationFolder : IO (Option String) := do
  match ← IO.getEnv "XDG_CONFIG_HOME" with
  | some folder => if folder.startsWith "/" then return some folder else homeFolder
  | none => homeFolder
where
  homeFolder : IO (Option String) := do
    return (← IO.getEnv "HOME").map (· ++ "/.config")

/-- The content of a file. -/
def readFile (path : String) : IO (Except FileError String) := do
  match ← (IO.FS.readBinFile path).toBaseIO with
  | .ok bytes =>
      match String.fromUTF8? bytes with
      | some text => return .ok text
      | none => return .error .notUtf8
  | .error (.noFileOrDirectory ..) => return .error .missing
  | .error other => return .error (.other (toString other))

/-- The content of the keymap file to use: the one named, or the user's own if
there is one. -/
def keymapContent (arguments : Arguments) : IO (Option (Except FileError String)) := do
  match arguments.config with
  | some path => return some (← readFile path)
  | none =>
      match ← configurationFolder with
      | none => return none
      | some folder =>
          match ← readFile (folder ++ "/keyseq/keymap.toml") with
          | .error .missing => return none
          | content => return some content

/-- Run the command. -/
def run (arguments : List String) : IO UInt32 := do
  match Arguments.read arguments with
  | .error error =>
      match error with
      | .displayHelp => IO.println usage
      | .displayVersion => IO.println "keyseq 0.1.0"
      | other => IO.eprintln s!"error: {other.name}\n\n{usage}"
      return error.exitCode.toUInt32
  | .ok arguments =>
      let (started, notes) := arguments.start (← keymapContent arguments)
      for note in notes do
        if arguments.verbose || note.severity = .warning then IO.eprintln note.line
      match started with
      | .error failure =>
          IO.eprintln s!"Error: {failure.message}"
          return 1
      | .ok keymap =>
          if arguments.checkConfig then
            for line in keymap.report do
              IO.println line
            return 0
          else
            IO.eprintln "Error: listening needs a terminal"
            return 1

end Keystrokes.Command

/-- The command's entry. -/
def main (arguments : List String) : IO UInt32 :=
  Keystrokes.Command.run arguments
