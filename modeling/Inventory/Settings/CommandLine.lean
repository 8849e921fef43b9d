import Inventory.Settings.Basic
import Inventory.Text.Cut

/-! # Settings on the command line

An option is written `--name value` or `--name=value`. A value that begins with a dash can only be written the
second way, a single dash apart. The value of an option is looked at when the next option comes, or at the end; an
argument that nobody knows stops everything before that.
-/

namespace Inventory

structure CommandLine where
  choices : Choices
  /-- The last option, if its value stood or may still stand in an argument of its own. -/
  pending : Option (Setting × Option String)
  /-- Whether the mark behind which there are no options was read. -/
  isPastOptions : Bool

namespace CommandLine

def start : CommandLine := ⟨.empty, none, false⟩

def settle (line : CommandLine) : Except SettingsStop CommandLine :=
  match line.pending with
  | none => .ok line
  | some (setting, none) => .error (.noValue setting)
  | some (setting, some value) => do
    return { line with choices := ← line.choices.putOnce setting value, pending := none }

def inquiry? : String → Option SettingsStop
  | "help" => some .help
  | "version" => some .version
  | _ => none

def stop (line : CommandLine) (reason : SettingsStop) : Except SettingsStop CommandLine := do
  let _ ← line.settle
  throw reason

/-- The effect of `--name`, or of `--name=value`. -/
def readOption (line : CommandLine) (argument name : String) (value : Option String) :
    Except SettingsStop CommandLine :=
  match inquiry? name, value with
  | some reason, none => line.stop reason
  | some _, some _ => .error (.unneededValue argument)
  | none, _ =>
    match Setting.all.find? (·.name == name), value with
    | some setting, some value => do
      let line ← line.settle
      return { line with choices := ← line.choices.putOnce setting value }
    | some setting, none => do
      let line ← line.settle
      return { line with pending := some (setting, none) }
    | none, _ => .error (.unknownArgument argument)

def readValue (line : CommandLine) (argument : String) : Except SettingsStop CommandLine :=
  match line.pending with
  | some (setting, none) => .ok { line with pending := some (setting, some argument) }
  | _ => .error (.unknownArgument argument)

def read (line : CommandLine) (argument : String) : Except SettingsStop CommandLine :=
  if line.isPastOptions then .error (.unknownArgument argument)
  else
    match argument.toList with
    | ['-', '-'] => .ok { line with isPastOptions := true }
    | '-' :: '-' :: rest =>
      match Text.cut? '=' rest with
      | some (name, value) =>
        line.readOption argument (String.ofList name) (some (String.ofList value))
      | none => line.readOption argument (String.ofList rest) none
    | '-' :: 'h' :: _ => line.stop .help
    | '-' :: 'V' :: _ => line.stop .version
    | '-' :: _ :: _ => .error (.unknownArgument argument)
    | _ => line.readValue argument

end CommandLine

def Settings.ofArguments (arguments : List String) (environment : String → Option String) :
    Except SettingsStop Settings := do
  let line ← arguments.foldlM CommandLine.read .start
  let line ← line.settle
  let choices ← line.choices.putVariables environment
  return choices.settings

end Inventory
